import PulseDaq.Command.Arguments

/-!
# Programs

What a program is called, what it does and what its arguments mean, and the text that tells all of
this to whoever asks for help.

* `Program.usage`: how to call a program.
* `Program.help`: that, and what the program and each of its arguments do.
* `Program.version`: which program this is.
-/

namespace PulseDaq

/-- A program with its command line. -/
structure Program where
  name : String
  /-- What it does. -/
  about : String
  options : List OptionSpec
  /-- The name of its positional arguments and what they are, if it takes any. -/
  inputs : Option (String × String) := none

namespace Program

/-- The positional arguments are for something. -/
def takesInputs (p : Program) : Bool :=
  p.inputs.isSome

/-- How an option is given. -/
def optionUsage (o : OptionSpec) : String :=
  let spelling := o.spellings.headD ""
  if o.takesValue then s!"[{spelling} <{o.name}>]" else s!"[{spelling}]"

/-- How to call a program. -/
def usage (p : Program) : String :=
  let inputs := p.inputs.elim [] fun (name, _) => ["[--]", s!"[<{name}...>]"]
  " ".intercalate (["Usage:", p.name] ++ p.options.map optionUsage ++ inputs)

/-! ## Descriptions -/

/-- Where descriptions start in their lines. -/
def descriptionColumn : Nat := 20

/-- The longest line that a description may fill. -/
def lineWidth : Nat := 80

/-- Blanks as wide as the names in front of a description. -/
def margin : String :=
  String.ofList (List.replicate descriptionColumn ' ')

/-- Words behind what stands in a line, on as many further lines as they need. -/
def fill (line : String) : List String → List String
  | [] => [line]
  | word :: rest =>
    if line.length + 1 + word.length ≤ lineWidth then fill (line ++ " " ++ word) rest
    else line :: fill (margin ++ word) rest

/-- The lines of a description behind some names, or below names that leave no room for it. -/
def describe (names about : String) : List String :=
  let names := "  " ++ names
  match about.splitOn " " with
  | [] => [names]
  | word :: rest =>
    if names.length < descriptionColumn then
      fill (names ++ String.ofList (margin.toList.drop names.length) ++ word) rest
    else
      names :: fill (margin ++ word) rest

/-- How to call a program, what it does, and what each of its arguments is for. -/
def help (p : Program) : String :=
  let inputs := p.inputs.elim [] fun (name, about) =>
    ["Positional Arguments:"] ++ describe name about ++ [""]
  let options := p.options.flatMap fun o => describe (", ".intercalate o.spellings) o.about
  let lines := [p.usage, "", p.about, ""] ++ inputs ++ ["Options:"] ++ options
    ++ describe "--help, help" "display usage information"
  "\n".intercalate lines ++ "\n"

/-- The name of a program and its revision, of which nothing is known. -/
def version (p : Program) : String :=
  s!"{p.name} unknown"

end Program

end PulseDaq
