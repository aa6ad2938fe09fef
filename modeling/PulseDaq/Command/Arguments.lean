/-!
# Command line arguments

Options start with a dash and may take the argument behind them as their value; everything else is
positional, and so is everything behind `--`.

* `Arguments.ofList`: the arguments of a command line.
-/

namespace PulseDaq

/-- An option that a program knows. -/
structure OptionSpec where
  name : String
  /-- How it may be written. -/
  spellings : List String
  takesValue : Bool
  /-- What it is for. -/
  about : String
  deriving DecidableEq, Repr

/-- The arguments of a command line. -/
structure Arguments where
  /-- The names of the options without a value. -/
  switches : List String := []
  /-- The options with a value. -/
  values : List (String × String) := []
  positionals : List String := []
  /-- Help is asked for. -/
  help : Bool := false
  deriving DecidableEq, Repr

/-- Why a command line makes no sense. -/
inductive UsageError where
  | unrecognised (argument : String)
  | missingValue (option : String)
  | repeated (option : String)
  | badValue (option value : String)
  | afterHelp
  deriving DecidableEq, Repr

/-- The wording of a usage error. -/
def UsageError.message : UsageError → String
  | unrecognised argument => s!"Unrecognized argument: {argument}"
  | missingValue option => s!"No value provided for option '{option}'."
  | repeated option => s!"Error parsing option '{option}': duplicate values provided"
  | badValue option value => s!"Error parsing option '{option}' with value '{value}'"
  | afterHelp => "Trailing arguments are not allowed after `help`."

namespace Arguments

/-- Read arguments behind those in `found`. -/
def collect (specs : List OptionSpec) (takesPositionals : Bool) (found : Arguments) :
    List String → Except UsageError Arguments
  | [] => .ok found
  | "--" :: rest => positional found rest
  | arg :: rest =>
    if arg = "--help" ∨ arg = "help" then
      collect specs takesPositionals { found with help := true } rest
    else if arg.toList.head? = some '-' then
      if found.help then .error .afterHelp
      else
        match specs.find? fun o => o.spellings.contains arg with
        | none => .error (.unrecognised arg)
        | some o =>
          if o.takesValue then
            match rest with
            | [] => .error (.missingValue arg)
            | value :: rest =>
              if (found.values.lookup o.name).isSome then .error (.repeated arg)
              else
                collect specs takesPositionals
                  { found with values := found.values ++ [(o.name, value)] } rest
          else
            collect specs takesPositionals
              { found with switches := found.switches ++ [o.name] } rest
    else if takesPositionals then
      collect specs takesPositionals { found with positionals := found.positionals ++ [arg] } rest
    else
      .error (.unrecognised arg)
where
  /-- Everything is positional from here on. -/
  positional (found : Arguments) (rest : List String) : Except UsageError Arguments :=
    match rest with
    | [] => .ok found
    | arg :: _ =>
      if takesPositionals then .ok { found with positionals := found.positionals ++ rest }
      else .error (.unrecognised arg)

/-- The arguments of a command line. -/
def ofList (specs : List OptionSpec) (takesPositionals : Bool) (args : List String) :
    Except UsageError Arguments :=
  collect specs takesPositionals {} args

/-- A natural number below `bound`, maybe behind a plus sign. -/
def natBelow? (bound : Nat) (text : String) : Option Nat :=
  let digits := match text.toList with
    | '+' :: rest => rest
    | all => all
  if digits.isEmpty || !digits.all Char.isDigit then none
  else
    let n := digits.foldl (fun n c => 10 * n + (c.toNat - '0'.toNat)) 0
    if n < bound then some n else none

/-- The value of a numeric option, if it is given. -/
def number? (a : Arguments) (name : String) (bound : Nat) : Except UsageError (Option Nat) :=
  match a.values.lookup name with
  | none => .ok none
  | some text =>
    match natBelow? bound text with
    | some n => .ok (some n)
    | none => .error (.badValue name text)

end Arguments

end PulseDaq
