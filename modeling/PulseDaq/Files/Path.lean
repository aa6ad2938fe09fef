/-!
# Paths

Paths are texts whose names are separated by slashes. Repeated slashes and names that are a dot
count for nothing, but stay in the text.

* `Path.join`: a path below another.
* `Path.parent?`: the path without its last name.
* `Path.stem`, `Path.withExtension`: the parts of a name around its last dot.
-/

namespace PulseDaq

namespace Path

/-- The pieces of a text between its slashes. -/
def pieces : List Char → List (List Char)
  | [] => [[]]
  | c :: rest =>
    if c = '/' then [] :: pieces rest
    else
      match pieces rest with
      | piece :: more => (c :: piece) :: more
      | [] => [[c]]

/-- The names in a path, empty ones between slashes included. -/
def names (path : String) : List String :=
  (pieces path.toList).map String.ofList

/-- The path starts at the root. -/
def isAbsolute (path : String) : Bool :=
  path.toList.head? = some '/'

/-- `path` below `base`, unless it is absolute. -/
def join (base path : String) : String :=
  if isAbsolute path then path
  else if base.isEmpty || base.toList.getLast? = some '/' then base ++ path
  else base ++ "/" ++ path

/-- A text read backwards without the slashes and dots at its end that count for nothing. -/
def trimmed : List Char → List Char
  | '/' :: c :: rest => trimmed (c :: rest)
  | '.' :: '/' :: rest => trimmed ('/' :: rest)
  | text => text

/-- The path without its last name; the root and the empty path have none. -/
def parent? (path : String) : Option String :=
  match trimmed path.toList.reverse with
  | [] | ['/'] => none
  | text => some (String.ofList (trimmed (text.dropWhile (· ≠ '/'))).reverse)

/-- The last name of a path, if it is one. -/
def fileName? (path : String) : Option String :=
  let name := String.ofList ((trimmed path.toList.reverse).takeWhile (· ≠ '/')).reverse
  if name = "" ∨ name = "." ∨ name = ".." then none else some name

/-- The path with another last name. -/
def withFileName (path name : String) : String :=
  match fileName? path, parent? path with
  | some _, some base => join base name
  | _, _ => join path name

/-- The path and every path above it, the longest first. -/
def ancestors (path : String) : List String :=
  go (path.length + 1) path
where
  /-- At most `depth` of them. -/
  go : (depth : Nat) → String → List String
    | 0, _ => []
    | depth + 1, path =>
      path :: match parent? path with
        | some base => go depth base
        | none => []

/-- A name in front of its last dot, unless that is its first character or it has none. -/
def stem (name : String) : String :=
  match name.toList.reverse.dropWhile (· ≠ '.') with
  | '.' :: front => if front.isEmpty then name else String.ofList front.reverse
  | _ => name

/-- A name with another extension. -/
def withExtension (name extension : String) : String :=
  stem name ++ "." ++ extension

end Path

end PulseDaq
