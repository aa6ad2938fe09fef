/-!
# Error reports

What a program says when it gives up: an error and the causes behind it, outermost first.
-/

namespace PulseDaq

/-- One line of reasons. -/
inductive Cause where
  | text (message : String)
  /-- A text is not the JSON that it has to be. -/
  | json
  deriving DecidableEq, Repr

/-- The wording of a cause. -/
def Cause.message : Cause → String
  | text message => message
  | json => "malformed or unexpected JSON"

/-- An error and its causes, outermost first. -/
abbrev Report := List Cause

namespace Report

/-- Causes numbered from `n`. -/
def numbered (n : Nat) : List String → List String
  | [] => []
  | cause :: rest => s!"    {n}: {cause}" :: numbered (n + 1) rest

/-- The lines of an error with its causes, which have numbers if they are several. -/
def lines : List String → List String
  | [] => []
  | [error] => [error]
  | [error, cause] => [error, "", "Caused by:", "    " ++ cause]
  | error :: causes => [error, "", "Caused by:"] ++ numbered 0 causes

end Report

end PulseDaq
