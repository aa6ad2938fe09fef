import PulseDaq.Json.Value

/-!
# Reading records

A record is an object with fields of known names, or an array of their values in order. Names that
are not known are passed over; a known name may occur only once.

* `Json.Fields.ofValue?`: the known fields that a value gives.
* `Json.Fields.required`, `Json.Fields.optional`, `Json.Fields.withDefault`: one field of them.
* `Json.variant?`: a choice, written as its name or as an object with that one name.
-/

namespace PulseDaq.Json

/-- The known fields that a value gives. -/
structure Fields where
  given : List (String × Value)
  /-- The value is an array; its fields have no names that could be left out. -/
  positional : Bool
  deriving Repr

namespace Fields

/-- The fields of `names` in an object or array. An object may not repeat any of them; an array
may not have more items than there are names. -/
def ofValue? (names : List String) : Value → Option Fields
  | .object fields =>
    let known := fields.filter fun (name, _) => names.contains name
    if (known.map (·.1)).Nodup then some { given := known, positional := false } else none
  | .array items =>
    if items.length ≤ names.length then some { given := names.zip items, positional := true }
    else none
  | _ => none

/-- A field that has to be given. -/
def required (f : Fields) (name : String) (read : Value → Option α) : Option α :=
  f.given.lookup name >>= read

/-- A field that stands for `default` if it is not given. -/
def withDefault (f : Fields) (name : String) (default : α) (read : Value → Option α) : Option α :=
  match f.given.lookup name with
  | some v => read v
  | none => some default

end Fields

/-- Null for nothing, else a value. -/
def nullable (read : Value → Option α) : Value → Option (Option α)
  | .null => some none
  | v => (read v).map some

/-- A field that may be null, and may be left out of an object. -/
def Fields.optional (f : Fields) (name : String) (read : Value → Option α) : Option (Option α) :=
  match f.given.lookup name with
  | some v => nullable read v
  | none => if f.positional then none else some none

/-! ## Simple values -/

def bool? : Value → Option Bool
  | .bool b => some b
  | _ => none

def string? : Value → Option String
  | .string s => some s
  | _ => none

/-- An integer from `lo` to below `hi`. -/
def integerIn? (lo hi : Int) : Value → Option Int
  | .integer n => if lo ≤ n ∧ n < hi then some n else none
  | _ => none

/-- A natural number below `bound`. -/
def natBelow? (bound : Nat) (v : Value) : Option Nat :=
  (integerIn? 0 bound v).map Int.toNat

def uint8? (v : Value) : Option UInt8 :=
  (natBelow? UInt8.size v).map UInt8.ofNat

def uint16? (v : Value) : Option UInt16 :=
  (natBelow? UInt16.size v).map UInt16.ofNat

def uint32? (v : Value) : Option UInt32 :=
  (natBelow? UInt32.size v).map UInt32.ofNat

def uint64? (v : Value) : Option UInt64 :=
  (natBelow? UInt64.size v).map UInt64.ofNat

/-- A size or count in bytes or items, below `2 ^ 64`. -/
def size? (v : Value) : Option Nat :=
  natBelow? UInt64.size v

/-- An array of values that are read alike. -/
def list? (read : Value → Option α) : Value → Option (List α)
  | .array items => items.mapM read
  | _ => none

/-- A choice by name: a string, or an object with one field. A string stands for the name without
anything to it. -/
def variant? : Value → Option (String × Option Value)
  | .string s => some (s, none)
  | .object [(name, v)] => some (name, some v)
  | _ => none

/-- The name of a choice that has nothing to it; null may be written there. -/
def bareVariant? (v : Value) : Option String :=
  match variant? v with
  | some (name, none) | some (name, some .null) => some name
  | _ => none

end PulseDaq.Json
