import PulseDaq.Json.Fields

/-!
# Types with a JSON form
-/

namespace PulseDaq.Json

/-- A type whose values are written as JSON and read back. -/
class Codec (α : Type) where
  toJson : α → Value
  /-- The value that a JSON value stands for; there may be several spellings. -/
  ofJson? : Value → Option α

end PulseDaq.Json
