import PulseDaq.Duration
import PulseDaq.Timestamp
import PulseDaq.Json.Fields

/-!
# Times as JSON

Durations and points in time are written as strings.
-/

namespace PulseDaq

open Json (Value)

namespace Duration

def toJson (d : Duration) : Value :=
  .string d.text

def ofJson? (v : Value) : Option Duration :=
  Json.string? v >>= ofText?

end Duration

namespace Timestamp

def toJson (t : Timestamp) : Value :=
  .string t.text

def ofJson? (v : Value) : Option Timestamp :=
  Json.string? v >>= ofText?

end Timestamp

end PulseDaq
