import PulseDaq.Text.Blank

/-!
# Durations

A span of time in whole nanoseconds, and its text: numbers with units, such as `2h 37m` or
`1.5ms`.

* `Duration.scale`: a duration multiplied by a factor, up to the longest duration there is.
* `Duration.text`: a duration in units from years to nanoseconds, largest first.
* `Duration.ofText?`: the duration that a text stands for.
-/

namespace PulseDaq

/-- A span of time of fewer than `2 ^ 64` seconds. -/
structure Duration where
  nanoseconds : Nat
  lt_limit : nanoseconds < UInt64.size * 1000000000 := by decide
  deriving DecidableEq, Repr

namespace Duration

/-- All durations are shorter than this many nanoseconds. -/
def limit : Nat := UInt64.size * 1000000000

/-- The duration of so many nanoseconds, or the longest one. -/
def saturate (n : Nat) : Duration where
  nanoseconds := min n (limit - 1)
  lt_limit := Nat.lt_of_le_of_lt (Nat.min_le_right _ _) (by decide)

/-- No time. -/
def zero : Duration where
  nanoseconds := 0

instance : Inhabited Duration := ⟨zero⟩

/-- The longest duration. -/
def max : Duration where
  nanoseconds := limit - 1

/-- A duration of whole milliseconds, or the longest one. -/
def ofMilliseconds (n : Nat) : Duration :=
  saturate (n * 1000000)

/-- The whole milliseconds of a duration. -/
def milliseconds (d : Duration) : Nat :=
  d.nanoseconds / 1000000

/-- The whole seconds of a duration. -/
def seconds (d : Duration) : Nat :=
  d.nanoseconds / 1000000000

/-- The nanoseconds of a duration behind its whole seconds. -/
def subsecond (d : Duration) : Nat :=
  d.nanoseconds % 1000000000

/-- The duration of `factor` times `d`, or the longest one. -/
def scale (d : Duration) (factor : Nat) : Duration :=
  saturate (d.nanoseconds * factor)

/-- The durations one after another, or the longest one. -/
def add (d e : Duration) : Duration :=
  saturate (d.nanoseconds + e.nanoseconds)

instance : Add Duration := ⟨add⟩

/-! ## Units -/

/-- A unit of time. Months have 30.44 days and years 365.25. -/
inductive TimeUnit where
  | nanosecond
  | microsecond
  | millisecond
  | second
  | minute
  | hour
  | day
  | week
  | month
  | year
  deriving DecidableEq, Repr

namespace TimeUnit

/-- The nanoseconds of a unit. -/
def nanoseconds : TimeUnit → Nat
  | nanosecond => 1
  | microsecond => 1000
  | millisecond => 1000000
  | second => 1000000000
  | minute => 60 * 1000000000
  | hour => 3600 * 1000000000
  | day => 86400 * 1000000000
  | week => 604800 * 1000000000
  | month => 2630016 * 1000000000
  | year => 31557600 * 1000000000

/-- Whether whole numbers of the unit are counted in seconds; the others count nanoseconds. -/
def inSeconds : TimeUnit → Bool
  | nanosecond | microsecond | millisecond => false
  | _ => true

/-- What fractions of the unit have to be whole numbers of, in nanoseconds; nanoseconds have no
fractions. -/
def grain? : TimeUnit → Option Nat
  | nanosecond => none
  | microsecond | millisecond | second | minute => some 1
  | hour | day | week | month | year => some (1000000000)

/-- The unit of a name. -/
def ofName? : String → Option TimeUnit
  | "nanos" | "nsec" | "ns" => some nanosecond
  | "usec" | "us" | "µs" => some microsecond
  | "millis" | "msec" | "ms" => some millisecond
  | "seconds" | "second" | "secs" | "sec" | "s" => some second
  | "minutes" | "minute" | "mins" | "min" | "m" => some minute
  | "hours" | "hour" | "hrs" | "hr" | "h" => some hour
  | "days" | "day" | "d" => some day
  | "weeks" | "week" | "wks" | "wk" | "w" => some week
  | "months" | "month" | "M" => some month
  | "years" | "year" | "yrs" | "yr" | "y" => some year
  | _ => none

end TimeUnit

/-! ## Text -/

/-- A count of a unit, or nothing for zero. Long units are set in the plural from two on. -/
def part (count : Nat) (unit : String) (plural : Bool) : List String :=
  if count = 0 then [] else [toString count ++ unit ++ if plural && count > 1 then "s" else ""]

/-- The counts of the units in a duration, largest unit first. -/
def parts (d : Duration) : List String :=
  let year := TimeUnit.year.nanoseconds / 1000000000
  let month := TimeUnit.month.nanoseconds / 1000000000
  let s := d.seconds
  let n := d.subsecond
  part (s / year) "year" true
    ++ part (s % year / month) "month" true
    ++ part (s % year % month / 86400) "day" true
    ++ part (s % year % month % 86400 / 3600) "h" false
    ++ part (s % year % month % 86400 % 3600 / 60) "m" false
    ++ part (s % year % month % 86400 % 60) "s" false
    ++ part (n / 1000000) "ms" false
    ++ part (n / 1000 % 1000) "us" false
    ++ part (n % 1000) "ns" false

/-- The text of a duration. -/
def text (d : Duration) : String :=
  if d.nanoseconds = 0 then "0s" else " ".intercalate d.parts

/-- A number being read, in the numbers that 64 bits can hold. -/
def word? (n : Nat) : Option Nat :=
  if n < UInt64.size then some n else none

/-- The digits behind a decimal point: the number that they stand for and a power of ten. -/
structure Fraction where
  numerator : Nat
  denominator : Nat
  deriving Repr

/-- What is being read. -/
inductive Mode where
  /-- A number has to follow; at the end of the text there may be none. -/
  | start
  | whole (n : Nat)
  | fraction (n : Nat) (f : Fraction)
  /-- The letters of a unit, last one first. -/
  | unit (n : Nat) (f : Option Fraction) (letters : List Char)
  deriving Repr

/-- A duration being read. -/
structure Reading where
  mode : Mode := .start
  total : Duration := zero

/-- A duration lengthened by so many nanoseconds, if it does not become too long. -/
def extend? (d : Duration) (n : Nat) : Option Duration :=
  if h : d.nanoseconds + n < limit then some ⟨d.nanoseconds + n, h⟩ else none

/-- Lengthen a duration by whole units. The count that the unit is counted in may not leave the
64-bit numbers on the way. -/
def addWhole? (d : Duration) (unit : TimeUnit) (n : Nat) : Option Duration :=
  if unit.inSeconds then do
    let s ← word? (n * (unit.nanoseconds / 1000000000))
    d.extend? (s * 1000000000)
  else do
    let ns ← word? (n * unit.nanoseconds)
    let _ ← word? (d.subsecond + ns)
    d.extend? ns

/-- Lengthen a duration by a fraction of a unit, which has to be exact. -/
def addFraction? (d : Duration) (unit : TimeUnit) (f : Fraction) : Option Duration := do
  let grain ← unit.grain?
  let scaled ← word? (f.numerator * (unit.nanoseconds / grain))
  if scaled % f.denominator = 0 then d.extend? (scaled / f.denominator * grain) else none

/-- Whether a character may stand in the name of a unit. -/
def isUnitChar (c : Char) : Bool :=
  c.isAlpha || c == 'µ'

/-- A unit has been read. -/
def addUnit? (d : Duration) (n : Nat) (f : Option Fraction) (letters : List Char) :
    Option Duration := do
  let unit ← TimeUnit.ofName? (String.ofList letters.reverse)
  let d ← d.addWhole? unit n
  match f with
  | some f => d.addFraction? unit f
  | none => some d

/-- The value of a decimal digit. -/
def digit (c : Char) : Nat :=
  c.toNat - '0'.toNat

/-- What one character does. -/
def Reading.step (r : Reading) (c : Char) : Option Reading :=
  match r.mode with
  | .start =>
    if c.isDigit then some { r with mode := .whole (digit c) }
    else if Text.isBlank c then some r
    else none
  | .whole n =>
    if c.isDigit then (word? (10 * n + digit c)).map fun n => { r with mode := .whole n }
    else if Text.isBlank c then some r
    else if isUnitChar c then some { r with mode := .unit n none [c] }
    else if c == '.' then some { r with mode := .fraction n ⟨0, 1⟩ }
    else none
  | .fraction n f =>
    if c.isDigit then
      (word? (10 * f.denominator)).map fun denominator =>
        { r with mode := .fraction n ⟨10 * f.numerator + digit c, denominator⟩ }
    else if Text.isBlank c then some r
    else if isUnitChar c && f.denominator != 1 then some { r with mode := .unit n (some f) [c] }
    else none
  | .unit n f letters =>
    if c.isDigit then
      (r.total.addUnit? n f letters).map fun total => { mode := .whole (digit c), total := total }
    else if Text.isBlank c then
      (r.total.addUnit? n f letters).map fun total => { mode := .start, total := total }
    else if isUnitChar c then some { r with mode := .unit n f (c :: letters) }
    else none

/-- The text is at its end. -/
def Reading.finish (r : Reading) : Option Duration :=
  match r.mode with
  | .start => some r.total
  | .unit n f letters => r.total.addUnit? n f letters
  | _ => none

/-- The duration that a text stands for: numbers, each with a unit. A zero may stand alone. -/
def ofText? (text : String) : Option Duration :=
  if text = "0" then some zero
  else if text.toList.all Text.isBlank then none
  else do
    let r ← text.toList.foldlM Reading.step {}
    r.finish

end Duration

end PulseDaq
