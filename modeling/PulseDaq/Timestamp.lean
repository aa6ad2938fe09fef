import PulseDaq.Text.Blank

/-!
# Timestamps

A moment of the civil calendar in universal time, and its text such as
`2021-03-04T03:06:07.250Z`.

* `Timestamp.text`: the text of a moment, with as many groups of three decimals as it needs.
* `Timestamp.ofText?`: the moment that a text stands for. Blanks may stand between its parts, and
  its offset from universal time is taken off.
* `Date.next`, `Date.previous`: the neighbouring days.
-/

namespace PulseDaq

/-- A day of the proleptic Gregorian calendar. -/
structure Date where
  year : Int
  month : Nat
  day : Nat
  deriving DecidableEq, Repr, Inhabited

namespace Date

/-- Whether a year has a leap day. -/
def isLeapYear (year : Int) : Bool :=
  year % 4 == 0 && (year % 100 != 0 || year % 400 == 0)

/-- Days of a month. -/
def daysIn (year : Int) (month : Nat) : Nat :=
  if month = 2 then (if isLeapYear year then 29 else 28)
  else if month = 4 ∨ month = 6 ∨ month = 9 ∨ month = 11 then 30
  else 31

/-- A day that the calendar has, in a year within about a quarter of a million. -/
def Valid (d : Date) : Prop :=
  -262143 ≤ d.year ∧ d.year ≤ 262142 ∧ 1 ≤ d.month ∧ d.month ≤ 12 ∧ 1 ≤ d.day
    ∧ d.day ≤ daysIn d.year d.month

instance (d : Date) : Decidable d.Valid :=
  inferInstanceAs (Decidable (_ ∧ _))

/-- The day after. -/
def next (d : Date) : Date :=
  if d.day < daysIn d.year d.month then { d with day := d.day + 1 }
  else if d.month < 12 then { d with month := d.month + 1, day := 1 }
  else { year := d.year + 1, month := 1, day := 1 }

/-- The day before. -/
def previous (d : Date) : Date :=
  if 1 < d.day then { d with day := d.day - 1 }
  else if 1 < d.month then { d with month := d.month - 1, day := daysIn d.year (d.month - 1) }
  else { year := d.year - 1, month := 12, day := 31 }

end Date

/-- A moment in universal time. Local time is taken to be universal time: a moment has no offset of
its own, and one that stands in its text is taken off. -/
structure Timestamp where
  date : Date
  hour : Nat
  minute : Nat
  /-- Sixty during a leap second. -/
  second : Nat
  nanosecond : Nat
  valid : date.Valid ∧ hour < 24 ∧ minute < 60 ∧ second ≤ 60 ∧ nanosecond < 1000000000
  deriving DecidableEq, Repr

namespace Timestamp

/-- The moment of a day and a time, if there is one. -/
def of? (date : Date) (hour minute second nanosecond : Nat) : Option Timestamp :=
  if h : date.Valid ∧ hour < 24 ∧ minute < 60 ∧ second ≤ 60 ∧ nanosecond < 1000000000 then
    some { date, hour, minute, second, nanosecond, valid := h }
  else
    none

/-! ## Writing -/

/-- A number in at least `width` digits. -/
def padded (width n : Nat) : String :=
  let digits := toString n
  String.ofList (List.replicate (width - digits.length) '0') ++ digits

/-- Years of four digits stand alone, all others have a sign. -/
def yearText (year : Int) : String :=
  if 0 ≤ year ∧ year ≤ 9999 then padded 4 year.toNat
  else (if year < 0 then "-" else "+") ++ padded 4 year.natAbs

/-- The decimals of a second: none, three, six or nine. -/
def decimals (nanosecond : Nat) : String :=
  if nanosecond = 0 then ""
  else if nanosecond % 1000000 = 0 then "." ++ padded 3 (nanosecond / 1000000)
  else if nanosecond % 1000 = 0 then "." ++ padded 6 (nanosecond / 1000)
  else "." ++ padded 9 nanosecond

/-- The text of a moment. -/
def text (t : Timestamp) : String :=
  yearText t.date.year ++ "-" ++ padded 2 t.date.month ++ "-" ++ padded 2 t.date.day ++ "T"
    ++ padded 2 t.hour ++ ":" ++ padded 2 t.minute ++ ":" ++ padded 2 t.second
    ++ decimals t.nanosecond ++ "Z"

/-! ## Reading -/

/-- Reading parts off the front of a text. -/
abbrev Scanner := StateT (List Char) Option

namespace Scanner

/-- Pass over blanks. -/
def blanks : Scanner Unit :=
  modify Text.trimLeft

/-- One character, which has to be one of `allowed`. -/
def oneOf (allowed : List Char) : Scanner Char := fun text =>
  match text with
  | c :: rest => if allowed.contains c then some (c, rest) else none
  | [] => none

/-- At least one decimal digit, and at most `most` of them. -/
def digits (most : Nat) : Scanner (List Char) := fun text =>
  let found := (text.take most).takeWhile Char.isDigit
  if found.isEmpty then none else some (found, text.drop found.length)

/-- The number that digits stand for. -/
def value (digits : List Char) : Nat :=
  digits.foldl (fun n c => 10 * n + (c.toNat - '0'.toNat)) 0

/-- A number of at most `most` digits behind blanks. -/
def number (most : Nat) : Scanner Nat := do
  blanks
  return value (← digits most)

/-- A year: four digits at most, or a sign and any digits. -/
def year : Scanner Int := do
  blanks
  match (← get).head? with
  | some '-' => do
    let _ ← oneOf ['-']
    return -(value (← digits (← get).length) : Int)
  | some '+' => do
    let _ ← oneOf ['+']
    return (value (← digits (← get).length) : Int)
  | _ => return (value (← digits 4) : Int)

/-- A mark between two numbers, which may stand behind blanks. -/
def mark (c : Char) : Scanner Unit := do
  blanks
  let _ ← oneOf [c]

/-- The decimals of a second in nanoseconds; digits behind the ninth are passed over. -/
def nanosecond : Scanner Nat := do
  if (← get).head? = some '.' then
    let _ ← oneOf ['.']
    let found ← digits 9
    modify fun text => text.dropWhile Char.isDigit
    return value found * Nat.pow 10 (9 - found.length)
  else
    return 0

/-- Two decimal digits. -/
def twoDigits : Scanner Nat := do
  let found ← digits 2
  if found.length = 2 then return value found else failure

/-- Minutes by which local time is ahead of universal time. -/
def offset : Scanner Int := do
  let text ← get
  if (text.take 3).map Char.toUpper = ['U', 'T', 'C'] then
    set (text.drop 3)
    return 0
  match ← oneOf ['Z', 'z', '+', '-', '−'] with
  | 'Z' | 'z' => return 0
  | sign =>
    let hours ← twoDigits
    modify fun text => text.dropWhile fun c => c == ':' || Text.isBlank c
    let minutes ← twoDigits
    if minutes < 60 ∧ hours < 24 then
      return (if sign = '+' then 1 else -1) * (60 * hours + minutes : Int)
    else
      failure

end Scanner

/-- The moment of a local time that is `offset` minutes ahead of universal time. -/
def ofLocal? (date : Date) (hour minute second nanosecond : Nat) (offset : Int) :
    Option Timestamp := do
  let t ← of? date hour minute second nanosecond
  let m := 60 * (t.hour : Int) + t.minute - offset
  let date := if m < 0 then t.date.previous else if m < 1440 then t.date else t.date.next
  let m := (m % 1440).toNat
  of? date (m / 60) (m % 60) second nanosecond

/-- A moment at the front of a text. -/
def scan : Scanner (Option Timestamp) := do
  let year ← Scanner.year
  Scanner.mark '-'
  let month ← Scanner.number 2
  Scanner.mark '-'
  let day ← Scanner.number 2
  let _ ← Scanner.oneOf ['t', 'T', ' ']
  let hour ← Scanner.number 2
  Scanner.mark ':'
  let minute ← Scanner.number 2
  Scanner.mark ':'
  let second ← Scanner.number 2
  let nanosecond ← Scanner.nanosecond
  Scanner.blanks
  let offset ← Scanner.offset
  return ofLocal? ⟨year, month, day⟩ hour minute second nanosecond offset

/-- The moment that a text stands for. -/
def ofText? (text : String) : Option Timestamp := do
  let (t, rest) ← scan.run text.toList
  if (Text.trimLeft rest).isEmpty then t else none

end Timestamp

end PulseDaq
