import PulseDaq.Timestamp

/-!
# Moments counted from 1970

Clocks count the time since the first of January 1970 in universal time.

* `Date.fromNewYear`: the day so many days after the first of a year.
* `Timestamp.sinceEpoch?`: the moment so many nanoseconds after that day began.
-/

namespace PulseDaq

namespace Date

/-- Days of a year. -/
def daysInYear (year : Int) : Nat :=
  if isLeapYear year then 366 else 365

theorem daysInYear_pos (year : Int) : 0 < daysInYear year := by
  unfold daysInYear; split <;> decide

/-- The day `n` days after the first day of the first of some months. -/
def inMonths (year : Int) (n : Nat) : List Nat → Date
  | [] => ⟨year, 12, 31⟩
  | month :: rest =>
    if n < daysIn year month then ⟨year, month, n + 1⟩
    else inMonths year (n - daysIn year month) rest

/-- The day `n` days after the first of January of a year. -/
def fromNewYear (year : Int) (n : Nat) : Date :=
  if n < daysInYear year then inMonths year n ((List.range 12).map (· + 1))
  else fromNewYear (year + 1) (n - daysInYear year)
termination_by n
decreasing_by
  have := daysInYear_pos year
  omega

end Date

namespace Timestamp

/-- The moment `n` nanoseconds after the start of 1970, if it is in a year of the calendar. -/
def sinceEpoch? (n : Nat) : Option Timestamp :=
  let second := n / 1000000000
  let minute := second / 60
  let hour := minute / 60
  of? (.fromNewYear 1970 (hour / 24)) (hour % 24) (minute % 60) (second % 60) (n % 1000000000)

end Timestamp

end PulseDaq
