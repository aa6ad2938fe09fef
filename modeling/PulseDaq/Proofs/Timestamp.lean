import PulseDaq.Proofs.Text.Decimal
import PulseDaq.Timestamp

/-!
# Written moments read back

The text of a moment has its numbers in a fixed order, each of them in digits that end where the
next mark stands. So each scanner takes just the part that was written for it off the front of
whatever text follows.

* `Scanner.run_digits`: digits, as far as they go.
* `Scanner.run_year`, `Scanner.run_number`, `Scanner.run_nanosecond`: the parts of a moment.
* `Timestamp.ofText?_text`: every moment is read from its text.
-/

namespace PulseDaq.Timestamp

/-! ## Padded numbers -/

section Padded

variable (width n : Nat)

theorem toList_padded : (padded width n).toList =
    List.replicate (width - (Nat.toDigits 10 n).length) '0' ++ Nat.toDigits 10 n := by
  have hdigits : (toString n).toList = Nat.toDigits 10 n := Nat.toList_repr
  rw [padded, String.toList_append, String.toList_ofList, hdigits, ← String.length_toList, hdigits]

theorem isDigit_of_mem_padded : ∀ c ∈ (padded width n).toList, c.isDigit = true := by
  intro c hc
  rw [toList_padded, List.mem_append] at hc
  rcases hc with hc | hc
  · rw [List.eq_of_mem_replicate hc]
    rfl
  · exact isDigit_of_mem_toDigits hc

theorem padded_ne_nil : (padded width n).toList ≠ [] := by
  rw [toList_padded]
  exact List.append_ne_nil_of_right_ne_nil _ Nat.toDigits_ne_nil

theorem value_padded : Scanner.value (padded width n).toList = n := by
  show Nat.ofDigitChars 10 _ 0 = n
  rw [toList_padded, Nat.ofDigitChars_append, Nat.ofDigitChars_replicate_zero, Nat.mul_zero]
  exact Nat.ofDigitChars_ten_toDigits

variable {width n}

theorem length_padded (hwidth : 0 < width) (h : n < Nat.pow 10 width) :
    (padded width n).toList.length = width := by
  have hdigits : (Nat.toDigits 10 n).length ≤ width :=
    (Nat.length_toDigits_le_iff (by decide) hwidth).2 h
  rw [toList_padded, List.length_append, List.length_replicate, Nat.sub_add_cancel hdigits]

end Padded

namespace Scanner

variable {α β : Type}

/-- What a scanner leaves over is read by the next one. -/
theorem run_bind {p : Scanner α} {f : α → Scanner β} {text rest : List Char} {a : α}
    (h : p.run text = some (a, rest)) : (p >>= f).run text = (f a).run rest := by
  rw [StateT.run_bind, h]
  rfl

/-- The text does not go on with a digit. -/
def Stops (text : List Char) : Prop :=
  ∀ c ∈ text.head?, c.isDigit = false

theorem Stops.takeWhile_append {digits rest : List Char} (h : Stops rest)
    (hdigits : ∀ c ∈ digits, c.isDigit = true) :
    (digits ++ rest).takeWhile Char.isDigit = digits := by
  rw [List.takeWhile_append_of_pos hdigits]
  cases rest with
  | nil => simp
  | cons c rest => simp [h c rfl]

/-- Digits in front of something else, or as many as may be taken. -/
theorem run_digits {most : Nat} {text : List Char} (rest : List Char) (hne : text ≠ [])
    (hdigits : ∀ c ∈ text, c.isDigit = true) (hmost : text.length ≤ most)
    (hstop : text.length = most ∨ Stops rest) :
    (digits most).run (text ++ rest) = some (text, rest) := by
  have hrest : Stops (rest.take (most - text.length)) := by
    rcases hstop with rfl | hstop
    · simp [Stops]
    · cases rest with
      | nil => simp [Stops]
      | cons c rest =>
        cases most - text.length with
        | zero => simp [Stops]
        | succ k => exact hstop
  have hfound : ((text ++ rest).take most).takeWhile Char.isDigit = text := by
    rw [List.take_append, List.take_of_length_le hmost]
    exact hrest.takeWhile_append hdigits
  show digits most (text ++ rest) = _
  simp only [digits, hfound]
  simp [hne]

theorem run_blanks {c : Char} (h : Text.isBlank c = false) (rest : List Char) :
    blanks.run (c :: rest) = some ((), c :: rest) := by
  show some ((), Text.trimLeft (c :: rest)) = _
  rw [Text.trimLeft, List.dropWhile_cons_of_neg (by simp [h])]

/-- There are no blanks in front of digits. -/
theorem run_blanks_digits {text : List Char} (hne : text ≠ [])
    (hdigits : ∀ c ∈ text, c.isDigit = true) (rest : List Char) :
    blanks.run (text ++ rest) = some ((), text ++ rest) := by
  cases text with
  | nil => contradiction
  | cons c text => exact run_blanks (isBlank_eq_false_of_isDigit (hdigits c List.mem_cons_self)) _

theorem run_oneOf {allowed : List Char} {c : Char} (h : c ∈ allowed) (rest : List Char) :
    (oneOf allowed).run (c :: rest) = some (c, rest) := by
  show (if allowed.contains c then _ else _) = _
  rw [if_pos (by simpa using h)]

theorem run_mark {c : Char} (h : Text.isBlank c = false) (rest : List Char) :
    (mark c).run (c :: rest) = some ((), rest) := by
  rw [mark, run_bind (run_blanks h rest), run_bind (run_oneOf List.mem_cons_self rest)]
  rfl

/-- A number in two digits. -/
theorem run_number {n : Nat} (h : n < 100) (rest : List Char) :
    (number 2).run ((padded 2 n).toList ++ rest) = some (n, rest) := by
  have hne := padded_ne_nil 2 n
  have hdigits := isDigit_of_mem_padded 2 n
  have hlength : (padded 2 n).toList.length = 2 := length_padded (by decide) h
  rw [number, run_bind (run_blanks_digits hne hdigits rest),
    run_bind (run_digits _ hne hdigits (Nat.le_of_eq hlength) (.inl hlength)), value_padded]
  rfl

theorem run_get (text : List Char) : (get : Scanner (List Char)).run text = some (text, text) :=
  rfl

/-- The digits behind a sign go on up to the dash. -/
theorem run_digits_signed (n : Nat) (rest : List Char) :
    (digits ((padded 4 n).toList ++ '-' :: rest).length).run
      ((padded 4 n).toList ++ '-' :: rest) = some ((padded 4 n).toList, '-' :: rest) :=
  run_digits _ (padded_ne_nil 4 n) (isDigit_of_mem_padded 4 n) (by simp)
    (.inr fun c hc => by cases hc; rfl)

theorem run_year_minus (n : Nat) (rest : List Char) :
    year.run ('-' :: ((padded 4 n).toList ++ '-' :: rest)) = some (-(n : Int), '-' :: rest) := by
  rw [year, run_bind (run_blanks (by decide) _), run_bind (run_get _)]
  show StateT.run (oneOf ['-'] >>= _) _ = _
  rw [run_bind (run_oneOf List.mem_cons_self _), run_bind (run_get _),
    run_bind (run_digits_signed n rest), value_padded]
  rfl

theorem run_year_plus (n : Nat) (rest : List Char) :
    year.run ('+' :: ((padded 4 n).toList ++ '-' :: rest)) = some ((n : Int), '-' :: rest) := by
  rw [year, run_bind (run_blanks (by decide) _), run_bind (run_get _)]
  show StateT.run (oneOf ['+'] >>= _) _ = _
  rw [run_bind (run_oneOf List.mem_cons_self _), run_bind (run_get _),
    run_bind (run_digits_signed n rest), value_padded]
  rfl

theorem isDigit_of_head? {text rest : List Char} (hne : text ≠ [])
    (hdigits : ∀ c ∈ text, c.isDigit = true) {c : Char} (hc : (text ++ rest).head? = some c) :
    c.isDigit = true := by
  cases text with
  | nil => contradiction
  | cons d text =>
    cases hc
    exact hdigits _ List.mem_cons_self

theorem run_year_unsigned {n : Nat} (h : n < 10000) (rest : List Char) :
    year.run ((padded 4 n).toList ++ '-' :: rest) = some ((n : Int), '-' :: rest) := by
  have hne := padded_ne_nil 4 n
  have hdigits := isDigit_of_mem_padded 4 n
  have hlength : (padded 4 n).toList.length = 4 := length_padded (by decide) h
  rw [year, run_bind (run_blanks_digits hne hdigits _), run_bind (run_get _)]
  split
  next hsign => cases isDigit_of_head? hne hdigits hsign
  next hsign => cases isDigit_of_head? hne hdigits hsign
  next =>
    rw [run_bind (run_digits _ hne hdigits (Nat.le_of_eq hlength) (.inl hlength)), value_padded]
    rfl

/-- A year in front of a dash. -/
theorem run_year (y : Int) (rest : List Char) :
    year.run ((yearText y).toList ++ '-' :: rest) = some (y, '-' :: rest) := by
  rw [yearText]
  split
  next h =>
    rw [run_year_unsigned (by omega), Int.toNat_of_nonneg h.1]
  next =>
    rw [String.toList_append]
    split
    next hneg =>
      have habs : -(y.natAbs : Int) = y := by omega
      exact (run_year_minus y.natAbs rest).trans (by rw [habs])
    next hpos =>
      have habs : (y.natAbs : Int) = y := by omega
      exact (run_year_plus y.natAbs rest).trans (by rw [habs])

/-- A point and some decimals in front of something else. -/
theorem run_nanosecond_decimals {width n : Nat} (hpos : 0 < width) (hmost : width ≤ 9)
    (h : n < Nat.pow 10 width) (rest : List Char) :
    nanosecond.run (("." ++ padded width n).toList ++ 'Z' :: rest) =
      some (n * Nat.pow 10 (9 - width), 'Z' :: rest) := by
  have hlength := length_padded hpos h
  have hrun : (digits 9).run ((padded width n).toList ++ 'Z' :: rest) = some (_, 'Z' :: rest) :=
    run_digits _ (padded_ne_nil width n) (isDigit_of_mem_padded width n) (by omega)
      (.inr fun c hc => by cases hc; rfl)
  have hmodify : (modify fun text => text.dropWhile Char.isDigit : Scanner Unit).run
      ('Z' :: rest) = some ((), 'Z' :: rest) := rfl
  rw [String.toList_append]
  show nanosecond.run ('.' :: ((padded width n).toList ++ 'Z' :: rest)) = _
  rw [nanosecond, run_bind (run_get _), List.head?_cons, if_pos rfl,
    run_bind (run_oneOf List.mem_cons_self _), run_bind hrun, run_bind hmodify, value_padded,
    hlength]
  rfl

/-- The decimals of a second in front of something else. -/
theorem run_nanosecond {n : Nat} (h : n < 1000000000) (rest : List Char) :
    nanosecond.run ((decimals n).toList ++ 'Z' :: rest) = some (n, 'Z' :: rest) := by
  rw [decimals]
  split
  next hzero =>
    rw [hzero]
    rfl
  next =>
    split
    next hmilli =>
      have hsmall : n / 1000000 < Nat.pow 10 3 := show n / 1000000 < 1000 by omega
      rw [run_nanosecond_decimals (by decide) (by decide) hsmall]
      have hexact : n / 1000000 * 1000000 = n := by omega
      exact congrArg (fun n => some (n, 'Z' :: rest)) hexact
    next =>
      split
      next hmicro =>
        have hsmall : n / 1000 < Nat.pow 10 6 := show n / 1000 < 1000000 by omega
        rw [run_nanosecond_decimals (by decide) (by decide) hsmall]
        have hexact : n / 1000 * 1000 = n := by omega
        exact congrArg (fun n => some (n, 'Z' :: rest)) hexact
      next =>
        rw [run_nanosecond_decimals (by decide) (by decide) h]
        exact congrArg (fun n => some (n, 'Z' :: rest)) (Nat.mul_one n)

theorem run_offset : offset.run ['Z'] = some (0, []) := by
  rfl

end Scanner

/-- A moment of universal time is the same in local time that is not ahead of it. -/
theorem ofLocal?_zero (t : Timestamp) :
    ofLocal? t.date t.hour t.minute t.second t.nanosecond 0 = some t := by
  have hof : of? t.date t.hour t.minute t.second t.nanosecond = some t := dif_pos t.valid
  obtain ⟨-, hhour, hminute, -, -⟩ := t.valid
  have hlow : ¬ 60 * (t.hour : Int) + t.minute - 0 < 0 := by omega
  have hhigh : 60 * (t.hour : Int) + t.minute - 0 < 1440 := by omega
  have hsame : ((60 * (t.hour : Int) + t.minute - 0) % 1440).toNat = 60 * t.hour + t.minute := by
    omega
  have hhours : (60 * t.hour + t.minute) / 60 = t.hour := by omega
  have hminutes : (60 * t.hour + t.minute) % 60 = t.minute := by omega
  simp only [ofLocal?, hof, Option.bind_eq_bind, Option.bind_some, hlow, hhigh, if_true, if_false,
    hsame, hhours, hminutes]

/-- The parts of a moment's text. -/
theorem toList_text (t : Timestamp) : t.text.toList = (yearText t.date.year).toList ++
    '-' :: ((padded 2 t.date.month).toList ++ '-' :: ((padded 2 t.date.day).toList ++
      'T' :: ((padded 2 t.hour).toList ++ ':' :: ((padded 2 t.minute).toList ++
        ':' :: ((padded 2 t.second).toList ++ ((decimals t.nanosecond).toList ++ ['Z'])))))) := by
  simp [text]

theorem daysIn_le (year : Int) (month : Nat) : Date.daysIn year month ≤ 31 := by
  unfold Date.daysIn
  repeat' split
  all_goals decide

open Scanner in
/-- The whole text of a moment is taken off, and the moment is what it stands for. -/
theorem run_scan (t : Timestamp) : scan.run t.text.toList = some (some t, []) := by
  obtain ⟨⟨-, -, -, hmonth, -, hday⟩, hhour, hminute, hsecond, hnanosecond⟩ := t.valid
  have hdays := daysIn_le t.date.year t.date.month
  have hdash : Text.isBlank '-' = false := by decide
  have hcolon : Text.isBlank ':' = false := by decide
  rw [toList_text, scan, run_bind (run_year _ _), run_bind (run_mark hdash _),
    run_bind (run_number (by omega) _), run_bind (run_mark hdash _),
    run_bind (run_number (by omega) _), run_bind (run_oneOf (by decide) _),
    run_bind (run_number (by omega) _), run_bind (run_mark hcolon _),
    run_bind (run_number (by omega) _), run_bind (run_mark hcolon _),
    run_bind (run_number (by omega) _), run_bind (run_nanosecond hnanosecond _),
    run_bind (run_blanks (by decide) _), run_bind run_offset, ofLocal?_zero]
  rfl

/-- A moment is read from its text. -/
theorem ofText?_text (t : Timestamp) : ofText? t.text = some t := by
  rw [ofText?, run_scan]
  rfl

end PulseDaq.Timestamp
