import PulseDaq.Text.Blank

/-!
# Decimal numerals

The digits that a number is written with (`Nat.toDigits 10`).

* `isBlank_eq_false_of_isDigit`, `isDigit_eq_false_of_isAlpha`: digits are neither blanks nor
  letters.
* `toDigits_inj`: different numbers have different digits.
* `toDigits_append_inj`: nor is a number taken for another one with something behind it.
* `head?_toDigits`: there are no zeros in front.
-/

namespace PulseDaq

theorem toNat_of_isDigit {c : Char} (h : c.isDigit = true) : 48 ≤ c.toNat ∧ c.toNat ≤ 57 :=
  Char.isDigit_iff_toNat.1 h

theorem toNat_of_isAlpha {c : Char} (h : c.isAlpha = true) :
    65 ≤ c.toNat ∧ c.toNat ≤ 90 ∨ 97 ≤ c.toNat ∧ c.toNat ≤ 122 := by
  have hcase : (c.isUpper || c.isLower) = true := h
  rw [Bool.or_eq_true] at hcase
  rcases hcase with hupper | hlower
  · exact .inl (of_decide_eq_true hupper)
  · obtain ⟨hlow, hhigh⟩ := Bool.and_eq_true_iff.1 hlower
    exact .inr ⟨of_decide_eq_true hlow, of_decide_eq_true hhigh⟩

/-- The printable characters of ASCII are not blank, except for the space. -/
theorem isBlank_eq_false {c : Char} (h : 33 ≤ c.toNat) (h' : c.toNat ≤ 126) :
    Text.isBlank c = false := by
  simp only [Text.isBlank, Text.blankRanges, List.any_cons, List.any_nil, Bool.or_false,
    Bool.or_eq_false_iff, Bool.and_eq_false_imp, decide_eq_true_eq, decide_eq_false_iff_not]
  omega

theorem isBlank_eq_false_of_isDigit {c : Char} (h : c.isDigit = true) : Text.isBlank c = false := by
  have hcode := toNat_of_isDigit h
  exact isBlank_eq_false (by omega) (by omega)

theorem isBlank_eq_false_of_isAlpha {c : Char} (h : c.isAlpha = true) : Text.isBlank c = false := by
  have hcode := toNat_of_isAlpha h
  exact isBlank_eq_false (by omega) (by omega)

theorem isDigit_eq_false_of_isAlpha {c : Char} (h : c.isAlpha = true) : c.isDigit = false := by
  have hcode := toNat_of_isAlpha h
  rw [Bool.eq_false_iff]
  intro hdigit
  have := toNat_of_isDigit hdigit
  omega

theorem isDigit_of_mem_toDigits {n : Nat} {c : Char} (hc : c ∈ Nat.toDigits 10 n) :
    c.isDigit = true :=
  Nat.isDigit_of_mem_toDigits (by decide) (by decide) hc

/-- Anything else is not in a number. -/
theorem notMem_toDigits {n : Nat} {c : Char} (hc : c.isDigit = false) :
    c ∉ Nat.toDigits 10 n := by
  intro hmem
  rw [isDigit_of_mem_toDigits hmem] at hc
  cases hc

theorem toDigits_inj {m n : Nat} (h : Nat.toDigits 10 m = Nat.toDigits 10 n) : m = n := by
  have hvalue := congrArg (fun cs => Nat.ofDigitChars 10 cs 0) h
  simpa using hvalue

/-- Digits end where something else begins. -/
theorem takeWhile_toDigits_append {n : Nat} {rest : List Char}
    (hrest : rest.head?.any Char.isDigit = false) :
    (Nat.toDigits 10 n ++ rest).takeWhile Char.isDigit = Nat.toDigits 10 n := by
  rw [List.takeWhile_append_of_pos fun c hc => isDigit_of_mem_toDigits hc]
  cases rest with
  | nil => simp
  | cons c rest =>
    have hc : c.isDigit = false := hrest
    rw [List.takeWhile_cons_of_neg (by simp [hc]), List.append_nil]

/-- A number can be told from what is behind it. -/
theorem toDigits_append_inj {m n : Nat} {rest rest' : List Char}
    (hrest : rest.head?.any Char.isDigit = false) (hrest' : rest'.head?.any Char.isDigit = false)
    (h : Nat.toDigits 10 m ++ rest = Nat.toDigits 10 n ++ rest') : m = n ∧ rest = rest' := by
  have hdigits := congrArg (List.takeWhile Char.isDigit) h
  rw [takeWhile_toDigits_append hrest, takeWhile_toDigits_append hrest'] at hdigits
  rw [hdigits] at h
  exact ⟨toDigits_inj hdigits, List.append_cancel_left h⟩

/-- The first digit of a positive number is not a zero. -/
theorem head?_toDigits {n : Nat} (h : 0 < n) : (Nat.toDigits 10 n).head? ≠ some '0' := by
  induction n using Nat.strongRecOn with
  | ind n ih =>
    rcases Nat.lt_or_ge n 10 with hlt | hge
    · rw [Nat.toDigits_of_lt_base hlt, List.head?_cons]
      simp [Nat.pos_iff_ne_zero.1 h]
    · obtain ⟨c, cs, hfront⟩ := List.exists_cons_of_ne_nil
        (Nat.toDigits_ne_nil (b := 10) (n := n / 10))
      have hfirst := ih (n / 10) (by omega) (by omega)
      rw [Nat.toDigits_of_base_le (by decide) hge, hfront]
      rwa [hfront] at hfirst

end PulseDaq
