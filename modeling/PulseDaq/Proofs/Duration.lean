import PulseDaq.Duration
import PulseDaq.Proofs.Text.Decimal

/-!
# Written durations read back

The text of a duration is a sequence of quantities, each a count with a unit. What a text adds to
the total that has been read before it is stated once (`Lengthens`); quantities one after another
add their sum, and the counts of a duration add up to it.

* `Duration.lengthens_quantity`: a count with the name of a unit.
* `Duration.adds_parts`: the quantities of a duration's text.
* `Duration.ofText?_text`: every duration is read from its text.
-/

namespace PulseDaq.Duration

namespace Reading

/-- What the characters of a text do to a reading, one after the other. -/
def read (r : Reading) (text : List Char) : Option Reading :=
  text.foldlM step r

theorem read_cons {r r' : Reading} {c : Char} {text : List Char} (h : r.step c = some r') :
    r.read (c :: text) = r'.read text := by
  simp [read, h]

theorem read_append {r r' : Reading} {text : List Char} (rest : List Char)
    (h : r.read text = some r') : r.read (text ++ rest) = r'.read rest := by
  unfold read at h ⊢
  rw [List.foldlM_append, h]
  rfl

/-- Digits go on with a number. -/
theorem read_digits {digits : List Char} (hdigits : ∀ c ∈ digits, c.isDigit = true) {n : Nat}
    (hn : Nat.ofDigitChars 10 digits n < UInt64.size) (t : Duration) :
    read { mode := .whole n, total := t } digits =
      some { mode := .whole (Nat.ofDigitChars 10 digits n), total := t } := by
  induction digits generalizing n with
  | nil => rfl
  | cons c digits ih =>
    rw [Nat.ofDigitChars_cons] at hn ⊢
    -- What has been read is at most what the whole text stands for, so 64 bits hold it as well.
    have hword : 10 * n + digit c < UInt64.size := by
      rw [Nat.ofDigitChars_eq_ofDigitChars_zero] at hn
      have hfactor : 0 < 10 ^ digits.length := Nat.pow_pos (by decide)
      have hle := Nat.le_mul_of_pos_left (10 * n + digit c) hfactor
      exact Nat.lt_of_le_of_lt (Nat.le_trans hle (Nat.le_add_right _ _)) hn
    have hstep : step { mode := .whole n, total := t } c =
        some { mode := .whole (10 * n + digit c), total := t } := by
      simp [step, hdigits c List.mem_cons_self, word?, hword]
    rw [read_cons hstep]
    exact ih (fun d hd => hdigits d (.tail _ hd)) hn

/-- A number that 64 bits can hold. -/
theorem read_toDigits {n : Nat} (hn : n < UInt64.size) (t : Duration) :
    read { mode := .start, total := t } (Nat.toDigits 10 n) =
      some { mode := .whole n, total := t } := by
  have hdigits : ∀ c ∈ Nat.toDigits 10 n, c.isDigit = true := fun c hc => isDigit_of_mem_toDigits hc
  have hvalue : Nat.ofDigitChars 10 (Nat.toDigits 10 n) 0 = n := Nat.ofDigitChars_ten_toDigits
  cases htext : Nat.toDigits 10 n with
  | nil => exact absurd htext Nat.toDigits_ne_nil
  | cons c digits =>
    rw [htext] at hdigits hvalue
    rw [Nat.ofDigitChars_cons, Nat.mul_zero, Nat.zero_add] at hvalue
    have hstep : step { mode := .start, total := t } c =
        some { mode := .whole (digit c), total := t } := by
      simp [step, hdigits c List.mem_cons_self]
    rw [read_cons hstep]
    have hread := read_digits (fun d hd => hdigits d (.tail _ hd)) (n := digit c)
      (by rwa [digit, hvalue]) t
    rwa [digit, hvalue] at hread

/-- Letters go on with the name of a unit. -/
theorem read_letters {letters : List Char} (hletters : ∀ c ∈ letters, c.isAlpha = true) (n : Nat)
    (before : List Char) (t : Duration) :
    read { mode := .unit n none before, total := t } letters =
      some { mode := .unit n none (letters.reverse ++ before), total := t } := by
  induction letters generalizing before with
  | nil => rfl
  | cons c letters ih =>
    have hc := hletters c List.mem_cons_self
    have hstep : step { mode := .unit n none before, total := t } c =
        some { mode := .unit n none (c :: before), total := t } := by
      simp [step, isUnitChar, hc, isDigit_eq_false_of_isAlpha hc, isBlank_eq_false_of_isAlpha hc]
    rw [read_cons hstep, ih fun d hd => hletters d (.tail _ hd)]
    simp

/-- The name of a unit behind its count. -/
theorem read_name {name : List Char} (hne : name ≠ []) (hname : ∀ c ∈ name, c.isAlpha = true)
    (n : Nat) (t : Duration) :
    read { mode := .whole n, total := t } name =
      some { mode := .unit n none name.reverse, total := t } := by
  cases name with
  | nil => contradiction
  | cons c letters =>
    have hc := hname c List.mem_cons_self
    have hstep : step { mode := .whole n, total := t } c =
        some { mode := .unit n none [c], total := t } := by
      simp [step, isUnitChar, hc, isDigit_eq_false_of_isAlpha hc, isBlank_eq_false_of_isAlpha hc]
    rw [read_cons hstep, read_letters fun d hd => hname d (.tail _ hd)]
    simp

/-- Blanks before a number. -/
theorem read_blanks {blanks : List Char} (h : ∀ c ∈ blanks, Text.isBlank c = true) (t : Duration) :
    read { mode := .start, total := t } blanks = some { mode := .start, total := t } := by
  induction blanks with
  | nil => rfl
  | cons c blanks ih =>
    have hc := h c List.mem_cons_self
    have hdigit : c.isDigit = false := by
      rw [Bool.eq_false_iff]
      intro hdigit
      rw [isBlank_eq_false_of_isDigit hdigit] at hc
      contradiction
    have hstep : step { mode := .start, total := t } c = some { mode := .start, total := t } := by
      simp [step, hdigit, hc]
    rw [read_cons hstep]
    exact ih fun d hd => h d (.tail _ hd)

/-- The last unit has its whole name, and the total with it is `t`. -/
structure Closes (r : Reading) (t : Duration) : Prop where
  finish : r.finish = some t
  blank : r.step ' ' = some { mode := .start, total := t }

theorem closes_unit {n : Nat} {f : Option Fraction} {letters : List Char} {t t' : Duration}
    (h : t.addUnit? n f letters = some t') :
    Closes { mode := .unit n f letters, total := t } t' where
  finish := h
  blank := by
    have hdigit : ' '.isDigit = false := rfl
    have hblank : Text.isBlank ' ' = true := rfl
    simp [step, hdigit, hblank, h]

end Reading

open Reading (Closes)

/-- Where a number may stand, the text adds so many nanoseconds, if the total allows it. -/
def Lengthens (text : String) (n : Nat) : Prop :=
  ∀ t t' : Duration, t'.nanoseconds = t.nanoseconds + n →
    ∃ r, Reading.read { mode := .start, total := t } text.toList = some r ∧ r.Closes t'

theorem extend?_eq_some {t t' : Duration} {n : Nat} (h : t'.nanoseconds = t.nanoseconds + n) :
    t.extend? n = some t' := by
  have hlimit : t.nanoseconds + n < limit := h ▸ t'.lt_limit
  cases t'
  simp_all [extend?]

/-- Units that are counted in seconds have whole seconds. -/
theorem TimeUnit.seconds_mul {unit : TimeUnit} (h : unit.inSeconds = true) :
    unit.nanoseconds / 1000000000 * 1000000000 = unit.nanoseconds := by
  cases unit
  all_goals simp_all [inSeconds, nanoseconds]

theorem TimeUnit.nanoseconds_pos (unit : TimeUnit) : 0 < unit.nanoseconds := by
  cases unit
  all_goals decide

/-- A count of a unit, in which the counts below a second are small. -/
theorem addWhole?_eq_some {unit : TimeUnit} {n : Nat} {t t' : Duration}
    (hsmall : unit.inSeconds = false → n * unit.nanoseconds < 1000000000)
    (h : t'.nanoseconds = t.nanoseconds + n * unit.nanoseconds) :
    t.addWhole? unit n = some t' := by
  have hlimit := t'.lt_limit
  cases hunit : unit.inSeconds with
  | true =>
    have hexact : n * (unit.nanoseconds / 1000000000) * 1000000000 = n * unit.nanoseconds := by
      rw [Nat.mul_assoc, TimeUnit.seconds_mul hunit]
    have hword : n * (unit.nanoseconds / 1000000000) < UInt64.size := by omega
    rw [addWhole?, if_pos hunit, word?, if_pos hword, Option.bind_eq_bind, Option.bind_some, hexact]
    exact extend?_eq_some h
  | false =>
    have hcount := hsmall hunit
    have hword : n * unit.nanoseconds < UInt64.size :=
      Nat.lt_trans hcount (by decide)
    have hsum : t.subsecond + n * unit.nanoseconds < UInt64.size := by
      have hsubsecond : t.subsecond < 1000000000 := Nat.mod_lt _ (by decide)
      have htwo : 1000000000 + 1000000000 < UInt64.size := by decide
      omega
    have hcount : word? (n * unit.nanoseconds) = some (n * unit.nanoseconds) := if_pos hword
    have htotal : word? (t.subsecond + n * unit.nanoseconds) = some _ := if_pos hsum
    simp only [addWhole?, hunit, Bool.false_eq_true, if_false, hcount, htotal, Option.bind_eq_bind,
      Option.bind_some, extend?_eq_some h]

/-- The count of a unit in a duration is one that 64 bits can hold. -/
theorem count_lt {unit : TimeUnit} {n : Nat} {d : Duration}
    (hsmall : unit.inSeconds = false → n * unit.nanoseconds < 1000000000)
    (h : n * unit.nanoseconds ≤ d.nanoseconds) : n < UInt64.size := by
  have hlimit := d.lt_limit
  have hpos := unit.nanoseconds_pos
  cases hseconds : unit.inSeconds with
  | true =>
    have hexact := TimeUnit.seconds_mul hseconds
    have hlong : n * 1000000000 ≤ n * unit.nanoseconds := Nat.mul_le_mul_left n (by omega)
    omega
  | false =>
    have hle : n ≤ n * unit.nanoseconds := Nat.le_mul_of_pos_right n hpos
    have hsize : 1000000000 < UInt64.size := by decide
    exact Nat.lt_trans (Nat.lt_of_le_of_lt hle (hsmall hseconds)) hsize

/-- A count with the name of a unit. -/
theorem lengthens_quantity {name : String} {unit : TimeUnit} {n : Nat}
    (hunit : TimeUnit.ofName? name = some unit) (hletters : ∀ c ∈ name.toList, c.isAlpha = true)
    (hsmall : unit.inSeconds = false → n * unit.nanoseconds < 1000000000) :
    Lengthens (toString n ++ name) (n * unit.nanoseconds) := by
  intro t t' h
  have hcount : n < UInt64.size := count_lt (d := t') hsmall (h ▸ Nat.le_add_left _ _)
  have hne : name.toList ≠ [] := by
    rw [Ne, String.toList_eq_nil_iff]
    rintro rfl
    cases hunit
  have hadd : t.addUnit? n none name.toList.reverse = some t' := by
    simp [addUnit?, hunit, addWhole?_eq_some hsmall h]
  refine ⟨{ mode := .unit n none name.toList.reverse, total := t }, ?_, Reading.closes_unit hadd⟩
  show Reading.read _ (n.repr ++ name).toList = _
  rw [String.toList_append, Nat.toList_repr,
    Reading.read_append _ (Reading.read_toDigits hcount t), Reading.read_name hne hletters]

/-- Quantities with a blank between them. -/
theorem Lengthens.append {first rest : String} {m n : Nat} (h : Lengthens first m)
    (hrest : Lengthens rest n) : Lengthens (first ++ " " ++ rest) (m + n) := by
  intro t t' hsum
  have hlimit := t'.lt_limit
  have hmiddle : t.nanoseconds + m < limit := by
    rw [limit]
    omega
  obtain ⟨r, hread, hcloses⟩ := h t ⟨t.nanoseconds + m, hmiddle⟩ rfl
  obtain ⟨r', hread', hcloses'⟩ := hrest ⟨t.nanoseconds + m, hmiddle⟩ t' (by simp [hsum]; omega)
  refine ⟨r', ?_, hcloses'⟩
  rw [String.append_assoc, String.toList_append, String.toList_append,
    Reading.read_append _ hread]
  exact (Reading.read_cons hcloses.blank).trans hread'

/-- Each of the texts adds nanoseconds, all of them so many. -/
inductive Adds : List String → Nat → Prop
  | nil : Adds [] 0
  | cons {text : String} {texts : List String} {m n : Nat} (h : Lengthens text m)
    (hrest : Adds texts n) : Adds (text :: texts) (m + n)

namespace Adds

variable {texts texts' : List String} {m n : Nat}

theorem append (h : Adds texts m) (h' : Adds texts' n) : Adds (texts ++ texts') (m + n) := by
  induction h with
  | nil => simpa using h'
  | cons h _ ih =>
    rw [Nat.add_assoc]
    exact .cons h ih

/-- The texts with blanks between them. -/
theorem intercalate (h : Adds texts n) (hne : texts ≠ []) :
    Lengthens (" ".intercalate texts) n := by
  induction h with
  | nil => contradiction
  | @cons text texts m n h hrest ih =>
    cases texts with
    | nil =>
      cases hrest
      simpa using h
    | cons text' texts =>
      rw [String.intercalate_cons_cons]
      exact h.append (ih (by simp))

end Adds

/-- The name stands for the unit, and so it does in the plural if it has one. -/
structure Names (name : String) (plural : Bool) (unit : TimeUnit) : Prop where
  letters : name.toList.all Char.isAlpha = true
  one : TimeUnit.ofName? name = some unit
  many : plural = true → TimeUnit.ofName? (name ++ "s") = some unit

/-- A count that is left out if it is zero. -/
theorem adds_part (count : Nat) {name : String} {plural : Bool} {unit : TimeUnit}
    (h : Names name plural unit)
    (hsmall : unit.inSeconds = false → count * unit.nanoseconds < 1000000000) :
    Adds (part count name plural) (count * unit.nanoseconds) := by
  rw [part]
  split
  next hzero =>
    rw [hzero, Nat.zero_mul]
    exact .nil
  next =>
    refine .cons (m := count * unit.nanoseconds) ?_ .nil
    rw [String.append_assoc]
    have hletters := List.all_eq_true.1 h.letters
    cases hs : plural && decide (count > 1) with
    | false =>
      refine lengthens_quantity ?_ ?_ hsmall
      · simpa using h.one
      · simpa using hletters
    | true =>
      have hplural : plural = true := by simp_all
      refine lengthens_quantity (h.many hplural) ?_ hsmall
      simp only [if_true, String.toList_append, List.mem_append]
      rintro c (hc | hc)
      · exact hletters c hc
      · simp at hc
        subst hc
        rfl

/-- The counts of a duration make it up. -/
theorem adds_parts (d : Duration) : Adds d.parts d.nanoseconds := by
  have hyear : Names "year" true .year := ⟨rfl, by decide, by decide⟩
  have hmonth : Names "month" true .month := ⟨rfl, by decide, by decide⟩
  have hday : Names "day" true .day := ⟨rfl, by decide, by decide⟩
  have hhour : Names "h" false .hour := ⟨rfl, by decide, nofun⟩
  have hminute : Names "m" false .minute := ⟨rfl, by decide, nofun⟩
  have hsecond : Names "s" false .second := ⟨rfl, by decide, nofun⟩
  have hmillisecond : Names "ms" false .millisecond := ⟨rfl, by decide, nofun⟩
  have hmicrosecond : Names "us" false .microsecond := ⟨rfl, by decide, nofun⟩
  have hnanosecond : Names "ns" false .nanosecond := ⟨rfl, by decide, nofun⟩
  have hseconds : d.nanoseconds = d.seconds * 1000000000 + d.subsecond := by
    rw [seconds, subsecond]
    omega
  have hsubsecond : d.subsecond < 1000000000 := Nat.mod_lt _ (by decide)
  unfold parts
  simp only [TimeUnit.nanoseconds, Nat.reduceMul, Nat.reduceDiv]
  -- Each unit takes what the longer ones leave; only the counts below a second have to be small.
  generalize d.seconds = s at hseconds ⊢
  generalize d.subsecond = n at hseconds hsubsecond ⊢
  have hparts := adds_part (s / 31557600) hyear nofun
    |>.append (adds_part (s % 31557600 / 2630016) hmonth nofun)
    |>.append (adds_part (s % 31557600 % 2630016 / 86400) hday nofun)
    |>.append (adds_part (s % 31557600 % 2630016 % 86400 / 3600) hhour nofun)
    |>.append (adds_part (s % 31557600 % 2630016 % 86400 % 3600 / 60) hminute nofun)
    |>.append (adds_part (s % 31557600 % 2630016 % 86400 % 60) hsecond nofun)
    |>.append (adds_part (n / 1000000) hmillisecond fun _ => by
      rw [TimeUnit.nanoseconds]
      omega)
    |>.append (adds_part (n / 1000 % 1000) hmicrosecond fun _ => by
      rw [TimeUnit.nanoseconds]
      omega)
    |>.append (adds_part (n % 1000) hnanosecond fun _ => by
      rw [TimeUnit.nanoseconds]
      omega)
  refine (congrArg (Adds _) ?_).mp hparts
  simp only [TimeUnit.nanoseconds]
  omega

/-! ## The whole text -/

theorem ofText?_of_lengthens {text : String} {d : Duration} (h : Lengthens text d.nanoseconds)
    (hpos : 0 < d.nanoseconds) : ofText? text = some d := by
  obtain ⟨r, hread, hcloses⟩ := h zero d (by simp [zero])
  -- The texts that are not read by their characters have no unit, or nothing at all.
  have hzero : text ≠ "0" := by
    rintro rfl
    cases hread
    cases hcloses.finish
  have hblank : text.toList.all Text.isBlank = false := by
    rw [Bool.eq_false_iff]
    intro hall
    rw [List.all_eq_true] at hall
    cases hread.symm.trans (Reading.read_blanks hall zero)
    cases hcloses.finish
    exact absurd hpos (by decide)
  rw [ofText?, if_neg hzero, hblank, if_neg Bool.false_ne_true]
  show (Reading.read _ _ >>= Reading.finish) = some d
  rw [hread, Option.bind_eq_bind, Option.bind_some, hcloses.finish]

/-- A duration is read from its text. -/
theorem ofText?_text (d : Duration) : ofText? d.text = some d := by
  rw [text]
  split
  next h =>
    have hd : d = zero := by
      cases d
      simp_all [zero]
    rw [hd]
    decide
  next h =>
    have hne : d.parts ≠ [] := by
      intro hparts
      have hadds := hparts ▸ d.adds_parts
      generalize d.nanoseconds = n at hadds h
      cases hadds
      contradiction
    exact ofText?_of_lengthens (d.adds_parts.intercalate hne) (Nat.pos_of_ne_zero h)

/-- The longest duration. -/
example : ofText? "584542046090years 7months 15days 17h 5m 3s 999ms 999us 999ns" = some .max := by
  decide +kernel

end PulseDaq.Duration
