import Mathlib.Data.List.Basic

/-!
# Lists

* `mapM_map_eq_some`: what was written for every element is read back for every element.
* `lookup_filter_ne`: removing the entries of one key changes no other lookup.
* `lookup_replace`: an entry in place of those of its key is found under that key.
-/

namespace PulseDaq

/-- If each element is read back from what it was written as, all of them are. -/
theorem mapM_map_eq_some {α β : Type} {write : α → β} {read : β → Option α} {l : List α}
    (h : ∀ a ∈ l, read (write a) = some a) : (l.map write).mapM read = some l := by
  induction l with
  | nil => rfl
  | cons a l ih =>
    rw [List.map_cons, List.mapM_cons, h a List.mem_cons_self, ih fun a ha => h a (.tail _ ha)]
    rfl

/-! ## Lists of pairs -/

variable {κ ν : Type} [BEq κ] [LawfulBEq κ] [DecidableEq κ]

/-- Removing the entries of one key changes no other lookup. -/
theorem lookup_filter_ne {key other : κ} (hne : key ≠ other) (l : List (κ × ν)) :
    (l.filter fun e => e.1 ≠ other).lookup key = l.lookup key := by
  induction l with
  | nil => rfl
  | cons e l ih =>
    obtain ⟨first, value⟩ := e
    by_cases hfirst : first = other
    · have hkey : (key == first) = false := beq_eq_false_iff_ne.2 (hfirst ▸ hne)
      rw [List.filter_cons_of_neg (by simpa using hfirst), ih, List.lookup_cons, hkey]
    · rw [List.filter_cons_of_pos (by simpa using hfirst), List.lookup_cons, List.lookup_cons, ih]

/-- An entry in place of those of its key is found there, and nothing else changes. -/
theorem lookup_replace (key other : κ) (value : ν) (l : List (κ × ν)) :
    ((other, value) :: l.filter fun e => e.1 ≠ other).lookup key =
      if key = other then some value else l.lookup key := by
  rw [List.lookup_cons]
  by_cases h : key = other
  · rw [if_pos h, beq_iff_eq.2 h]
  · rw [if_neg h, beq_eq_false_iff_ne.2 h]
    exact lookup_filter_ne h l

end PulseDaq
