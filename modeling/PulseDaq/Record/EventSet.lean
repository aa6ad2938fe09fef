import PulseDaq.Record.Event

/-!
# Sets of events

A set of events in their order. It holds each event once.

* `EventSet.ofList`: the set of the events of a list; `EventSet.mem_ofList` says what is in it, and
  `EventSet.toList_ofList` that an ascending list stays as it is.
* `EventSet.pairwise_time`: events of one kind do not go back in time.
-/

namespace PulseDaq

/-- Events without repetition, in strictly ascending order. -/
structure EventSet where
  toList : List Event
  sorted : toList.Pairwise fun a b => a.key < b.key

namespace Event

/-- Events with the same key are the same. -/
theorem key_inj {a b : Event} (h : a.key = b.key) : a = b := by
  cases a <;> cases b <;> simp only [key, Interval.key] at h <;> try (simp at h; done)
  next e f =>
    obtain ⟨_, _, _⟩ := e
    obtain ⟨_, _, _⟩ := f
    simp_all [UInt16.toNat_inj, UInt32.toNat_inj]
  next e f =>
    obtain ⟨_, _, _, _⟩ := e
    obtain ⟨_, _, _, _⟩ := f
    simp_all [UInt16.toNat_inj, UInt64.toNat_inj]
  next e f =>
    have hs {u v : List UInt16} (h : u.map (·.toNat) = v.map (·.toNat)) : u = v :=
      List.map_inj_right (fun x y => UInt16.toNat_inj.1) |>.1 h
    obtain ⟨_, _, _, _, _, ⟨_, _⟩, ⟨_, _⟩, ⟨_, _⟩, _⟩ := e
    obtain ⟨_, _, _, _, _, ⟨_, _⟩, ⟨_, _⟩, ⟨_, _⟩, _⟩ := f
    simp only [List.cons_append, List.nil_append, List.cons.injEq, UInt16.toNat_inj,
      UInt64.toNat_inj, true_and] at h
    simp [h, hs h.2.2.2.2.2.2.2.2.2.2.2]

theorem compare_eq_lt {a b : Event} : compare a b = .lt ↔ a.key < b.key := by
  simp only [compare, compareOfLessAndEq]
  split
  · simp_all
  · split <;> simp_all

/-- The time of an event comes behind its kind in what it is ordered by. -/
theorem exists_key (e : Event) : ∃ rest, e.key = e.kind.code :: e.time.toNat :: rest := by
  cases e with
  | compact e => exact ⟨_, by rw [key, time, UInt32.toNat_toUInt64]; rfl⟩
  | extended e => exact ⟨_, rfl⟩
  | waveform e => exact ⟨_, rfl⟩

/-- Among events of one kind, what is first in the order is not later in time. -/
theorem time_le_of_key_lt {a b : Event} (hkind : a.kind = b.kind) (h : a.key < b.key) :
    a.time ≤ b.time := by
  obtain ⟨rest, ha⟩ := a.exists_key
  obtain ⟨rest', hb⟩ := b.exists_key
  rw [ha, hb, hkind, List.cons_lt_cons_iff, List.cons_lt_cons_iff] at h
  rw [UInt64.le_iff_toNat_le]
  omega

end Event

namespace EventSet

/-- Put an event in front of a list, unless it stands there already. -/
def consNew (e : Event) (events : List Event) : List Event :=
  if events.head? = some e then events else e :: events

theorem mem_consNew {e f : Event} {events : List Event} :
    f ∈ consNew e events ↔ f = e ∨ f ∈ events := by
  unfold consNew
  split
  next h =>
    obtain ⟨rest, rfl⟩ := List.head?_eq_some_iff.1 h
    simp
  · simp

/-- Repetitions left out of an ascending list leave it strictly ascending. -/
theorem pairwise_consNew {e : Event} {events : List Event}
    (hs : events.Pairwise fun a b => a.key < b.key) (he : ∀ f ∈ events, ¬f.key < e.key) :
    (consNew e events).Pairwise fun a b => a.key < b.key := by
  unfold consNew
  split
  · exact hs
  next h =>
    refine List.pairwise_cons.2 ⟨fun f hf => ?_, hs⟩
    cases events with
    | nil => cases hf
    | cons g rest =>
      have hg : e.key < g.key := by
        refine Decidable.byContradiction fun hlt => h ?_
        have hge := List.not_lt.1 (he g List.mem_cons_self)
        rw [Event.key_inj (List.le_antisymm hge (List.not_lt.1 hlt))]
        rfl
      rcases List.mem_cons.1 hf with rfl | hf
      · exact hg
      · exact List.lt_trans hg ((List.pairwise_cons.1 hs).1 f hf)

theorem mem_foldr_consNew {f : Event} {events : List Event} :
    f ∈ events.foldr consNew [] ↔ f ∈ events := by
  induction events with
  | nil => simp
  | cons e rest ih => simp [mem_consNew, ih]

theorem pairwise_foldr_consNew {events : List Event}
    (h : events.Pairwise fun a b => ¬b.key < a.key) :
    (events.foldr consNew []).Pairwise fun a b => a.key < b.key := by
  induction events with
  | nil => simp
  | cons e rest ih =>
    obtain ⟨he, hrest⟩ := List.pairwise_cons.1 h
    exact pairwise_consNew (ih hrest) fun f hf => he f (mem_foldr_consNew.1 hf)

/-- The events of a list in ascending order, repetitions included. -/
def ascending (events : List Event) : List Event :=
  events.mergeSort fun a b => ¬b.key < a.key

theorem pairwise_ascending (events : List Event) :
    (ascending events).Pairwise fun a b => ¬b.key < a.key := by
  have h := @List.pairwise_mergeSort Event (fun a b => decide ¬b.key < a.key)
    (fun a b c hab hbc => by
      simp only [decide_eq_true_eq] at hab hbc ⊢
      exact List.not_lt.2 (List.le_trans (List.not_lt.1 hab) (List.not_lt.1 hbc)))
    (fun a b => by
      simp only [Bool.or_eq_true, decide_eq_true_eq]
      exact (List.le_total a.key b.key).imp List.not_lt.2 List.not_lt.2) events
  exact h.imp of_decide_eq_true

/-- The set of the events of a list. -/
def ofList (events : List Event) : EventSet where
  toList := (ascending events).foldr consNew []
  sorted := pairwise_foldr_consNew (pairwise_ascending events)

/-- The set holds what the list holds. -/
theorem mem_ofList {f : Event} {events : List Event} :
    f ∈ (ofList events).toList ↔ f ∈ events := by
  simp [ofList, ascending, mem_foldr_consNew]

/-- Nothing is left out of a list that ascends strictly. -/
theorem foldr_consNew_of_pairwise {events : List Event}
    (h : events.Pairwise fun a b => a.key < b.key) : events.foldr consNew [] = events := by
  induction events with
  | nil => rfl
  | cons e rest ih =>
    obtain ⟨hfirst, hrest⟩ := List.pairwise_cons.1 h
    rw [List.foldr_cons, ih hrest, consNew, if_neg]
    intro hhead
    exact List.lt_irrefl _ (hfirst e (List.mem_of_mem_head? hhead))

/-- The set of a list that ascends strictly is that list. -/
theorem toList_ofList {events : List Event} (h : events.Pairwise fun a b => a.key < b.key) :
    (ofList events).toList = events := by
  have hascending : ascending events = events :=
    List.mergeSort_of_pairwise (h.imp fun hlt => decide_eq_true (List.lt_asymm hlt))
  show (ascending events).foldr consNew [] = events
  rw [hascending]
  exact foldr_consNew_of_pairwise h

theorem pairwise_compare (s : EventSet) : s.toList.Pairwise (compare · · = .lt) :=
  s.sorted.imp Event.compare_eq_lt.2

/-- Events of one kind that stand in their order do not go back in time. -/
theorem pairwise_time {s : EventSet} {kind : RecordKind} (h : ∀ e ∈ s.toList, e.kind = kind) :
    s.toList.Pairwise (·.time ≤ ·.time) :=
  s.sorted.imp_of_mem fun ha hb hlt =>
    Event.time_le_of_key_lt ((h _ ha).trans (h _ hb).symm) hlt

end EventSet

end PulseDaq
