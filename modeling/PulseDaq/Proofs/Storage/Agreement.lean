import PulseDaq.Proofs.Storage.UnitFile

/-!
# Three ways to write events

Events can be written as a list, as a set, or as the records of a buffer that was filled with them
before. It does not matter which way is taken: a writer makes the same unit of them.

* `StoredUnit.Of.unique`: events determine the unit that is made of them.
* `WriterCall.Writes.exists_writesUnit`: a call comes to writing the unit of its events, so calls
  that are given the same events cannot be told apart (`WriterCall.Writes.agree`).
* `WriterCall.perform_mixed`: events that are not alike are refused, whichever way is taken.
* `Answered.units`: the unit of a call is the only one that the call stores. The unit of a set is in
  order (`EventSet.pairwise_compare`), and so are its times (`EventSet.pairwise_time`).
* `Synchronized.writes_agree`: the main result.
-/

namespace PulseDaq

/-- Events determine their unit. -/
theorem StoredUnit.Of.unique {events : List Event} {id timestamp : UInt64} {u u' : StoredUnit}
    (h : u.Of events id timestamp) (h' : u'.Of events id timestamp) (hne : events ≠ []) :
    u = u' := by
  obtain ⟨e, he⟩ := List.exists_mem_of_ne_nil events hne
  obtain ⟨hkind, hsize⟩ := h.layout e he
  obtain ⟨hkind', hsize'⟩ := h'.layout e he
  cases u
  cases u'
  rw [StoredUnit.mk.injEq]
  exact ⟨h.id_eq.trans h'.id_eq.symm, h.timestamp_eq.trans h'.timestamp_eq.symm,
    hkind.symm.trans hkind', hsize.symm.trans hsize', h.elements_eq.trans h'.elements_eq.symm,
    h.bytes_eq.trans h'.bytes_eq.symm⟩

namespace WriterCall

variable {id timestamp : UInt64} {events : List Event} {c c' : WriterCall}

/-- No writer tells the calls apart: both answer the same and leave the same behind, also if the
backend has a log of what it is asked. -/
def Agree (c c' : WriterCall) : Prop :=
  ∀ (γ : Type) [Backend γ] (w : Synchronized γ), c.perform w = c'.perform w

/-- The call writes the unit, whatever the writer and its backend. -/
def WritesUnit (c : WriterCall) (u : StoredUnit) : Prop :=
  ∀ (γ : Type) [Backend γ] (w : Synchronized γ), c.perform w = Synchronized.write u w

/-- A call that is given events of one layout writes the unit that is made of them. -/
theorem Writes.exists_writesUnit (h : Writes id timestamp events c) (hne : events ≠ [])
    {kind : RecordKind} {size : Nat}
    (halike : ∀ e ∈ events, e.kind = kind ∧ e.elementSize = size) :
    ∃ u : StoredUnit, u.Of events id timestamp ∧ c.WritesUnit u := by
  obtain ⟨u, hunit, hu⟩ := h.exists_unit hne halike
  refine ⟨u, hu, fun γ _ w => ?_⟩
  rw [Synchronized.perform_eq_write h.ne_close, hunit]
  rfl

/-- Calls that are given the same events agree, if these are of one layout. -/
theorem Writes.agree (h : Writes id timestamp events c) (h' : Writes id timestamp events c')
    (hne : events ≠ []) {kind : RecordKind} {size : Nat}
    (halike : ∀ e ∈ events, e.kind = kind ∧ e.elementSize = size) : c.Agree c' := by
  obtain ⟨u, hu, hwrites⟩ := h.exists_writesUnit hne halike
  obtain ⟨u', hu', hwrites'⟩ := h'.exists_writesUnit hne halike
  obtain rfl := hu.unique hu' hne
  exact fun γ _ w => (hwrites γ w).trans (hwrites' γ w).symm

/-- The records of alike calls have one layout. -/
theorem Writes.exists_layout (h : Writes id timestamp events c) (halike : c.Alike) :
    ∃ kind size, ∀ e ∈ events, e.kind = kind ∧ e.elementSize = size := by
  have hmem (e : Event) (he : e ∈ events) : (e.kind, e.elementSize) ∈ c.layouts :=
    h.layouts_eq ▸ List.mem_map_of_mem he
  cases events with
  | nil => exact ⟨default, 0, nofun⟩
  | cons e rest =>
    refine ⟨e.kind, e.elementSize, fun f hf => ?_⟩
    have hsame := halike _ (hmem f hf) _ (hmem e List.mem_cons_self)
    exact ⟨congrArg Prod.fst hsame, congrArg Prod.snd hsame⟩

/-- Records that are not alike are refused, and the writer stays as it is. -/
theorem perform_mixed (h : ¬c.Alike) {γ : Type} [Backend γ] (w : Synchronized γ) :
    c.perform w = .error .mixed w := by
  have hne : c ≠ .close := by
    rintro rfl
    exact h (alike_of_layouts_nil rfl)
  rw [Synchronized.perform_eq_write hne, unit_of_not_alike h]
  rfl

end WriterCall

/-- The unit of a call is the only one that the call asks the backend to store. -/
theorem Answered.units {l l' : Ledger} {c : WriterCall} {r : Except WriterError Unit}
    (h : Answered l c r l') : ∃ asked, l'.log = asked ++ l.log ∧
      ∀ u answer, (.writeUnit u, answer) ∈ asked → c.unit = .ok (some u) := by
  have hnothing : ∃ asked : BackendLog, l.log = asked ++ l.log ∧
      ∀ u answer, (.writeUnit u, answer) ∈ asked → c.unit = .ok (some u) :=
    ⟨[], rfl, nofun⟩
  cases h with
  | nothing | mixed | closedBefore => exact hnothing
  | closed hc hopen r => exact ⟨[(.close, r)], rfl, by simp⟩
  | written hne u hunit r l' hw =>
    cases hw with
    | empty | closed | layout => exact hnothing
    | stored _ _ _ _ _ r => exact ⟨[(.writeUnit u, r)], rfl, by simp [hunit]⟩
    | refused _ _ _ e => exact ⟨[(Ledger.creation u, .error e)], rfl, by simp [Ledger.creation]⟩
    | created _ _ _ r =>
      exact ⟨[(.writeUnit u, r), (Ledger.creation u, .ok ())], rfl, by
        simp [hunit, Ledger.creation]⟩

/-! ## Main result -/

namespace Synchronized

/-- Take any events, a digitizer and a timestamp. If there are events and they are of one layout,
the list of them is written as the unit that is made of them, and any buffer that holds just their
records, and, if they ascend strictly, the set of them are written alike. If they are not of one
layout, the list and the set are refused, whatever the writer has stored, and the writer stays as it
is. And what is stored of the set is made of the given events in strictly ascending order, without
going back in time. -/
theorem writes_agree (given : List Event) (id timestamp : UInt64) :
    (given ≠ [] → ∀ kind size, (∀ e ∈ given, e.kind = kind ∧ e.elementSize = size) →
      (∃ u : StoredUnit, u.Of given id timestamp ∧
        (WriterCall.writeEvents given id timestamp).WritesUnit u) ∧
      (∀ b : RecordBuffer, b.records = given.map Event.encode →
        (WriterCall.writeBuffer kind b id timestamp).Agree (.writeEvents given id timestamp)) ∧
      (given.Pairwise (compare · · = .lt) →
        (WriterCall.writeSet (.ofList given) id timestamp).Agree
          (.writeEvents given id timestamp))) ∧
    ((¬∃ kind size, ∀ e ∈ given, e.kind = kind ∧ e.elementSize = size) →
      ∀ {γ : Type} [Backend γ] (w : Synchronized γ),
        (WriterCall.writeEvents given id timestamp).perform w = .error .mixed w ∧
        (WriterCall.writeSet (.ofList given) id timestamp).perform w = .error .mixed w) ∧
    ∀ {γ : Type} [Backend γ] (w : Synchronized (Logged γ)), ∃ asked,
      ((WriterCall.writeSet (.ofList given) id timestamp).after w).backend.log =
        asked ++ w.backend.log ∧
      ∀ u answer, (.writeUnit u, answer) ∈ asked → ∃ events, u.Of events id timestamp ∧
        (∀ e, e ∈ events ↔ e ∈ given) ∧ events.Pairwise (compare · · = .lt) ∧
        events.Pairwise (·.time ≤ ·.time) := by
  have hlist : WriterCall.Writes id timestamp given _ := .list given
  have hset : WriterCall.Writes id timestamp _ _ := .set (.ofList given)
  refine ⟨fun hne kind size halike => ⟨hlist.exists_writesUnit hne halike, fun b hb => ?_,
    fun hsorted => ?_⟩, fun hmixed => ?_, ?_⟩
  · have hbuffer : WriterCall.Writes id timestamp given _ :=
      .buffer kind b given (fun e he => (halike e he).1) hb
    exact hbuffer.agree hlist hne halike
  · rw [EventSet.toList_ofList (hsorted.imp Event.compare_eq_lt.1)] at hset
    exact hset.agree hlist hne halike
  · intro γ _ w
    refine ⟨WriterCall.perform_mixed (fun h => hmixed (hlist.exists_layout h)) w,
      WriterCall.perform_mixed (fun h => hmixed ?_) w⟩
    simpa only [EventSet.mem_ofList] using hset.exists_layout h
  · intro γ _ w
    obtain ⟨asked, hlog, hunits⟩ :=
      (answered_after w (.writeSet (.ofList given) id timestamp)).units
    refine ⟨asked, hlog, fun u answer hu => ?_⟩
    have hof := hset.of_unit (hunits u answer hu)
    exact ⟨_, hof, fun e => EventSet.mem_ofList, EventSet.pairwise_compare _,
      EventSet.pairwise_time fun e he => (hof.layout e he).1⟩

/-- A buffer with a header and more slots than it needs, which held a later event before. -/
def reused : Except BufferError RecordBuffer := do
  let b ← RecordBuffer.ofSize 44 8 4
  let b ← b.push (.compact { time := 9 })
  let b ← (b.writeHeader [3, 1]).clear.push (.compact { time := 1 })
  b.push (.compact { time := 2 })

theorem reused_agree : ∃ b, reused = .ok b ∧ b.header = [3, 1, 0, 0] ∧ b.capacity = 5 ∧
    let given : List Event := [.compact { time := 1 }, .compact { time := 2 }]
    (WriterCall.writeBuffer .compact b 7 3).Agree (.writeEvents given 7 3) ∧
      (WriterCall.writeSet (.ofList given) 7 3).Agree (.writeEvents given 7 3) ∧
      let mixed : List Event := [.compact {}, .extended {}]
      ∀ w : Synchronized Journal,
        (WriterCall.writeEvents mixed 7 3).perform w = .error .mixed w ∧
          (WriterCall.writeSet (.ofList mixed) 7 3).perform w = .error .mixed w := by
  have hreused : ∃ b, reused = .ok b ∧ b.header = [3, 1, 0, 0] ∧ b.capacity = 5 ∧
      b.records = [Event.compact { time := 1 }, .compact { time := 2 }].map Event.encode := by
    exact ⟨_, rfl, by decide +kernel, by decide +kernel, by decide +kernel⟩
  obtain ⟨b, hb, hheader, hcapacity, hrecords⟩ := hreused
  obtain ⟨-, hbuffer, hset⟩ := (writes_agree [.compact { time := 1 }, .compact { time := 2 }] 7 3).1
    (by simp) .compact 8 (by decide)
  refine ⟨b, hb, hheader, hcapacity, hbuffer b hrecords, hset (by decide), fun w => ?_⟩
  refine (writes_agree [.compact {}, .extended {}] 7 3).2.1 ?_ w
  rintro ⟨kind, size, h⟩
  have hkind : RecordKind.compact = .extended :=
    (h (.compact {}) (by simp)).1.trans (h (.extended {}) (by simp)).1.symm
  cases hkind

end Synchronized

end PulseDaq
