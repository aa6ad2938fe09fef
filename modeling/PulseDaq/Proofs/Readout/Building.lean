import Mathlib.Data.List.Basic
import Mathlib.Data.List.Induction
import PulseDaq.Readout.Aggregate

/-!
# Board aggregates built by adding groups

* `BoardAggregate.ofCalls`: the aggregate that a sequence of additions builds.
* `groups_ofCalls`: its groups are in ascending order whatever order they were added in, and each
  is what was added last under its index.
* `groups_ofCalls_of_ascending`: groups that are added in ascending order stay in that order.
* `testBit_ofGroups`: the mask of a list of groups has the bits of just these.
-/

namespace PulseDaq

/-- The arguments with which a group is added to a board aggregate. -/
structure GroupCall where
  index : UInt8
  format : GroupFormat
  events : List SyntheticEvent
  deriving DecidableEq, Repr

/-- The group that is added. -/
def GroupCall.aggregate (c : GroupCall) : GroupAggregate where
  index := ⟨c.index.toNat % 8, Nat.mod_lt _ (by decide)⟩
  format := c.format
  events := c.events

/-- The last addition under an index. -/
def lastCall? (calls : List GroupCall) (g : Group) : Option GroupCall :=
  (calls.filter fun c => c.index.toNat = g.val).getLast?

theorem lastCall?_concat (calls : List GroupCall) (c : GroupCall) (g : Group) :
    lastCall? (calls ++ [c]) g = if c.index.toNat = g.val then some c else lastCall? calls g := by
  unfold lastCall?
  rw [List.filter_append]
  by_cases h : c.index.toNat = g.val <;> simp [h]

theorem index_of_lastCall? {calls : List GroupCall} {g : Group} {c : GroupCall}
    (h : lastCall? calls g = some c) : c ∈ calls ∧ c.index.toNat = g.val := by
  have hmem := List.mem_of_getLast? h
  simpa using hmem

/-- What is added last under an index is the group of that index. -/
theorem index_aggregate {calls : List GroupCall} {g : Group} {c : GroupCall}
    (h : lastCall? calls g = some c) : c.aggregate.index = g := by
  have hc := (index_of_lastCall? h).2
  apply Fin.ext
  rw [← hc]
  exact Nat.mod_eq_of_lt (by rw [hc]; exact g.isLt)

namespace BoardAggregate

/-- The aggregate built by adding groups one after the other. -/
def ofCalls (calls : List GroupCall) : BoardAggregate :=
  calls.foldl (fun a c => a.add c.index c.format c.events) empty

/-- A group goes in front of groups whose indices are all larger. -/
theorem insertGroup_of_lt {g : GroupAggregate} {gs : List GroupAggregate}
    (h : ∀ a ∈ gs, g.index < a.index) : insertGroup g gs = g :: gs := by
  cases gs with
  | nil => rfl
  | cons a rest => simp [insertGroup, Fin.not_le.2 (h a List.mem_cons_self)]

/-- What is found under each index once `a` has replaced the group of its own. -/
def replaced (look : Group → Option GroupAggregate) (a : GroupAggregate) (g : Group) :
    Option GroupAggregate :=
  if g = a.index then some a else look g

theorem replaced_of_ne {look : Group → Option GroupAggregate} {a : GroupAggregate} {g : Group}
    (h : g ≠ a.index) : replaced look a g = look g :=
  if_neg h

theorem replaced_index (look : Group → Option GroupAggregate) (a : GroupAggregate) :
    replaced look a a.index = some a :=
  if_pos rfl

/-- Replacing the group of one index, in a list that has for each index what `look` finds, changes
what is found there. -/
theorem insertGroup_filterMap {look : Group → Option GroupAggregate} {a : GroupAggregate}
    (hlook : ∀ g b, look g = some b → b.index = g) {l : List Group} (hl : l.Pairwise (· < ·))
    (ha : a.index ∈ l) :
    insertGroup a ((l.filterMap look).filter fun b => b.index ≠ a.index) =
      l.filterMap (replaced look a) := by
  induction l with
  | nil => cases ha
  | cons g l ih =>
    obtain ⟨hg, hl⟩ := List.pairwise_cons.1 hl
    by_cases heq : g = a.index
    · -- Everything behind the index is larger, so nothing else is replaced there.
      subst heq
      have hlarger : ∀ b ∈ l.filterMap look, a.index < b.index := by
        intro b hb
        obtain ⟨x, hx, hxb⟩ := List.mem_filterMap.1 hb
        rw [hlook x b hxb]
        exact hg x hx
      have hkept : (l.filterMap look).filter (fun b => b.index ≠ a.index) = l.filterMap look :=
        List.filter_eq_self.2 fun b hb => by simpa using Fin.ne_of_gt (hlarger b hb)
      have hrest : l.filterMap (replaced look a) = l.filterMap look :=
        List.filterMap_congr fun x hx => replaced_of_ne (Fin.ne_of_gt (hg x hx))
      rw [List.filterMap_cons_some (replaced_index look a), hrest]
      cases hx : look a.index with
      | none => rw [List.filterMap_cons_none hx, hkept, insertGroup_of_lt hlarger]
      | some b =>
        rw [List.filterMap_cons_some hx, List.filter_cons_of_neg (by simp [hlook _ _ hx]), hkept,
          insertGroup_of_lt hlarger]
    · have hmem : a.index ∈ l := (List.mem_cons.1 ha).resolve_left fun h => heq h.symm
      cases hx : look g with
      | none =>
        rw [List.filterMap_cons_none hx, List.filterMap_cons_none ((replaced_of_ne heq).trans hx)]
        exact ih hl hmem
      | some b =>
        have hb := hlook g b hx
        have hle : b.index ≤ a.index := by rw [hb]; exact Fin.le_of_lt (hg _ hmem)
        rw [List.filterMap_cons_some hx, List.filterMap_cons_some ((replaced_of_ne heq).trans hx),
          List.filter_cons_of_pos (by simp [hb, heq]), insertGroup, if_pos hle, ih hl hmem]

/-- The groups that additions leave: for each index the last one. -/
def lastGroups (calls : List GroupCall) : List GroupAggregate :=
  (List.finRange 8).filterMap fun g => (lastCall? calls g).map GroupCall.aggregate

theorem groups_add {a : BoardAggregate} {calls : List GroupCall} {c : GroupCall}
    (ha : a.groups = lastGroups calls) (hc : c.index.toNat < 8) :
    (a.add c.index c.format c.events).groups = lastGroups (calls ++ [c]) := by
  have hval : c.aggregate.index.val = c.index.toNat := Nat.mod_eq_of_lt hc
  have hlook : ∀ g b, (lastCall? calls g).map GroupCall.aggregate = some b → b.index = g := by
    intro g b hb
    obtain ⟨c', hc', rfl⟩ := Option.map_eq_some_iff.1 hb
    exact index_aggregate hc'
  have hfilter : (fun b : GroupAggregate => decide (b.index.val ≠ c.index.toNat)) =
      fun b => decide (b.index ≠ c.aggregate.index) := by
    funext b
    simp only [ne_eq, ← hval, Fin.ext_iff]
  have hinsert := insertGroup_filterMap hlook (List.pairwise_lt_finRange 8)
    (List.mem_finRange c.aggregate.index)
  simp only [add, ha, hfilter]
  refine hinsert.trans (List.filterMap_congr fun g _ => ?_)
  rw [lastCall?_concat, ← hval]
  by_cases h : g = c.aggregate.index
  · subst h
    rw [replaced_index, if_pos rfl]
    rfl
  · rw [replaced_of_ne h, if_neg fun hv => h (Fin.ext hv.symm)]

/-- Additions to an aggregate that holds the last groups of `done` leave the last ones of all. -/
theorem groups_foldl_add {a : BoardAggregate} {done rest : List GroupCall}
    (ha : a.groups = lastGroups done) (hrest : ∀ c ∈ rest, c.index.toNat < 8) :
    (rest.foldl (fun a c => a.add c.index c.format c.events) a).groups =
      lastGroups (done ++ rest) := by
  induction rest generalizing a done with
  | nil =>
    rw [List.append_nil]
    exact ha
  | cons c rest ih =>
    have hadd := groups_add ha (hrest c List.mem_cons_self)
    have hgroups := ih hadd fun c' hc' => hrest c' (.tail _ hc')
    rw [List.append_assoc] at hgroups
    exact hgroups

/-- The groups of an aggregate are in ascending order, and each is the one added last. -/
theorem groups_ofCalls {calls : List GroupCall} (h : ∀ c ∈ calls, c.index.toNat < 8) :
    (ofCalls calls).groups = lastGroups calls := by
  have hempty : empty.groups = lastGroups [] := by decide
  exact groups_foldl_add hempty h

/-- A group goes behind groups whose indices are not larger. -/
theorem insertGroup_of_le {g : GroupAggregate} {gs : List GroupAggregate}
    (h : ∀ a ∈ gs, a.index ≤ g.index) : insertGroup g gs = gs ++ [g] := by
  induction gs with
  | nil => rfl
  | cons a rest ih =>
    obtain ⟨ha, hrest⟩ := List.forall_mem_cons.1 h
    rw [insertGroup, if_pos ha, ih hrest, List.cons_append]

/-- Groups that are added in ascending order stay in the order in which they are added. -/
theorem groups_ofCalls_of_ascending {calls : List GroupCall}
    (hproper : ∀ c ∈ calls, c.index.toNat < 8)
    (hasc : calls.Pairwise fun c c' => c.index.toNat < c'.index.toNat) :
    (ofCalls calls).groups = calls.map GroupCall.aggregate := by
  -- The group that is added last is larger than all in front of it.
  induction calls using List.reverseRecOn with
  | nil => rfl
  | append_singleton calls c ih =>
    obtain ⟨hasc, -, hlast⟩ := List.pairwise_append.1 hasc
    have hgroups := ih (fun c' hc' => hproper c' (List.mem_append_left _ hc')) hasc
    have hval {c' : GroupCall} (hc' : c' ∈ calls ++ [c]) :
        c'.aggregate.index.val = c'.index.toNat :=
      Nat.mod_eq_of_lt (hproper c' hc')
    have hbelow : ∀ a ∈ (ofCalls calls).groups, a.index.val < c.index.toNat := by
      rw [hgroups]
      intro a ha
      obtain ⟨c', hc', rfl⟩ := List.mem_map.1 ha
      rw [hval (List.mem_append_left _ hc')]
      exact hlast c' hc' c List.mem_cons_self
    have hkept : ((ofCalls calls).groups.filter fun a => a.index.val ≠ c.index.toNat) =
        (ofCalls calls).groups :=
      List.filter_eq_self.2 fun a ha => decide_eq_true (Nat.ne_of_lt (hbelow a ha))
    have hinsert : insertGroup c.aggregate (ofCalls calls).groups =
        (ofCalls calls).groups ++ [c.aggregate] := by
      refine insertGroup_of_le fun a ha => Fin.le_def.2 ?_
      rw [hval (List.mem_append_right _ List.mem_cons_self)]
      exact Nat.le_of_lt (hbelow a ha)
    rw [ofCalls, List.foldl_append]
    show insertGroup c.aggregate ((ofCalls calls).groups.filter _) = _
    rw [hkept, hinsert, hgroups, List.map_append]
    rfl

end BoardAggregate

/-! ## Masks -/

theorem testBit_foldl_or (groups : List Group) (mask i : Nat) :
    (groups.foldl (fun mask g => mask ||| 1 <<< g.val) mask).testBit i =
      (mask.testBit i || groups.any fun g => g.val = i) := by
  induction groups generalizing mask with
  | nil => simp
  | cons g groups ih =>
    rw [List.foldl_cons, ih, Nat.testBit_or, Nat.one_shiftLeft, Nat.testBit_two_pow, List.any_cons,
      Bool.or_assoc]

/-- The mask of groups has the bit of every one of them, and no other. -/
theorem testBit_ofGroups (groups : List Group) (i : Nat) :
    (GroupMask.ofGroups groups).testBit i = groups.any fun g => g.val = i := by
  rw [GroupMask.ofGroups, testBit_foldl_or, Nat.zero_testBit, Bool.false_or]

end PulseDaq
