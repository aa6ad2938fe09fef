import PulseDaq.Json.Fields
import PulseDaq.Proofs.Json.RoundTrip
import PulseDaq.Proofs.Lists

/-!
# Fields of a record read back

A record is written as an object that has its fields in order, and each of them is looked up by its
name. Names that are not the one looked for are passed over one by one.

* `Fields.ofValue?_object`: an object that has names of a record in order gives all of its fields.
* `Fields.required_cons_self`, `Fields.withDefault_cons_self`, `Fields.optional_cons_self`: the
  field in front is read if it is the one looked for.
* `natBelow?_nat`, `list?_array`, `nullable_option`: simple values come back.
-/

namespace PulseDaq.Json

/-! ## Readable values -/

attribute [simp] Value.Readable.null Value.Readable.bool Value.Readable.integer
  Value.Readable.string

namespace Value

@[simp] theorem readable_nat (n : Nat) : (nat n).Readable :=
  .integer n

theorem readable_array_map {α : Type} {toJson : α → Value} {l : List α}
    (h : ∀ a ∈ l, (toJson a).Readable) : (array (l.map toJson)).Readable := by
  refine .array fun v hv => ?_
  obtain ⟨a, ha, rfl⟩ := List.mem_map.1 hv
  exact h a ha

theorem readable_option {α : Type} {toJson : α → Value} (h : ∀ a, (toJson a).Readable)
    (o : Option α) : (option toJson o).Readable := by
  cases o with
  | none => exact .null
  | some a => exact h a

end Value

/-! ## Fields -/

namespace Fields

theorem ofValue?_object {names : List String} {fields : List (String × Value)}
    (hnames : (fields.map (·.1)).Sublist names) (hnodup : names.Nodup) :
    ofValue? names (.object fields) = some { given := fields, positional := false } := by
  have hknown : fields.filter (fun f => names.contains f.1) = fields :=
    List.filter_eq_self.2 fun f hf =>
      List.contains_iff_mem.2 (hnames.subset (List.mem_map_of_mem hf))
  unfold ofValue?
  simp only [hknown, hnames.nodup hnodup, if_true]

variable {α : Type} {name other : String} (v : Value) (rest : List (String × Value))
  (positional : Bool) (read : Value → Option α)

@[simp] theorem required_cons_self :
    required { given := (name, v) :: rest, positional } name read = read v := by
  simp [required]

theorem required_cons_of_ne (h : name ≠ other) :
    required { given := (other, v) :: rest, positional } name read =
      required { given := rest, positional } name read := by
  rw [required, required, List.lookup_cons, beq_false_of_ne h]

@[simp] theorem withDefault_cons_self (default : α) :
    withDefault { given := (name, v) :: rest, positional } name default read = read v := by
  simp [withDefault]

theorem withDefault_cons_of_ne (h : name ≠ other) (default : α) :
    withDefault { given := (other, v) :: rest, positional } name default read =
      withDefault { given := rest, positional } name default read := by
  rw [withDefault, withDefault, List.lookup_cons, beq_false_of_ne h]

@[simp] theorem withDefault_nil (default : α) :
    withDefault { given := [], positional } name default read = some default :=
  rfl

@[simp] theorem optional_cons_self :
    optional { given := (name, v) :: rest, positional } name read = nullable read v := by
  simp [optional]

theorem optional_cons_of_ne (h : name ≠ other) :
    optional { given := (other, v) :: rest, positional } name read =
      optional { given := rest, positional } name read := by
  rw [optional, optional, List.lookup_cons, beq_false_of_ne h]

end Fields

/-! ## Simple values -/

@[simp] theorem bool?_bool (b : Bool) : bool? (.bool b) = some b :=
  rfl

@[simp] theorem string?_string (s : String) : string? (.string s) = some s :=
  rfl

theorem natBelow?_nat {bound n : Nat} (h : n < bound) : natBelow? bound (.nat n) = some n := by
  simp [natBelow?, integerIn?, Value.nat, h]

theorem size?_nat {n : Nat} (h : n < UInt64.size) : size? (.nat n) = some n :=
  natBelow?_nat h

@[simp] theorem uint8?_nat (n : UInt8) : uint8? (.nat n.toNat) = some n := by
  simp [uint8?, natBelow?_nat n.toNat_lt]

@[simp] theorem uint16?_nat (n : UInt16) : uint16? (.nat n.toNat) = some n := by
  simp [uint16?, natBelow?_nat n.toNat_lt]

@[simp] theorem uint32?_nat (n : UInt32) : uint32? (.nat n.toNat) = some n := by
  simp [uint32?, natBelow?_nat n.toNat_lt]

@[simp] theorem uint64?_nat (n : UInt64) : uint64? (.nat n.toNat) = some n := by
  simp [uint64?, natBelow?_nat n.toNat_lt]

theorem list?_array {α : Type} {toJson : α → Value} {read : Value → Option α} {l : List α}
    (h : ∀ a ∈ l, read (toJson a) = some a) : list? read (.array (l.map toJson)) = some l :=
  mapM_map_eq_some h

/-- Null stands for nothing only if no value is written as null. -/
theorem nullable_option {α : Type} {toJson : α → Value} {read : Value → Option α} {o : Option α}
    (hnull : ∀ a, toJson a ≠ .null) (h : ∀ a ∈ o, read (toJson a) = some a) :
    nullable read (.option toJson o) = some o := by
  cases o with
  | none => rfl
  | some a =>
    rw [Value.option]
    unfold nullable
    split
    next hv => exact absurd hv (hnull a)
    next => rw [h a rfl, Option.map_some]

end PulseDaq.Json
