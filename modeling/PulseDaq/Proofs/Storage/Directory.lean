import PulseDaq.Proofs.Files.Creation
import PulseDaq.Proofs.Text.Decimal
import PulseDaq.Storage.Directory

/-!
# What a directory of a run keeps

* `DirectoryBackend.digitizerName_inj`: two digitizers never share a directory.
* `DirectoryBackend.createDigitizer_effect`, `writeUnit_effect`, `close_effect`: the files that each
  backend call leaves behind. What it counts is counted only if it succeeds.
* `DirectoryBackend.writeUnit_again`: a stored unit is not stored over.
-/

namespace PulseDaq

/-- What is stored about a unit. -/
def StoredUnit.attributes (u : StoredUnit) : UnitAttributes where
  timestamp := u.timestamp
  elements := u.elements
  elementSize := u.elementSize

namespace DirectoryBackend

open Json (Value)

/-! ## Names -/

theorem toList_digitizerName (id : UInt64) : (digitizerName id).toList =
    Nat.toDigits 10 (id.toNat / UInt32.size) ++
      '_' :: Nat.toDigits 10 (id.toNat % UInt32.size) := by
  simp only [digitizerName, String.toList_append, Nat.toString_eq_repr, Nat.toList_repr,
    List.append_assoc]
  rfl

/-- Two digitizers never share a directory. -/
theorem digitizerName_inj {id id' : UInt64} (h : digitizerName id = digitizerName id') :
    id = id' := by
  have htext := congrArg String.toList h
  rw [toList_digitizerName, toList_digitizerName] at htext
  obtain ⟨hdiv, hbehind⟩ := toDigits_append_inj rfl rfl htext
  have hmod := toDigits_inj (List.cons.inj hbehind).2
  apply UInt64.toNat_inj.1
  rw [← Nat.div_add_mod id.toNat UInt32.size, ← Nat.div_add_mod id'.toNat UInt32.size, hdiv, hmod]

/-- A name that begins with a digit is none that does not. -/
theorem ne_of_digits {name text : String} {n : Nat} {rest : List Char}
    (hname : name.toList = Nat.toDigits 10 n ++ rest)
    (htext : text.toList.head?.any Char.isDigit = false) : name ≠ text := by
  rintro rfl
  obtain ⟨c, cs, hcs⟩ := List.exists_cons_of_ne_nil (Nat.toDigits_ne_nil (b := 10) (n := n))
  have hfirst : c.isDigit = true := isDigit_of_mem_toDigits (hcs ▸ List.mem_cons_self)
  rw [hname, hcs] at htext
  simp [hfirst] at htext

/-- A name that begins with a digit and has no slash. -/
theorem plain_of_digits {name : String} {n : Nat} {rest : List Char}
    (hname : name.toList = Nat.toDigits 10 n ++ rest) (hrest : '/' ∉ rest) : Path.Plain name := by
  refine ⟨ne_of_digits hname rfl, ne_of_digits hname rfl, ne_of_digits hname rfl, ?_⟩
  rw [hname, List.mem_append, not_or]
  exact ⟨notMem_toDigits rfl, hrest⟩

theorem plain_digitizerName (id : UInt64) : Path.Plain (digitizerName id) := by
  refine plain_of_digits (toList_digitizerName id) fun hc => ?_
  rcases List.mem_cons.1 hc with hc | hc
  · cases hc
  · exact notMem_toDigits rfl hc

theorem toList_numbered (n : Nat) (extension : String) :
    (toString n ++ extension).toList = Nat.toDigits 10 n ++ extension.toList := by
  rw [String.toList_append, Nat.toString_eq_repr, Nat.toList_repr]

/-- The files of units have different names. -/
theorem numbered_inj {m n : Nat} {extension extension' : String}
    (hrest : extension.toList.head?.any Char.isDigit = false)
    (hrest' : extension'.toList.head?.any Char.isDigit = false)
    (h : toString m ++ extension = toString n ++ extension') :
    m = n ∧ extension = extension' := by
  have htext := congrArg String.toList h
  rw [toList_numbered, toList_numbered] at htext
  obtain ⟨hnumber, hbehind⟩ := toDigits_append_inj hrest hrest' htext
  exact ⟨hnumber, String.toList_inj.1 hbehind⟩

/-- The files of units have plain names. -/
theorem plain_numbered (n : Nat) {extension : String} (h : '/' ∉ extension.toList) :
    Path.Plain (toString n ++ extension) :=
  plain_of_digits (toList_numbered n extension) h

/-! ## Counts -/

/-- The counts stand in the order of the names, and each name stands once. -/
def Ordered (units : List (String × Nat)) : Prop :=
  units.Pairwise fun a b => a.1 < b.1

/-- Setting a count changes no other one. -/
theorem mem_setCount {name other : String} {count n : Nat} {units : List (String × Nat)}
    (h : Ordered units) :
    (other, n) ∈ setCount name count units ↔
      other = name ∧ n = count ∨ other ≠ name ∧ (other, n) ∈ units := by
  induction units with
  | nil => simp [setCount]
  | cons u units ih =>
    obtain ⟨first, m⟩ := u
    obtain ⟨hfirst, hrest⟩ := List.pairwise_cons.1 h
    have hbehind (hother : (other, n) ∈ units) : first ≠ other :=
      String.ne_of_lt (hfirst _ hother)
    unfold setCount
    split
    next heq =>
      subst heq
      simp only [List.mem_cons, Prod.mk.injEq]
      grind
    next hne =>
      split
      next hlt =>
        have hother (hother : (other, n) ∈ units) : name ≠ other :=
          String.ne_of_lt (String.lt_trans hlt (hfirst _ hother))
        simp only [List.mem_cons, Prod.mk.injEq]
        grind
      next =>
        simp only [List.mem_cons, Prod.mk.injEq, ih hrest]
        grind

theorem ordered_setCount {name : String} {count : Nat} {units : List (String × Nat)}
    (h : Ordered units) : Ordered (setCount name count units) := by
  induction units with
  | nil => exact List.pairwise_singleton _ _
  | cons u units ih =>
    obtain ⟨first, m⟩ := u
    obtain ⟨hfirst, hrest⟩ := List.pairwise_cons.1 h
    unfold setCount
    split
    next heq =>
      subst heq
      exact .cons hfirst hrest
    next hne =>
      split
      next hlt =>
        refine .cons (fun v hv => ?_) h
        rcases List.mem_cons.1 hv with rfl | hv
        · exact hlt
        · exact String.lt_trans hlt (hfirst v hv)
      next hle =>
        have hlt : first < name := by
          rcases String.le_total name first with h | h
          · exact absurd (String.le_antisymm h (String.not_lt.1 hle)) hne
          · exact String.not_le.1 fun h' => hne (String.le_antisymm h' h)
        refine .cons (fun v hv => ?_) (ih hrest)
        obtain ⟨other, n⟩ := v
        obtain ⟨rfl, -⟩ | ⟨-, hv⟩ := (mem_setCount hrest).1 hv
        · exact hlt
        · exact hfirst _ hv

theorem lookup_eq_some_iff {name : String} {n : Nat} {units : List (String × Nat)}
    (h : Ordered units) : units.lookup name = some n ↔ (name, n) ∈ units := by
  induction units with
  | nil => simp
  | cons u units ih =>
    obtain ⟨first, m⟩ := u
    obtain ⟨hfirst, hrest⟩ := List.pairwise_cons.1 h
    have hbehind (hname : (name, n) ∈ units) : first ≠ name :=
      String.ne_of_lt (hfirst _ hname)
    rw [List.lookup_cons]
    by_cases heq : name = first
    · subst heq
      simp only [beq_self_eq_true, Option.some.injEq, List.mem_cons, Prod.mk.injEq, true_and]
      grind
    · rw [beq_false_of_ne heq]
      simp only [ih hrest, List.mem_cons, Prod.mk.injEq, heq, false_and, false_or]

/-! ## Calls of the backend -/

-- Whoever looks into a triple would run the call that it is about, as far as its path is known.
attribute [local irreducible] FileSystem.createNew FileSystem.createDirAll

section

variable {φ : Type} {root : String} {units : List (String × Nat)} {P Q R : φ → Prop}
  {E : WriterError → φ → Prop}

/-- The root and the counts of a directory, and a property of the files. -/
def Has (root : String) (units : List (String × Nat)) (P : φ → Prop) (b : RunDirectory φ) : Prop :=
  b.root = root ∧ b.units = units ∧ P b.files

theorem onFiles_triple {op : EStateM OsError φ α} {wrap : OsError → WriterError}
    (h : Triple P op (fun _ => Q) fun e => E (wrap e)) :
    Triple (Has root units P) (onFiles wrap op) (fun _ => Has root units Q)
      fun e => Has root units (E e) := by
  rintro b ⟨hroot, hunits, hfiles⟩
  have hop := h b.files hfiles
  unfold onFiles
  cases hrun : op b.files with
  | ok a files =>
    rw [hrun] at hop
    exact ⟨hroot, hunits, hop⟩
  | error e files =>
    rw [hrun] at hop
    exact ⟨hroot, hunits, hop⟩

theorem writeJson_triple [Files φ] {path : String} {v : Value}
    (h : Triple P (Files.createNew path (Utf8.encode v.pretty)) (fun _ => Q)
      fun e => E (.io path e)) :
    Triple (Has root units P) (writeJson path v) (fun _ => Has root units Q)
      fun e => Has root units (E e) :=
  onFiles_triple h

/-- A file in a digitizer's directory. -/
def fileOf (root : String) (id : UInt64) (name : String) : String :=
  Path.join (Path.join root (digitizerName id)) name

/-- The file with the records of a unit. -/
def recordsFile (root : String) (u : StoredUnit) : String :=
  fileOf root u.id s!"{u.timestamp.toNat}.bin"

/-- The file with the attributes of a unit. -/
def attributesFile (root : String) (u : StoredUnit) : String :=
  fileOf root u.id s!"{u.timestamp.toNat}.json"

/-- A digitizer's directory and what is stored in it about the digitizer. -/
theorem createDigitizer_triple [Files φ] {id : UInt64} {a : DigitizerAttributes}
    (hdir : Triple P (Files.createDirAll (Path.join root (digitizerName id))) (fun _ => Q)
      fun e => E (.io (Path.join root (digitizerName id)) e))
    (hfile : Triple Q (Files.createNew (fileOf root id "digitizer.json")
      (Utf8.encode a.toJson.pretty)) (fun _ => R)
      fun e => E (.io (fileOf root id "digitizer.json") e)) :
    Triple (Has root units P) (createDigitizer id a)
      (fun _ => Has root (setCount (digitizerName id) 0 units) R)
      fun e => Has root units (E e) := by
  refine .bind_get fun b hb => .pre (P := Has root units P) ?_ (by rintro _ rfl; exact hb)
  have hpath : b.digitizerDir id = Path.join root (digitizerName id) := by
    rw [RunDirectory.digitizerDir, hb.1]
  simp only [hpath]
  refine .bind (onFiles_triple hdir) fun _ => .bind (writeJson_triple hfile) fun _ => .modify ?_
  rintro b' ⟨hroot, hunits, hfiles⟩
  exact ⟨hroot, congrArg _ hunits, hfiles⟩

/-- The records of a unit, and what is stored about it. -/
theorem writeUnit_triple [Files φ] {u : StoredUnit}
    (hrecords : Triple P (Files.createNew (recordsFile root u) u.bytes) (fun _ => Q)
      fun e => E (unitError u (recordsFile root u) e))
    (hattributes : Triple Q (Files.createNew (attributesFile root u)
      (Utf8.encode u.attributes.toJson.pretty)) (fun _ => R)
      fun e => E (.io (attributesFile root u) e)) :
    Triple (Has root units P) (writeUnit u)
      (fun _ => Has root
        (setCount (digitizerName u.id) ((units.lookup (digitizerName u.id)).getD 0 + 1) units) R)
      fun e => Has root units (E e) := by
  refine .bind_get fun b hb => .pre (P := Has root units P) ?_ (by rintro _ rfl; exact hb)
  have hpath : b.digitizerDir u.id = Path.join root (digitizerName u.id) := by
    rw [RunDirectory.digitizerDir, hb.1]
  simp only [hpath]
  refine .bind (onFiles_triple hrecords) fun _ =>
    .bind (writeJson_triple hattributes) fun _ => .modify ?_
  rintro b' ⟨hroot, hunits, hfiles⟩
  refine ⟨hroot, ?_, hfiles⟩
  show setCount _ ((b'.units.lookup _).getD 0 + 1) b'.units = _
  rw [hunits]

/-- The counts as they are written in the end. -/
def indexOf (units : List (String × Nat)) : Value :=
  .object [("units", .object (units.map fun (name, n) => (name, .nat n)))]

theorem close_triple [Files φ]
    (h : Triple P (Files.createNew (Path.join root "index.json")
      (Utf8.encode (indexOf units).pretty)) (fun _ => Q)
      fun e => E (.io (Path.join root "index.json") e)) :
    Triple (Has root units P) close (fun _ => Has root units Q) fun e => Has root units (E e) := by
  refine .bind_get fun b hb => .pre (P := Has root units P) ?_ (by rintro _ rfl; exact hb)
  have hindex : b.index = indexOf units := by rw [RunDirectory.index, indexOf, hb.2.1]
  rw [hindex, hb.1]
  exact writeJson_triple h

/-- What making room for a digitizer leaves behind. -/
theorem createDigitizer_effect (id : UInt64) (a : DigitizerAttributes) {fs : FileSystem} :
    Triple (Has root units fs.Extends) (createDigitizer id a)
      (fun _ => Has root (setCount (digitizerName id) 0 units) fun fs' => fs.Extends fs' ∧
        fs'.Holds (fileOf root id "digitizer.json") (Utf8.encode a.toJson.pretty))
      fun _ => Has root units fs.Extends :=
  createDigitizer_triple (FileSystem.createDirAll_extends _) (FileSystem.createNew_holds _ _)

/-- What storing a unit leaves behind. -/
theorem writeUnit_effect (u : StoredUnit) {fs : FileSystem} :
    Triple (Has root units fs.Extends) (writeUnit u)
      (fun _ => Has root
        (setCount (digitizerName u.id) ((units.lookup (digitizerName u.id)).getD 0 + 1) units)
        fun fs' => fs.Extends fs' ∧ fs'.Holds (recordsFile root u) u.bytes ∧
          fs'.Holds (attributesFile root u) (Utf8.encode u.attributes.toJson.pretty))
      fun _ => Has root units fs.Extends :=
  writeUnit_triple (FileSystem.createNew_holds _ _) (FileSystem.createNew_holds_both _ _)

/-- What closing leaves behind. -/
theorem close_effect {fs : FileSystem} :
    Triple (Has root units fs.Extends) close
      (fun _ => Has root units fun fs' => fs.Extends fs' ∧
        fs'.Holds (Path.join root "index.json") (Utf8.encode (indexOf units).pretty))
      fun _ => Has root units fs.Extends :=
  close_triple (FileSystem.createNew_holds _ _)

/-- A unit is not stored over another one. -/
theorem writeUnit_again {b : DirectoryBackend} {u : StoredUnit} {bytes : Bytes}
    (h : b.files.Holds (recordsFile b.root u) bytes) :
    writeUnit u b = .error (.alreadyExists u.id u.timestamp) b := by
  have hcreate : Files.createNew
      (Path.join (b.digitizerDir u.id) s!"{u.timestamp.toNat}.bin") u.bytes b.files = _ :=
    h.createNew_eq u.bytes
  refine bind_of_error (s := b) (c := onFiles _ _) ?_
  rw [onFiles, hcreate]
  rfl

end

end DirectoryBackend

end PulseDaq
