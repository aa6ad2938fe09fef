import PulseDaq.Proofs.Files.Walking
import PulseDaq.Proofs.Triple

/-!
# Files that stay

Making files and directories only ever adds to a file system, whatever else happens.

* `FileSystem.Holds`: a file with some bytes, which is read (`Holds.read`), stays (`Holds.extends_`)
  and cannot be made again (`Holds.createNew_eq`).
* `FileSystem.Gets`: a new file and nothing else, which is what `createNew` makes.
* `FileSystem.createNew_holds`, `FileSystem.createDirAll_extends`: what new files and directories
  leave behind.
* `FileSystem.Free`: a name in a directory that nothing has yet. Making something else leaves it so,
  and a file can be made there (`Free.createNew_ok`).
-/

namespace PulseDaq

namespace FileSystem

variable {fs fs' fs₀ : FileSystem}

/-! ## Files -/

theorem find_of_locate {path : String} {l : Location} (h : fs.locate path = .ok l) :
    fs.find path = match fs.node? l with
      | some node => .ok node
      | none => .error .notFound := by
  rw [FileSystem.find, h]
  rfl

/-- There is a file with the bytes at the path. -/
def Holds (fs : FileSystem) (path : String) (bytes : Bytes) : Prop :=
  ∃ l, fs.locateFile path = .ok l ∧ fs.node? l = some (.file bytes)

namespace Holds

variable {path : String} {bytes : Bytes}

theorem extends_ (h : fs.Holds path bytes) (hextends : fs.Extends fs') : fs'.Holds path bytes := by
  obtain ⟨l, hlocate, hnode⟩ := h
  obtain ⟨hlast, hlocate⟩ := locateFile_eq_ok_iff.1 hlocate
  exact ⟨l, locateFile_eq_ok_iff.2 ⟨hlast, hextends.locate hlocate⟩, hextends.node hnode⟩

theorem find (h : fs.Holds path bytes) : fs.find path = .ok (.file bytes) := by
  obtain ⟨l, hlocate, hnode⟩ := h
  exact (find_of_locate (locateFile_eq_ok_iff.1 hlocate).2).trans (by rw [hnode])

theorem read (h : fs.Holds path bytes) : fs.read path = .ok bytes := by
  unfold FileSystem.read
  rw [h.find]
  rfl

end Holds

/-- The file system with something more. -/
def added (fs : FileSystem) (l : Location) (node : Node) : FileSystem :=
  { fs with entries := (l, node) :: fs.entries }

theorem node?_added {l : Location} (hnew : fs.node? l = none) (node : Node) (other : Location) :
    (fs.added l node).node? other = if other = l then some node else fs.node? other := by
  have hne : l ≠ [] := by
    rintro rfl
    simp [node?] at hnew
  unfold node? added
  by_cases hother : other = l
  · subst hother
    simp [hne]
  · simp [List.lookup_cons, hother, beq_false_of_ne hother]

theorem extends_added {l : Location} (hnew : fs.node? l = none) (node : Node) :
    fs.Extends (fs.added l node) where
  current := rfl
  node := by
    intro at_ node' hnode
    rw [node?_added hnew, if_neg]
    · exact hnode
    · rintro rfl
      rw [hnode] at hnew
      cases hnew

theorem create_eq (node : Node) (l : Location) (fs : FileSystem) :
    create node l fs = match fs.node? l with
      | some _ => .error .alreadyExists fs
      | none => .ok () (fs.added l node) := by
  show (match fs.node? l with
    | some _ => throw .alreadyExists
    | none => set (fs.added l node) : EStateM OsError FileSystem Unit) fs = _
  cases fs.node? l with
  | none => rfl
  | some _ => rfl

/-- A new file is added where there is nothing. -/
theorem createNew_eq (path : String) (bytes : Bytes) (fs : FileSystem) :
    createNew path bytes fs = match fs.locateFile path with
      | .error e => .error e fs
      | .ok l => create (.file bytes) l fs := by
  show (MonadExcept.ofExcept (fs.locateFile path) >>= create (.file bytes) :
    EStateM OsError FileSystem Unit) fs = _
  cases fs.locateFile path with
  | error e => rfl
  | ok l => rfl

/-- A new directory is added where there is nothing. -/
theorem createDir_eq (path : String) (fs : FileSystem) :
    createDir path fs = match fs.locateDir path with
      | .error e => .error e fs
      | .ok l => create .directory l fs := by
  show (MonadExcept.ofExcept (fs.locateDir path) >>= create .directory :
    EStateM OsError FileSystem Unit) fs = _
  cases fs.locateDir path with
  | error e => rfl
  | ok l => rfl

/-- A new file is added where there was nothing. Otherwise nothing changes. -/
theorem createNew_cases (path : String) (bytes : Bytes) (fs : FileSystem) :
    (∃ l, fs.locateFile path = .ok l ∧ fs.node? l = none ∧
      createNew path bytes fs = .ok () (fs.added l (.file bytes))) ∨
      ∃ e, createNew path bytes fs = .error e fs := by
  rw [createNew_eq]
  cases fs.locateFile path with
  | error e => exact .inr ⟨e, rfl⟩
  | ok l =>
    simp only [create_eq]
    cases hnode : fs.node? l with
    | none => exact .inl ⟨l, rfl, hnode, rfl⟩
    | some _ => exact .inr ⟨_, rfl⟩

/-- A file with the bytes is new at the path, and nothing else has changed. -/
def Gets (fs : FileSystem) (path : String) (bytes : Bytes) (fs' : FileSystem) : Prop :=
  ∃ l, fs.locateFile path = .ok l ∧ fs.node? l = none ∧ fs' = fs.added l (.file bytes)

namespace Gets

variable {path : String} {bytes : Bytes}

theorem extends_ (h : fs.Gets path bytes fs') : fs.Extends fs' := by
  obtain ⟨l, -, hnew, rfl⟩ := h
  exact extends_added hnew _

theorem holds (h : fs.Gets path bytes fs') : fs'.Holds path bytes := by
  obtain ⟨l, hlocate, hnew, rfl⟩ := h
  obtain ⟨hlast, hlocate⟩ := locateFile_eq_ok_iff.1 hlocate
  refine ⟨l, locateFile_eq_ok_iff.2 ⟨hlast, (extends_added hnew _).locate hlocate⟩, ?_⟩
  rw [node?_added hnew, if_pos rfl]

end Gets

theorem createNew_gets (path : String) (bytes : Bytes) (fs : FileSystem) :
    Triple (· = fs) (createNew path bytes) (fun _ => fs.Gets path bytes) fun _ fs' => fs' = fs := by
  intro s hs
  obtain ⟨l, hlocate, hnew, hrun⟩ | ⟨e, hrun⟩ := createNew_cases path bytes fs
  · rw [hs, hrun]
    exact ⟨l, hlocate, hnew, rfl⟩
  · rw [hs, hrun]

/-- What a new file leaves behind. -/
theorem createNew_holds (path : String) (bytes : Bytes) :
    Triple fs₀.Extends (createNew path bytes) (fun _ fs => fs₀.Extends fs ∧ fs.Holds path bytes)
      fun _ fs => fs₀.Extends fs := by
  intro fs hfs
  refine (createNew_gets path bytes fs).imp ?_ ?_ fs rfl
  · exact fun _ _ h => ⟨hfs.trans h.extends_, h.holds⟩
  · rintro _ _ rfl
    exact hfs

/-- A second file leaves the first. -/
theorem createNew_holds_both {path : String} {bytes : Bytes} (path' : String) (bytes' : Bytes) :
    Triple (fun fs => fs₀.Extends fs ∧ fs.Holds path bytes) (createNew path' bytes')
      (fun _ fs => fs₀.Extends fs ∧ fs.Holds path bytes ∧ fs.Holds path' bytes')
      fun _ fs => fs₀.Extends fs := by
  rintro fs ⟨hfs, hholds⟩
  refine (createNew_holds path' bytes').imp ?_ ?_ fs (.refl fs)
  · exact fun _ fs' h => ⟨hfs.trans h.1, hholds.extends_ h.1, h.2⟩
  · exact fun _ fs' h => hfs.trans h

/-- A file that is there is not made again. -/
theorem Holds.createNew_eq {path : String} {bytes : Bytes} (h : fs.Holds path bytes)
    (bytes' : Bytes) : createNew path bytes' fs = .error .alreadyExists fs := by
  obtain ⟨l, hlocate, hnode⟩ := h
  rw [FileSystem.createNew_eq, hlocate]
  show create _ l fs = _
  rw [create_eq, hnode]

/-! ## Directories -/

/-- A new directory is added where there was nothing. Otherwise nothing changes. -/
theorem createDir_cases (path : String) (fs : FileSystem) :
    (∃ l, fs.locateDir path = .ok l ∧ fs.node? l = none ∧
      createDir path fs = .ok () (fs.added l .directory)) ∨
      ∃ e, createDir path fs = .error e fs ∧
        (e = .notFound → fs.locateDir path = .error .notFound) := by
  rw [createDir_eq]
  cases hlocate : fs.locateDir path with
  | error e => exact .inr ⟨e, rfl, fun h => congrArg _ h⟩
  | ok l =>
    simp only [create_eq]
    cases hnode : fs.node? l with
    | none => exact .inl ⟨l, rfl, hnode, rfl⟩
    | some _ => exact .inr ⟨_, rfl, nofun⟩

/-- What making one directory comes to: it is added, or nothing changes. -/
inductive DirectoryMade (fs : FileSystem) (path : String) :
    EStateM.Result OsError FileSystem Unit → Prop
  | made (l : Location) (hlocate : fs.locateDir path = .ok l) (hnew : fs.node? l = none) :
    DirectoryMade fs path (.ok () (fs.added l .directory))
  | there : DirectoryMade fs path (.ok () fs)
  | failed (e : OsError) : DirectoryMade fs path (.error e fs)

/-- A directory that is there already is as good as one that is made. -/
theorem directoryMade_ite (fs : FileSystem) (path : String) (e : OsError) :
    DirectoryMade fs path (if fs.isDirectory path then .ok () fs else .error e fs) := by
  split
  · exact .there
  · exact .failed e

theorem ensureDir_made (path : String) (fs : FileSystem) :
    DirectoryMade fs path (ensureDir path fs) := by
  obtain ⟨l, hlocate, hnew, hrun⟩ | ⟨e, hrun, -⟩ := createDir_cases path fs
  · simp only [ensureDir, hrun]
    exact .made l hlocate hnew
  · simp only [ensureDir, hrun]
    exact directoryMade_ite fs path e

/-- Only where the directory above is missing, more is made than the directory itself. -/
theorem createAlong_made (path : String) (above : List String) (fs : FileSystem) :
    DirectoryMade fs path (createAlong (path :: above) fs) ∨
      fs.locateDir path = .error .notFound ∧
        createAlong (path :: above) fs = (createAlong above >>= fun _ => ensureDir path) fs := by
  rw [createAlong]
  dsimp only
  split
  · exact .inl .there
  obtain ⟨l, hlocate, hnew, hrun⟩ | ⟨e, hrun, hnotFound⟩ := createDir_cases path fs
  · rw [hrun]
    exact .inl (.made l hlocate hnew)
  · rw [hrun]
    cases e with
    | notFound => exact .inr ⟨hnotFound rfl, rfl⟩
    | _ => exact .inl (directoryMade_ite fs path _)

/-- What is true of a file system with and without the directory, is true of the one left. -/
theorem DirectoryMade.triple {P : FileSystem → Prop} {path : String}
    {c : EStateM OsError FileSystem Unit} (h : DirectoryMade fs path (c fs)) (hfs : P fs)
    (hadded : ∀ l, fs.locateDir path = .ok l → fs.node? l = none → P (fs.added l .directory)) :
    Triple (· = fs) c (fun _ => P) fun _ => P := by
  rintro _ rfl
  generalize c _ = r at h ⊢
  cases h with
  | made l hlocate hnew => exact hadded l hlocate hnew
  | there => exact hfs
  | failed e => exact hfs

/-- What is true with one directory more stays true when directories are made. -/
theorem createAlong_preserves {P : FileSystem → Prop}
    (hadded : ∀ fs l, P fs → fs.node? l = none → P (fs.added l .directory)) (paths : List String) :
    Preserves P (createAlong paths) := by
  induction paths with
  | nil => exact .throw _
  | cons path above ih =>
    intro fs hfs
    obtain hmade | ⟨-, hrun⟩ := createAlong_made path above fs
    · exact hmade.triple hfs (fun l _ => hadded fs l hfs) fs rfl
    · rw [hrun]
      refine ih.bind (fun _ fs hfs => ?_) fs hfs
      exact (ensureDir_made path fs).triple hfs (fun l _ => hadded fs l hfs) fs rfl

theorem createDirAll_extends (path : String) : Preserves fs₀.Extends (createDirAll path) :=
  createAlong_preserves (fun _ _ hfs hnew => hfs.trans (extends_added hnew .directory)) _

/-! ## Free names -/

/-- Nothing has the name in the directory, which is there. -/
def Free (fs : FileSystem) (dir name : String) : Prop :=
  ∃ r, fs.locate dir = .ok r ∧ fs.node? r = some .directory ∧
    fs.locate (Path.join dir name) = .ok (name :: r) ∧ fs.node? (name :: r) = none

theorem locate_of_isDirectory {path : String} (h : fs.isDirectory path = true) :
    ∃ r, fs.locate path = .ok r ∧ fs.node? r = some .directory := by
  unfold isDirectory at h
  cases hlocate : fs.locate path with
  | error e =>
    rw [find, hlocate] at h
    cases h
  | ok r =>
    rw [find_of_locate hlocate] at h
    refine ⟨r, rfl, ?_⟩
    cases hnode : fs.node? r with
    | none =>
      rw [hnode] at h
      cases h
    | some node =>
      rw [hnode] at h
      cases node with
      | file bytes => cases h
      | directory => rfl

namespace Free

variable {dir name : String}

/-- A file that is missing from a directory. -/
theorem of_find (hdir : fs.isDirectory dir = true) (h : Path.Plain name)
    (hfind : fs.find (Path.join dir name) = .error .notFound) : fs.Free dir name := by
  obtain ⟨r, hlocate, hnode⟩ := locate_of_isDirectory hdir
  obtain hjoin | ⟨e, herror, hne⟩ := locate_join hlocate hnode h
  · refine ⟨r, hlocate, hnode, hjoin, ?_⟩
    rw [find_of_locate hjoin] at hfind
    split at hfind
    · cases hfind
    · assumption
  · rw [find, herror] at hfind
    cases hfind
    exact absurd rfl hne

theorem of_extends (h : fs.Free dir name) (hextends : fs.Extends fs')
    (hnode : ∀ r, fs.locate dir = .ok r → fs'.node? (name :: r) = fs.node? (name :: r)) :
    fs'.Free dir name := by
  obtain ⟨r, hdir, hnodeDir, hlocate, hfree⟩ := h
  exact ⟨r, hextends.locate hdir, hextends.node hnodeDir, hextends.locate hlocate,
    (hnode r hdir).trans hfree⟩

/-- Something with another name may be added anywhere. -/
theorem added (h : fs.Free dir name) {other : String} {r : Location} (hne : other ≠ name)
    (hnew : fs.node? (other :: r) = none) (node : Node) :
    (fs.added (other :: r) node).Free dir name := by
  refine h.of_extends (extends_added hnew node) fun r' _ => ?_
  rw [node?_added hnew, if_neg]
  intro heq
  exact hne (List.cons.inj heq).1.symm

/-- Another file may be made, wherever that is. -/
theorem createNew (base : String) {file : String} (hfile : Path.Plain file) (hne : file ≠ name)
    (bytes : Bytes) : Preserves (Free · dir name) (createNew (Path.join base file) bytes) := by
  intro fs h
  obtain ⟨l, hlocate, hnew, hrun⟩ | ⟨e, hrun⟩ := createNew_cases (Path.join base file) bytes fs
  · obtain ⟨r, rfl⟩ := locate_join_eq_ok hfile (locateFile_eq_ok_iff.1 hlocate).2
    rw [hrun]
    exact h.added hne hnew _
  · rw [hrun]
    exact h

/-- Another directory may be made beside it. -/
theorem createDirAll {sub : String} (hsub : Path.Plain sub) (hne : sub ≠ name) :
    Preserves (Free · dir name) (createDirAll (Path.join dir sub)) := by
  intro fs h
  obtain ⟨r, hdir, hnodeDir, -⟩ := id h
  have hlast := Path.getLast?_names_join_ne dir hsub
  have hlocate := locate_join hdir hnodeDir hsub
  rw [← locateDir_eq_locate fs hlast] at hlocate
  obtain hmade | ⟨hmissing, -⟩ := createAlong_made (Path.join dir sub) _ fs
  · refine hmade.triple h (fun l hl hnew => ?_) fs rfl
    obtain ⟨r, rfl⟩ := locate_join_eq_ok hsub ((locateDir_eq_locate fs hlast).symm.trans hl)
    exact h.added hne hnew _
  · obtain hok | ⟨e, herror, hne⟩ := hlocate
    · rw [hok] at hmissing
      cases hmissing
    · rw [herror] at hmissing
      cases hmissing
      exact absurd rfl hne

/-- A file with the name can be made. -/
theorem createNew_ok (h : fs.Free dir name) (hname : Path.Plain name) (bytes : Bytes) :
    ∃ fs', FileSystem.createNew (Path.join dir name) bytes fs = .ok () fs' := by
  obtain ⟨r, -, -, hlocate, hfree⟩ := h
  have hlast := Path.getLast?_names_join_ne dir hname
  refine ⟨fs.added (name :: r) (.file bytes), ?_⟩
  rw [createNew_eq, locateFile_eq_ok_iff.2 ⟨hlast, hlocate⟩]
  show create _ _ fs = _
  rw [create_eq, hfree]

end Free

end FileSystem

end PulseDaq
