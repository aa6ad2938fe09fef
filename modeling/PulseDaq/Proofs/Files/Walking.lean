import PulseDaq.Files.System
import PulseDaq.Proofs.Files.Paths

/-!
# Where paths lead

* `FileSystem.walk_append`: paths are resolved name by name.
* `FileSystem.Extends`: everything is still where it was, so what a path leads to once, it leads to
  for good (`Extends.locate`).
* `FileSystem.locate_join`: a plain name leads one level down.
* `FileSystem.locate_join_join`: so does a second one.
-/

namespace PulseDaq

namespace FileSystem

variable {fs fs' fs₀ : FileSystem}

/-! ## Walking -/

/-- Paths are resolved name by name. -/
theorem walk_cons (fs : FileSystem) (at_ : Location) (name : String) (rest : List String) :
    fs.walk at_ (name :: rest) = (fs.walk at_ [name]).bind fun l => fs.walk l rest := by
  rw [walk, walk]
  cases fs.node? at_ with
  | none => rfl
  | some node =>
    cases node with
    | file bytes => rfl
    | directory =>
      dsimp only
      split
      · rfl
      · split
        · rfl
        · split
          · rfl
          · rfl

theorem walk_append (fs : FileSystem) (at_ : Location) (names rest : List String) :
    fs.walk at_ (names ++ rest) = (fs.walk at_ names).bind fun l => fs.walk l rest := by
  induction names generalizing at_ with
  | nil => rfl
  | cons name names ih =>
    rw [List.cons_append, walk_cons, walk_cons fs at_ name names]
    cases fs.walk at_ [name] with
    | error e => rfl
    | ok l => exact ih l

/-- A plain name leads one level down, unless it is too long. -/
theorem walk_plain {l : Location} (hdir : fs.node? l = some .directory) {name : String}
    (h : Path.Plain name) :
    fs.walk l [name] = if longestName < name.utf8ByteSize then .error .nameTooLong
      else .ok (name :: l) := by
  rw [walk, hdir]
  simp [h.ne_empty, h.ne_dot, h.ne_dots, walk]

/-- What a plain name leads to has the name. -/
theorem eq_cons_of_walk_plain {l l' : Location} {name : String} (h : Path.Plain name)
    (hwalk : fs.walk l [name] = .ok l') : l' = name :: l := by
  cases hnode : fs.node? l with
  | none =>
    rw [walk, hnode] at hwalk
    cases hwalk
  | some node =>
    cases node with
    | file bytes =>
      rw [walk, hnode] at hwalk
      cases hwalk
    | directory =>
      rw [walk_plain hnode h] at hwalk
      split at hwalk
      · cases hwalk
      · cases hwalk
        rfl

/-- An empty name leads nowhere else. -/
theorem eq_of_walk_empty {l l' : Location} (hwalk : fs.walk l [""] = .ok l') : l' = l := by
  rw [walk] at hwalk
  split at hwalk
  · cases hwalk
  · cases hwalk
  · rw [if_pos (.inl rfl)] at hwalk
    cases hwalk
    rfl

/-- Paths that the system is asked about. -/
structure Askable (path : String) : Prop where
  no_nul : path.toList.contains '\x00' = false
  ne_empty : path ≠ ""
  short : path.utf8ByteSize ≤ longestPath

/-- Where a path starts. -/
def start (fs : FileSystem) (path : String) : Location :=
  if Path.isAbsolute path then [] else fs.current

theorem resolve_of_askable {path : String} (h : Askable path) (names : List String) :
    fs.resolve path names = fs.walk (fs.start path) names := by
  rw [resolve, h.no_nul, if_neg Bool.false_ne_true, if_neg h.ne_empty,
    if_neg (Nat.not_lt.2 h.short), start]

/-- Other paths are refused without a look at what is there, which tells them from missing files
unless they are empty. -/
theorem resolve_of_not_askable {path : String} (h : ¬Askable path) :
    ∃ e, (∀ (fs : FileSystem) names, fs.resolve path names = .error e) ∧
      (path ≠ "" → e ≠ .notFound) := by
  by_cases hnul : path.toList.contains '\x00' = true
  · exact ⟨_, fun fs names => if_pos hnul, nofun⟩
  by_cases hempty : path = ""
  · exact ⟨_, fun fs names => (if_neg hnul).trans (if_pos hempty), fun hne => absurd hempty hne⟩
  by_cases hshort : longestPath < path.utf8ByteSize
  · exact ⟨_, fun fs names => (if_neg hnul).trans ((if_neg hempty).trans (if_pos hshort)), nofun⟩
  · exact absurd ⟨by simpa using hnul, hempty, Nat.not_lt.1 hshort⟩ h

theorem resolve_eq_ok_iff {path : String} {names : List String} {l : Location} :
    fs.resolve path names = .ok l ↔ Askable path ∧ fs.walk (fs.start path) names = .ok l := by
  by_cases h : Askable path
  · rw [resolve_of_askable h]
    exact ⟨fun hwalk => ⟨h, hwalk⟩, And.right⟩
  · obtain ⟨e, herror, -⟩ := resolve_of_not_askable h
    rw [herror]
    exact ⟨nofun, fun hok => absurd hok.1 h⟩

/-! ## What stays -/

/-- Everything is still where it was, relative paths included. -/
structure Extends (fs fs' : FileSystem) : Prop where
  current : fs'.current = fs.current
  node : ∀ {at_ node}, fs.node? at_ = some node → fs'.node? at_ = some node

namespace Extends

theorem refl (fs : FileSystem) : fs.Extends fs :=
  ⟨rfl, id⟩

theorem trans (h : fs₀.Extends fs) (h' : fs.Extends fs') : fs₀.Extends fs' :=
  ⟨h'.current.trans h.current, fun hnode => h'.node (h.node hnode)⟩

theorem walk (h : fs.Extends fs') {at_ l : Location} {names : List String}
    (hwalk : fs.walk at_ names = .ok l) : fs'.walk at_ names = .ok l := by
  induction names generalizing at_ with
  | nil => exact hwalk
  | cons name rest ih =>
    rw [walk_cons] at hwalk ⊢
    cases hfirst : fs.walk at_ [name] with
    | error e =>
      rw [hfirst] at hwalk
      cases hwalk
    | ok l' =>
      have hfirst' : fs'.walk at_ [name] = .ok l' := by
        rw [FileSystem.walk] at hfirst ⊢
        cases hnode : fs.node? at_ with
        | none =>
          rw [hnode] at hfirst
          cases hfirst
        | some node =>
          rw [hnode] at hfirst
          rw [h.node hnode]
          cases node with
          | file bytes => cases hfirst
          | directory => exact hfirst
      rw [hfirst] at hwalk
      rw [hfirst']
      exact ih hwalk

theorem locate (h : fs.Extends fs') {path : String} {l : Location}
    (hlocate : fs.locate path = .ok l) : fs'.locate path = .ok l := by
  obtain ⟨haskable, hwalk⟩ := resolve_eq_ok_iff.1 hlocate
  have hstart : fs'.start path = fs.start path := by rw [start, start, h.current]
  exact resolve_eq_ok_iff.2 ⟨haskable, hstart ▸ h.walk hwalk⟩

end Extends

/-! ## Where files go -/

/-- Without a slash at its end a path leads to the same place, whatever is to be there. -/
theorem locateDir_eq_locate (fs : FileSystem) {path : String}
    (h : (Path.names path).getLast? ≠ some "") : fs.locateDir path = fs.locate path := by
  have hdrop : (Path.names path).reverse.dropWhile (· = "") = (Path.names path).reverse := by
    rw [← List.head?_reverse] at h
    cases hnames : (Path.names path).reverse with
    | nil => rfl
    | cons name names =>
      rw [hnames, List.head?_cons, ne_eq, Option.some.injEq] at h
      rw [List.dropWhile_cons_of_neg (by simpa using h)]
  rw [locateDir, hdrop, List.reverse_reverse, locate]

theorem locateFile_eq_ok_iff {path : String} {l : Location} :
    fs.locateFile path = .ok l ↔
      (Path.names path).getLast? ≠ some "" ∧ fs.locate path = .ok l := by
  by_cases hlast : (Path.names path).getLast? = some ""
  · simp only [hlast, ne_eq, not_true, false_and, iff_false]
    unfold locateFile
    cases fs.locateDir path with
    | error e => nofun
    | ok l' =>
      show (if _ then _ else _) ≠ _
      rw [if_pos hlast]
      nofun
  · have hlocate := fs.locateDir_eq_locate hlast
    simp only [ne_eq, hlast, not_false_eq_true, true_and]
    unfold locateFile
    rw [hlocate]
    cases fs.locate path with
    | error e => rfl
    | ok l' =>
      show (if _ then _ else _) = _ ↔ _
      rw [if_neg hlast]

/-- Where a path below another one leads, is found from where that leads. -/
theorem locate_join_eq_ok {base name : String} {l : Location} (h : Path.Plain name)
    (hlocate : fs.locate (Path.join base name) = .ok l) : ∃ r, l = name :: r := by
  obtain ⟨-, hwalk⟩ := resolve_eq_ok_iff.1 hlocate
  obtain ⟨front, hnames, -⟩ := Path.names_join base h
  rw [hnames, walk_append] at hwalk
  cases hfront : fs.walk (fs.start (Path.join base name)) front with
  | error e =>
    rw [hfront] at hwalk
    cases hwalk
  | ok r =>
    rw [hfront] at hwalk
    exact ⟨r, eq_cons_of_walk_plain h hwalk⟩

/-- A plain name leads one level down from a directory, unless the path cannot be one. -/
theorem locate_join {base name : String} {r : Location} (hlocate : fs.locate base = .ok r)
    (hdir : fs.node? r = some .directory) (h : Path.Plain name) :
    fs.locate (Path.join base name) = .ok (name :: r) ∨
      ∃ e, fs.locate (Path.join base name) = .error e ∧ e ≠ .notFound := by
  obtain ⟨hbase, hwalk⟩ := resolve_eq_ok_iff.1 hlocate
  obtain ⟨front, hnames, hfront⟩ := Path.names_join base h
  have hroot : fs.walk (fs.start base) front = .ok r := by
    obtain heq | heq := hfront
    · rwa [heq] at hwalk
    · rw [heq, walk_append] at hwalk
      cases hfront : fs.walk (fs.start base) front with
      | error e =>
        rw [hfront] at hwalk
        cases hwalk
      | ok r' =>
        rw [hfront] at hwalk
        rw [eq_of_walk_empty hwalk]
  by_cases haskable : Askable (Path.join base name)
  · have hstart : fs.start (Path.join base name) = fs.start base := by
      rw [start, start, Path.isAbsolute_join hbase.ne_empty h]
    rw [locate, resolve_of_askable haskable, hnames, hstart, walk_append, hroot]
    show fs.walk r [name] = _ ∨ ∃ e, fs.walk r [name] = _ ∧ _
    rw [walk_plain hdir h]
    split
    · exact .inr ⟨_, rfl, nofun⟩
    · exact .inl rfl
  · obtain ⟨e, herror, hne⟩ := resolve_of_not_askable haskable
    exact .inr ⟨e, herror _ _, hne (Path.join_ne_empty base h)⟩

/-- Names lead below a path only if that leads somewhere. -/
theorem walk_join {base name : String} {l : Location} (hbase : base ≠ "") (h : Path.Plain name)
    (hwalk : fs.walk (fs.start (Path.join base name)) (Path.names (Path.join base name)) = .ok l) :
    ∃ r, fs.walk (fs.start base) (Path.names base) = .ok r ∧ l = name :: r := by
  obtain ⟨front, hnames, hfront⟩ := Path.names_join base h
  have hstart : fs.start (Path.join base name) = fs.start base := by
    rw [start, start, Path.isAbsolute_join hbase h]
  rw [hnames, hstart, walk_append] at hwalk
  cases hroot : fs.walk (fs.start base) front with
  | error e =>
    rw [hroot] at hwalk
    cases hwalk
  | ok r =>
    rw [hroot] at hwalk
    obtain rfl : l = name :: r := eq_cons_of_walk_plain h hwalk
    refine ⟨r, ?_, rfl⟩
    obtain heq | heq := hfront
    · rw [heq, hroot]
    · -- The empty name at the end leads on only from a directory, as the name did.
      rw [heq, walk_append, hroot]
      show fs.walk r [""] = .ok r
      have hname : fs.walk r [name] = .ok (name :: r) := hwalk
      rw [walk] at hname ⊢
      split at hname
      · cases hname
      · cases hname
      next hdir => rfl

/-- Two levels below a path that leads to `r`. -/
theorem locate_join_join {root dir file : String} {r l : Location} (hroot : fs.locate root = .ok r)
    (hdir : Path.Plain dir) (hfile : Path.Plain file)
    (hlocate : fs.locate (Path.join (Path.join root dir) file) = .ok l) :
    l = file :: dir :: r := by
  obtain ⟨haskable, hwalk⟩ := resolve_eq_ok_iff.1 hroot
  obtain ⟨-, hnames⟩ := resolve_eq_ok_iff.1 hlocate
  obtain ⟨d, habove, rfl⟩ := walk_join (Path.join_ne_empty root hdir) hfile hnames
  obtain ⟨r', hroot', rfl⟩ := walk_join haskable.ne_empty hdir habove
  rw [hwalk] at hroot'
  cases hroot'
  rfl

end FileSystem

end PulseDaq
