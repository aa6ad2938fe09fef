import PulseDaq.Files.Path

/-!
# Paths below a directory

* `Path.Plain`: names that lead one level down.
* `Path.names_join`: joining a plain name adds it behind the names of the directory.
* `Path.parent?_join`: the directory comes back as the parent.
-/

namespace PulseDaq.Path

/-- A name that is neither empty nor a dot or two, and no longer path. -/
structure Plain (name : String) : Prop where
  ne_empty : name ≠ ""
  ne_dot : name ≠ "."
  ne_dots : name ≠ ".."
  no_slash : '/' ∉ name.toList

theorem pieces_ne_nil (text : List Char) : pieces text ≠ [] := by
  cases text with
  | nil => nofun
  | cons c rest =>
    unfold pieces
    split
    · nofun
    · split
      · nofun
      · nofun

/-- A slash separates. -/
theorem pieces_append_slash (text rest : List Char) :
    pieces (text ++ '/' :: rest) = pieces text ++ pieces rest := by
  induction text with
  | nil => simp [pieces]
  | cons c text ih =>
    rw [List.cons_append, pieces, pieces, ih]
    split
    · rfl
    · obtain ⟨piece, more, h⟩ := List.exists_cons_of_ne_nil (pieces_ne_nil text)
      rw [h]
      rfl

theorem pieces_of_no_slash {text : List Char} (h : '/' ∉ text) : pieces text = [text] := by
  induction text with
  | nil => rfl
  | cons c text ih =>
    rw [List.mem_cons, not_or] at h
    rw [pieces, if_neg (Ne.symm h.1), ih h.2]

theorem Plain.names {name : String} (h : Plain name) : names name = [name] := by
  rw [Path.names, pieces_of_no_slash h.no_slash]
  simp

theorem Plain.isAbsolute {name : String} (h : Plain name) : isAbsolute name = false := by
  have hslash := h.no_slash
  unfold Path.isAbsolute
  cases hname : name.toList with
  | nil => rfl
  | cons c rest =>
    rw [hname, List.mem_cons, not_or] at hslash
    simpa using Ne.symm hslash.1

/-- The directory with one slash at its end. -/
def slashed (base : String) : String :=
  if base.isEmpty || base.toList.getLast? = some '/' then base else base ++ "/"

theorem join_eq {base name : String} (h : Plain name) : join base name = slashed base ++ name := by
  rw [join, h.isAbsolute, slashed, if_neg Bool.false_ne_true]
  split
  · rfl
  · rfl

/-- A plain name joined to a directory is behind the names of the directory, but for an empty one
behind a slash. -/
theorem names_join (base : String) {name : String} (h : Plain name) :
    ∃ front, names (join base name) = front ++ [name] ∧
      (names base = front ∨ names base = front ++ [""]) := by
  have hname := h.names
  rw [join_eq h, slashed]
  split
  next hend =>
    rcases Bool.or_eq_true_iff.1 hend with hempty | hslash
    · obtain rfl : base = "" := String.isEmpty_iff.1 hempty
      exact ⟨[], by simpa using hname, .inr rfl⟩
    · obtain ⟨text, htext⟩ := List.getLast?_eq_some_iff.1 (of_decide_eq_true hslash)
      refine ⟨(pieces text).map String.ofList, ?_, .inr ?_⟩
      · rw [names] at hname
        rw [names, String.toList_append, htext, List.append_assoc, List.singleton_append,
          pieces_append_slash, List.map_append, hname]
      · rw [names, htext, pieces_append_slash, List.map_append]
        rfl
  next =>
    refine ⟨names base, ?_, .inl rfl⟩
    rw [names] at hname
    rw [names, String.toList_append, String.toList_append, List.append_assoc]
    show List.map _ (pieces (base.toList ++ '/' :: name.toList)) = _
    rw [pieces_append_slash, List.map_append, hname]
    rfl

/-- A path does not end in a slash if its last name is plain. -/
theorem getLast?_names_join_ne (base : String) {name : String} (h : Plain name) :
    (names (join base name)).getLast? ≠ some "" := by
  obtain ⟨front, hnames, -⟩ := names_join base h
  rw [hnames, List.getLast?_concat]
  exact fun hempty => h.ne_empty (Option.some.inj hempty)

/-- A path below a directory is absolute if the directory is. -/
theorem isAbsolute_join {base name : String} (hbase : base ≠ "") (h : Plain name) :
    isAbsolute (join base name) = isAbsolute base := by
  have hne : base.toList ≠ [] := fun h => hbase (String.toList_eq_nil_iff.1 h)
  have hhead (rest : String) : (base ++ rest).toList.head? = base.toList.head? := by
    obtain ⟨c, text, htext⟩ := List.exists_cons_of_ne_nil hne
    rw [String.toList_append, htext]
    rfl
  rw [join_eq h, slashed]
  split
  · rw [isAbsolute, isAbsolute, hhead]
  · rw [isAbsolute, isAbsolute, String.append_assoc, hhead]

theorem join_ne_empty (base : String) {name : String} (h : Plain name) : join base name ≠ "" := by
  rw [join_eq h]
  intro hempty
  exact h.ne_empty (String.append_eq_empty_iff.1 hempty).2

/-! ## Parents -/

/-- At the end of a path below a plain name nothing is to be left out. -/
theorem trimmed_append {name : String} (h : Plain name) {rest : List Char}
    (hrest : rest = [] ∨ ∃ more, rest = '/' :: more) :
    trimmed (name.toList.reverse ++ rest) = name.toList.reverse ++ rest := by
  have hslash : '/' ∉ name.toList.reverse := by simpa using h.no_slash
  have hempty : name.toList.reverse ≠ [] := by simpa using h.ne_empty
  have hdot : name.toList.reverse ≠ ['.'] := by
    intro hname
    apply h.ne_dot
    rw [← String.toList_inj, ← List.reverse_inj, hname]
    rfl
  obtain ⟨c, text, htext⟩ := List.exists_cons_of_ne_nil hempty
  rw [htext] at hslash hdot ⊢
  unfold trimmed
  split
  next heq =>
    obtain ⟨rfl, -⟩ := List.cons.inj heq
    exact absurd List.mem_cons_self hslash
  next heq =>
    cases text with
    | nil =>
      cases heq
      exact absurd rfl hdot
    | cons d text =>
      cases heq
      exact absurd (List.mem_cons_of_mem _ List.mem_cons_self) hslash
  next => rfl

theorem slashed_cases (base : String) :
    (slashed base).toList.reverse = [] ∨ ∃ more, (slashed base).toList.reverse = '/' :: more := by
  rw [slashed]
  split
  next hend =>
    rcases Bool.or_eq_true_iff.1 hend with hempty | hslash
    · obtain rfl : base = "" := String.isEmpty_iff.1 hempty
      exact .inl rfl
    · obtain ⟨text, htext⟩ := List.getLast?_eq_some_iff.1 (of_decide_eq_true hslash)
      rw [htext]
      exact .inr ⟨text.reverse, by simp⟩
  next => exact .inr ⟨base.toList.reverse, by simp⟩

/-- The directory of a file in a directory with a plain name. -/
theorem parent?_join (root : String) {dir file : String} (hdir : Plain dir) (hfile : Plain file) :
    parent? (join (join root dir) file) = some (join root dir) := by
  have htext : (join root dir).toList.reverse =
      dir.toList.reverse ++ (slashed root).toList.reverse := by
    rw [join_eq hdir, String.toList_append, List.reverse_append]
  have hbehind := trimmed_append hdir (slashed_cases root)
  rw [← htext] at hbehind
  obtain ⟨c, more, hdirText, hc⟩ :
      ∃ c more, (join root dir).toList.reverse = c :: more ∧ c ≠ '/' := by
    obtain ⟨c, more, hmore⟩ := List.exists_cons_of_ne_nil
      (show dir.toList.reverse ≠ [] by simpa using hdir.ne_empty)
    refine ⟨c, more ++ (slashed root).toList.reverse, by rw [htext, hmore]; rfl, ?_⟩
    rintro rfl
    exact hdir.no_slash (List.mem_reverse.1 (hmore ▸ List.mem_cons_self))
  have hslashed : slashed (join root dir) = join root dir ++ "/" := by
    rw [slashed, if_neg]
    rw [← List.head?_reverse, hdirText]
    simp [hc, join_ne_empty root hdir]
  have hfileText : (join (join root dir) file).toList.reverse =
      file.toList.reverse ++ '/' :: (join root dir).toList.reverse := by
    rw [join_eq hfile, hslashed]
    simp
  have hslash : '/' ∉ file.toList.reverse := by simpa using hfile.no_slash
  have hdrop : (file.toList.reverse ++ '/' :: (join root dir).toList.reverse).dropWhile (· ≠ '/') =
      '/' :: (join root dir).toList.reverse := by
    rw [List.dropWhile_append_of_pos]
    · simp
    · intro d hd
      simpa using ne_of_mem_of_not_mem hd hslash
  have hlast :
      trimmed ('/' :: (join root dir).toList.reverse) = (join root dir).toList.reverse := by
    rw [hdirText] at hbehind ⊢
    rw [trimmed, hbehind]
  obtain ⟨d, front, hfront⟩ := List.exists_cons_of_ne_nil
    (show file.toList.reverse ≠ [] by simpa using hfile.ne_empty)
  unfold parent?
  rw [hfileText, trimmed_append hfile (.inr ⟨(join root dir).toList.reverse, rfl⟩)]
  split
  next heq =>
    rw [hfront] at heq
    cases heq
  next heq =>
    rw [hfront] at heq hslash
    obtain ⟨rfl, -⟩ := List.cons.inj heq
    exact absurd List.mem_cons_self hslash
  next => rw [hdrop, hlast, List.reverse_reverse, String.ofList_toList]

end PulseDaq.Path
