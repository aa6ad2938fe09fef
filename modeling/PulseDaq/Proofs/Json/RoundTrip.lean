import PulseDaq.Json.Parser
import PulseDaq.Proofs.Json.Tokens
import PulseDaq.Proofs.Text.Utf8

/-!
# Written values read back

Every way to write a value joins the texts of its parts by marks that mean the same, whatever blanks
they have. So that a text stands for its value is shown for every part once (`Reads`), and the
layout of the text only enters through its marks.

* `Value.Readable`: values that hold nothing that text cannot stand for.
* `Encloses`: a layout of the items of an array or the fields of an object.
* `Value.reads_prettyAt`: the text of such a value, one line for each item, stands for the value.
* `Value.reads_compact`: so does its text without any blanks.
* `parseBytes?_pretty`, `parseBytes?_compact`: the value is read from the bytes of its texts.
-/

namespace PulseDaq.Json

/-- Nothing in the value is unreadable. -/
inductive Value.Readable : Value → Prop
  | null : Readable .null
  | bool (b : Bool) : Readable (.bool b)
  | integer (n : Int) : Readable (.integer n)
  | string (s : String) : Readable (.string s)
  | array {items : List Value} (h : ∀ v ∈ items, Readable v) : Readable (.array items)
  | object {fields : List (String × Value)} (h : ∀ f ∈ fields, Readable f.2) :
    Readable (.object fields)

/-! ## From tokens to values -/

/-- A value may follow. -/
def Expectation.AllowsValue (e : Expectation) : Prop :=
  e = .value ∨ e = .itemOrEnd

/-- A name may follow. -/
def Expectation.AllowsName (e : Expectation) : Prop :=
  e = .name ∨ e = .nameOrEnd

namespace Builder

/-- What tokens do to the machine, one after the other. -/
def build (b : Builder) (tokens : List Token) : Option Builder :=
  tokens.foldlM step b

theorem build_cons {b b' : Builder} {t : Token} {tokens : List Token} (h : b.step t = some b') :
    b.build (t :: tokens) = b'.build tokens := by
  simp [build, h]

theorem build_append {b b' : Builder} {tokens : List Token} (rest : List Token)
    (h : b.build tokens = some b') : b.build (tokens ++ rest) = b'.build rest := by
  unfold build at h ⊢
  rw [List.foldlM_append, h]
  rfl

end Builder

open Builder (build build_cons build_append deliver)

/-- The tokens complete the value wherever a value may stand. -/
def Completes (tokens : List Token) (v : Value) : Prop :=
  ∀ e : Expectation, e.AllowsValue → ∀ stack,
    build { expects := e, stack } tokens = some (deliver v stack)

/-- The tokens are the items of an array and the commas between them. -/
def CompletesItems (tokens : List Token) (items : List Value) : Prop :=
  ∀ e : Expectation, e.AllowsValue → ∀ before stack,
    build { expects := e, stack := .array before :: stack } tokens =
      some { expects := .more, stack := .array (items.reverse ++ before) :: stack }

/-- The tokens are the names and values of an object and what stands between them. -/
def CompletesFields (tokens : List Token) (fields : List (String × Value)) : Prop :=
  ∀ e : Expectation, e.AllowsName → ∀ before name stack,
    build { expects := e, stack := .object before name :: stack } tokens =
      some { expects := .more
             stack := .object ((fields.map fun f => (some f.1, f.2)).reverse ++ before) none
               :: stack }

theorem completes_literal (v : Value) : Completes [.literal v] v := by
  rintro e (rfl | rfl) stack
  all_goals rfl

theorem completes_string (s : String) : Completes [.string (some s)] (.string s) := by
  rintro e (rfl | rfl) stack
  all_goals rfl

namespace CompletesItems

variable {tokens rest : List Token} {v : Value} {items : List Value}

theorem singleton (h : Completes tokens v) : CompletesItems tokens [v] :=
  fun e he _ _ => h e he _

theorem cons (h : CompletesItems tokens [v]) (hrest : CompletesItems rest items) :
    CompletesItems (tokens ++ ([.comma] ++ rest)) (v :: items) := by
  intro e he before stack
  have hcomma : Builder.step { expects := .more, stack := .array (v :: before) :: stack } .comma =
      some { expects := .value, stack := .array (v :: before) :: stack } := rfl
  rw [build_append _ (h e he before stack), List.singleton_append]
  refine (build_cons hcomma).trans ((hrest _ (.inl rfl) _ _).trans ?_)
  simp

/-- Between brackets. -/
theorem array (h : CompletesItems tokens items) :
    Completes (.openArray :: (tokens ++ [.closeArray])) (.array items) := by
  intro e he stack
  have hopen : Builder.step { expects := e, stack } .openArray =
      some { expects := .itemOrEnd, stack := .array [] :: stack } := by
    rcases he with rfl | rfl
    all_goals rfl
  rw [build_cons hopen, build_append _ (h _ (.inr rfl) [] stack), List.append_nil]
  show some (deliver (.array items.reverse.reverse) stack) = _
  rw [List.reverse_reverse]

end CompletesItems

theorem completes_emptyArray : Completes [.openArray, .closeArray] (.array []) := by
  rintro e (rfl | rfl) stack
  all_goals rfl

namespace CompletesFields

variable {tokens rest : List Token} {name : String} {v : Value} {fields : List (String × Value)}

theorem singleton (h : Completes tokens v) :
    CompletesFields ([.string (some name)] ++ ([.colon] ++ tokens)) [(name, v)] := by
  intro e he before name' stack
  have hname : Builder.step { expects := e, stack := .object before name' :: stack }
      (.string (some name)) =
        some { expects := .colon, stack := .object before (some name) :: stack } := by
    rcases he with rfl | rfl
    all_goals rfl
  have hcolon : Builder.step { expects := .colon, stack := .object before (some name) :: stack }
      .colon = some { expects := .value, stack := .object before (some name) :: stack } := rfl
  rw [List.singleton_append, build_cons hname, List.singleton_append, build_cons hcolon,
    h _ (.inl rfl)]
  rfl

theorem cons (h : CompletesFields tokens [(name, v)]) (hrest : CompletesFields rest fields) :
    CompletesFields (tokens ++ ([.comma] ++ rest)) ((name, v) :: fields) := by
  intro e he before name' stack
  have hcomma : Builder.step
      { expects := .more, stack := .object ((some name, v) :: before) none :: stack } .comma =
        some { expects := .name, stack := .object ((some name, v) :: before) none :: stack } := rfl
  rw [build_append _ (h e he before name' stack), List.singleton_append]
  refine (build_cons hcomma).trans ((hrest _ (.inl rfl) _ _ _).trans ?_)
  simp

theorem ofFields_map (fields : List (String × Value)) :
    Builder.ofFields (fields.map fun f => (some f.1, f.2)) = .object fields := by
  have hall : fields.mapM some = some fields := by
    simpa using List.mapM_pure (m := Option) (l := fields) (f := id)
  unfold Builder.ofFields
  rw [List.mapM_map]
  split
  next h =>
    cases hall.symm.trans h
    rfl
  next h => cases hall.symm.trans h

/-- Between braces. -/
theorem object (h : CompletesFields tokens fields) :
    Completes (.openObject :: (tokens ++ [.closeObject])) (.object fields) := by
  intro e he stack
  have hopen : Builder.step { expects := e, stack } .openObject =
      some { expects := .nameOrEnd, stack := .object [] none :: stack } := by
    rcases he with rfl | rfl
    all_goals rfl
  rw [build_cons hopen, build_append _ (h _ (.inr rfl) [] none stack), List.append_nil]
  show some (deliver (Builder.ofFields (List.reverse (List.reverse _))) stack) = _
  rw [List.reverse_reverse, ofFields_map]

end CompletesFields

theorem completes_emptyObject : Completes [.openObject, .closeObject] (.object []) := by
  rintro e (rfl | rfl) stack
  all_goals rfl

/-! ## From texts to values -/

/-- The text stands for the value. -/
def Reads (text : String) (v : Value) : Prop :=
  ∃ tokens, Spells text.toList tokens ∧ Completes tokens v

/-- Texts of parts with commas between them, if tokens with a comma between them go together. -/
theorem spells_intercalate {α : Type} {comma : String} (hcomma : Separates comma.toList [.comma])
    {text : α → String} {C : List Token → List α → Prop}
    (hcons : ∀ {tokens rest x xs}, C tokens [x] → C rest xs →
      C (tokens ++ ([.comma] ++ rest)) (x :: xs))
    {x : α} {xs : List α}
    (h : ∀ y ∈ x :: xs, ∃ tokens, Spells (text y).toList tokens ∧ C tokens [y]) :
    ∃ tokens, Spells (comma.intercalate ((x :: xs).map text)).toList tokens ∧
      C tokens (x :: xs) := by
  induction xs generalizing x with
  | nil =>
    rw [List.map_singleton, String.intercalate_singleton]
    exact h x List.mem_cons_self
  | cons y xs ih =>
    obtain ⟨tokens, hspells, hfirst⟩ := h x List.mem_cons_self
    obtain ⟨rest, hspells', hrest⟩ := ih fun z hz => h z (.tail _ hz)
    refine ⟨_, ?_, hcons hfirst hrest⟩
    rw [List.map_cons, List.map_cons, String.intercalate_cons_cons]
    generalize text x = first at hspells ⊢
    rw [String.append_assoc, String.toList_append, String.toList_append]
    exact hspells.join hcomma hspells'

/-- A name and a value. -/
theorem spells_field {colon : String} (hcolon : Separates colon.toList [.colon]) (name : String)
    {text : String} {v : Value} (h : Reads text v) :
    ∃ tokens, Spells (quote name ++ colon ++ text).toList tokens ∧
      CompletesFields tokens [(name, v)] := by
  obtain ⟨tokens, hspells, hcompletes⟩ := h
  refine ⟨_, ?_, .singleton hcompletes⟩
  rw [String.append_assoc, String.toList_append, String.toList_append]
  exact (spells_quote name).join hcolon hspells

/-- A mark that is one character. -/
theorem separates_mark {text : String} {c : Char} {token : Token} (htext : text.toList = [c])
    (h : ∀ found, Lexer.start found c = some { tokens := found.push token })
    (hnumber : Lexer.isNumberChar c = false) (halpha : c.isAlpha = false) :
    Separates text.toList [token] := by
  rw [htext]
  exact .char (fun found => by rw [h, Array.push_eq_append]) hnumber halpha

theorem separates_comma : Separates ",".toList [.comma] :=
  separates_mark rfl (fun _ => rfl) rfl rfl

theorem separates_colon : Separates ":".toList [.colon] :=
  separates_mark rfl (fun _ => rfl) rfl rfl

theorem separates_openArray : Separates "[".toList [.openArray] :=
  separates_mark rfl (fun _ => rfl) rfl rfl

theorem separates_closeArray : Separates "]".toList [.closeArray] :=
  separates_mark rfl (fun _ => rfl) rfl rfl

theorem separates_openObject : Separates openBrace.toList [.openObject] :=
  separates_mark rfl (fun _ => rfl) rfl rfl

theorem separates_closeObject : Separates closeBrace.toList [.closeObject] :=
  separates_mark rfl (fun _ => rfl) rfl rfl

/-- A layout of texts between brackets, with commas between them. -/
structure Encloses (o c : Token) (comma : String) (layout : List String → String) : Prop where
  separates : Separates comma.toList [.comma]
  empty : Spells (layout []).toList ([o] ++ [c])
  texts {texts : List String} {tokens : List Token} (hne : texts ≠ [])
    (h : Spells (comma.intercalate texts).toList tokens) :
    Spells (layout texts).toList ([o] ++ (tokens ++ [c]))

namespace Encloses

variable {comma colon : String} {layout : List String → String} {text : Value → String}

/-- The texts of its items between brackets stand for an array. -/
theorem reads_array (h : Encloses .openArray .closeArray comma layout) {items : List Value}
    (hitems : ∀ v ∈ items, Reads (text v) v) : Reads (layout (items.map text)) (.array items) := by
  cases items with
  | nil => exact ⟨_, h.empty, completes_emptyArray⟩
  | cons v items =>
    obtain ⟨tokens, hspells, hcompletes⟩ := spells_intercalate (C := CompletesItems) h.separates
      .cons fun w hw => (hitems w hw).imp fun _ h => ⟨h.1, .singleton h.2⟩
    exact ⟨_, h.texts (by simp) hspells, hcompletes.array⟩

/-- The texts of its fields between braces stand for an object. -/
theorem reads_object (h : Encloses .openObject .closeObject comma layout)
    (hcolon : Separates colon.toList [.colon]) {fields : List (String × Value)}
    (hfields : ∀ f ∈ fields, Reads (text f.2) f.2) :
    Reads (layout (fields.map fun f => quote f.1 ++ colon ++ text f.2)) (.object fields) := by
  cases fields with
  | nil => exact ⟨_, h.empty, completes_emptyObject⟩
  | cons f fields =>
    obtain ⟨tokens, hspells, hcompletes⟩ := spells_intercalate (C := CompletesFields) h.separates
      .cons fun g hg => spells_field hcolon g.1 (hfields g hg)
    exact ⟨_, h.texts (by simp) hspells, hcompletes.object⟩

end Encloses

/-! ## One line for each item -/

namespace Value

theorem prettyItems_eq_map (depth : Nat) (items : List Value) :
    prettyItems depth items = items.map (prettyAt depth) := by
  induction items with
  | nil => rfl
  | cons v items ih => rw [prettyItems, ih, List.map_cons]

theorem prettyFields_eq_map (depth : Nat) (fields : List (String × Value)) :
    prettyFields depth fields =
      fields.map fun f => quote f.1 ++ ": " ++ f.2.prettyAt depth := by
  induction fields with
  | nil => rfl
  | cons f fields ih => rw [prettyFields, ih, List.map_cons]

theorem toList_newline (depth : Nat) :
    (newline depth).toList = ['\n'] ++ List.replicate (2 * depth) ' ' := by
  simp [newline]

theorem isBlank_newline (depth : Nat) : ∀ c ∈ (newline depth).toList, Lexer.isBlank c = true := by
  intro c hc
  rw [toList_newline, List.mem_append, List.mem_singleton, List.mem_replicate] at hc
  rcases hc with rfl | ⟨-, rfl⟩
  all_goals rfl

/-- A line break alone. -/
theorem separates_newline (depth : Nat) : Separates (newline depth).toList [] := by
  have hbreak : Separates ['\n'] [] := .char (fun _ => by simp [Lexer.start, Lexer.isBlank]) rfl rfl
  rw [toList_newline]
  refine hbreak.blanks fun c hc => ?_
  rw [List.eq_of_mem_replicate hc]
  rfl

/-- A line break behind a mark. -/
theorem separates_append_newline {mark : String} {tokens : List Token}
    (h : Separates mark.toList tokens) (depth : Nat) :
    Separates (mark ++ newline depth).toList tokens := by
  rw [String.toList_append]
  exact h.blanks (isBlank_newline depth)

/-- Texts on lines of their own. -/
theorem encloses_block {opening closing : String} {o c : Token}
    (hopening : Separates opening.toList [o]) (hclosing : Separates closing.toList [c])
    (depth : Nat) :
    Encloses o c ("," ++ newline (depth + 1)) (block depth opening closing) where
  separates := separates_append_newline separates_comma (depth + 1)
  empty := by
    rw [block, if_pos List.isEmpty_nil, String.toList_append]
    exact (hopening.append hclosing).spells
  texts := by
    intro texts tokens hne h
    have hbefore := separates_append_newline hopening (depth + 1)
    have hbehind : Separates (newline depth ++ closing).toList ([] ++ [c]) := by
      rw [String.toList_append]
      exact (separates_newline depth).append hclosing
    rw [block, if_neg (by simpa using hne), String.append_assoc]
    generalize opening ++ newline (depth + 1) = before at hbefore ⊢
    rw [String.append_assoc, String.toList_append, String.toList_append]
    exact (Spells.enclose hbefore h hbehind).spells

/-- The text of a readable value stands for it. -/
theorem reads_prettyAt {v : Value} (h : v.Readable) (depth : Nat) : Reads (v.prettyAt depth) v := by
  have hcolon : Separates (":" ++ " ").toList [.colon] := by
    rw [String.toList_append]
    exact separates_colon.blanks (by simp [Lexer.isBlank])
  induction h generalizing depth with
  | null => exact ⟨_, spells_null, completes_literal _⟩
  | bool b => exact ⟨_, spells_bool b, completes_literal _⟩
  | integer n => exact ⟨_, spells_integer n, completes_literal _⟩
  | string s => exact ⟨_, spells_quote s, completes_string s⟩
  | @array items _ ih =>
    rw [prettyAt, prettyItems_eq_map]
    exact (encloses_block separates_openArray separates_closeArray depth).reads_array
      fun v hv => ih v hv (depth + 1)
  | @object fields _ ih =>
    rw [prettyAt, prettyFields_eq_map]
    exact (encloses_block separates_openObject separates_closeObject depth).reads_object hcolon
      fun f hf => ih f hf (depth + 1)

/-! ## Without blanks -/

theorem compactItems_eq_map (items : List Value) : compactItems items = items.map compact := by
  induction items with
  | nil => rfl
  | cons v items ih => rw [compactItems, ih, List.map_cons]

theorem compactFields_eq_map (fields : List (String × Value)) :
    compactFields fields = fields.map fun f => quote f.1 ++ ":" ++ f.2.compact := by
  induction fields with
  | nil => rfl
  | cons f fields ih => rw [compactFields, ih, List.map_cons]

/-- Texts side by side. -/
theorem encloses_line {opening closing : String} {o c : Token}
    (hopening : Separates opening.toList [o]) (hclosing : Separates closing.toList [c]) :
    Encloses o c "," fun texts => opening ++ ",".intercalate texts ++ closing where
  separates := separates_comma
  empty := by
    rw [String.intercalate_nil, String.append_empty, String.toList_append]
    exact (hopening.append hclosing).spells
  texts := by
    intro texts tokens _ h
    rw [String.append_assoc, String.toList_append, String.toList_append]
    exact (Spells.enclose hopening h hclosing).spells

/-- The text of a readable value without any blanks stands for it. -/
theorem reads_compact {v : Value} (h : v.Readable) : Reads v.compact v := by
  induction h with
  | null => exact ⟨_, spells_null, completes_literal _⟩
  | bool b => exact ⟨_, spells_bool b, completes_literal _⟩
  | integer n => exact ⟨_, spells_integer n, completes_literal _⟩
  | string s => exact ⟨_, spells_quote s, completes_string s⟩
  | @array items _ ih =>
    rw [compact, compactItems_eq_map]
    exact (encloses_line separates_openArray separates_closeArray).reads_array ih
  | @object fields _ ih =>
    rw [compact, compactFields_eq_map]
    exact (encloses_line separates_openObject separates_closeObject).reads_object
      separates_colon ih

end Value

/-! ## The whole text -/

/-- A text that stands for a value is read as the value. -/
theorem parse?_of_reads {text : String} {v : Value} (h : Reads text v) :
    parse? (text.toList.map some) = some v := by
  obtain ⟨tokens, hspells, hcompletes⟩ := h
  obtain ⟨l, hread, hdone⟩ := hspells #[]
  have htokens : tokens? (text.toList.map some) = some tokens := by
    show ((Lexer.read { tokens := #[] } text.toList).bind fun l => l.finish.bind fun ts =>
      some ts.toList) = _
    rw [hread]
    simp [hdone.finish]
  have hbuild : tokens.foldlM Builder.step {} = some (deliver v []) := hcompletes _ (.inl rfl) []
  simp [parse?, htokens, hbuild, deliver]

theorem parseBytes?_of_reads {text : String} {v : Value} (h : Reads text v) :
    parseBytes? (Utf8.encode text) = some v := by
  rw [parseBytes?, Utf8.decode_encode]
  exact parse?_of_reads h

/-- A readable value is read from the bytes of its text. -/
theorem parseBytes?_pretty {v : Value} (h : v.Readable) :
    parseBytes? (Utf8.encode v.pretty) = some v :=
  parseBytes?_of_reads (Value.reads_prettyAt h 0)

/-- So it is from the text without any blanks. -/
theorem parseBytes?_compact {v : Value} (h : v.Readable) :
    parseBytes? (Utf8.encode v.compact) = some v :=
  parseBytes?_of_reads (Value.reads_compact h)

end PulseDaq.Json
