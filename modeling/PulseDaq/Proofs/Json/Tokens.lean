import PulseDaq.Json.Token
import PulseDaq.Proofs.Text.Decimal

/-!
# Cutting written text into tokens

Between two tokens the lexer is in one state only. The last character of a number or a word leaves
it in the middle of that, but as soon as a character follows that belongs to neither, it is as if it
had been between two tokens already.

* `Lexer.Done`: the lexer may have read all of a token.
* `Separates`, `Spells`: texts that lead from there to between two tokens, and the other way round.
  Texts are joined by `Spells.join`, `Spells.enclose` and `Separates.append`.
* `spells_integer`, `spells_quote`: integers and strings as they are written.
-/

namespace PulseDaq.Json

namespace Lexer

/-- The tokens so far are `tokens` if the text ends here, and also if a character follows that is
not part of a number or a word. -/
structure Done (l : Lexer) (tokens : Array Token) : Prop where
  finish : l.finish = some tokens
  step : ∀ c, isNumberChar c = false → c.isAlpha = false → l.step (some c) = start tokens c

theorem done_between (tokens : Array Token) : Done { tokens } tokens where
  finish := rfl
  step _ _ _ := rfl

theorem done_number {cs : List Char} {tokens : Array Token} {v : Value}
    (h : number? cs.reverse = some v) :
    Done { mode := .number cs, tokens } (tokens.push (.literal v)) := by
  have hfinish : finish { mode := .number cs, tokens } = some (tokens.push (.literal v)) := by
    simp [finish, h]
  refine ⟨hfinish, fun c hc _ => ?_⟩
  simp [step, hc, hfinish]

theorem done_word {cs : List Char} {tokens : Array Token} {v : Value}
    (h : word? cs.reverse = some v) :
    Done { mode := .word cs, tokens } (tokens.push (.literal v)) := by
  have hfinish : finish { mode := .word cs, tokens } = some (tokens.push (.literal v)) := by
    simp [finish, h]
  refine ⟨hfinish, fun c _ hc => ?_⟩
  simp [step, hc, hfinish]

/-- What the characters of a text do to the lexer, one after the other. -/
def read (l : Lexer) (text : List Char) : Option Lexer :=
  (text.map some).foldlM step l

theorem read_cons {l l' : Lexer} {c : Char} {text : List Char} (h : l.step (some c) = some l') :
    l.read (c :: text) = l'.read text := by
  simp [read, h]

theorem read_append {l l' : Lexer} {text : List Char} (rest : List Char)
    (h : l.read text = some l') : l.read (text ++ rest) = l'.read rest := by
  unfold read at h ⊢
  rw [List.map_append, List.foldlM_append, h]
  rfl

end Lexer

open Lexer (Done)

/-- Wherever a token may end, the text leads between two tokens, `tokens` being new. -/
def Separates (text : List Char) (tokens : List Token) : Prop :=
  ∀ l found, Done l found → l.read text = some { tokens := found ++ tokens.toArray }

/-- From between two tokens the text leads to where a token may end, `tokens` being new. -/
def Spells (text : List Char) (tokens : List Token) : Prop :=
  ∀ found, ∃ l, Lexer.read { tokens := found } text = some l ∧ Done l (found ++ tokens.toArray)

/-! ## Texts side by side -/

namespace Separates

variable {text text' : List Char} {tokens tokens' : List Token}

theorem append (h : Separates text tokens) (h' : Separates text' tokens') :
    Separates (text ++ text') (tokens ++ tokens') := by
  intro l found hdone
  rw [Lexer.read_append _ (h l found hdone), h' _ _ (Lexer.done_between _)]
  simp

theorem spells (h : Separates text tokens) : Spells text tokens :=
  fun found => ⟨_, h _ _ (Lexer.done_between found), Lexer.done_between _⟩

/-- One character that is neither part of a number nor of a word. -/
theorem char {c : Char}
    (hstart : ∀ found, Lexer.start found c = some { tokens := found ++ tokens.toArray })
    (hnumber : Lexer.isNumberChar c = false) (halpha : c.isAlpha = false) :
    Separates [c] tokens := by
  intro l found hdone
  rw [Lexer.read_cons ((hdone.step c hnumber halpha).trans (hstart found))]
  rfl

/-- Blanks can follow. -/
theorem blanks (h : Separates text tokens) {blank : List Char}
    (hblank : ∀ c ∈ blank, Lexer.isBlank c = true) : Separates (text ++ blank) tokens := by
  intro l found hdone
  rw [Lexer.read_append _ (h l found hdone)]
  induction blank with
  | nil => rfl
  | cons c blank ih =>
    rw [Lexer.read_cons, ih fun c hc => hblank c (.tail _ hc)]
    have hc : c = ' ' ∨ c = '\n' ∨ c = '\t' ∨ c = '\r' := by
      simpa [Lexer.isBlank, or_assoc] using hblank c List.mem_cons_self
    obtain rfl | rfl | rfl | rfl := hc
    all_goals rfl

end Separates

namespace Spells

variable {before text between behind text' : List Char}
  {opening tokens middle closing tokens' : List Token}

/-- Two texts with another one between them. -/
theorem join (h : Spells text tokens) (hbetween : Separates between middle)
    (h' : Spells text' tokens') :
    Spells (text ++ (between ++ text')) (tokens ++ (middle ++ tokens')) := by
  intro found
  obtain ⟨l, hread, hdone⟩ := h found
  obtain ⟨l', hread', hdone'⟩ := h' (found ++ tokens.toArray ++ middle.toArray)
  refine ⟨l', ?_, by simpa using hdone'⟩
  rw [Lexer.read_append _ hread, Lexer.read_append _ (hbetween _ _ hdone), hread']

/-- A text between two others. -/
theorem enclose (hbefore : Separates before opening) (h : Spells text tokens)
    (hbehind : Separates behind closing) :
    Separates (before ++ (text ++ behind)) (opening ++ (tokens ++ closing)) := by
  intro l found hdone
  obtain ⟨l', hread, hdone'⟩ := h (found ++ opening.toArray)
  rw [Lexer.read_append _ (hbefore l found hdone), Lexer.read_append _ hread, hbehind _ _ hdone']
  simp

end Spells

/-! ## Words and numbers -/

/-- A run of characters that each go on with what the lexer is in the middle of. -/
theorem Lexer.read_mode {mode : List Char → Mode} {text : List Char} {found : Array Token}
    (h : ∀ c ∈ text, ∀ cs, step { mode := mode cs, tokens := found } (some c) =
      some { mode := mode (c :: cs), tokens := found }) (cs : List Char) :
    read { mode := mode cs, tokens := found } text =
      some { mode := mode (text.reverse ++ cs), tokens := found } := by
  induction text generalizing cs with
  | nil => rfl
  | cons c text ih =>
    rw [read_cons (h c List.mem_cons_self cs), ih fun c hc => h c (.tail _ hc)]
    simp

theorem Lexer.start_digit {c : Char} (h : c.isDigit = true) (found : Array Token) :
    start found c = some { mode := .number [c], tokens := found } := by
  have hblank : isBlank c = false := by
    simp only [isBlank, Bool.or_eq_false_iff, beq_eq_false_iff_ne]
    refine ⟨⟨⟨?_, ?_⟩, ?_⟩, ?_⟩
    all_goals
      rintro rfl
      simp at h
  unfold start
  split
  case h_8 => simp [hblank, h]
  all_goals simp at h

/-- A number that begins with a digit or a minus sign is read as far as it goes. -/
theorem spells_number {c : Char} {cs : List Char} {v : Value}
    (hstart : ∀ found,
      Lexer.start found c = some { mode := .number [c], tokens := found })
    (hcs : ∀ c ∈ cs, Lexer.isNumberChar c = true) (hv : number? (c :: cs) = some v) :
    Spells (c :: cs) [.literal v] := by
  intro found
  refine ⟨{ mode := .number (cs.reverse ++ [c]), tokens := found }, ?_, ?_⟩
  · rw [Lexer.read_cons (l := { tokens := found }) (hstart found)]
    exact Lexer.read_mode (fun c hc cs => by simp [Lexer.step, hcs c hc]) [c]
  · have htext : number? (cs.reverse ++ [c]).reverse = some v := by simpa using hv
    simpa using Lexer.done_number htext

theorem Lexer.isNumberChar_of_isDigit {c : Char} (h : c.isDigit = true) :
    isNumberChar c = true := by
  simp [isNumberChar, h]

/-- A word of the language. -/
theorem spells_word {text : List Char} {v : Value}
    (hread : ∀ found, Lexer.read { tokens := found } text =
      some { mode := .word text.reverse, tokens := found })
    (hv : word? text = some v) : Spells text [.literal v] := by
  intro found
  refine ⟨_, hread found, ?_⟩
  have htext : word? text.reverse.reverse = some v := by simpa using hv
  simpa using Lexer.done_word htext

theorem spells_null : Spells "null".toList [.literal .null] :=
  spells_word (fun _ => rfl) rfl

theorem spells_bool (b : Bool) :
    Spells (if b then "true" else "false").toList [.literal (.bool b)] := by
  cases b with
  | true => exact spells_word (fun _ => rfl) rfl
  | false => exact spells_word (fun _ => rfl) rfl

/-! ## Integers -/

theorem isInteger_toDigits (n : Nat) : isInteger (Nat.toDigits 10 n) = true := by
  have hdigits : isDigits (Nat.toDigits 10 n) = true := by
    simp only [isDigits, Bool.and_eq_true, Bool.not_eq_true', List.isEmpty_eq_false_iff,
      List.all_eq_true]
    exact ⟨Nat.toDigits_ne_nil, fun c hc => isDigit_of_mem_toDigits hc⟩
  simp only [isInteger, hdigits, Bool.true_and, Bool.or_eq_true, beq_iff_eq, bne_iff_ne]
  rcases Nat.eq_zero_or_pos n with rfl | hpos
  · exact .inl rfl
  · exact .inr (head?_toDigits hpos)

/-- The digits of a number are read as the number. -/
theorem unsignedNumber?_toDigits (negative : Bool) (n : Nat) :
    unsignedNumber? negative (Nat.toDigits 10 n) = some
      (if negative then (if n = 0 then .unreadable else .integer (-n)) else .integer n) := by
  have hdigits : ∀ c ∈ Nat.toDigits 10 n, c.isDigit = true := fun c hc => isDigit_of_mem_toDigits hc
  have htake : (Nat.toDigits 10 n ++ []).takeWhile Char.isDigit = _ :=
    List.takeWhile_append_of_pos hdigits
  have hdrop : (Nat.toDigits 10 n ++ []).dropWhile Char.isDigit = _ :=
    List.dropWhile_append_of_pos hdigits
  rw [List.append_nil, List.takeWhile_nil, List.append_nil] at htake
  rw [List.append_nil, List.dropWhile_nil] at hdrop
  have hvalue : decimal (Nat.toDigits 10 n) = n := Nat.ofDigitChars_ten_toDigits
  simp [unsignedNumber?, htake, hdrop, hvalue, isInteger_toDigits]

/-- An integer, as it is written. -/
theorem spells_integer (n : Int) : Spells (toString n).toList [.literal (.integer n)] := by
  have hnumber : ∀ m, ∀ c ∈ Nat.toDigits 10 m, Lexer.isNumberChar c = true := fun m c hc =>
    Lexer.isNumberChar_of_isDigit (isDigit_of_mem_toDigits hc)
  cases n with
  | ofNat n =>
    show Spells n.repr.toList _
    rw [Nat.toList_repr]
    have hread := unsignedNumber?_toDigits false n
    have hdigit := fun c (hc : c ∈ Nat.toDigits 10 n) => isDigit_of_mem_toDigits hc
    cases htext : Nat.toDigits 10 n with
    | nil => exact absurd htext Nat.toDigits_ne_nil
    | cons c cs =>
      rw [htext] at hread hdigit
      have hc := hdigit c List.mem_cons_self
      refine spells_number (Lexer.start_digit hc)
        (fun d hd => Lexer.isNumberChar_of_isDigit (hdigit d (.tail _ hd))) ?_
      have hminus : c ≠ '-' := by
        rintro rfl
        simp at hc
      simpa [number?, hminus] using hread
  | negSucc n =>
    have htext : (toString (Int.negSucc n)).toList = '-' :: Nat.toDigits 10 (n + 1) := by
      show ("-" ++ (n + 1).repr).toList = _
      rw [String.toList_append, Nat.toList_repr]
      rfl
    rw [htext]
    exact spells_number (fun _ => rfl) (hnumber _) (unsignedNumber?_toDigits true (n + 1))

/-! ## Strings -/

/-- The piece stands for a character by itself. -/
inductive Piece.Shows : Piece → Char → Prop
  | char (c : Char) : Shows (.char c) c
  | unit (c : Char) (h : c.toNat < 0xD800) : Shows (.unit c.toNat) c

theorem assemble_cons {p : Piece} {c : Char} (h : p.Shows c) (found : Array Char)
    (rest : List Piece) : assemble found (p :: rest) = assemble (found.push c) rest := by
  cases h with
  | char => rw [assemble]
  | unit _ h =>
    have hhigh : isHighSurrogate c.toNat = false := by simp [isHighSurrogate]; omega
    have hlow : isLowSurrogate c.toNat = false := by simp [isLowSurrogate]; omega
    cases rest with
    | nil => simp [assemble, hhigh, hlow, Char.ofNat_toNat]
    | cons q rest => cases q <;> simp [assemble, hhigh, hlow, Char.ofNat_toNat]

/-- Reading a hexadecimal digit undoes writing it. -/
theorem Lexer.hexValue?_hexDigit {n : Nat} (h : n < 16) : hexValue? (Text.hexDigit n) = some n := by
  have hall : ∀ n < 16, hexValue? (Text.hexDigit n) = some n := by decide
  exact hall n h

/-- The four digits of a numbered escape. -/
theorem Lexer.read_hexDigits {n : Nat} (h : n < 0x10000) (pieces : List Piece)
    (found : Array Token) :
    read { mode := .unit pieces 4 0, tokens := found } (Text.hexDigits 4 n) =
      some { mode := .string (.unit n :: pieces), tokens := found } := by
  have hstep (digits m d : Nat) (hd : d < 16) :
      step { mode := .unit pieces digits m, tokens := found } (some (Text.hexDigit d)) =
        some (if digits ≤ 1 then { mode := .string (.unit (16 * m + d) :: pieces), tokens := found }
          else { mode := .unit pieces (digits - 1) (16 * m + d), tokens := found }) := by
    simp [step, hexValue?_hexDigit hd]
  have htext : Text.hexDigits 4 n =
      [n / 16 / 16 / 16 % 16, n / 16 / 16 % 16, n / 16 % 16, n % 16].map Text.hexDigit := rfl
  have hvalue : 16 * (16 * (16 * (16 * 0 + n / 16 / 16 / 16 % 16) + n / 16 / 16 % 16) + n / 16 % 16)
      + n % 16 = n := by omega
  rw [htext]
  rw [List.map_cons, read_cons (hstep _ _ _ (Nat.mod_lt _ (by decide))), if_neg (by decide),
    List.map_cons, read_cons (hstep _ _ _ (Nat.mod_lt _ (by decide))), if_neg (by decide),
    List.map_cons, read_cons (hstep _ _ _ (Nat.mod_lt _ (by decide))), if_neg (by decide),
    List.map_cons, read_cons (hstep _ _ _ (Nat.mod_lt _ (by decide))), if_pos (by decide), hvalue]
  rfl

/-- A character, as it is written in a string. -/
theorem Lexer.read_escape (c : Char) (pieces : List Piece) (found : Array Token) :
    ∃ p, p.Shows c ∧ read { mode := .string pieces, tokens := found } (escape c) =
      some { mode := .string (p :: pieces), tokens := found } := by
  unfold escape
  split
  case h_8 hquote hbackslash _ _ _ _ _ =>
    split
    next h =>
      have hbackslash : step { mode := .string pieces, tokens := found } (some '\\') =
          some { mode := .escape pieces, tokens := found } := rfl
      have hu : step { mode := .escape pieces, tokens := found } (some 'u') =
          some { mode := .unit pieces 4 0, tokens := found } := rfl
      refine ⟨_, .unit c (by omega), ?_⟩
      rw [read_cons hbackslash, read_cons hu, read_hexDigits (by omega)]
    next h =>
      have hplain : step { mode := .string pieces, tokens := found } (some c) =
          some { mode := .string (.char c :: pieces), tokens := found } := by
        simp [step, h, show c ≠ '"' from hquote, show c ≠ '\\' from hbackslash]
      exact ⟨_, .char c, read_cons hplain⟩
  all_goals exact ⟨_, .char _, rfl⟩

/-- The characters of a string, as they are written. -/
theorem Lexer.read_escapes (text : List Char) (pieces : List Piece) (found : Array Token) :
    ∃ shown, read { mode := .string pieces, tokens := found } (text.flatMap escape) =
        some { mode := .string (shown.reverse ++ pieces), tokens := found } ∧
      ∀ chars, assemble chars shown = some (String.ofList (chars.toList ++ text)) := by
  induction text generalizing pieces with
  | nil => exact ⟨[], rfl, fun chars => by rw [assemble, List.append_nil]⟩
  | cons c text ih =>
    obtain ⟨p, hshows, hread⟩ := read_escape c pieces found
    obtain ⟨shown, hrest, hassemble⟩ := ih (p :: pieces)
    refine ⟨p :: shown, ?_, fun chars => ?_⟩
    · rw [List.flatMap_cons, read_append _ hread, hrest, List.reverse_cons, List.append_assoc]
      rfl
    · rw [assemble_cons hshows, hassemble, Array.toList_push, List.append_assoc]
      rfl

/-- A string, as it is written. -/
theorem spells_quote (s : String) : Spells (quote s).toList [.string (some s)] := by
  intro found
  obtain ⟨shown, hread, hassemble⟩ := Lexer.read_escapes s.toList [] found
  have hopen : Lexer.step { tokens := found } (some '"') =
      some { mode := .string [], tokens := found } := rfl
  have hclose : Lexer.read { mode := .string shown.reverse, tokens := found } ['"'] =
      some { tokens := found.push (.string (assemble #[] shown.reverse.reverse)) } := rfl
  rw [List.append_nil] at hread
  refine ⟨_, ?_, Lexer.done_between _⟩
  rw [quote, String.toList_ofList, List.cons_append, Lexer.read_cons hopen,
    Lexer.read_append _ hread, hclose, List.reverse_reverse, hassemble]
  simp

end PulseDaq.Json
