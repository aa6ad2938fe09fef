/-!
# Little-endian bytes

Numbers travel as little-endian bytes, least significant byte first, in readouts and in stored
records alike.

* `Bytes.ofNat`/`Bytes.toNat`: a number as a fixed count of bytes, and back.
* `Bytes.take?`: the number in the first bytes and what follows it.
* `Bytes.toWords`/`Bytes.ofWords`: a readout as 32-bit words.
-/

namespace PulseDaq

/-- Bytes as they are read out, stored and exchanged. -/
abbrev Bytes := List UInt8

namespace Bytes

/-- The `width` low bytes of `n`, least significant first. -/
def ofNat : (width : Nat) → (n : Nat) → Bytes
  | 0, _ => []
  | width + 1, n => UInt8.ofNat n :: ofNat width (n / 256)

/-- The number that the bytes stand for, least significant first. -/
def toNat : Bytes → Nat
  | [] => 0
  | b :: rest => b.toNat + 256 * toNat rest

/-- The number in the first `width` bytes and the bytes behind them; `none` if there are fewer. -/
def take? : (width : Nat) → Bytes → Option (Nat × Bytes)
  | 0, bytes => some (0, bytes)
  | _ + 1, [] => none
  | width + 1, b :: rest =>
    match take? width rest with
    | some (n, behind) => some (b.toNat + 256 * n, behind)
    | none => none

@[simp] theorem length_ofNat (width n : Nat) : (ofNat width n).length = width := by
  induction width generalizing n with
  | zero => rfl
  | succ width ih => simp [ofNat, ih]

/-- How many numbers `width` bytes can stand for. -/
def bound : (width : Nat) → Nat
  | 0 => 1
  | width + 1 => 256 * bound width

/-- Writing `n` in `width` bytes keeps it modulo their bound. -/
theorem toNat_ofNat (width n : Nat) : toNat (ofNat width n) = n % bound width := by
  induction width generalizing n with
  | zero => simp [ofNat, toNat, bound, Nat.mod_one]
  | succ width ih =>
    simp only [ofNat, toNat, bound, ih, UInt8.toNat_ofNat']
    rw [Nat.mod_mul]

/-- Every byte string is the written form of its own number. -/
theorem ofNat_toNat (bytes : Bytes) : ofNat bytes.length (toNat bytes) = bytes := by
  induction bytes with
  | nil => rfl
  | cons b rest ih =>
    have hb : b.toNat < 256 := b.toNat_lt
    have hd : (b.toNat + 256 * toNat rest) / 256 = toNat rest := by omega
    have hm : UInt8.ofNat (b.toNat + 256 * toNat rest) = b := by
      apply UInt8.toNat_inj.1
      simp only [UInt8.toNat_ofNat']
      omega
    simp [toNat, ofNat, hd, hm, ih]

theorem toNat_lt (bytes : Bytes) : toNat bytes < bound bytes.length := by
  induction bytes with
  | nil => simp [toNat, bound]
  | cons b rest ih =>
    have hb : b.toNat < 256 := b.toNat_lt
    simp only [toNat, List.length_cons, bound]
    omega

/-- Taking the first `width` bytes reads them as a number and leaves the rest. -/
theorem take?_append (bytes behind : Bytes) :
    take? bytes.length (bytes ++ behind) = some (toNat bytes, behind) := by
  induction bytes with
  | nil => rfl
  | cons b rest ih => simp [take?, toNat, ih]

/-- `take?` succeeds exactly if enough bytes are there. -/
theorem take?_eq (width : Nat) (bytes : Bytes) :
    take? width bytes =
      if width ≤ bytes.length then some (toNat (bytes.take width), bytes.drop width) else none := by
  induction width generalizing bytes with
  | zero => simp [take?, toNat]
  | succ width ih =>
    cases bytes with
    | nil => simp [take?]
    | cons b rest =>
      by_cases h : width ≤ rest.length <;> simp [take?, ih, h, toNat]

/-- Words as bytes, four bytes each. -/
def ofWords (words : List UInt32) : Bytes :=
  words.flatMap fun w => ofNat 4 w.toNat

/-- The words of a readout, behind those read so far; up to three bytes at the end that fill no
word are left out. -/
def pushWords (words : Array UInt32) : Bytes → Array UInt32
  | a :: b :: c :: d :: rest => pushWords (words.push (UInt32.ofNat (toNat [a, b, c, d]))) rest
  | _ => words

/-- The words of a readout. -/
def toWords (bytes : Bytes) : Array UInt32 :=
  pushWords #[] bytes

@[simp] theorem ofWords_nil : ofWords [] = [] := rfl

@[simp] theorem ofWords_cons (w : UInt32) (words : List UInt32) :
    ofWords (w :: words) = ofNat 4 w.toNat ++ ofWords words := rfl

@[simp] theorem ofWords_append (u v : List UInt32) : ofWords (u ++ v) = ofWords u ++ ofWords v := by
  simp [ofWords]

@[simp] theorem length_ofWords (words : List UInt32) :
    (ofWords words).length = 4 * words.length := by
  induction words with
  | nil => rfl
  | cons w words ih => simp [ih]; omega

/-- The four bytes of a word stand for that word. -/
theorem ofNat_toNat_ofNat (w : UInt32) : UInt32.ofNat (toNat (ofNat 4 w.toNat)) = w := by
  have := w.toNat_lt
  rw [toNat_ofNat, Nat.mod_eq_of_lt (by simpa [bound] using this)]
  simp

theorem pushWords_ofWords (acc : Array UInt32) (words : List UInt32) :
    pushWords acc (ofWords words) = acc ++ words := by
  induction words generalizing acc with
  | nil => simp [pushWords]
  | cons w words ih =>
    have hw := ofNat_toNat_ofNat w
    simp only [ofNat] at hw
    simp only [ofWords_cons, ofNat, List.cons_append, List.nil_append, pushWords, hw, ih]
    simp

/-- Words survive being written as bytes. -/
theorem toWords_ofWords (words : List UInt32) : toWords (ofWords words) = words.toArray := by
  simp [toWords, pushWords_ofWords]

theorem ofWords_pushWords (acc : Array UInt32) (bytes : Bytes) (h : bytes.length % 4 = 0) :
    ofWords (pushWords acc bytes).toList = ofWords acc.toList ++ bytes := by
  fun_induction pushWords acc bytes with
  | case1 acc a b c d rest ih =>
    have hrest : rest.length % 4 = 0 := by simp at h; omega
    have hlt : toNat [a, b, c, d] < 4294967296 := toNat_lt [a, b, c, d]
    have hword : (UInt32.ofNat (toNat [a, b, c, d])).toNat = toNat [a, b, c, d] := by
      rw [UInt32.toNat_ofNat', Nat.mod_eq_of_lt (by omega)]
    have hbytes := ofNat_toNat [a, b, c, d]
    simp only [List.length_cons, List.length_nil] at hbytes
    rw [ih hrest]
    simp [hword, hbytes]
  | case2 bytes acc hshort =>
    match bytes, hshort, h with
    | [], _, _ => simp
    | [_], _, h => simp at h
    | [_, _], _, h => simp at h
    | [_, _, _], _, h => simp at h
    | a :: b :: c :: d :: rest, hshort, _ => exact absurd rfl (hshort a b c d rest)

/-- Whole words are all there is to bytes whose count is a multiple of four. -/
theorem ofWords_toWords (bytes : Bytes) (h : bytes.length % 4 = 0) :
    ofWords (toWords bytes).toList = bytes := by
  simp [toWords, ofWords_pushWords _ _ h]

end Bytes

end PulseDaq
