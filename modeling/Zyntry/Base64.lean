import Mathlib.Data.List.Basic

/-!
# Base64

The encoding with its padding, and the decoder that skips what is no digit. The decoder goes from
one character to the next with its place in a quad, the bits that are left over and the number of
padding characters seen. It reads back what is encoded.
-/

namespace Base64

abbrev Bytes := List UInt8

def alphabet : List Char :=
  "ABCDEFGHIJKLMNOPQRSTUVWXYZabcdefghijklmnopqrstuvwxyz0123456789+/".toList

/-- The character of a digit below 64. -/
def symbol (n : ℕ) : Char := alphabet.getD n '='

def digitOf (c : Char) : Option ℕ := alphabet.idxOf? c

/-! ## Encoding -/

def encode : Bytes → List Char
  | [] => []
  | [a] => [symbol (a.toNat / 4), symbol (a.toNat % 4 * 16), '=', '=']
  | [a, b] => [symbol (a.toNat / 4), symbol (a.toNat % 4 * 16 + b.toNat / 16),
      symbol (b.toNat % 16 * 4), '=']
  | a :: b :: c :: bytes =>
      symbol (a.toNat / 4) :: symbol (a.toNat % 4 * 16 + b.toNat / 16) ::
        symbol (b.toNat % 16 * 4 + c.toNat / 64) :: symbol (c.toNat % 64) :: encode bytes

/-! ## Decoding -/

inductive DecodeError where
  | notAscii
  | dataCharacters
  | incorrectPadding
deriving DecidableEq, Repr

/-- The loop over the characters. Padding that fills a quad ends it, other padding is skipped. -/
def decodeFrom (quad left pads : ℕ) : List Char → Except DecodeError Bytes
  | [] => if quad = 0 then .ok []
      else if quad = 1 then .error .dataCharacters else .error .incorrectPadding
  | c :: cs =>
      if c = '=' then
        if 2 ≤ quad ∧ 4 ≤ quad + (pads + 1) then .ok []
        else decodeFrom quad left (if 2 ≤ quad then pads + 1 else pads) cs
      else
        match digitOf c, quad with
        | none, quad => decodeFrom quad left pads cs
        | some n, 0 => decodeFrom 1 n 0 cs
        | some n, 1 => (UInt8.ofNat (left * 4 + n / 16) :: ·) <$> decodeFrom 2 (n % 16) 0 cs
        | some n, 2 => (UInt8.ofNat (left * 16 + n / 4) :: ·) <$> decodeFrom 3 (n % 4) 0 cs
        | some n, _ => (UInt8.ofNat (left * 64 + n) :: ·) <$> decodeFrom 0 0 0 cs

/-- A text is decoded by its ASCII bytes. -/
def decode (cs : List Char) : Except DecodeError Bytes :=
  if cs.all (fun c => c.toNat < 128) then decodeFrom 0 0 0 cs else .error .notAscii

/-! ## Digits -/

theorem digitOf_symbol {n : ℕ} (h : n < 64) : digitOf (symbol n) = some n := by
  have hall : ∀ m < 64, digitOf (symbol m) = some m := by decide +kernel
  exact hall n h

theorem symbol_ne_pad {n : ℕ} (h : n < 64) : symbol n ≠ '=' := by
  have hall : ∀ m < 64, symbol m ≠ '=' := by decide +kernel
  exact hall n h

section Steps

variable {n left pads : ℕ} {cs : List Char}

theorem decodeFrom_symbol_zero (h : n < 64) :
    decodeFrom 0 left pads (symbol n :: cs) = decodeFrom 1 n 0 cs := by
  simp [decodeFrom, symbol_ne_pad h, digitOf_symbol h]

theorem decodeFrom_symbol_one (h : n < 64) : decodeFrom 1 left pads (symbol n :: cs) =
    (UInt8.ofNat (left * 4 + n / 16) :: ·) <$> decodeFrom 2 (n % 16) 0 cs := by
  simp [decodeFrom, symbol_ne_pad h, digitOf_symbol h]

theorem decodeFrom_symbol_two (h : n < 64) : decodeFrom 2 left pads (symbol n :: cs) =
    (UInt8.ofNat (left * 16 + n / 4) :: ·) <$> decodeFrom 3 (n % 4) 0 cs := by
  simp [decodeFrom, symbol_ne_pad h, digitOf_symbol h]

theorem decodeFrom_symbol_three (h : n < 64) : decodeFrom 3 left pads (symbol n :: cs) =
    (UInt8.ofNat (left * 64 + n) :: ·) <$> decodeFrom 0 0 0 cs := by
  simp [decodeFrom, symbol_ne_pad h, digitOf_symbol h]

end Steps

/-- A byte is put together from its upper and its lower bits. -/
theorem ofNat_bits (a : UInt8) {m : ℕ} (h : m = a.toNat) : UInt8.ofNat m = a := by
  rw [h, UInt8.ofNat_toNat]

theorem decodeFrom_encode (bytes : Bytes) : decodeFrom 0 0 0 (encode bytes) = .ok bytes := by
  induction bytes using encode.induct with
  | case1 => rfl
  | case2 a =>
      have ha := a.toNat_lt
      rw [encode, decodeFrom_symbol_zero (by omega), decodeFrom_symbol_one (by omega)]
      rw [ofNat_bits a (by omega)]
      rfl
  | case3 a b =>
      have ha := a.toNat_lt
      have hb := b.toNat_lt
      rw [encode, decodeFrom_symbol_zero (by omega), decodeFrom_symbol_one (by omega),
        decodeFrom_symbol_two (by omega), ofNat_bits a (by omega), ofNat_bits b (by omega)]
      rfl
  | case4 a b c bytes ih =>
      have ha := a.toNat_lt
      have hb := b.toNat_lt
      have hc := c.toNat_lt
      rw [encode, decodeFrom_symbol_zero (by omega), decodeFrom_symbol_one (by omega),
        decodeFrom_symbol_two (by omega), decodeFrom_symbol_three (by omega),
        ofNat_bits a (by omega), ofNat_bits b (by omega), ofNat_bits c (by omega), ih]
      rfl

/-! ## The characters of an encoding -/

def isDigit (c : Char) : Bool := c ∈ alphabet ∨ c = '='

theorem isDigit_symbol (n : ℕ) : isDigit (symbol n) = true := by
  unfold isDigit symbol
  by_cases h : n < alphabet.length
  · simp [List.getD_eq_getElem?_getD, List.getElem?_eq_getElem h]
  · simp [List.getD_eq_getElem?_getD, List.getElem?_eq_none (Nat.le_of_not_lt h)]

theorem isDigit_of_mem_encode {c : Char} {bytes : Bytes} (h : c ∈ encode bytes) :
    isDigit c = true := by
  induction bytes using encode.induct with
  | case1 => exact absurd h List.not_mem_nil
  | case2 a =>
      simp only [encode, List.mem_cons, List.not_mem_nil, or_false] at h
      rcases h with rfl | rfl | rfl | rfl
      · exact isDigit_symbol _
      · exact isDigit_symbol _
      · rfl
      · rfl
  | case3 a b =>
      simp only [encode, List.mem_cons, List.not_mem_nil, or_false] at h
      rcases h with rfl | rfl | rfl | rfl
      · exact isDigit_symbol _
      · exact isDigit_symbol _
      · exact isDigit_symbol _
      · rfl
  | case4 a b c' bytes ih =>
      simp only [encode, List.mem_cons] at h
      rcases h with rfl | rfl | rfl | rfl | h
      · exact isDigit_symbol _
      · exact isDigit_symbol _
      · exact isDigit_symbol _
      · exact isDigit_symbol _
      · exact ih h

theorem decode_encode (bytes : Bytes) : decode (encode bytes) = .ok bytes := by
  have hascii : (encode bytes).all (fun c => c.toNat < 128) = true := by
    rw [List.all_eq_true]
    intro c hc
    have hall : (alphabet ++ ['=']).all (fun c => c.toNat < 128) = true := by decide +kernel
    apply List.all_eq_true.mp hall
    simpa [isDigit] using isDigit_of_mem_encode hc
  rw [decode, if_pos hascii, decodeFrom_encode]

end Base64
