import Mathlib.Data.Char
import Mathlib.Data.List.Basic

/-!
# UTF-8

The bytes of a text, and the text of any bytes: a sequence that is cut off or out of range becomes one replacement character, and the byte that breaks it off is looked at again. A byte is a natural number.
-/

namespace Utf8

def encodeChar (c : Char) : List ℕ :=
  let n := c.toNat
  if n < 0x80 then [n]
  else if n < 0x800 then [0xC0 + n / 64, 0x80 + n % 64]
  else if n < 0x10000 then [0xE0 + n / 4096, 0x80 + n / 64 % 64, 0x80 + n % 64]
  else [0xF0 + n / 262144, 0x80 + n / 4096 % 64, 0x80 + n / 64 % 64, 0x80 + n % 64]

def encode (cs : List Char) : List ℕ := cs.flatMap encodeChar

/-- A sequence that has begun: the bytes that are missing, the range of the next one, and the bits so far. -/
structure Pending where
  needed : ℕ
  lower : ℕ
  upper : ℕ
  point : ℕ

def replacement : Char := '\uFFFD'

/-- What the first byte of a sequence says. -/
def first (b : ℕ) : Char ⊕ Pending :=
  if b < 0x80 then .inl (Char.ofNat b)
  else if 0xC2 ≤ b ∧ b ≤ 0xDF then .inr ⟨1, 0x80, 0xBF, b - 0xC0⟩
  else if 0xE0 ≤ b ∧ b ≤ 0xEF then .inr ⟨2, if b = 0xE0 then 0xA0 else 0x80, if b = 0xED then 0x9F else 0xBF, b - 0xE0⟩
  else if 0xF0 ≤ b ∧ b ≤ 0xF4 then .inr ⟨3, if b = 0xF0 then 0x90 else 0x80, if b = 0xF4 then 0x8F else 0xBF, b - 0xF0⟩
  else .inl replacement

def decodeFrom : Option Pending → List ℕ → List Char
  | none, [] => []
  | some _, [] => [replacement]
  | none, b :: bs =>
    match first b with
    | .inl c => c :: decodeFrom none bs
    | .inr p => decodeFrom (some p) bs
  | some p, b :: bs =>
    if p.lower ≤ b ∧ b ≤ p.upper then
      let point := p.point * 64 + (b - 0x80)
      if p.needed = 1 then Char.ofNat point :: decodeFrom none bs else decodeFrom (some ⟨p.needed - 1, 0x80, 0xBF, point⟩) bs
    else
      replacement :: match first b with
        | .inl c => c :: decodeFrom none bs
        | .inr p => decodeFrom (some p) bs

/-- The text of some bytes, without a byte order mark at its start. -/
def decode (bs : List ℕ) : List Char :=
  match decodeFrom none bs with
  | '\uFEFF' :: cs => cs
  | cs => cs

/-! ### The round trip -/

theorem toNat_cases (c : Char) : c.toNat < 0xD800 ∨ 0xDFFF < c.toNat ∧ c.toNat < 0x110000 := c.valid

theorem ofNat_eq {c : Char} {n : ℕ} (hn : n = c.toNat) : Char.ofNat n = c := by
  rw [hn]
  exact Char.ofNat_toNat c

theorem decodeFrom_last {lower upper point b : ℕ} {bs : List ℕ} {c : Char} (hrange : lower ≤ b ∧ b ≤ upper)
    (hpoint : point * 64 + (b - 0x80) = c.toNat) : decodeFrom (some ⟨1, lower, upper, point⟩) (b :: bs) = c :: decodeFrom none bs := by
  rw [decodeFrom, if_pos hrange]
  show (if 1 = 1 then _ else _) = _
  rw [if_pos rfl, ofNat_eq hpoint]

theorem decodeFrom_more {needed lower upper point b : ℕ} {bs : List ℕ} (hrange : lower ≤ b ∧ b ≤ upper) :
    decodeFrom (some ⟨needed + 2, lower, upper, point⟩) (b :: bs) =
      decodeFrom (some ⟨needed + 1, 0x80, 0xBF, point * 64 + (b - 0x80)⟩) bs := by
  rw [decodeFrom, if_pos hrange]
  show (if needed + 2 = 1 then _ else _) = _
  rw [if_neg (by omega)]
  rfl

theorem decodeFrom_encodeChar (c : Char) (bs : List ℕ) : decodeFrom none (encodeChar c ++ bs) = c :: decodeFrom none bs := by
  have hc := toNat_cases c
  unfold encodeChar
  dsimp only
  split
  · next h1 =>
    show decodeFrom none (c.toNat :: bs) = _
    rw [decodeFrom, first, if_pos h1, ofNat_eq rfl]
  split
  · next h1 h2 =>
    show decodeFrom none ((0xC0 + c.toNat / 64) :: (0x80 + c.toNat % 64) :: bs) = _
    rw [decodeFrom, first, if_neg (by omega), if_pos (by omega)]
    exact decodeFrom_last (by omega) (by omega)
  split
  · next h1 h2 h3 =>
    show decodeFrom none ((0xE0 + c.toNat / 4096) :: (0x80 + c.toNat / 64 % 64) :: (0x80 + c.toNat % 64) :: bs) = _
    rw [decodeFrom, first, if_neg (by omega), if_neg (by omega), if_pos (by omega)]
    refine (decodeFrom_more ?_).trans (decodeFrom_last (by omega) (by omega))
    split <;> split <;> omega
  · next h1 h2 h3 =>
    show decodeFrom none ((0xF0 + c.toNat / 262144) :: (0x80 + c.toNat / 4096 % 64) :: (0x80 + c.toNat / 64 % 64) :: (0x80 + c.toNat % 64) :: bs) = _
    rw [decodeFrom, first, if_neg (by omega), if_neg (by omega), if_neg (by omega), if_pos (by omega)]
    refine (decodeFrom_more ?_).trans ((decodeFrom_more (by omega)).trans (decodeFrom_last (by omega) (by omega)))
    split <;> split <;> omega

theorem decodeFrom_encode (cs : List Char) : decodeFrom none (encode cs) = cs := by
  induction cs with
  | nil => rfl
  | cons c cs ih =>
    show decodeFrom none (encodeChar c ++ encode cs) = _
    rw [decodeFrom_encodeChar, ih]

/-- A text is read back from its bytes, unless it starts with a byte order mark. -/
theorem decode_encode {cs : List Char} (hmark : cs.head? ≠ some '\uFEFF') : decode (encode cs) = cs := by
  rw [decode, decodeFrom_encode]
  split
  · exact absurd rfl hmark
  · rfl

theorem encodeChar_lt (c : Char) : ∀ b ∈ encodeChar c, b < 256 := by
  have hc := toNat_cases c
  unfold encodeChar
  dsimp only
  split
  · simp
    omega
  split
  · simp
    omega
  split
  · simp
    omega
  · simp
    omega

theorem encode_lt (cs : List Char) : ∀ b ∈ encode cs, b < 256 := by
  intro b hb
  obtain ⟨c, -, hb⟩ := List.mem_flatMap.mp hb
  exact encodeChar_lt c b hb

end Utf8
