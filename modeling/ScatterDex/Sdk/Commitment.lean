import ScatterDex.Poseidon

/-!
# Notes of the SDK

`commitment.ts`: notes, and the hashes that name them. A `bigint` is the natural number it stands for; Poseidon reduces its inputs into the field. Addresses are strings until `BigInt` reads them.
-/

namespace ScatterDex

open Bn254

namespace Sdk

/-! ### Strings -/

/-- `toLowerCase`, on the letters of hexadecimal literals. -/
def toLowerCase (s : String) : List Char := s.toList.map Char.toLower

/-- The value of a digit in lower case. -/
def digitValue (c : Char) : Option ℕ :=
  if '0' ≤ c ∧ c ≤ '9' then some (c.toNat - '0'.toNat)
  else if 'a' ≤ c ∧ c ≤ 'f' then some (c.toNat - 'a'.toNat + 10)
  else none

def readDigits (base : ℕ) (digits : List Char) : Option ℕ :=
  digits.foldlM (fun value c => do
    let digit ← digitValue c
    if digit < base then some (value * base + digit) else none) 0

/-- `BigInt(string)`, on `0x` literals with letters of either case and on decimal digits. -/
def bigInt (s : String) : Except String ℕ :=
  let value := match toLowerCase s with
    | '0' :: 'x' :: digits => if digits = [] then none else readDigits 16 digits
    | digits => readDigits 10 digits
  match value with
  | some n => .ok n
  | none => .error s!"Cannot convert {s} to a BigInt"

theorem bigInt_eq_of_toLowerCase {s t : String} {n m : ℕ} (heq : toLowerCase s = toLowerCase t) (hs : bigInt s = .ok n)
    (ht : bigInt t = .ok m) : n = m := by
  unfold bigInt at hs ht
  rw [← heq] at ht
  dsimp only at hs ht
  split at hs <;> split at ht <;> simp_all

/-! ### Hashes -/

def tagEscrowNull : ℕ := 0
def tagNonceNull : ℕ := 1
def tagClaimNull : ℕ := 2
def tagCommitmentV2 : ℕ := 3

/-- The secret material behind one escrow entry. -/
structure CommitmentNote where
  ownerSecret : ℕ
  token : ℕ
  amount : ℕ
  salt : ℕ
  pubKeyAx : ℕ
  pubKeyAy : ℕ
  deriving DecidableEq

variable (P : Poseidon)

def poseidonHash (inputs : List ℕ) : ℕ := (P.hash (inputs.map (Nat.cast : ℕ → Scalar))).val

def computeCommitment (note : CommitmentNote) : ℕ :=
  poseidonHash P
    [tagCommitmentV2, note.ownerSecret, note.token, note.amount, note.salt, note.pubKeyAx, note.pubKeyAy]

def computeNullifier (note : CommitmentNote) : ℕ := poseidonHash P [tagEscrowNull, note.ownerSecret, note.salt]

def computeNonceNullifier (ownerSecret nonce : ℕ) : ℕ := poseidonHash P [tagNonceNull, ownerSecret, nonce]

def computeClaimNullifier (secret leafIndex claimsRoot : ℕ) : ℕ :=
  poseidonHash P [tagClaimNull, secret, leafIndex, claimsRoot]

/-- `generateNote`, on the two random field elements it draws. -/
def generateNote (ownerSecret salt : ℕ) (token : String) (amount : ℕ) (pubKey : ℕ × ℕ) :
    Except String CommitmentNote := do
  let token ← bigInt token
  return { ownerSecret, token, amount, salt, pubKeyAx := pubKey.1, pubKeyAy := pubKey.2 }

variable {P}

theorem poseidonHash_lt (inputs : List ℕ) : poseidonHash P inputs < modulus := ZMod.val_lt _

theorem cast_poseidonHash (inputs : List ℕ) :
    (poseidonHash P inputs : Scalar) = P.hash (inputs.map (Nat.cast : ℕ → Scalar)) := ZMod.natCast_zmod_val _

end Sdk

end ScatterDex
