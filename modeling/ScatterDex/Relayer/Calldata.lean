import ScatterDex.Relayer.OrderText

/-!
# Calldata of an order

`buildAuthProofStruct` re-encodes the named signals of a submission, field by field, for the struct of the contract; ethers turns the struct into words. The off-chain check reads the proof back into the layout of snarkjs.
-/

namespace ScatterDex

open Fallible Sdk

namespace Relayer

/-! ### The struct -/

def toBytes32 (decimalStr : String) : Except String String := (toBigInt decimalStr).map (padHex 64)

def toAddress (decimalStr : String) : Except String String := (toBigInt decimalStr).map (padHex 40)

def bigIntPair (p : String × String) : Except String (ℤ × ℤ) := do
  let x ← toBigInt p.1
  let y ← toBigInt p.2
  return (x, y)

/-- The points of a proof, as big integers. -/
structure ProofPoints where
  proofA : ℤ × ℤ
  proofB : (ℤ × ℤ) × ℤ × ℤ
  proofC : ℤ × ℤ

def SolidityProof.points (proof : SolidityProof) : Except String ProofPoints := do
  let a ← orError proof.a "proof.a"
  let b ← orError proof.b "proof.b"
  let c ← orError proof.c "proof.c"
  let proofA ← bigIntPair a
  let proofB₀ ← bigIntPair b.1
  let proofB₁ ← bigIntPair b.2
  let proofC ← bigIntPair c
  return ⟨proofA, (proofB₀, proofB₁), proofC⟩

/-- What the relayer hands to ethers for one side. -/
structure AuthProofStruct where
  points : ProofPoints
  pubKeyBind : String
  commitmentRoot : ℤ
  nullifier : String
  nonceNullifier : String
  newCommitment : String
  sellToken : String
  buyToken : String
  sellAmount : ℤ
  buyAmount : ℤ
  maxFee : ℤ
  expiry : ℤ
  claimsRoot : String
  totalLocked : ℤ
  relayer : String
  orderHash : String
  tier : ℕ

def AuthorizeOrderBody.buildAuthProofStruct (body : AuthorizeOrderBody) : Except String AuthProofStruct := do
  let points ← body.proof.points
  let pubKeyBind ← toBytes32 (body.text .pubKeyBind)
  let commitmentRoot ← toBigInt (body.text .commitmentRoot)
  let nullifier ← toBytes32 (body.text .nullifier)
  let nonceNullifier ← toBytes32 (body.text .nonceNullifier)
  let newCommitment ← toBytes32 (body.text .newCommitment)
  let sellToken ← toAddress (body.text .sellToken)
  let buyToken ← toAddress (body.text .buyToken)
  let sellAmount ← toBigInt (body.text .sellAmount)
  let buyAmount ← toBigInt (body.text .buyAmount)
  let maxFee ← toBigInt (body.text .maxFee)
  let expiry ← toBigInt (body.text .expiry)
  let claimsRoot ← toBytes32 (body.text .claimsRoot)
  let totalLocked ← toBigInt (body.text .totalLocked)
  let relayer ← toAddress (body.text .relayer)
  let orderHash ← toBytes32 (body.text .orderHash)
  return ⟨points, pubKeyBind, commitmentRoot, nullifier, nonceNullifier, newCommitment, sellToken, buyToken, sellAmount,
    buyAmount, maxFee, expiry, claimsRoot, totalLocked, relayer, orderHash, body.tier.getD 16⟩

/-! ### Words -/

/-- The coders of ethers for the types of the tuple. -/
structure AbiCoder where
  bytes32 : String → Except String ℕ
  address : String → Except String Address
  uint : (width : ℕ) → ℤ → Except String (BitVec width)

/-- Hexadecimal digits in lower case are encoded as the number they spell. A number is encoded as itself, and refused when it does not fit its width. -/
structure AbiCoder.Lawful (coder : AbiCoder) : Prop where
  bytes32 : ∀ digits n, digits.length = 64 → readDigits 16 digits = some n →
    coder.bytes32 ("0x" ++ String.ofList digits) = .ok n
  address : ∀ digits n, digits.length = 40 → readDigits 16 digits = some n →
    coder.address ("0x" ++ String.ofList digits) = .ok (BitVec.ofNat 160 n)
  uint : ∀ {width v w}, coder.uint width v = .ok w ↔ v = w.toNat

namespace AbiCoder

variable (coder : AbiCoder)

/-- A coordinate of a proof point. -/
def word (v : ℤ) : Except String ℕ := (coder.uint 256 v).map BitVec.toNat

def wordPair (p : ℤ × ℤ) : Except String (ℕ × ℕ) := do
  let x ← coder.word p.1
  let y ← coder.word p.2
  return (x, y)

def proof (points : ProofPoints) : Except String Groth16Proof := do
  let proofA ← coder.wordPair points.proofA
  let proofB₀ ← coder.wordPair points.proofB.1
  let proofB₁ ← coder.wordPair points.proofB.2
  let proofC ← coder.wordPair points.proofC
  return ⟨proofA, (proofB₀, proofB₁), proofC⟩

/-- `AUTHORIZE_PROOF_TUPLE` -/
def authProof (s : AuthProofStruct) : Except String AuthorizeProof := do
  let proof ← coder.proof s.points
  let pubKeyBind ← coder.bytes32 s.pubKeyBind
  let commitmentRoot ← coder.word s.commitmentRoot
  let nullifier ← coder.bytes32 s.nullifier
  let nonceNullifier ← coder.bytes32 s.nonceNullifier
  let newCommitment ← coder.bytes32 s.newCommitment
  let sellToken ← coder.address s.sellToken
  let buyToken ← coder.address s.buyToken
  let sellAmount ← coder.uint 128 s.sellAmount
  let buyAmount ← coder.uint 128 s.buyAmount
  let maxFee ← coder.uint 16 s.maxFee
  let expiry ← coder.uint 64 s.expiry
  let claimsRoot ← coder.bytes32 s.claimsRoot
  let totalLocked ← coder.uint 128 s.totalLocked
  let relayer ← coder.address s.relayer
  let orderHash ← coder.bytes32 s.orderHash
  let tier ← coder.uint 8 s.tier
  return ⟨proof, pubKeyBind, commitmentRoot, nullifier, nonceNullifier, newCommitment, sellToken, buyToken, sellAmount,
    buyAmount, maxFee, expiry, claimsRoot, totalLocked, relayer, orderHash, tier⟩

/-- The points of a submission, as the contract receives them. -/
def submittedProof (body : AuthorizeOrderBody) : Except String Groth16Proof := do
  let points ← body.proof.points
  coder.proof points

/-- One side of a settlement, as the contract receives it. -/
def submitted (body : AuthorizeOrderBody) : Except String AuthorizeProof := do
  let s ← body.buildAuthProofStruct
  coder.authProof s

end AbiCoder

/-! ### The check off chain -/

/-- The part of a proof that `snarkjs.groth16.verify` reads. -/
structure SnarkProof where
  pi_a : List String
  pi_b : List (List String)
  pi_c : List String

/-- Un-reverses each pair of `pi_b`. -/
def buildSnarkProof (a : String × String) (b : (String × String) × String × String) (c : String × String) : SnarkProof where
  pi_a := [a.1, a.2, "1"]
  pi_b := [[b.1.2, b.1.1], [b.2.2, b.2.1], ["1", "0"]]
  pi_c := [c.1, c.2, "1"]

/-- What the verification of an order reads: the tier of the key, the signals and the proof. -/
def AuthorizeOrderBody.verified (body : AuthorizeOrderBody) : Except String (ℕ × List String × SnarkProof) := do
  let a ← orError body.proof.a "proof.a"
  let b ← orError body.proof.b "proof.b"
  let c ← orError body.proof.c "proof.c"
  let signals ← orError body.publicSignalsArray "publicSignalsArray"
  return (body.tier.getD 16, signals, buildSnarkProof a b c)

end Relayer

end ScatterDex
