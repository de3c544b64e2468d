import ScatterDex.Contract.Basic
import ScatterDex.Sdk.Commitment
import ScatterDex.Sdk.MerkleTree

/-!
# The authorize prover of the SDK

`generateAuthorizeProof` checks an order, recomputes every hash of the authorize circuit outside of it, and hands the circuit input to snarkjs. snarkjs, the EdDSA library and the random generator are parameters; a decimal string of the circuit input is the number it spells.
-/

namespace ScatterDex

open Fallible

namespace Sdk

/-! ### constants.ts -/

def commitTreeDepth : ℕ := 20

/-- A variant of the authorize circuit. -/
structure CircuitTier where
  cap : ℕ
  claimsTreeDepth : ℕ

def tier16 : CircuitTier := ⟨16, 4⟩
def tier64 : CircuitTier := ⟨64, 6⟩
def tier128 : CircuitTier := ⟨128, 7⟩

def tiers : List CircuitTier := [tier16, tier64, tier128]

/-- The tiers with a live verifier, smallest first. -/
def activeTiers : List CircuitTier := tiers

/-- `pickActiveTier`: the smallest tier that fits, else the largest one. -/
def pickActiveTier (recipientCount : ℕ) : Except String CircuitTier := do
  require (¬recipientCount = 0)
    s!"pickActiveTier: recipientCount must be a positive integer (got {recipientCount})"
  return (activeTiers.find? fun tier => recipientCount ≤ tier.cap).getD tier128

theorem tiers_spec {tier : CircuitTier} (htier : tier ∈ tiers) :
    tier.cap = 2 ^ tier.claimsTreeDepth ∧ tier.cap ≤ 128 ∧ 0 < tier.claimsTreeDepth ∧ tier.claimsTreeDepth ≤ 7 := by
  simp only [tiers, List.mem_cons, List.not_mem_nil, or_false] at htier
  rcases htier with rfl | rfl | rfl <;> decide

/-! ### Claims -/

/-- One claim of an order, as the caller states it. -/
structure ClaimEntry where
  secret : ℕ
  recipient : String
  token : String
  amount : ℕ
  releaseTime : ℕ

/-- A claim whose addresses were read. -/
structure FieldClaim where
  secret : ℕ
  recipient : ℕ
  token : ℕ
  amount : ℕ
  releaseTime : ℕ
  deriving DecidableEq, Inhabited

def ClaimEntry.fields (claim : ClaimEntry) : Except String FieldClaim := do
  let recipient ← bigInt claim.recipient
  let token ← bigInt claim.token
  return { secret := claim.secret, recipient, token, amount := claim.amount, releaseTime := claim.releaseTime }

variable (P : Poseidon)

def FieldClaim.leaf (claim : FieldClaim) : ℕ :=
  poseidonHash P [claim.secret, claim.recipient, claim.token, claim.amount, claim.releaseTime]

/-- The leaves of a claims tree: the hashed claims, then zeros up to the capacity of the tier. -/
def claimLeaves (tier : CircuitTier) (claims : List FieldClaim) : List ℕ :=
  claims.map (FieldClaim.leaf P) ++ List.replicate (tier.cap - claims.length) 0

/-! ### eddsa.ts -/

structure EdDSASignature where
  S : ℕ
  R8x : ℕ
  R8y : ℕ

/-- The EdDSA of circomlibjs: public keys and signatures of private keys. -/
structure Eddsa where
  prv2pub : List UInt8 → ℕ × ℕ
  signPoseidon : List UInt8 → ℕ → EdDSASignature

/-! ### authorize.ts -/

structure AuthorizeProofInput where
  note : CommitmentNote
  leafIndex : ℤ
  allLeaves : Option (List ℕ)
  merkleProof : Option MerkleProof
  sellAmount : ℕ
  buyToken : String
  buyAmount : ℕ
  maxFee : ℕ
  expiry : ℕ
  nonce : ℕ
  relayer : String
  eddsaPrivateKey : List UInt8
  claims : List ClaimEntry
  newSalt : Option ℕ

/-- The object handed to snarkjs, under the names of the circuit's input signals. -/
structure AuthorizeCircuitInput where
  commitmentRoot : ℕ
  nullifier : ℕ
  nonceNullifier : ℕ
  newCommitment : ℕ
  sellToken : ℕ
  buyToken : ℕ
  sellAmount : ℕ
  buyAmount : ℕ
  maxFee : ℕ
  expiry : ℕ
  claimsRoot : ℕ
  totalLocked : ℕ
  relayer : ℕ
  orderHash : ℕ
  secret : ℕ
  balance : ℕ
  salt : ℕ
  path : List ℕ
  pathIdx : List ℕ
  nonce : ℕ
  newSalt : ℕ
  pubKeyAx : ℕ
  pubKeyAy : ℕ
  sigS : ℕ
  sigR8x : ℕ
  sigR8y : ℕ
  claimSecrets : List ℕ
  claimRecipients : List ℕ
  claimTokens : List ℕ
  claimAmounts : List ℕ
  claimReleaseTimes : List ℕ
  claimCount : ℕ
  deriving DecidableEq

structure AuthorizeProofResult where
  proof : Groth16Proof
  publicSignals : List ℕ
  pubKeyBind : ℕ
  commitmentRoot : ℕ
  nullifier : ℕ
  nonceNullifier : ℕ
  newCommitment : ℕ
  claimsRoot : ℕ
  totalLocked : ℕ
  orderHash : ℕ

def hashAuthorizeOrder (sellToken buyToken sellAmount buyAmount maxFee expiry nonce claimsRoot relayer : ℕ) : ℕ :=
  poseidonHash P [sellToken, buyToken, sellAmount, buyAmount, maxFee, expiry, nonce, claimsRoot, relayer]

/-- The loop that compares the token of each claim with the bought token. -/
def checkClaimTokens (buyTokenLower : List Char) : ℕ → List ClaimEntry → Except String Unit
  | _, [] => .ok ()
  | i, claim :: claims => do
    require (¬toLowerCase claim.token ≠ buyTokenLower)
      s!"generateAuthorizeProof: claims[{i}].token does not match buyToken"
    checkClaimTokens buyTokenLower (i + 1) claims

def feeDenom : ℕ := 10000

/-- The checks before any hash is computed. -/
def validateAuthorize (input : AuthorizeProofInput) (tier : CircuitTier) : Except String Unit := do
  require (¬input.claims.length = 0) "generateAuthorizeProof: at least one claim is required"
  require (¬input.claims.length > tier.cap)
    s!"generateAuthorizeProof: too many claims ({input.claims.length} > {tier.cap}, tier {tier.cap})"
  require (¬input.sellAmount > input.note.amount) "generateAuthorizeProof: sellAmount exceeds note balance"
  checkClaimTokens (toLowerCase input.buyToken) 0 input.claims
  let preTotalLocked := (input.claims.map ClaimEntry.amount).sum
  require (¬input.maxFee > feeDenom) "generateAuthorizeProof: maxFee exceeds 10000 bps"
  require (¬preTotalLocked * feeDenom < input.buyAmount * (feeDenom - input.maxFee))
    "generateAuthorizeProof: claim allocation falls short of buyAmount net of maxFee"

/-- The membership path of the note: the one supplied, or the one of the tree rebuilt from the leaves. -/
def commitmentPath (input : AuthorizeProofInput) (commitment : ℕ) : Except String MerkleProof :=
  match input.merkleProof, input.allLeaves with
  | some merkleProof, _ => .ok merkleProof
  | none, some allLeaves => do
    require (¬(input.leafIndex < 0 ∨ input.leafIndex ≥ allLeaves.length))
      s!"generateAuthorizeProof: leafIndex {input.leafIndex} out of range for {allLeaves.length} leaves"
    require (¬allLeaves[input.leafIndex.toNat]? ≠ some commitment)
      "generateAuthorizeProof: commitment does not match the leaf at the given index — note and on-chain tree are out of sync"
    let tree ← buildMerkleTree P allLeaves commitTreeDepth
    let (pathElements, pathIndices) ← getMerkleProof tree.layers input.leafIndex
    return { root := tree.root, pathElements, pathIndices }
  | none, none => .error "generateAuthorizeProof: provide either allLeaves or a pre-computed merkleProof"

/-- An array of the circuit input: the values of the claims, then zeros. -/
def claimColumn (tier : CircuitTier) (claims : List FieldClaim) (field : FieldClaim → ℕ) : List ℕ :=
  claims.map field ++ List.replicate (tier.cap - claims.length) 0

variable (eddsa : Eddsa)

/-- `generateAuthorizeProof` up to the call of snarkjs. `random` is what `randomFieldElement` would return. -/
def authorizeCircuitInput (random : ℕ) (input : AuthorizeProofInput) (tier : CircuitTier) :
    Except String AuthorizeCircuitInput := do
  validateAuthorize input tier
  let note := input.note
  let path ← commitmentPath P input (computeCommitment P note)
  let nullifier := computeNullifier P note
  let nonceNullifier := computeNonceNullifier P note.ownerSecret input.nonce
  let newBalance := note.amount - input.sellAmount
  let newSalt := if newBalance > 0 then input.newSalt.getD random else 0
  let newCommitment :=
    if newBalance > 0 then computeCommitment P { note with amount := newBalance, salt := newSalt } else 0
  let claims ← input.claims.mapM ClaimEntry.fields
  let tree ← buildMerkleTree P (claimLeaves P tier claims) tier.claimsTreeDepth
  let buyToken ← bigInt input.buyToken
  let relayer ← bigInt input.relayer
  let orderHash := hashAuthorizeOrder P note.token buyToken input.sellAmount input.buyAmount input.maxFee input.expiry
    input.nonce tree.root relayer
  let sig := eddsa.signPoseidon input.eddsaPrivateKey orderHash
  return {
    commitmentRoot := path.root
    nullifier
    nonceNullifier
    newCommitment
    sellToken := note.token
    buyToken
    sellAmount := input.sellAmount
    buyAmount := input.buyAmount
    maxFee := input.maxFee
    expiry := input.expiry
    claimsRoot := tree.root
    totalLocked := (claims.map FieldClaim.amount).sum
    relayer
    orderHash
    secret := note.ownerSecret
    balance := note.amount
    salt := note.salt
    path := path.pathElements
    pathIdx := path.pathIndices
    nonce := input.nonce
    newSalt
    pubKeyAx := note.pubKeyAx
    pubKeyAy := note.pubKeyAy
    sigS := sig.S
    sigR8x := sig.R8x
    sigR8y := sig.R8y
    claimSecrets := claimColumn tier claims FieldClaim.secret
    claimRecipients := claimColumn tier claims FieldClaim.recipient
    claimTokens := claimColumn tier claims FieldClaim.token
    claimAmounts := claimColumn tier claims FieldClaim.amount
    claimReleaseTimes := claimColumn tier claims FieldClaim.releaseTime
    claimCount := input.claims.length }

/-- `generateAuthorizeProof`, with snarkjs on the assets of the tier as `fullProve`. -/
def generateAuthorizeProof (fullProve : AuthorizeCircuitInput → Except String (Groth16Proof × List ℕ)) (random : ℕ)
    (input : AuthorizeProofInput) (tier : CircuitTier) : Except String AuthorizeProofResult := do
  let circuitInput ← authorizeCircuitInput P eddsa random input tier
  let (proof, publicSignals) ← fullProve circuitInput
  match publicSignals with
  | [] => throw "generateAuthorizeProof: snarkjs returned no publicSignals — circuit/wasm mismatch?"
  | pubKeyBind :: _ =>
    return {
      proof
      publicSignals
      pubKeyBind
      commitmentRoot := circuitInput.commitmentRoot
      nullifier := circuitInput.nullifier
      nonceNullifier := circuitInput.nonceNullifier
      newCommitment := circuitInput.newCommitment
      claimsRoot := circuitInput.claimsRoot
      totalLocked := circuitInput.totalLocked
      orderHash := circuitInput.orderHash }

/-! ### What the checks leave -/

variable {P eddsa}

theorem checkClaimTokens_ok {buyTokenLower : List Char} {i : ℕ} {claims : List ClaimEntry} {u : Unit}
    (hcheck : checkClaimTokens buyTokenLower i claims = .ok u) :
    ∀ claim ∈ claims, toLowerCase claim.token = buyTokenLower := by
  induction claims generalizing i with
  | nil => simp
  | cons claim claims ih =>
    simp only [checkClaimTokens, bind_eq_ok, require_eq_ok, not_not] at hcheck
    obtain ⟨-, htoken, hrest⟩ := hcheck
    exact List.forall_mem_cons.mpr ⟨htoken, ih hrest⟩

/-- An order that passed the checks. -/
structure AuthorizeProofInput.Checked (input : AuthorizeProofInput) (tier : CircuitTier) : Prop where
  claims_le : input.claims.length ≤ tier.cap
  sellAmount_le : input.sellAmount ≤ input.note.amount
  tokens : ∀ claim ∈ input.claims, toLowerCase claim.token = toLowerCase input.buyToken
  maxFee_le : input.maxFee ≤ 10000
  minReceive : input.buyAmount * (10000 - input.maxFee) ≤ (input.claims.map ClaimEntry.amount).sum * 10000

theorem validateAuthorize_ok {input : AuthorizeProofInput} {tier : CircuitTier} {u : Unit}
    (hvalid : validateAuthorize input tier = .ok u) : input.Checked tier := by
  simp only [validateAuthorize, bind_eq_ok, require_eq_ok] at hvalid
  obtain ⟨_, -, _, hclaims, _, hsell, _, htokens, _, hfee, hreceive⟩ := hvalid
  exact ⟨not_lt.mp hclaims, not_lt.mp hsell, checkClaimTokens_ok htokens, not_lt.mp hfee, not_lt.mp hreceive⟩

theorem ClaimEntry.fields_ok {entry : ClaimEntry} {claim : FieldClaim} (hfields : entry.fields = .ok claim) :
    bigInt entry.recipient = .ok claim.recipient ∧ bigInt entry.token = .ok claim.token ∧
      claim.secret = entry.secret ∧ claim.amount = entry.amount ∧ claim.releaseTime = entry.releaseTime := by
  simp only [ClaimEntry.fields, bind_eq_ok, pure_eq_ok] at hfields
  obtain ⟨recipient, hrecipient, token, htoken, rfl⟩ := hfields
  exact ⟨hrecipient, htoken, rfl, rfl, rfl⟩

end Sdk

end ScatterDex
