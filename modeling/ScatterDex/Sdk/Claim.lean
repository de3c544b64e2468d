import ScatterDex.Sdk.Authorize

/-!
# The claim prover of the SDK

`claim.ts`: the claims tree of a batch, and `generateClaimProof`, which opens one of its leaves.
-/

namespace ScatterDex

open Fallible

namespace Sdk

variable (P : Poseidon)

structure ClaimsTree where
  root : ℕ
  layers : List (List ℕ)
  leaves : List ℕ

def buildClaimsTree (claims : List ClaimEntry) (tier : CircuitTier) : Except String ClaimsTree := do
  require (¬claims.length > tier.cap)
    s!"buildClaimsTree: too many claims ({claims.length} > {tier.cap}, tier {tier.cap})"
  let claims ← claims.mapM ClaimEntry.fields
  let leaves := claimLeaves P tier claims
  let tree ← buildMerkleTree P leaves tier.claimsTreeDepth
  return { root := tree.root, layers := tree.layers, leaves }

structure ClaimProofInput where
  secret : ℕ
  recipient : ℕ
  token : ℕ
  amount : ℕ
  releaseTime : ℕ
  leafIndex : ℤ
  allClaimLeaves : List ℕ
  merkleProof : Option MerkleProof

/-- The object handed to snarkjs, under the names of the circuit's input signals. -/
structure ClaimCircuitInput where
  claimsRoot : ℕ
  nullifier : ℕ
  amount : ℕ
  token : ℕ
  recipient : ℕ
  releaseTime : ℕ
  secret : ℕ
  leafIndex : ℕ
  pathElements : List ℕ
  pathIndices : List ℕ

structure ClaimProofResult where
  proof : Groth16Proof
  publicSignals : List ℕ
  claimsRoot : ℕ
  nullifier : ℕ

/-- The loop that checks the directions of a supplied path. -/
def checkPathIndices : ℕ → List ℕ → Except String Unit
  | _, [] => .ok ()
  | i, v :: pathIndices => do
    require (¬(v ≠ 0 ∧ v ≠ 1)) s!"generateClaimProof: merkleProof.pathIndices[{i}] must be 0 or 1 (got {v})"
    checkPathIndices (i + 1) pathIndices

def fromMerkleProof (p : MerkleProof) (leafIndex : ℤ) (tier : CircuitTier) : Except String MerkleProof := do
  let size := tier.cap
  require (¬(leafIndex < 0 ∨ leafIndex ≥ size))
    s!"generateClaimProof: leafIndex {leafIndex} out of range [0, {size}) for tier {tier.cap}"
  require (¬p.pathElements.length ≠ tier.claimsTreeDepth)
    s!"generateClaimProof: merkleProof.pathElements length must be {tier.claimsTreeDepth} (got {p.pathElements.length})"
  require (¬p.pathIndices.length ≠ tier.claimsTreeDepth)
    s!"generateClaimProof: merkleProof.pathIndices length must be {tier.claimsTreeDepth} (got {p.pathIndices.length})"
  checkPathIndices 0 p.pathIndices
  return p

def fromLeaves (allClaimLeaves : List ℕ) (leafIndex : ℤ) (expectedLeaf : ℕ) (tier : CircuitTier) :
    Except String MerkleProof := do
  let size := tier.cap
  require (¬allClaimLeaves.length ≠ size)
    s!"generateClaimProof: allClaimLeaves length must be {size} (got {allClaimLeaves.length}, tier {tier.cap})"
  require (¬(leafIndex < 0 ∨ leafIndex ≥ allClaimLeaves.length))
    s!"generateClaimProof: leafIndex {leafIndex} out of range for {allClaimLeaves.length} leaves"
  require (¬allClaimLeaves[leafIndex.toNat]? ≠ some expectedLeaf)
    "generateClaimProof: claim data does not match the leaf at the given index — wrong claim file or settlement"
  let tree ← buildMerkleTree P allClaimLeaves tier.claimsTreeDepth
  let (pathElements, pathIndices) ← getMerkleProof tree.layers leafIndex
  return { root := tree.root, pathElements, pathIndices }

/-- The path of the claim: the one supplied, or the one of the tree rebuilt from the leaves. -/
def ClaimProofInput.resolve (input : ClaimProofInput) (tier : CircuitTier) : Except String MerkleProof :=
  match input.merkleProof with
  | some merkleProof => fromMerkleProof merkleProof input.leafIndex tier
  | none =>
    let expectedLeaf :=
      poseidonHash P [input.secret, input.recipient, input.token, input.amount, input.releaseTime]
    fromLeaves P input.allClaimLeaves input.leafIndex expectedLeaf tier

/-- `generateClaimProof` up to the call of snarkjs. Both branches have checked that the index is not negative. -/
def claimCircuitInput (input : ClaimProofInput) (tier : CircuitTier) : Except String ClaimCircuitInput := do
  let resolved ← input.resolve P tier
  let leafIndex := input.leafIndex.toNat
  return {
    claimsRoot := resolved.root
    nullifier := computeClaimNullifier P input.secret leafIndex resolved.root
    amount := input.amount
    token := input.token
    recipient := input.recipient
    releaseTime := input.releaseTime
    secret := input.secret
    leafIndex
    pathElements := resolved.pathElements
    pathIndices := resolved.pathIndices }

/-- `generateClaimProof`, with snarkjs on the assets of the tier as `fullProve`. -/
def generateClaimProof (fullProve : ClaimCircuitInput → Except String (Groth16Proof × List ℕ)) (input : ClaimProofInput)
    (tier : CircuitTier) : Except String ClaimProofResult := do
  let circuitInput ← claimCircuitInput P input tier
  let (proof, publicSignals) ← fullProve circuitInput
  require (¬publicSignals.length = 0) "generateClaimProof: snarkjs returned no publicSignals — circuit/wasm mismatch?"
  return { proof, publicSignals, claimsRoot := circuitInput.claimsRoot, nullifier := circuitInput.nullifier }

/-! ### The paths of a claims tree -/

variable {P}

theorem checkPathIndices_ok {i : ℕ} {pathIndices : List ℕ} (hbits : ∀ v ∈ pathIndices, v = 0 ∨ v = 1) :
    checkPathIndices i pathIndices = .ok () := by
  induction pathIndices generalizing i with
  | nil => rfl
  | cons v pathIndices ih =>
    simp only [checkPathIndices, bind_eq_ok, require_eq_ok]
    obtain ⟨hv, hrest⟩ := List.forall_mem_cons.mp hbits
    exact ⟨(), by omega, ih hrest⟩

end Sdk

end ScatterDex
