import ScatterDex.Pro.OrderForm
import ScatterDex.Sdk.ClaimPackage

/-!
# The claim packages of Pro

`OrderModal.tsx` and `authorize.worker.ts` from the prover to the stored order, `proClaimPackage.ts`, and the recipient's side in `claimSubmit.ts` and `claim.worker.ts`. A decimal or hexadecimal string of a package is the number it spells.
-/

namespace ScatterDex

open Fallible Sdk

namespace Pro

variable (P : Poseidon)

/-! ### orders.tsx -/

structure OrderClaim where
  secret : ℕ
  recipient : String
  token : String
  amount : ℕ
  releaseTime : ℕ
  leafIndex : ℤ
  claimsRoot : Option ℕ
  deriving DecidableEq

def OrderClaim.entry (claim : OrderClaim) : ClaimEntry where
  secret := claim.secret
  recipient := claim.recipient
  token := claim.token
  amount := claim.amount
  releaseTime := claim.releaseTime

/-- The claim material of a stored order. Records of earlier versions have the singular `claim` alone. -/
structure OrderRecord where
  label : String
  claim : Option OrderClaim
  claims : Option (List OrderClaim)
  deriving DecidableEq

/-! ### The submission, from the prover on -/

/-- The tier of the one bundle of circuit assets of the worker, and of its call of `generateAuthorizeProof`. -/
def workerTier : CircuitTier := tier16

/-- `authorize.worker.ts`, up to the call of snarkjs. -/
def authorizeWorker (eddsa : Eddsa) (random : ℕ) (input : AuthorizeProofInput) : Except String AuthorizeCircuitInput :=
  authorizeCircuitInput P eddsa random input workerTier

/-- The rows of the order record, in the order of the form. -/
def orderClaims (claims : List ClaimEntry) (claimsRoot : ℕ) : List OrderClaim :=
  claims.mapIdx fun idx c => {
    secret := c.secret
    recipient := c.recipient
    token := c.token
    amount := c.amount
    releaseTime := c.releaseTime
    leafIndex := idx
    claimsRoot := some claimsRoot }

/-- What a submission leaves: the proof, the tier sent to the relayer with it, and the order record. -/
structure Submission where
  circuit : AuthorizeCircuitInput
  tier : ℕ
  order : OrderRecord

/-- `submit`, with snarkjs answering and the relayer accepting. -/
def OrderForm.submit (eddsa : Eddsa) (random : ℕ) (label : String) (form : OrderForm) (session : Session) :
    Except String Submission := do
  let activeTier ← pickActiveTier form.recipients.rows.length
  let input ← form.proofInput session
  let circuit ← authorizeWorker P eddsa random input
  -- no tier is passed here, and the builder's default is the smallest one
  let tree ← buildClaimsTree P input.claims tier16
  let claims := orderClaims input.claims tree.root
  return { circuit, tier := activeTier.cap, order := { label, claim := claims.head?, claims := some claims } }

/-! ### proClaimPackage.ts -/

structure BuildClaimPackageInput where
  order : OrderRecord
  target : OrderClaim
  chainId : ℕ
  settlementAddress : String
  tokens : List Token
  senderLabel : Option String
  relayerUrl : Option String

def OrderRecord.allClaims (order : OrderRecord) : List OrderClaim :=
  match order.claims with
  | some (c :: claims) => c :: claims
  | _ => order.claim.toList

def buildClaimPackageFromOrder (input : BuildClaimPackageInput) : Except String ClaimPackage := do
  let target := input.target
  let allClaims := input.order.allClaims
  require (¬allClaims.length = 0) "buildClaimPackageFromOrder: order has no claim material"
  require (¬(target.leafIndex < 0 ∨ target.leafIndex ≥ 16))
    s!"buildClaimPackageFromOrder: leafIndex {target.leafIndex} out of range"
  let ordered := allClaims.mergeSort fun a b => a.leafIndex ≤ b.leafIndex
  -- the addresses become numbers, which `BigInt` leaves as they are, and no tier is passed here either
  let tree ← buildClaimsTree P (ordered.map OrderClaim.entry) tier16
  let (pathElements, pathIndices) ← getMerkleProof tree.layers target.leafIndex
  let tok := input.tokens.find? fun t => toLowerCase t.address = toLowerCase target.token
  return {
    chainId := input.chainId
    settlementAddress := input.settlementAddress
    claimsRoot := tree.root
    recipient := target.recipient
    token := target.token
    tokenSymbol := (tok.map Token.symbol).getD "TOKEN"
    tokenDecimals := (tok.map Token.decimals).getD 18
    amount := target.amount
    releaseTime := target.releaseTime
    secret := target.secret
    leafIndex := target.leafIndex
    pathElements
    pathIndices
    senderLabel := input.senderLabel
    runLabel := some input.order.label
    relayerUrl := input.relayerUrl }

/-! ### The recipient -/

/-- `claim.worker.ts` on a package, up to the call of snarkjs: the tier is the one with the depth of the path. -/
def claimWorker (input : ClaimProofInput) : Except String (CircuitTier × ClaimCircuitInput) :=
  match input.merkleProof with
  | none => .error "claim.worker: input must carry either `entry` (operator self-claim) or `merkleProof` (recipient claim from a shared link)"
  | some merkleProof =>
    let depth := merkleProof.pathElements.length
    match Sdk.tiers.find? fun tier => tier.claimsTreeDepth = depth with
    | none => .error s!"claim.worker: no claim circuit registered for tree depth {depth}; expected one of 4, 6, 7"
    | some tier => do
      let circuitInput ← claimCircuitInput P input tier
      return (tier, circuitInput)

end Pro

end ScatterDex
