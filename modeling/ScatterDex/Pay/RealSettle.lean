import ScatterDex.Pay.RepairClaims
import ScatterDex.Relayer.AuthorizeRoutes

/-!
# Settlements of Pay

`realSettle.ts`: the proof of a batch from a source note, the body posted to the relayer, and what is made of the receipt. The random numbers, the wait for the receipt and the parser of its logs are parameters; of a log only what the parser makes of it is kept.
-/

namespace ScatterDex

open Bn254 Fallible Relayer Sdk

namespace Pay

variable (P : Poseidon) (ethers : Ethers) (eddsa : Eddsa)
  (fullProve : AuthorizeCircuitInput → Except String (Groth16Proof × List ℕ))

def bpsDenominator : ℕ := 10000

/-- A note of the vault, with its place on chain: -1 until that is known. -/
structure StoredNote where
  note : CommitmentNote
  commitment : ℕ
  leafIndex : ℤ

structure RelayerInfo where
  address : String
  url : String

structure Labels where
  sender : Option String
  run : Option String

structure RealSettleArgs where
  batch : PayoutBatch
  tokenAddress : String
  tokenSymbol : String
  tokenDecimals : ℕ
  source : StoredNote
  relayer : RelayerInfo
  settlementAddress : String
  chainId : ℕ
  maxFeeBps : ℤ
  feeRaw : ℤ
  eddsaPrivateKey : List UInt8
  tryProofFor : ℕ → Option MerkleProof
  labels : Labels

structure SettleAuthSide where
  proof : AuthorizeProofResult
  sellToken : String
  buyToken : String
  sellAmount : ℕ
  buyAmount : ℕ
  maxFee : ℕ
  expiry : ℕ
  relayer : String
  tier : ℕ

structure FinalizeContext where
  authResult : AuthorizeProofResult
  source : StoredNote
  sellAmount : ℕ
  newSalt : ℕ
  tokenAddress : String
  tokenSymbol : String
  tokenDecimals : ℕ
  chainId : ℕ
  settlementAddress : String
  batch : PayoutBatch
  labels : Labels
  relayerUrl : String

structure PreparedSettle where
  side : SettleAuthSide
  ctx : FinalizeContext

/-- The earliest release time of a batch: the `reduce` from its first claim on. -/
def minReleaseTime (claims : List ClaimEntry) : Except String ℕ :=
  match claims with
  | [] => .error "Cannot read properties of undefined (reading 'releaseTime')"
  | claim :: _ => .ok (claims.foldl (fun m c => if c.releaseTime < m then c.releaseTime else m) claim.releaseTime)

/-- The path of the source note, if it is on chain. -/
def sourceProof (args : RealSettleArgs) : Except String MerkleProof :=
  if args.source.leafIndex < 0 then
    .error "Source note's deposit hasn't been confirmed on-chain yet — wait for the next block."
  else match args.tryProofFor args.source.commitment with
    | some merkleProof => .ok merkleProof
    | none => .error
      "Source note isn't in the on-chain commitment tree yet — try again once the tree finishes syncing."

/-- `prepareRealSettle`, on the two random field elements it draws. -/
def prepareRealSettle (nonce newSalt : ℕ) (args : RealSettleArgs) : Except String PreparedSettle := do
  let stored := args.source
  let merkleProof ← sourceProof args
  require (¬(args.maxFeeBps < 0 ∨ args.maxFeeBps > 10000))
    s!"maxFeeBps must be an integer in [0, 10000]; got {args.maxFeeBps}"
  require (¬args.feeRaw < 0) s!"feeRaw must be non-negative; got {args.feeRaw}"
  let maxFee := args.maxFeeBps.toNat
  let feeRaw := args.feeRaw.toNat
  let sellAmount := args.batch.totalAmount + feeRaw
  require (¬feeRaw * bpsDenominator > sellAmount * maxFee)
    s!"feeRaw={feeRaw} exceeds bps cap (sellAmount={sellAmount}, maxFeeBps={maxFee})"
  require (¬stored.note.amount < sellAmount)
    s!"Source note ({stored.note.amount}) is smaller than sell amount ({sellAmount})."
  let expiry ← minReleaseTime args.batch.claims
  -- the change salt is given, so the prover draws none
  let authResult ← generateAuthorizeProof P eddsa fullProve 0 {
    note := stored.note
    leafIndex := stored.leafIndex
    allLeaves := none
    merkleProof := some merkleProof
    sellAmount
    buyToken := args.tokenAddress
    buyAmount := sellAmount
    maxFee
    expiry
    nonce
    relayer := args.relayer.address
    eddsaPrivateKey := args.eddsaPrivateKey
    claims := args.batch.claims
    newSalt := some newSalt } args.batch.tier
  return {
    side := {
      proof := authResult
      sellToken := args.tokenAddress
      buyToken := args.tokenAddress
      sellAmount
      buyAmount := sellAmount
      maxFee
      expiry
      relayer := args.relayer.address
      tier := args.batch.tier.cap }
    ctx := {
      authResult
      source := stored
      sellAmount
      newSalt
      tokenAddress := args.tokenAddress
      tokenSymbol := args.tokenSymbol
      tokenDecimals := args.tokenDecimals
      chainId := args.chainId
      settlementAddress := args.settlementAddress
      batch := args.batch
      labels := args.labels
      relayerUrl := args.relayer.url } }

/-- `buildAuthorizeOrderBody`: the signals are named by their position. -/
def buildAuthorizeOrderBody (prep : PreparedSettle) : Except String AuthorizeOrderFile :=
  match prep.ctx.authResult.publicSignals with
  | pubKeyBind :: commitmentRoot :: nullifier :: nonceNullifier :: newCommitment :: sellToken :: buyToken ::
      sellAmount :: buyAmount :: maxFee :: expiry :: claimsRoot :: totalLocked :: relayer :: orderHash :: _ =>
    .ok {
      proof := prep.ctx.authResult.proof
      publicSignals := {
        pubKeyBind, commitmentRoot, nullifier, nonceNullifier, newCommitment, sellToken, buyToken, sellAmount, buyAmount,
        maxFee, expiry, claimsRoot, totalLocked, relayer, orderHash }
      tier := some prep.side.tier }
  | _ => .error "Cannot read properties of undefined (reading 'toString')"

/-! ### Receipts -/

inductive SettlementEvent
  | scatterDirectAuthSettled (claimsRoot : ℕ)
  | other (name : String)

/-- A log, with what the interface of the settlement contract reads in it. -/
structure SettlementLog where
  address : String
  parsed : Option SettlementEvent

structure Receipt where
  status : ℕ
  logs : List SettlementLog

/-- `extractSettledClaimsRoot` -/
def extractSettledClaimsRoot (receipt : Receipt) (settlementAddress : String) : Option ℕ :=
  receipt.logs.findSome? fun log =>
    if ¬eqAddr log.address settlementAddress then none
    else match log.parsed with
      | some (.scatterDirectAuthSettled claimsRoot) => some claimsRoot
      | _ => none

structure Change where
  note : CommitmentNote
  commitment : ℕ
  amount : ℕ

structure RealSettleResult where
  txHash : ℕ
  nullifier : ℕ
  claimsRoot : ℕ
  change : Option Change
  claimPackages : List ClaimPackage
  relayerFee : ℕ

/-- The change note, whose commitment has to be the one proved. -/
def changeNote (ctx : FinalizeContext) : Except String (Option Change) :=
  let sourceNote := ctx.source.note
  let changeAmount := sourceNote.amount - ctx.sellAmount
  if changeAmount > 0 then do
    let note := { sourceNote with amount := changeAmount, salt := ctx.newSalt }
    let changeCommitment := computeCommitment P note
    require (¬changeCommitment ≠ ctx.authResult.newCommitment)
      "Recomputed change commitment does not match the proof's newCommitment — vault would store an unspendable note."
    return some { note, commitment := changeCommitment, amount := changeAmount }
  else .ok none

/-- The package of the claim at index `i`. -/
def settlePackage (ctx : FinalizeContext) (tree : ClaimsTree) (i : ℕ) (c : ClaimEntry) : Except String ClaimPackage := do
  let (pathElements, pathIndices) ← getMerkleProof tree.layers i
  let recipient ← ethers.getAddress c.recipient
  let token ← ethers.getAddress ctx.tokenAddress
  return {
    chainId := ctx.chainId
    settlementAddress := ctx.settlementAddress
    claimsRoot := ctx.authResult.claimsRoot
    recipient
    token
    tokenSymbol := ctx.tokenSymbol
    tokenDecimals := ctx.tokenDecimals
    amount := c.amount
    releaseTime := c.releaseTime
    secret := c.secret
    leafIndex := i
    pathElements
    pathIndices
    senderLabel := ctx.labels.sender.filter (· ≠ "")
    runLabel := ctx.labels.run.filter (· ≠ "")
    relayerUrl := some ctx.relayerUrl }

/-- `finalizeRealSettle`, on the receipt it waited for. -/
def finalizeRealSettle (txHash : ℕ) (ctx : FinalizeContext) (receipt : Receipt) : Except String RealSettleResult := do
  require (¬receipt.status ≠ 1) s!"scatterDirectAuth tx failed: {toBytes32Hex txHash}"
  match extractSettledClaimsRoot receipt ctx.settlementAddress with
  | none => throw s!"Settle tx {toBytes32Hex txHash} emitted no claims-group event for {ctx.settlementAddress} — refusing to persist claim links."
  | some settledRoot =>
    require (¬settledRoot ≠ ctx.authResult.claimsRoot)
      s!"Settle tx {toBytes32Hex txHash} registered claimsRoot {toBytes32Hex settledRoot} but this payout proved {toBytes32Hex ctx.authResult.claimsRoot} — relayer returned a tx for a different settle. Not persisting claim links (recipients would be unable to claim)."
    let change ← changeNote P ctx
    let tree ← buildClaimsTree P ctx.batch.claims ctx.batch.tier
    require (¬tree.root ≠ ctx.authResult.claimsRoot)
      "Recomputed claimsRoot disagrees with the proof — packages would point at a settlement that doesn't exist."
    let claimPackages ← ctx.batch.claims.zipIdx.mapM fun (c, i) => settlePackage ethers ctx tree i c
    return {
      txHash
      nullifier := ctx.authResult.nullifier
      claimsRoot := ctx.authResult.claimsRoot
      change
      claimPackages
      relayerFee := if ctx.sellAmount > ctx.batch.totalAmount then ctx.sellAmount - ctx.batch.totalAmount else 0 }

/-! ### What the two ends agree on -/

/-- snarkjs returns the public signals of the circuit in order: the output, then the inputs it was given. -/
def FullProve.Public (fullProve : AuthorizeCircuitInput → Except String (Groth16Proof × List ℕ)) : Prop :=
  ∀ ci proof signals, fullProve ci = .ok (proof, signals) → ∃ pubKeyBind, signals = pubKeyBind ::
    [ci.commitmentRoot, ci.nullifier, ci.nonceNullifier, ci.newCommitment, ci.sellToken, ci.buyToken, ci.sellAmount,
      ci.buyAmount, ci.maxFee, ci.expiry, ci.claimsRoot, ci.totalLocked, ci.relayer, ci.orderHash].map (· % modulus)

variable {P ethers eddsa fullProve}

theorem computeCommitment_mod (note : CommitmentNote) : computeCommitment P note % modulus = computeCommitment P note :=
  Nat.mod_eq_of_lt (poseidonHash_lt _)

/-- The commitment proved is that of the change note under the change salt, and zero without change. -/
theorem prepareRealSettle_ok {nonce newSalt : ℕ} {args : RealSettleArgs} {prep : PreparedSettle}
    (hprepare : prepareRealSettle P eddsa fullProve nonce newSalt args = .ok prep) :
    prep.ctx.source = args.source ∧
      prep.ctx.authResult.newCommitment = (if args.source.note.amount - prep.ctx.sellAmount > 0 then
        computeCommitment P { args.source.note with
          amount := args.source.note.amount - prep.ctx.sellAmount
          salt := prep.ctx.newSalt } else 0) := by
  simp only [prepareRealSettle, generateAuthorizeProof, authorizeCircuitInput, bind_eq_ok, require_eq_ok, pure_eq_ok] at hprepare
  obtain ⟨merkleProof, -, -, -, -, -, -, -, -, -, expiry, -, authResult, ⟨ci, ⟨-, -, path, -, claims, -, tree, -, buyToken, -,
    relayer, -, rfl⟩, ⟨proof, signals⟩, -, hresult⟩, rfl⟩ := hprepare
  split at hresult
  · exact absurd hresult (by simp [throw, throwThe, MonadExceptOf.throw])
  · obtain rfl := Except.ok.inj hresult
    refine ⟨rfl, ?_⟩
    dsimp only
    split <;> rfl

end Pay

end ScatterDex
