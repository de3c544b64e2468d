import ScatterDex.Contract.CommitmentPool
import ScatterDex.Contract.FeeVault
import ScatterDex.Contract.SettleVerifyLib

/-!
# PrivateSettlement

The settlement contract matches authorize proofs, swaps through whitelisted routers, scatters to claims, cancels orders and pays claims. It acts on the `World`: its own storage, the pool's, the fee vaults' and the books.

A router and the receiver of unwrapped ETH are code we do not know. What they do during the call is a list of `ExternalCall`s: actions on the books, calls into the pool, owner calls, and whatever a vault's own entry points leave behind. They cannot re-enter the guarded functions of this contract, so those are not among them.
-/

namespace ScatterDex

open Bn254 Fallible

structure PrivateSettlement where
  claimVerifierByTier : BitVec 8 → Address
  relayerRegistry : Address
  feeVault : Address
  authorizeVerifierByTier : BitVec 8 → Address
  cancelVerifier : Address
  batchAuthorizeVerifierByTier : BitVec 8 → Address
  whitelistedDexRouters : Address → Bool
  dexPlatformFeeBps : ℕ
  nullifiers : ℕ → Bool
  nonceNullifiers : ℕ → Bool
  claimNullifiers : ℕ → Bool
  claimsGroups : ℕ → ClaimsGroup
  whitelistedTokens : Address → Bool
  sanctionsList : Address
  identityGate : Address
  owner : Address
  pendingOwner : Address
  paused : Bool

/-- The contracts and the books together. -/
structure World where
  books : Books
  pool : CommitmentPool
  settlement : PrivateSettlement
  vaults : Address → FeeVault

/-- The same transaction, as a contract called by another one sees it. -/
def Env.calledBy (env : Env) (sender : Address) : Env := { env with sender }

namespace PrivateSettlement

variable (D : Deployment) (env : Env) (self : PrivateSettlement)

/-- `MAX_DEX_PLATFORM_FEE_BPS`, 5%. -/
def maxDexPlatformFeeBps : ℕ := 500

/-- `MAX_CLAIM_BATCH_SIZE`. -/
def maxClaimBatchSize : ℕ := 20

/-! ### Shared checks, initialisation and administration -/

def onlyOwner : Except Error Unit := require (env.sender = self.owner) .ownableUnauthorizedAccount

def whenNotPaused : Except Error Unit := require (self.paused = false) .enforcedPause

def requireNotSanctioned (account : Address) : Except Error Unit :=
  require (¬(self.sanctionsList ≠ 0 ∧ env.isSanctioned self.sanctionsList account = true)) .addressSanctioned

def requireIdentityVerified (account : Address) : Except Error Unit :=
  require (¬(self.identityGate ≠ 0 ∧ ¬env.isVerified self.identityGate account = true)) .notIdentityVerified

/-- The storage that the initialiser leaves. -/
def fresh (owner claimVerifier : Address) : PrivateSettlement where
  claimVerifierByTier := Function.update (fun _ => 0) 16 claimVerifier
  relayerRegistry := 0
  feeVault := 0
  authorizeVerifierByTier := fun _ => 0
  cancelVerifier := 0
  batchAuthorizeVerifierByTier := fun _ => 0
  whitelistedDexRouters := fun _ => false
  dexPlatformFeeBps := 0
  nullifiers := fun _ => false
  nonceNullifiers := fun _ => false
  claimNullifiers := fun _ => false
  claimsGroups := fun _ => ClaimsGroup.empty
  whitelistedTokens := fun _ => false
  sanctionsList := 0
  identityGate := 0
  owner
  pendingOwner := 0
  paused := false

def initializeSettlement (initialOwner claimVerifier : Address) : Except Error PrivateSettlement := do
  require (initialOwner ≠ 0) .zeroAddress
  require (¬(D.pool = 0 ∨ claimVerifier = 0 ∨ D.weth = 0)) .zeroAddress
  return fresh initialOwner claimVerifier

/-- The functions only the owner can call, and the second step of an ownership transfer. -/
inductive Admin
  | transferOwnership (newOwner : Address)
  | acceptOwnership
  | pause
  | unpause
  | setTokenWhitelist (token : Address) (allowed : Bool)
  | setRelayerRegistry (registry : Address)
  | setFeeVault (vault : Address)
  | setAuthorizeVerifier (tier : BitVec 8) (verifier : Address)
  | setCancelVerifier (verifier : Address)
  | setClaimVerifier (tier : BitVec 8) (verifier : Address)
  | setBatchAuthorizeVerifier (tier : BitVec 8) (verifier : Address)
  | setDexRouterWhitelist (router : Address) (allowed : Bool)
  | setDexPlatformFee (bps : ℕ)
  | setSanctionsList (list : Address)
  | setIdentityGate (gate : Address)

/-- A new address is zero or has code. -/
def requireContract (account : Address) : Except Error Unit :=
  require (¬(account ≠ 0 ∧ env.codeLength account = 0)) .notAContract

def administer : Admin → Except Error PrivateSettlement
  | .transferOwnership newOwner => do
    self.onlyOwner env
    return { self with pendingOwner := newOwner }
  | .acceptOwnership => do
    require (env.sender = self.pendingOwner) .ownableUnauthorizedAccount
    return { self with owner := env.sender, pendingOwner := 0 }
  | .pause => do
    self.onlyOwner env
    self.whenNotPaused
    return { self with paused := true }
  | .unpause => do
    self.onlyOwner env
    require (self.paused = true) .expectedPause
    return { self with paused := false }
  | .setTokenWhitelist token allowed => do
    self.onlyOwner env
    require (token ≠ 0) .zeroAddress
    return { self with whitelistedTokens := Function.update self.whitelistedTokens token allowed }
  | .setRelayerRegistry registry => do
    self.onlyOwner env
    requireContract env registry
    return { self with relayerRegistry := registry }
  | .setFeeVault vault => do
    self.onlyOwner env
    requireContract env vault
    return { self with
      dexPlatformFeeBps := if vault = 0 then 0 else self.dexPlatformFeeBps
      feeVault := vault }
  | .setAuthorizeVerifier tier verifier => do
    self.onlyOwner env
    requireContract env verifier
    return { self with authorizeVerifierByTier := Function.update self.authorizeVerifierByTier tier verifier }
  | .setCancelVerifier verifier => do
    self.onlyOwner env
    requireContract env verifier
    return { self with cancelVerifier := verifier }
  | .setClaimVerifier tier verifier => do
    self.onlyOwner env
    requireContract env verifier
    return { self with claimVerifierByTier := Function.update self.claimVerifierByTier tier verifier }
  | .setBatchAuthorizeVerifier tier verifier => do
    self.onlyOwner env
    requireContract env verifier
    return { self with
      batchAuthorizeVerifierByTier := Function.update self.batchAuthorizeVerifierByTier tier verifier }
  | .setDexRouterWhitelist router allowed => do
    self.onlyOwner env
    require (router ≠ 0) .zeroAddress
    require (¬(allowed = true ∧ env.codeLength router = 0)) .notAContract
    return { self with whitelistedDexRouters := Function.update self.whitelistedDexRouters router allowed }
  | .setDexPlatformFee bps => do
    self.onlyOwner env
    require (¬bps > maxDexPlatformFeeBps) .dexPlatformFeeTooHigh
    require (¬(bps > 0 ∧ self.feeVault = 0)) .feeVaultRequired
    return { self with dexPlatformFeeBps := bps }
  | .setSanctionsList list => do
    self.onlyOwner env
    requireContract env list
    return { self with sanctionsList := list }
  | .setIdentityGate gate => do
    self.onlyOwner env
    requireContract env gate
    return { self with identityGate := gate }

end PrivateSettlement

/-! ### Calls by unknown code -/

/-- The entry points of the pool. -/
inductive PoolCall
  | deposit (proof : Groth16Proof) (commitment : ℕ) (token : Address) (amount : ℕ)
  | withdraw (args : CommitmentPool.WithdrawArgs)
  | withdrawFor (args : CommitmentPool.WithdrawArgs)
  | insertCommitment (commitment : ℕ)
  | spendEscrowNullifier (nullifier : ℕ)
  | transferToSettlement (token : Address) (amount : ℕ)
  | transferFee (recipient token : Address) (amount : ℕ)
  | administer (admin : CommitmentPool.Admin)

def PoolCall.run (D : Deployment) (env : Env) (pool : CommitmentPool) (books : Books) :
    PoolCall → Except Error (CommitmentPool × Books)
  | .deposit proof commitment token amount => pool.deposit D env books proof commitment token amount
  | .withdraw args => pool.withdraw D env books args
  | .withdrawFor args => pool.withdrawFor D env books args
  | .insertCommitment commitment => do
    let pool ← pool.insertCommitment D env commitment
    return (pool, books)
  | .spendEscrowNullifier nullifier => do
    let pool ← pool.spendEscrowNullifier env nullifier
    return (pool, books)
  | .transferToSettlement token amount => do
    let books ← pool.transferToSettlement D env books token amount
    return (pool, books)
  | .transferFee recipient token amount => do
    let books ← pool.transferFee D env books recipient token amount
    return (pool, books)
  | .administer admin => do
    let pool ← pool.administer env admin
    return (pool, books)

/-- One thing unknown code can do. -/
inductive ExternalCall
  | books (action : Ledger.Action Address Address)
  | pool (env : Env) (call : PoolCall)
  | administer (env : Env) (admin : PrivateSettlement.Admin)
  | vault (account : Address) (vault : FeeVault)

def ExternalCall.run (D : Deployment) (w : World) : ExternalCall → Except Error World
  | .books action => do
    let newBooks ← orRevert (w.books.perform D.tax D.cap action)
    return { w with books := newBooks }
  | .pool env call => do
    let (newPool, newBooks) ← call.run D env w.pool w.books
    return { w with pool := newPool, books := newBooks }
  | .administer env admin => do
    let settlement ← w.settlement.administer env admin
    return { w with settlement }
  | .vault account newVault => .ok { w with vaults := Function.update w.vaults account newVault }

def runExternal (D : Deployment) (w : World) : List ExternalCall → Except Error World
  | [] => .ok w
  | call :: calls => do
    let w ← call.run D w
    runExternal D w calls

/-- A low-level call to unknown code: what it does, or `none` when it fails. The caller reverts with an error of its own. -/
def lowLevelCall (D : Deployment) (w : World) (failure : Error) : Option (List ExternalCall) → Except Error World
  | some calls => (runExternal D w calls).mapError fun _ => failure
  | none => .error failure

namespace PrivateSettlement

variable (D : Deployment) (env : Env) (w : World)

/-! ### Calls into the pool and the vault -/

def spendEscrowNullifier (nullifier : ℕ) : Except Error World := do
  let pool ← w.pool.spendEscrowNullifier (env.calledBy D.settlement) nullifier
  return { w with pool }

def insertCommitment (commitment : ℕ) : Except Error World := do
  let pool ← w.pool.insertCommitment D (env.calledBy D.settlement) commitment
  return { w with pool }

/-- `SettleVerifyLib.maybeInsertCommitment`. -/
def maybeInsertCommitment (commitment : ℕ) : Except Error World :=
  if commitment ≠ 0 then insertCommitment D env w commitment else .ok w

def transferToSettlement (token : Address) (amount : ℕ) : Except Error World := do
  let books ← w.pool.transferToSettlement D (env.calledBy D.settlement) w.books token amount
  return { w with books }

/-- The transfer of a claim total, skipped when it is zero. -/
def transferLocked (token : Address) (totalLocked : ℕ) : Except Error World :=
  if totalLocked > 0 then transferToSettlement D env w token totalLocked else .ok w

/-- `_routeFeeFromPoolTo`: through the vault when there is one. -/
def routeFeeFromPoolTo (token : Address) (amount : ℕ) (relayer : Address) : Except Error World :=
  if w.settlement.feeVault ≠ 0 then do
    let books ← w.pool.transferFee D (env.calledBy D.settlement) w.books w.settlement.feeVault token amount
    let vault ← (w.vaults w.settlement.feeVault).deposit w.settlement.feeVault books D.settlement relayer token amount
    return { w with books, vaults := Function.update w.vaults w.settlement.feeVault vault }
  else do
    let books ← w.pool.transferFee D (env.calledBy D.settlement) w.books relayer token amount
    return { w with books }

/-- A fee of zero is not routed. -/
def routeFee (token : Address) (fee : ℕ) (relayer : Address) : Except Error World :=
  if fee > 0 then routeFeeFromPoolTo D env w token fee relayer else .ok w

def registerClaimsGroup (root : ℕ) (token : Address) (totalLocked : ℕ) (tier : BitVec 8) : Except Error World := do
  let claimsGroups ← SettleVerifyLib.registerClaimsGroup w.settlement.claimsGroups root token totalLocked tier
  return { w with settlement := { w.settlement with claimsGroups } }

/-- Mark an escrow and a nonce nullifier in the settlement's own sets. -/
def markNullifiers (self : PrivateSettlement) (nullifier nonceNullifier : ℕ) : PrivateSettlement :=
  { self with
    nullifiers := Function.update self.nullifiers nullifier true
    nonceNullifiers := Function.update self.nonceNullifiers nonceNullifier true }

/-! ### settleAuth -/

structure SettleAuthParams where
  maker : AuthorizeProof
  taker : AuthorizeProof
  feeTokenMaker : BitVec 96
  feeTokenTaker : BitVec 96

/-- The verification step: one batched check when both sides share a tier that has a batch verifier, else one check a side. -/
def verifySides (p : SettleAuthParams) (makerVerifier takerVerifier : Address) : Except Error Unit :=
  let makerSignals := SettleVerifyLib.packAuthSignals p.maker
  let takerSignals := SettleVerifyLib.packAuthSignals p.taker
  let batchVerifier :=
    if p.maker.tier = p.taker.tier then w.settlement.batchAuthorizeVerifierByTier p.maker.tier else 0
  if batchVerifier ≠ 0 then
    require (env.verifyBatchProof batchVerifier p.maker.proof makerSignals p.taker.proof takerSignals = true)
      .invalidProof
  else do
    require (env.verifyProof makerVerifier p.maker.proof makerSignals = true) .invalidProof
    require (env.verifyProof takerVerifier p.taker.proof takerSignals = true) .invalidProof

def settleAuth (p : SettleAuthParams) : Except Error World := do
  w.settlement.whenNotPaused
  require (¬(env.sender ≠ p.maker.relayer ∧ env.sender ≠ p.taker.relayer)) .notMakerOrTakerRelayer
  w.settlement.requireNotSanctioned env env.sender
  let makerVerifier := w.settlement.authorizeVerifierByTier p.maker.tier
  require (makerVerifier ≠ 0) (.tierNotConfigured p.maker.tier.toNat)
  let takerVerifier :=
    if p.maker.tier = p.taker.tier then makerVerifier else w.settlement.authorizeVerifierByTier p.taker.tier
  require (takerVerifier ≠ 0) (.tierNotConfigured p.taker.tier.toNat)
  SettleVerifyLib.validateCrossSide env w.settlement.whitelistedTokens p.maker p.taker p.feeTokenMaker p.feeTokenTaker
  -- one note on both sides would otherwise be spent once and paid out twice
  require (p.maker.nullifier ≠ p.taker.nullifier) .nullifierAlreadySpent
  require (p.maker.nonceNullifier ≠ p.taker.nonceNullifier) .nullifierAlreadySpent
  require (¬w.settlement.nullifiers p.maker.nullifier = true) .nullifierAlreadySpent
  require (¬w.settlement.nullifiers p.taker.nullifier = true) .nullifierAlreadySpent
  require (¬w.settlement.nonceNullifiers p.maker.nonceNullifier = true) .nullifierAlreadySpent
  require (¬w.settlement.nonceNullifiers p.taker.nonceNullifier = true) .nullifierAlreadySpent
  require (w.pool.tree.isKnownRoot p.maker.commitmentRoot = true) .unknownRoot
  require (w.pool.tree.isKnownRoot p.taker.commitmentRoot = true) .unknownRoot
  verifySides env w p makerVerifier takerVerifier
  require (¬(w.settlement.relayerRegistry ≠ 0 ∧
    ¬env.isActiveRelayer w.settlement.relayerRegistry p.maker.relayer = true)) .notActiveRelayer
  require (¬(w.settlement.relayerRegistry ≠ 0 ∧
    ¬env.isActiveRelayer w.settlement.relayerRegistry p.taker.relayer = true)) .notActiveRelayer
  let w := { w with settlement := w.settlement.markNullifiers p.maker.nullifier p.maker.nonceNullifier }
  let w := { w with settlement := w.settlement.markNullifiers p.taker.nullifier p.taker.nonceNullifier }
  let w ← spendEscrowNullifier D env w p.maker.nullifier
  let w ← spendEscrowNullifier D env w p.taker.nullifier
  let w ← maybeInsertCommitment D env w p.maker.newCommitment
  let w ← maybeInsertCommitment D env w p.taker.newCommitment
  let w ← transferLocked D env w p.maker.buyToken p.maker.totalLocked.toNat
  let w ← transferLocked D env w p.taker.buyToken p.taker.totalLocked.toNat
  let w ← routeFee D env w p.maker.buyToken p.feeTokenMaker.toNat p.maker.relayer
  let w ← routeFee D env w p.taker.buyToken p.feeTokenTaker.toNat p.taker.relayer
  SettleVerifyLib.requireDistinctClaimsRoots p.maker.claimsRoot p.taker.claimsRoot
    p.maker.totalLocked.toNat p.taker.totalLocked.toNat
  let w ← registerClaimsGroup w p.maker.claimsRoot p.maker.buyToken p.maker.totalLocked.toNat p.maker.tier
  registerClaimsGroup w p.taker.claimsRoot p.taker.buyToken p.taker.totalLocked.toNat p.taker.tier

/-! ### cancelPrivate -/

structure CancelParams where
  proof : Groth16Proof
  commitmentRoot : ℕ
  oldNullifier : ℕ
  oldNonceNullifier : ℕ
  newCommitment : ℕ

/-- The public signals of the cancel verifier; the caller is bound as the submitter. -/
def CancelParams.pubSignals (p : CancelParams) (sender : Address) : List ℕ :=
  [p.commitmentRoot, p.oldNullifier, p.oldNonceNullifier, p.newCommitment, sender.toNat]

def cancelPrivate (p : CancelParams) : Except Error World := do
  w.settlement.whenNotPaused
  require (w.settlement.cancelVerifier ≠ 0) .cancelVerifierNotSet
  require (p.newCommitment ≠ 0) .zeroAddress
  require (¬w.settlement.nullifiers p.oldNullifier = true) .nullifierAlreadySpent
  require (¬w.settlement.nonceNullifiers p.oldNonceNullifier = true) .nullifierAlreadySpent
  require (p.oldNullifier ≠ p.oldNonceNullifier) .nullifierAlreadySpent
  require (w.pool.tree.isKnownRoot p.commitmentRoot = true) .unknownRoot
  require (env.verifyProof w.settlement.cancelVerifier p.proof (p.pubSignals env.sender) = true) .invalidProof
  let w := { w with settlement := w.settlement.markNullifiers p.oldNullifier p.oldNonceNullifier }
  let w ← spendEscrowNullifier D env w p.oldNullifier
  insertCommitment D env w p.newCommitment

/-! ### settleWithDex -/

structure SettleDexParams where
  proof : AuthorizeProof
  dexRouter : Address
  deadline : ℕ

/-- The platform's cut of a swap, and what is left to swap. -/
def dexPlatformFee (sellAmount : ℕ) : ℕ := sellAmount * w.settlement.dexPlatformFeeBps / SettleVerifyLib.feeBpsDenominator

/-- The platform fee goes to the vault, when there is one. -/
def payPlatformFee (token vaultAddress : Address) (platformFee : ℕ) : Except Error World :=
  if platformFee > 0 ∧ vaultAddress ≠ 0 then do
    let books ← D.safeTransfer w.books token D.settlement vaultAddress platformFee
    let vault ← (w.vaults vaultAddress).accrueDexFee vaultAddress books D.settlement token platformFee
    return { w with books, vaults := Function.update w.vaults vaultAddress vault }
  else .ok w

/-- The swap itself: the router is approved, does what it does, and loses the rest of its allowance. -/
def callRouter (token router : Address) (swapAmount : ℕ) (swap : Option (List ExternalCall)) : Except Error World := do
  let w := { w with books := w.books.approve token D.settlement router swapAmount }
  let w ← lowLevelCall D w .dexCallReverted swap
  return { w with books := w.books.approve token D.settlement router 0 }

/-- What the router left unspent goes back to the pool, unless it is the bought token. -/
def returnUnspent (sellToken buyToken : Address) (balanceBefore : ℕ) : Except Error World :=
  if sellToken ≠ buyToken ∧ w.books.balanceOf sellToken D.settlement > balanceBefore then do
    let books ← D.safeTransfer w.books sellToken D.settlement D.pool
      (w.books.balanceOf sellToken D.settlement - balanceBefore)
    return { w with books }
  else .ok w

/-- Positive slippage goes to the vault, when there is one. -/
def paySurplus (token vaultAddress : Address) (amountOut totalLocked : ℕ) : Except Error World :=
  if amountOut > totalLocked ∧ vaultAddress ≠ 0 then do
    let books ← D.safeTransfer w.books token D.settlement vaultAddress (amountOut - totalLocked)
    let vault ← (w.vaults vaultAddress).accrueDexSurplus vaultAddress books D.settlement token (amountOut - totalLocked)
    return { w with books, vaults := Function.update w.vaults vaultAddress vault }
  else .ok w

def settleWithDex (p : SettleDexParams) (swap : Option (List ExternalCall)) : Except Error World := do
  w.settlement.whenNotPaused
  w.settlement.requireNotSanctioned env env.sender
  let verifier := w.settlement.authorizeVerifierByTier p.proof.tier
  let feeVault := w.settlement.feeVault
  require (verifier ≠ 0) (.tierNotConfigured p.proof.tier.toNat)
  require (w.settlement.whitelistedDexRouters p.dexRouter = true) .dexRouterNotWhitelisted
  SettleVerifyLib.validateDexProof env w.settlement.whitelistedTokens p.proof env.sender p.deadline
  require (¬w.settlement.nullifiers p.proof.nullifier = true) .nullifierAlreadySpent
  require (¬w.settlement.nonceNullifiers p.proof.nonceNullifier = true) .nullifierAlreadySpent
  require (w.pool.tree.isKnownRoot p.proof.commitmentRoot = true) .unknownRoot
  require (env.verifyProof verifier p.proof.proof (SettleVerifyLib.packAuthSignals p.proof) = true) .invalidProof
  let w := { w with settlement := w.settlement.markNullifiers p.proof.nullifier p.proof.nonceNullifier }
  let w ← spendEscrowNullifier D env w p.proof.nullifier
  let w ← maybeInsertCommitment D env w p.proof.newCommitment
  let sellBalBefore := w.books.balanceOf p.proof.sellToken D.settlement
  let w ← transferToSettlement D env w p.proof.sellToken p.proof.sellAmount.toNat
  let platformFee := dexPlatformFee w p.proof.sellAmount.toNat
  let w ← payPlatformFee D w p.proof.sellToken feeVault platformFee
  let buyBalanceBefore := w.books.balanceOf p.proof.buyToken D.settlement
  let w ← callRouter D w p.proof.sellToken p.dexRouter (p.proof.sellAmount.toNat - platformFee) swap
  let w ← returnUnspent D w p.proof.sellToken p.proof.buyToken sellBalBefore
  -- the balance difference is a checked subtraction
  require (buyBalanceBefore ≤ w.books.balanceOf p.proof.buyToken D.settlement) .arithmetic
  let amountOut := w.books.balanceOf p.proof.buyToken D.settlement - buyBalanceBefore
  require (¬amountOut < p.proof.totalLocked.toNat) (.dexOutputInsufficient amountOut p.proof.totalLocked.toNat)
  let w ← registerClaimsGroup w p.proof.claimsRoot p.proof.buyToken p.proof.totalLocked.toNat p.proof.tier
  paySurplus D w p.proof.buyToken feeVault amountOut p.proof.totalLocked.toNat

/-! ### scatterDirectAuth -/

structure ScatterDirectAuthParams where
  proof : AuthorizeProof
  fee : BitVec 96

def scatterDirectAuth (p : ScatterDirectAuthParams) : Except Error World := do
  w.settlement.whenNotPaused
  let verifier := w.settlement.authorizeVerifierByTier p.proof.tier
  require (verifier ≠ 0) (.tierNotConfigured p.proof.tier.toNat)
  w.settlement.requireNotSanctioned env env.sender
  SettleVerifyLib.validateScatterAuth env w.settlement.whitelistedTokens p.proof env.sender p.fee
  require (¬(w.settlement.relayerRegistry ≠ 0 ∧
    ¬env.isActiveRelayer w.settlement.relayerRegistry p.proof.relayer = true)) .notActiveRelayer
  require (¬w.settlement.nullifiers p.proof.nullifier = true) .nullifierAlreadySpent
  require (¬w.settlement.nonceNullifiers p.proof.nonceNullifier = true) .nullifierAlreadySpent
  require (w.pool.tree.isKnownRoot p.proof.commitmentRoot = true) .unknownRoot
  require (env.verifyProof verifier p.proof.proof (SettleVerifyLib.packAuthSignals p.proof) = true) .invalidProof
  let w := { w with settlement := w.settlement.markNullifiers p.proof.nullifier p.proof.nonceNullifier }
  let w ← spendEscrowNullifier D env w p.proof.nullifier
  let w ← maybeInsertCommitment D env w p.proof.newCommitment
  let w ← transferLocked D env w p.proof.sellToken p.proof.totalLocked.toNat
  let w ← routeFee D env w p.proof.sellToken p.fee.toNat env.sender
  registerClaimsGroup w p.proof.claimsRoot p.proof.sellToken p.proof.totalLocked.toNat p.proof.tier

/-! ### Claims -/

/-- The calldata of a claim, and what the recipient's code does on receiving ETH; `none` is a receiver that reverts. -/
structure ClaimParams where
  proof : Groth16Proof
  claimsRoot : ℕ
  claimNullifier : ℕ
  amount : ℕ
  token : Address
  recipient : Address
  releaseTime : ℕ
  receive : Option (List ExternalCall)

def ClaimParams.pubSignals (c : ClaimParams) : List ℕ :=
  [c.claimsRoot, c.claimNullifier, c.amount, c.token.toNat, c.recipient.toNat, c.releaseTime]

/-- The payment of a claim. WETH is unwrapped and sent as ETH, which runs the recipient's code. -/
def payClaim (c : ClaimParams) : Except Error World :=
  if c.token = D.weth then do
    let books ← orRevert (w.books.burn D.weth D.settlement c.amount)
    let books ← D.safeTransfer books 0 D.weth D.settlement c.amount
    let books ← D.safeTransfer books 0 D.settlement c.recipient c.amount
    lowLevelCall D { w with books } .transferFailed c.receive
  else do
    let books ← D.safeTransfer w.books c.token D.settlement c.recipient c.amount
    return { w with books }

/-- `_executeClaim`. -/
def executeClaim (c : ClaimParams) : Except Error World := do
  require (c.recipient ≠ 0) .zeroAddress
  w.settlement.requireNotSanctioned env c.recipient
  w.settlement.requireIdentityVerified env c.recipient
  let group := w.settlement.claimsGroups c.claimsRoot
  require (group.token ≠ 0) .claimsGroupNotFound
  require (¬w.settlement.claimNullifiers c.claimNullifier = true) .nullifierAlreadySpent
  require (¬c.amount > 2 ^ 128 - 1) .amountOverflow
  -- a checked `uint128` sum
  require (group.totalClaimed + c.amount < 2 ^ 128) .arithmetic
  require (¬group.totalClaimed + c.amount > group.totalLocked) .exceedsTotalLocked
  require (¬env.timestamp < c.releaseTime) .notYetReleasable
  require (c.token = group.token) .tokenMismatch
  require (w.settlement.claimVerifierByTier group.tier ≠ 0) (.tierNotConfigured group.tier.toNat)
  require (env.verifyProof (w.settlement.claimVerifierByTier group.tier) c.proof c.pubSignals = true) .invalidProof
  let settlement := { w.settlement with
    claimNullifiers := Function.update w.settlement.claimNullifiers c.claimNullifier true
    claimsGroups := Function.update w.settlement.claimsGroups c.claimsRoot
      { group with totalClaimed := group.totalClaimed + c.amount } }
  payClaim D { w with settlement } c

def claimWithProof (c : ClaimParams) : Except Error World := do
  w.settlement.whenNotPaused
  executeClaim D env w c

def executeClaims : World → List ClaimParams → Except Error World
  | w, [] => .ok w
  | w, c :: claims => do
    let w ← executeClaim D env w c
    executeClaims w claims

def claimWithProofBatch (claims : List ClaimParams) : Except Error World := do
  w.settlement.whenNotPaused
  require (claims.length ≠ 0) .emptyBatch
  require (¬claims.length > maxClaimBatchSize) .batchTooLarge
  executeClaims D env w claims

end PrivateSettlement

end ScatterDex
