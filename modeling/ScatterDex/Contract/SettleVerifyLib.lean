import ScatterDex.Contract.Basic

/-!
# SettleVerifyLib

The calldata checks of the settlement paths: the public signals of an authorize proof, the cross-side checks of a matched trade, the checks of a swap and of a scatter, and the registration of claims groups.
-/

namespace ScatterDex

open Fallible

/-- One claims group: the money of one side of a settlement, and how much of it was paid out. -/
structure ClaimsGroup where
  totalLocked : ℕ
  totalClaimed : ℕ
  token : Address
  tier : BitVec 8

/-- A group nobody registered. -/
def ClaimsGroup.empty : ClaimsGroup := ⟨0, 0, 0, 0⟩

/-- The calldata of one authorize proof. -/
structure AuthorizeProof where
  proof : Groth16Proof
  pubKeyBind : ℕ
  commitmentRoot : ℕ
  nullifier : ℕ
  nonceNullifier : ℕ
  newCommitment : ℕ
  sellToken : Address
  buyToken : Address
  sellAmount : BitVec 128
  buyAmount : BitVec 128
  maxFee : BitVec 16
  expiry : BitVec 64
  claimsRoot : ℕ
  totalLocked : BitVec 128
  relayer : Address
  orderHash : ℕ
  tier : BitVec 8

namespace SettleVerifyLib

def feeBpsDenominator : ℕ := 10000

def packAuthSignals (ap : AuthorizeProof) : List ℕ :=
  [ap.pubKeyBind, ap.commitmentRoot, ap.nullifier, ap.nonceNullifier, ap.newCommitment, ap.sellToken.toNat,
    ap.buyToken.toNat, ap.sellAmount.toNat, ap.buyAmount.toNat, ap.maxFee.toNat, ap.expiry.toNat, ap.claimsRoot,
    ap.totalLocked.toNat, ap.relayer.toNat, ap.orderHash]

variable (env : Env) (whitelistedTokens : Address → Bool)

def validateCrossSide (maker taker : AuthorizeProof) (feeTokenMaker feeTokenTaker : BitVec 96) :
    Except Error Unit := do
  require (¬(maker.sellAmount.toNat = 0 ∨ taker.sellAmount.toNat = 0)) .zeroSellAmount
  require (¬(maker.buyAmount.toNat = 0 ∨ taker.buyAmount.toNat = 0)) .zeroBuyAmount
  require (whitelistedTokens maker.sellToken = true) .tokenNotWhitelisted
  require (whitelistedTokens taker.sellToken = true) .tokenNotWhitelisted
  require (maker.sellToken = taker.buyToken) .tokenSidesMismatch
  require (taker.sellToken = maker.buyToken) .tokenSidesMismatch
  let makerProduct := maker.sellAmount.toNat * taker.sellAmount.toNat
  let takerProduct := maker.buyAmount.toNat * taker.buyAmount.toNat
  require (¬takerProduct > makerProduct) .priceMismatch
  require (¬maker.totalLocked.toNat + feeTokenMaker.toNat > taker.sellAmount.toNat) .claimsCapExceeded
  require (¬taker.totalLocked.toNat + feeTokenTaker.toNat > maker.sellAmount.toNat) .claimsCapExceeded
  require (¬feeTokenMaker.toNat * feeBpsDenominator > maker.buyAmount.toNat * maker.maxFee.toNat) .feeExceedsMax
  require (¬feeTokenTaker.toNat * feeBpsDenominator > taker.buyAmount.toNat * taker.maxFee.toNat) .feeExceedsMax
  require (¬env.timestamp > maker.expiry.toNat) .orderExpired
  require (¬env.timestamp > taker.expiry.toNat) .orderExpired

def validateDexProof (proof : AuthorizeProof) (sender : Address) (deadline : ℕ) : Except Error Unit := do
  require (¬env.timestamp > deadline) .deadlineExpired
  require (sender = proof.relayer) .notMakerOrTakerRelayer
  require (proof.sellToken ≠ proof.buyToken) .tokenSidesMismatch
  require (whitelistedTokens proof.sellToken = true) .tokenNotWhitelisted
  require (whitelistedTokens proof.buyToken = true) .tokenNotWhitelisted
  require (proof.sellAmount.toNat ≠ 0) .zeroSellAmount
  require (¬env.timestamp > proof.expiry.toNat) .orderExpired
  require (proof.nullifier ≠ proof.nonceNullifier) .nullifierAlreadySpent

def validateScatterAuth (ap : AuthorizeProof) (sender : Address) (fee : BitVec 96) : Except Error Unit := do
  require (sender = ap.relayer) .notMakerOrTakerRelayer
  require (ap.sellToken = ap.buyToken) .sellBuyTokenMismatch
  require (whitelistedTokens ap.sellToken = true) .tokenNotWhitelisted
  require (ap.sellAmount.toNat ≠ 0) .zeroSellAmount
  require (ap.buyAmount.toNat ≠ 0) .zeroBuyAmount
  require (¬fee.toNat * feeBpsDenominator > ap.sellAmount.toNat * ap.maxFee.toNat) .feeExceedsMax
  require (¬ap.totalLocked.toNat + fee.toNat > ap.sellAmount.toNat) .claimsCapExceeded
  require (¬env.timestamp > ap.expiry.toNat) .orderExpired

def requireDistinctClaimsRoots (rootA rootB lockedA lockedB : ℕ) : Except Error Unit :=
  require (¬(rootA = rootB ∧ lockedA > 0 ∧ lockedB > 0)) .duplicateClaimsRoot

def registerClaimsGroup (claimsGroups : ℕ → ClaimsGroup) (root : ℕ) (token : Address) (totalLocked : ℕ)
    (tier : BitVec 8) : Except Error (ℕ → ClaimsGroup) := do
  require ((claimsGroups root).token = 0) .claimsGroupAlreadyExists
  return Function.update claimsGroups root { totalLocked, totalClaimed := 0, token, tier }

variable {env whitelistedTokens}

/-- What a matched trade has passed. -/
structure CrossSide (whitelistedTokens : Address → Bool) (maker taker : AuthorizeProof)
    (feeTokenMaker feeTokenTaker : BitVec 96) : Prop where
  makerWhitelisted : whitelistedTokens maker.sellToken = true
  takerWhitelisted : whitelistedTokens taker.sellToken = true
  makerSells : maker.sellToken = taker.buyToken
  takerSells : taker.sellToken = maker.buyToken
  makerCap : maker.totalLocked.toNat + feeTokenMaker.toNat ≤ taker.sellAmount.toNat
  takerCap : taker.totalLocked.toNat + feeTokenTaker.toNat ≤ maker.sellAmount.toNat
  makerFee : feeTokenMaker.toNat * 10000 ≤ maker.buyAmount.toNat * maker.maxFee.toNat
  takerFee : feeTokenTaker.toNat * 10000 ≤ taker.buyAmount.toNat * taker.maxFee.toNat

theorem validateCrossSide_ok {maker taker : AuthorizeProof} {feeTokenMaker feeTokenTaker : BitVec 96} {u : Unit}
    (hvalid : validateCrossSide env whitelistedTokens maker taker feeTokenMaker feeTokenTaker = .ok u) :
    CrossSide whitelistedTokens maker taker feeTokenMaker feeTokenTaker := by
  simp only [validateCrossSide, feeBpsDenominator, bind_eq_ok, require_eq_ok, not_lt, gt_iff_lt] at hvalid
  obtain ⟨-, -, -, -, -, hmaker, -, htaker, -, hmakerSells, -, htakerSells, -, -, -, hmakerCap, -, htakerCap, -,
    hmakerFee, -, htakerFee, -⟩ := hvalid
  exact ⟨hmaker, htaker, hmakerSells, htakerSells, hmakerCap, htakerCap, hmakerFee, htakerFee⟩

theorem validateDexProof_ok {proof : AuthorizeProof} {sender : Address} {deadline : ℕ} {u : Unit}
    (hvalid : validateDexProof env whitelistedTokens proof sender deadline = .ok u) :
    sender = proof.relayer ∧ proof.sellToken ≠ proof.buyToken := by
  simp only [validateDexProof, bind_eq_ok, require_eq_ok] at hvalid
  obtain ⟨-, -, -, hsender, -, htokens, -⟩ := hvalid
  exact ⟨hsender, htokens⟩

/-- What a scatter has passed. -/
structure Scatter (ap : AuthorizeProof) (sender : Address) (fee : BitVec 96) : Prop where
  relayer : sender = ap.relayer
  sameToken : ap.sellToken = ap.buyToken
  feeCap : fee.toNat * 10000 ≤ ap.sellAmount.toNat * ap.maxFee.toNat
  claimsCap : ap.totalLocked.toNat + fee.toNat ≤ ap.sellAmount.toNat

theorem validateScatterAuth_ok {ap : AuthorizeProof} {sender : Address} {fee : BitVec 96} {u : Unit}
    (hvalid : validateScatterAuth env whitelistedTokens ap sender fee = .ok u) : Scatter ap sender fee := by
  simp only [validateScatterAuth, feeBpsDenominator, bind_eq_ok, require_eq_ok, not_lt, gt_iff_lt] at hvalid
  obtain ⟨-, hsender, -, htokens, -, -, -, -, -, -, -, hfee, -, hcap, -⟩ := hvalid
  exact ⟨hsender, htokens, hfee, hcap⟩

theorem registerClaimsGroup_ok {groups groups' : ℕ → ClaimsGroup} {root : ℕ} {token : Address} {totalLocked : ℕ}
    {tier : BitVec 8} (hregister : registerClaimsGroup groups root token totalLocked tier = .ok groups') :
    (groups root).token = 0 ∧ groups' = Function.update groups root ⟨totalLocked, 0, token, tier⟩ := by
  simp only [registerClaimsGroup, bind_eq_ok, require_eq_ok, pure_eq_ok] at hregister
  obtain ⟨-, hfree, rfl⟩ := hregister
  exact ⟨hfree, rfl⟩

end SettleVerifyLib

end ScatterDex
