import ScatterDex.Circuit.Claim
import ScatterDex.Protocol.UserProtection
import ScatterDex.Relayer.OrderMatching

/-!
# When a match settles

The relayer pairs orders by price, a comparison of products. The contract also asks that each side's claims and fee fit in what the other side sells, and that both tokens are listed. For orders that passed submission with a valid proof these are the only questions left open.
-/

namespace ScatterDex

open Bn254 Fallible SettleVerifyLib

namespace Relayer

variable (C : Circomlib) (P : Poseidon)

/-- An order that passed submission: its signals were checked and its proof verifies. -/
structure AuthorizeOrderFile.Valid (order : AuthorizeOrderFile) : Prop where
  submitted : ∃ relayerAddress nowSeconds, validateAuthorizeOrder order relayerAddress nowSeconds = .ok ()
  backed : order.buildAuthProofStruct.Backed C P

/-- Every order of a book, and the one that comes in. -/
structure OrderBook.Sound (env : Env) (book : OrderBook) (incoming : StoredAuthorizeOrder) : Prop where
  stored : ∀ nullifier stored, book.authorizeOrders nullifier = some stored →
    stored.order.Valid C P ∧ env.timestamp ≤ stored.order.publicSignals.expiry
  incoming : incoming.order.Valid C P ∧ env.timestamp ≤ incoming.order.publicSignals.expiry

variable (env : Env) (whitelistedTokens : Address → Bool)

/-- A pair passes the cross-side checks of `settleAuth`, with the fees the relayer computes. The contract takes a fee as a `uint96`. -/
def AuthorizeMatch.Accepted (pair : AuthorizeMatch) (relayerFeeBps : ℕ) : Prop :=
  let makerPs := pair.maker.order.publicSignals
  let takerPs := pair.taker.order.publicSignals
  ∃ feeTokenMaker feeTokenTaker : BitVec 96,
    feeTokenMaker.toNat = computeSideFee makerPs.buyAmount makerPs.maxFee relayerFeeBps ∧
    feeTokenTaker.toNat = computeSideFee takerPs.buyAmount takerPs.maxFee relayerFeeBps ∧
    validateCrossSide env whitelistedTokens pair.maker.order.buildAuthProofStruct
      pair.taker.order.buildAuthProofStruct feeTokenMaker feeTokenTaker = .ok () ∧
    requireDistinctClaimsRoots makerPs.claimsRoot takerPs.claimsRoot makerPs.totalLocked takerPs.totalLocked = .ok ()

/-- What one side takes out of the other: its claims, and its fee, which must also fit its type. -/
structure CoveredBy (side counterparty : AuthorizePublicSignals) (relayerFeeBps : ℕ) : Prop where
  listed : whitelistedTokens (BitVec.ofNat 160 side.sellToken) = true
  fee : side.buyAmount * min relayerFeeBps side.maxFee / 10000 < 2 ^ 96
  claims : side.totalLocked + side.buyAmount * min relayerFeeBps side.maxFee / 10000 ≤ counterparty.sellAmount

/-- Each side's claims and fee fit in what the other side sells, and the tokens are listed. -/
def AuthorizeMatch.Covered (pair : AuthorizeMatch) (relayerFeeBps : ℕ) : Prop :=
  CoveredBy whitelistedTokens pair.maker.order.publicSignals pair.taker.order.publicSignals relayerFeeBps ∧
    CoveredBy whitelistedTokens pair.taker.order.publicSignals pair.maker.order.publicSignals relayerFeeBps

variable {C P env whitelistedTokens}

theorem computeSideFee_eq (buyAmount sideMaxFee relayerFeeBps : ℕ) :
    computeSideFee buyAmount sideMaxFee relayerFeeBps = buyAmount * min relayerFeeBps sideMaxFee / 10000 := by
  unfold computeSideFee FEE_BPS_DENOMINATOR
  dsimp only
  congr 2
  split <;> omega

theorem AuthorizeOrderFile.Valid.wellFormed {order : AuthorizeOrderFile} (horder : order.Valid C P) :
    order.WellFormed := by
  obtain ⟨relayerAddress, nowSeconds, hvalid⟩ := horder.submitted
  exact validateAuthorizeOrder_ok hvalid

theorem claimsRoot_ne {order order' : AuthorizeOrderFile} (horder : order.Valid C P) (horder' : order'.Valid C P)
    (htokens : order.publicSignals.buyToken ≠ order'.publicSignals.buyToken) :
    order.publicSignals.claimsRoot ≠ order'.publicSignals.claimsRoot := by
  intro hroot
  obtain ⟨s, ⟨depth, htier, hs⟩, hsignals⟩ := horder.backed
  obtain ⟨s', ⟨depth', htier', hs'⟩, hsignals'⟩ := horder'.backed
  obtain ⟨-, -, -, -, -, -, hbuy, -, -, -, -, hclaims, hlocked, -, -⟩ :=
    (AuthorizeProof.Backing.mk ⟨depth, htier, hs⟩ hsignals).vals
  obtain ⟨-, -, -, -, -, -, hbuy', -, -, -, -, hclaims', -, -, -⟩ :=
    (AuthorizeProof.Backing.mk ⟨depth', htier', hs'⟩ hsignals').vals
  obtain ⟨hmax, hsmall⟩ := tier_spec htier
  obtain ⟨hmax', hsmall'⟩ := tier_spec htier'
  have hnonzero : s.totalLocked ≠ 0 := by
    intro hzero
    rw [hzero, ZMod.val_zero, horder.wellFormed.totalLocked] at hlocked
    exact horder.wellFormed.totalLocked_ne hlocked.symm
  have hsame : s.claimsRoot = s'.claimsRoot := by
    apply ZMod.val_injective
    rw [hclaims, hclaims']
    exact hroot
  have htoken := hs.buyToken_eq_of_claimsRoot hmax hsmall hmax' hsmall' hs' hsame hnonzero
  rw [htoken, hbuy', horder.wellFormed.buyToken, horder'.wellFormed.buyToken] at hbuy
  exact htokens hbuy.symm

/-- The contract's checks of a pair of valid orders, in the terms of the relayer. -/
theorem validateCrossSide_iff {maker taker : AuthorizeOrderFile} (hmaker : maker.WellFormed) (htaker : taker.WellFormed)
    {feeTokenMaker feeTokenTaker : BitVec 96} :
    validateCrossSide env whitelistedTokens maker.buildAuthProofStruct taker.buildAuthProofStruct feeTokenMaker
        feeTokenTaker = .ok () ↔
      whitelistedTokens (BitVec.ofNat 160 maker.publicSignals.sellToken) = true ∧
      whitelistedTokens (BitVec.ofNat 160 taker.publicSignals.sellToken) = true ∧
      maker.publicSignals.sellToken = taker.publicSignals.buyToken ∧
      taker.publicSignals.sellToken = maker.publicSignals.buyToken ∧
      maker.publicSignals.buyAmount * taker.publicSignals.buyAmount ≤
        maker.publicSignals.sellAmount * taker.publicSignals.sellAmount ∧
      maker.publicSignals.totalLocked + feeTokenMaker.toNat ≤ taker.publicSignals.sellAmount ∧
      taker.publicSignals.totalLocked + feeTokenTaker.toNat ≤ maker.publicSignals.sellAmount ∧
      feeTokenMaker.toNat * 10000 ≤ maker.publicSignals.buyAmount * maker.publicSignals.maxFee ∧
      feeTokenTaker.toNat * 10000 ≤ taker.publicSignals.buyAmount * taker.publicSignals.maxFee ∧
      env.timestamp ≤ maker.publicSignals.expiry ∧ env.timestamp ≤ taker.publicSignals.expiry := by
  have hmakerToken : maker.buildAuthProofStruct.sellToken = taker.buildAuthProofStruct.buyToken ↔
      maker.publicSignals.sellToken = taker.publicSignals.buyToken := by
    rw [← BitVec.toNat_inj, hmaker.sellToken, htaker.buyToken]
  have htakerToken : taker.buildAuthProofStruct.sellToken = maker.buildAuthProofStruct.buyToken ↔
      taker.publicSignals.sellToken = maker.publicSignals.buyToken := by
    rw [← BitVec.toNat_inj, htaker.sellToken, hmaker.buyToken]
  simp only [validateCrossSide, bind_eq_ok, require_eq_ok, hmakerToken, htakerToken,
    hmaker.sellAmount, htaker.sellAmount, hmaker.buyAmount, htaker.buyAmount, hmaker.maxFee, htaker.maxFee,
    hmaker.expiry, htaker.expiry, hmaker.totalLocked, htaker.totalLocked, hmaker.sellAmount_ne, htaker.sellAmount_ne,
    hmaker.buyAmount_ne, htaker.buyAmount_ne, or_self, not_false_eq_true, true_and, gt_iff_lt, not_lt, feeBpsDenominator, exists_const]
  exact Iff.rfl

/-- **A match settles exactly when it is covered.** The relayer's filters and the validity of the orders give every other check of the contract: mirrored tokens, crossing prices, fees below their bounds, distinct claims roots and unexpired orders. -/
theorem match_accepted_iff {book : OrderBook} {nullifier : ℕ} {incoming : StoredAuthorizeOrder} {pair : AuthorizeMatch}
    (hbook : book.Sound C P env incoming) (hmatch : book.findMatch nullifier incoming = some pair)
    (relayerFeeBps : ℕ) :
    pair.Accepted env whitelistedTokens relayerFeeBps ↔ pair.Covered whitelistedTokens relayerFeeBps := by
  have hmatched := OrderBook.findMatch_spec hmatch
  obtain ⟨key, -, hstored⟩ := hmatched.maker
  obtain ⟨hmaker, hmakerExpiry⟩ := hbook.stored key pair.maker hstored
  have htaker : pair.taker.order.Valid C P := hmatched.taker ▸ hbook.incoming.1
  have htakerExpiry : env.timestamp ≤ pair.taker.order.publicSignals.expiry := hmatched.taker ▸ hbook.incoming.2
  have hsells := hmatched.makerSells
  have hbuys := hmatched.takerSells
  have hcross := hmatched.crossToken
  have hprice := hmatched.price
  rw [← hmatched.taker] at hsells hbuys hcross hprice
  have hroots := claimsRoot_ne hmaker htaker (by rw [← hbuys]; exact hcross)
  have hdistinct : requireDistinctClaimsRoots pair.maker.order.publicSignals.claimsRoot
      pair.taker.order.publicSignals.claimsRoot pair.maker.order.publicSignals.totalLocked
      pair.taker.order.publicSignals.totalLocked = .ok () :=
    require_eq_ok.mpr fun hsame => hroots hsame.1
  unfold AuthorizeMatch.Accepted AuthorizeMatch.Covered
  simp only [hdistinct, and_true, validateCrossSide_iff hmaker.wellFormed htaker.wellFormed]
  constructor
  · rintro ⟨feeTokenMaker, feeTokenTaker, hmakerFee, htakerFee, hmakerListed, htakerListed, -, -, -, hmakerCap,
      htakerCap, -⟩
    have hmakerLt := feeTokenMaker.isLt
    have htakerLt := feeTokenTaker.isLt
    rw [hmakerFee, computeSideFee_eq] at hmakerCap hmakerLt
    rw [htakerFee, computeSideFee_eq] at htakerCap htakerLt
    exact ⟨⟨hmakerListed, hmakerLt, hmakerCap⟩, ⟨htakerListed, htakerLt, htakerCap⟩⟩
  · rintro ⟨hmakerCovered, htakerCovered⟩
    have hmakerFee := hmakerCovered.fee
    have htakerFee := htakerCovered.fee
    have hmakerCap := hmakerCovered.claims
    have htakerCap := htakerCovered.claims
    rw [← computeSideFee_eq] at hmakerFee htakerFee hmakerCap htakerCap
    refine ⟨BitVec.ofNatLT _ hmakerFee, BitVec.ofNatLT _ htakerFee, rfl, rfl, hmakerCovered.listed, htakerCovered.listed,
      hsells, hbuys, hprice, hmakerCap, htakerCap, ?_, ?_, hmakerExpiry, htakerExpiry⟩
    · exact computeSideFee_le _ _ _
    · exact computeSideFee_le _ _ _

/-! ### Orders of different sizes -/

/-- What is hashed for a second order of the taker. -/
def fractionTable : List (List Scalar × Scalar) :=
  [([1, 1002, 9],
      0xdc5fee656352db2f62c59c69c589c16e2872f1e062d365a6312c9050bf50f68),
    ([3, 1002, 14, 288, 3004, 0x757f655874d726c704bd49947de527b0aec24f76b4a0f26cc961442e91c8ea7,
      0x1e462f65041a5bf04cc8940f9621e2d395c175a83a67f886824a66c62514e91d],
      0x1a6c5f70de62202d55c25e1e570c2b0e658c8ae074d3734fa495732e1d6e34fa),
    ([5005, 68, 13, 38, 50],
      0x2ba135c129768f876668450e7d26b761d5b4e7c7468327765e982a68a100ef00),
    ([0x2ba135c129768f876668450e7d26b761d5b4e7c7468327765e982a68a100ef00, 0],
      0x22658ece81ac6c0257caabf86100f8b820ff2401f672581fa9602085aecd7612),
    ([0x22658ece81ac6c0257caabf86100f8b820ff2401f672581fa9602085aecd7612,
      0x2098f5fb9e239eab3ceac3f27b81e481dc3124d55ffed523a839ee8446b64864],
      0x4058f775889dc24eeed196a7697b846172132f3f2d5530f792794dc2a3200b6),
    ([0x4058f775889dc24eeed196a7697b846172132f3f2d5530f792794dc2a3200b6,
      0x1069673dcdb12263df301a6ff584a7ec261a44cb9dc68df067a4774460b1f1e1],
      0x205d5953c18b24c124e7b941b18179cbfb82dae08a5fa893ba793055f0914859),
    ([0x205d5953c18b24c124e7b941b18179cbfb82dae08a5fa893ba793055f0914859,
      0x18f43331537ee2af2e3d758d50f72106467c6eea50371dd528d57eb2b856d238],
      0x2c1f2209d8e31e9434d2a64fd7be577f5be8ff903e71f2ee7ad744a062ac7571),
    ([14, 13, 32, 38, 100, 500, 9, 0x2c1f2209d8e31e9434d2a64fd7be577f5be8ff903e71f2ee7ad744a062ac7571, 12],
      0x28283965a909585a1ff987aef7255b07611f833658883ef1d6de851b96881425)] ++ tradeTable

/-- Sell 32 of token 14 out of the taker's note, for at least 38 of token 13 less one percent. -/
def fractionOrder : Circuit.AuthorizeSignals :=
  { takerOrder with
    nonceNullifier := 0xdc5fee656352db2f62c59c69c589c16e2872f1e062d365a6312c9050bf50f68
    newCommitment := 0x1a6c5f70de62202d55c25e1e570c2b0e658c8ae074d3734fa495732e1d6e34fa
    sellAmount := 32
    buyAmount := 38
    claimsRoot := 0x2c1f2209d8e31e9434d2a64fd7be577f5be8ff903e71f2ee7ad744a062ac7571
    totalLocked := 38
    orderHash := 0x28283965a909585a1ff987aef7255b07611f833658883ef1d6de851b96881425
    nonce := 9
    newSalt := 3004
    sigS := 0x412dbf9f71d7ee2dd773bc073e0655fe21b02d8b5000d325a9f8d758e6468ec
    sigR8x := 0x230cff6ee5e920b903abde80c5d73309393685d31f56006a5136cea499935d5f
    sigR8y := 0x36a2129ed4b50bd3e762c395cf42acecddac3c3669e5107f760eb8677a816f9
    claimSecrets := fun i => [5005].getD i 0
    claimRecipients := fun i => [68].getD i 0
    claimTokens := fun i => [13].getD i 0
    claimAmounts := fun i => [38].getD i 0
    claimReleaseTimes := fun i => [50].getD i 0
    claimCount := 1 }

def fractionPoseidon : Poseidon := .ofTable fractionTable (by decide +kernel) (by decide +kernel)

instance : DecidablePred (· ∈ fractionPoseidon.asked) := fun xs =>
  inferInstanceAs (Decidable ((fractionTable.lookup xs).isSome = true))

abbrev fractionCircomlib : Circomlib := .withSignatures
  [[makerOrder.pubKeyAx, makerOrder.pubKeyAy, makerOrder.sigS, makerOrder.sigR8x, makerOrder.sigR8y,
      makerOrder.orderHash],
    [takerOrder.pubKeyAx, takerOrder.pubKeyAy, takerOrder.sigS, takerOrder.sigR8x, takerOrder.sigR8y,
      takerOrder.orderHash],
    [fractionOrder.pubKeyAx, fractionOrder.pubKeyAy, fractionOrder.sigS, fractionOrder.sigR8x, fractionOrder.sigR8y,
      fractionOrder.orderHash]]

/-- The order file of an assignment. -/
def orderFile (s : Circuit.AuthorizeSignals) : AuthorizeOrderFile where
  proof := .zero
  publicSignals := ⟨s.pubKeyBind.val, s.commitmentRoot.val, s.nullifier.val, s.nonceNullifier.val, s.newCommitment.val,
    s.sellToken.val, s.buyToken.val, s.sellAmount.val, s.buyAmount.val, s.maxFee.val, s.expiry.val, s.claimsRoot.val,
    s.totalLocked.val, s.relayer.val, s.orderHash.val⟩
  tier := some 16

theorem orderFile_valid {s : Circuit.AuthorizeSignals}
    (hs : Circuit.ValidOrder fractionCircomlib fractionPoseidon 20 16 4 s)
    (hsubmitted : validateAuthorizeOrder (orderFile s) 12 10 = .ok ())
    (hsignals : (s.assign fractionPoseidon).publicInputs.map ZMod.val =
      packAuthSignals (orderFile s).buildAuthProofStruct) : (orderFile s).Valid fractionCircomlib fractionPoseidon :=
  ⟨⟨12, 10, hsubmitted⟩, s.assign fractionPoseidon,
    ⟨4, (by decide : (16, 4) ∈ tiers), hs.authorize (by decide : 16 = 2 ^ 4) (by decide : 16 ≤ 128)⟩, hsignals⟩

theorem makerFile_valid : (orderFile makerOrder).Valid fractionCircomlib fractionPoseidon :=
  orderFile_valid (by constructor <;> decide +kernel) (by decide +kernel) (by decide +kernel)

theorem takerFile_valid : (orderFile takerOrder).Valid fractionCircomlib fractionPoseidon :=
  orderFile_valid (by constructor <;> decide +kernel) (by decide +kernel) (by decide +kernel)

theorem fractionFile_valid : (orderFile fractionOrder).Valid fractionCircomlib fractionPoseidon :=
  orderFile_valid (by constructor <;> decide +kernel) (by decide +kernel) (by decide +kernel)

/-- A book with one order in it. -/
def OrderBook.single (s : Circuit.AuthorizeSignals) : OrderBook :=
  (OrderBook.empty.set s.nullifier.val ⟨orderFile s, .accepted⟩).indexAuthorizeOrder s.nullifier.val (orderFile s)

theorem OrderBook.single_sound {s incoming : Circuit.AuthorizeSignals} {env : Env}
    (hs : (orderFile s).Valid fractionCircomlib fractionPoseidon)
    (hincoming : (orderFile incoming).Valid fractionCircomlib fractionPoseidon)
    (hexpiry : env.timestamp ≤ s.expiry.val ∧ env.timestamp ≤ incoming.expiry.val) :
    (OrderBook.single s).Sound fractionCircomlib fractionPoseidon env ⟨orderFile incoming, .settling⟩ where
  stored := by
    intro nullifier stored hstored
    change Function.update (fun _ => none) s.nullifier.val (some ⟨orderFile s, .accepted⟩) nullifier = some stored
      at hstored
    by_cases hkey : nullifier = s.nullifier.val
    · subst hkey
      rw [Function.update_self, Option.some.injEq] at hstored
      subst hstored
      exact ⟨hs, hexpiry.1⟩
    · rw [Function.update_of_ne hkey] at hstored
      cases hstored
  incoming := ⟨hincoming, hexpiry.2⟩

/-- The trade of a whole note against four tenths of another settles, at any fee the relayer asks. -/
theorem match_accepted_trade : (⟨⟨orderFile makerOrder, .accepted⟩, ⟨orderFile takerOrder, .settling⟩⟩ :
    AuthorizeMatch).Accepted (.permissive 12) (fun _ => true) 30 := by
  have hmatch : (OrderBook.single makerOrder).findMatch takerOrder.nullifier.val ⟨orderFile takerOrder, .settling⟩ =
      some ⟨⟨orderFile makerOrder, .accepted⟩, ⟨orderFile takerOrder, .settling⟩⟩ := by
    rfl
  refine (match_accepted_iff (OrderBook.single_sound makerFile_valid takerFile_valid (by decide +kernel)) hmatch 30).mpr ?_
  exact ⟨⟨rfl, by decide +kernel, by decide +kernel⟩, ⟨rfl, by decide +kernel, by decide +kernel⟩⟩

/-- An order of `32` units is matched with one whose claims take `310` of them: the prices cross, and whatever fees the relayer takes, the contract rejects the pair. Both notes are in the pool, unspent, and both tokens are listed. -/
theorem fraction_rejected :
    let deposited := tradeWorld.after tradeDeployment (tradeSetup ++ takerDeposit)
    let incoming : StoredAuthorizeOrder := ⟨orderFile makerOrder, .settling⟩
    let pair : AuthorizeMatch := ⟨⟨orderFile fractionOrder, .accepted⟩, incoming⟩
    (OrderBook.single fractionOrder).Sound fractionCircomlib fractionPoseidon (.permissive 12) incoming ∧
      (∀ s ∈ [makerOrder, fractionOrder], deposited.pool.tree.isKnownRoot s.commitmentRoot.val = true ∧
        deposited.pool.nullifiers s.nullifier.val = false) ∧
      (OrderBook.single fractionOrder).findMatch makerOrder.nullifier.val incoming = some pair ∧
      validateCrossSide (.permissive 12) deposited.settlement.whitelistedTokens pair.maker.order.buildAuthProofStruct
        pair.taker.order.buildAuthProofStruct 0 0 = .error .claimsCapExceeded ∧
      ∀ relayerFeeBps, ¬pair.Accepted (.permissive 12) deposited.settlement.whitelistedTokens relayerFeeBps := by
  intro deposited incoming pair
  refine ⟨OrderBook.single_sound fractionFile_valid makerFile_valid (by decide +kernel), by decide +kernel, rfl,
    by decide +kernel, ?_⟩
  rintro relayerFeeBps ⟨feeTokenMaker, feeTokenTaker, -, -, hchecks, -⟩
  have hcap := (validateCrossSide_ok hchecks).takerCap
  have hlocked : pair.taker.order.buildAuthProofStruct.totalLocked.toNat = 310 := by decide +kernel
  have hsold : pair.maker.order.buildAuthProofStruct.sellAmount.toNat = 32 := by decide +kernel
  omega

end Relayer

end ScatterDex
