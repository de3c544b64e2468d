import ScatterDex.Protocol.UserProtection

/-!
# Registration of claims groups

A matched trade ends with the registration of both claims groups. A group is there once its token is, so a side that locks nothing takes up its root all the same, and the root of no claims is one root for everybody. The guard before the registrations compares the roots only if both sides lock something.
-/

namespace ScatterDex

open Bn254 Fallible PrivateSettlement

namespace PrivateSettlement

variable (D : Deployment) (env : Env) (w : World)

/-- `settleAuth` up to the registrations. -/
def settleBeforeGroups (p : SettleAuthParams) : Except Error World := do
  w.settlement.whenNotPaused
  require (¬(env.sender ≠ p.maker.relayer ∧ env.sender ≠ p.taker.relayer)) .notMakerOrTakerRelayer
  w.settlement.requireNotSanctioned env env.sender
  let makerVerifier := w.settlement.authorizeVerifierByTier p.maker.tier
  require (makerVerifier ≠ 0) (.tierNotConfigured p.maker.tier.toNat)
  let takerVerifier :=
    if p.maker.tier = p.taker.tier then makerVerifier else w.settlement.authorizeVerifierByTier p.taker.tier
  require (takerVerifier ≠ 0) (.tierNotConfigured p.taker.tier.toNat)
  SettleVerifyLib.validateCrossSide env w.settlement.whitelistedTokens p.maker p.taker p.feeTokenMaker p.feeTokenTaker
  require (p.maker.nullifier ≠ p.taker.nullifier) .nullifierAlreadySpent
  require (p.maker.nonceNullifier ≠ p.taker.nonceNullifier) .nullifierAlreadySpent
  require (¬w.settlement.nullifiers p.maker.nullifier = true) .nullifierAlreadySpent
  require (¬w.settlement.nullifiers p.taker.nullifier = true) .nullifierAlreadySpent
  require (¬w.settlement.nonceNullifiers p.maker.nonceNullifier = true) .nullifierAlreadySpent
  require (¬w.settlement.nonceNullifiers p.taker.nonceNullifier = true) .nullifierAlreadySpent
  require (w.pool.tree.isKnownRoot p.maker.commitmentRoot = true) .unknownRoot
  require (w.pool.tree.isKnownRoot p.taker.commitmentRoot = true) .unknownRoot
  verifySides env w p makerVerifier takerVerifier
  require (¬(w.settlement.relayerRegistry ≠ 0 ∧
    ¬env.isActiveRelayer w.settlement.relayerRegistry p.maker.relayer = true)) .notActiveRelayer
  require (¬(w.settlement.relayerRegistry ≠ 0 ∧
    ¬env.isActiveRelayer w.settlement.relayerRegistry p.taker.relayer = true)) .notActiveRelayer
  let w := { w with settlement := w.settlement.markNullifiers p.maker.nullifier p.maker.nonceNullifier }
  let w := { w with settlement := w.settlement.markNullifiers p.taker.nullifier p.taker.nonceNullifier }
  let w ← spendEscrowNullifier D env w p.maker.nullifier
  let w ← spendEscrowNullifier D env w p.taker.nullifier
  let w ← maybeInsertCommitment D env w p.maker.newCommitment
  let w ← maybeInsertCommitment D env w p.taker.newCommitment
  let w ← transferLocked D env w p.maker.buyToken p.maker.totalLocked.toNat
  let w ← transferLocked D env w p.taker.buyToken p.taker.totalLocked.toNat
  let w ← routeFee D env w p.maker.buyToken p.feeTokenMaker.toNat p.maker.relayer
  let w ← routeFee D env w p.taker.buyToken p.feeTokenTaker.toNat p.taker.relayer
  SettleVerifyLib.requireDistinctClaimsRoots p.maker.claimsRoot p.taker.claimsRoot
    p.maker.totalLocked.toNat p.taker.totalLocked.toNat
  return w

variable {D env w}

theorem settleAuth_eq (p : SettleAuthParams) : settleAuth D env w p = (do
    let w ← settleBeforeGroups D env w p
    let w ← registerClaimsGroup w p.maker.claimsRoot p.maker.buyToken p.maker.totalLocked.toNat p.maker.tier
    registerClaimsGroup w p.taker.claimsRoot p.taker.buyToken p.taker.totalLocked.toNat p.taker.tier) := by
  simp only [settleAuth, settleBeforeGroups, bind_assoc, pure_bind]

/-- Nothing before the registrations touches the groups, and what the maker buys is a whitelisted token. -/
theorem settleBeforeGroups_ok {p : SettleAuthParams} {w₁ : World} (hchecks : settleBeforeGroups D env w p = .ok w₁) :
    w₁.settlement.claimsGroups = w.settlement.claimsGroups ∧ w.settlement.whitelistedTokens p.maker.buyToken = true := by
  simp only [settleBeforeGroups, bind_eq_ok, require_eq_ok, pure_eq_ok] at hchecks
  obtain ⟨-, -, -, -, -, -, -, -, -, -, _, hvalid, -, -, -, -, -, -, -, -, -, -, -, -, -, -, -, -,
    -, -, -, -, -, -, w₁, hspend₁, w₂, hspend₂, w₃, hinsert₁, w₄, hinsert₂, w₅, hlocked₁, w₆, hlocked₂, w₇, hfee₁,
    w₈, hfee₂, -, -, rfl⟩ := hchecks
  obtain ⟨hauthorized, pool₁, hspent₁, rfl⟩ := spendEscrowNullifier_ok hspend₁
  obtain ⟨-, pool₂, hspent₂, rfl⟩ := spendEscrowNullifier_ok hspend₂
  obtain ⟨pool₃, hinserted₁, rfl⟩ := maybeInsertCommitment_ok hinsert₁
  obtain ⟨pool₄, hinserted₂, rfl⟩ := maybeInsertCommitment_ok hinsert₂
  have hauthorized' : pool₄.authorizedSettlement = D.settlement := by
    rw [hinserted₂.spec.2, hinserted₁.spec.2, hspent₂.2, hspent₁.2]
    exact hauthorized
  obtain ⟨books₁, -, rfl⟩ := transferLocked_ok hauthorized' hlocked₁
  obtain ⟨books₂, -, rfl⟩ := transferLocked_ok hauthorized' hlocked₂
  have hsettlement := (routeFee_ok hfee₂).settlement.trans (routeFee_ok hfee₁).settlement
  have hcross := SettleVerifyLib.validateCrossSide_ok hvalid
  refine ⟨by rw [hsettlement]; rfl, ?_⟩
  rw [← hcross.takerSells]
  exact hcross.takerWhitelisted

/-- Two registrations of real tokens succeed exactly under two free and different roots. -/
theorem registerClaimsGroups_iff {first second : ℕ} {firstToken secondToken : Address} {firstLocked secondLocked : ℕ}
    {firstTier secondTier : BitVec 8} (htoken : firstToken ≠ 0) :
    (∃ w', (do
      let w ← registerClaimsGroup w first firstToken firstLocked firstTier
      registerClaimsGroup w second secondToken secondLocked secondTier) = .ok w') ↔
    (w.settlement.claimsGroups first).token = 0 ∧ (w.settlement.claimsGroups second).token = 0 ∧ first ≠ second := by
  constructor
  · rintro ⟨w', hregister⟩
    simp only [bind_eq_ok] at hregister
    obtain ⟨w₁, hfirst, hsecond⟩ := hregister
    obtain ⟨groups₁, ⟨hfree₁, rfl⟩, rfl⟩ := registerClaimsGroup_ok hfirst
    obtain ⟨groups₂, ⟨hfree₂, -⟩, -⟩ := registerClaimsGroup_ok hsecond
    have hroots : first ≠ second := by
      rintro rfl
      dsimp only at hfree₂
      rw [Function.update_self] at hfree₂
      exact htoken hfree₂
    dsimp only at hfree₂
    rw [Function.update_of_ne hroots.symm] at hfree₂
    exact ⟨hfree₁, hfree₂, hroots⟩
  · rintro ⟨hfree₁, hfree₂, hroots⟩
    simp only [registerClaimsGroup, SettleVerifyLib.registerClaimsGroup, bind_eq_ok, require_eq_ok, pure_eq_ok]
    refine ⟨_, _, ⟨_, ⟨(), hfree₁, rfl⟩, rfl⟩, _, ⟨(), ?_, rfl⟩, rfl⟩
    dsimp only
    rw [Function.update_of_ne hroots.symm]
    exact hfree₂

end PrivateSettlement

/-- **When a settlement can register its groups.** In a state the contracts can reach, a matched trade that passes every check before the registrations goes through exactly if its claims roots differ and nobody ever registered a group under either, not even one that locks nothing. -/
theorem settleAuth_registers_iff {D : Deployment} {w₀ : World} (hdeployed : Deployed D w₀) (calls : List Call) {env : Env}
    {p : SettleAuthParams} {w₁ : World} (hchecks : settleBeforeGroups D env (w₀.after D calls) p = .ok w₁) :
    (∃ w', settleAuth D env (w₀.after D calls) p = .ok w') ↔
      ((w₀.after D calls).settlement.claimsGroups p.maker.claimsRoot).token = 0 ∧
        ((w₀.after D calls).settlement.claimsGroups p.taker.claimsRoot).token = 0 ∧
        p.maker.claimsRoot ≠ p.taker.claimsRoot := by
  have hstart : w₀.settlement.whitelistedTokens 0 = false := hdeployed.settlement_spec.2.2.2.2 0
  have hwhitelist := whitelist_configuration.run hstart (run_accepted D w₀ calls)
  obtain ⟨hgroups, hlisted⟩ := settleBeforeGroups_ok hchecks
  have htoken : p.maker.buyToken ≠ 0 := by
    intro hzero
    rw [hzero, hwhitelist] at hlisted
    exact Bool.false_ne_true hlisted
  rw [settleAuth_eq, hchecks, ← hgroups]
  exact registerClaimsGroups_iff htoken

/-! ### Two sides without claims -/

/-- The root over no claims, at the smallest tier. -/
def noClaimsRoot : Scalar := 0x7f9d837cb17b0d36320ffe93ba52345f1b728571a568265caac97559dbc952a

/-- An order that leaves all it buys to the relayer, and so has no claims. -/
def Circuit.AuthorizeSignals.claimless (s : Circuit.AuthorizeSignals) (orderHash sigS sigR8x sigR8y : Scalar) :
    Circuit.AuthorizeSignals :=
  { s with
    maxFee := 10000
    claimsRoot := noClaimsRoot
    totalLocked := 0
    claimSecrets := fun _ => 0
    claimRecipients := fun _ => 0
    claimTokens := fun _ => 0
    claimAmounts := fun _ => 0
    claimReleaseTimes := fun _ => 0
    claimCount := 0
    orderHash
    sigS
    sigR8x
    sigR8y }

def claimlessMaker : Circuit.AuthorizeSignals := makerOrder.claimless
  0x1629b878c84d248b0ff657dae7c77a7644ab8d5eacd734d5adda9b1228fb40dd
  0x4b0626d8cf0559a4a758c0af3c4a33f54c0ea84216a780dbb9a3e85db34116e
  0x97324c7c958b7e07df35deb7de44ed8c81185c0aeb7576bd2b1f4816757d8d5
  0x126d9eb26a77bc05bdb81c25d6d2dc66d36c26a0425b39caff8f76b06cd10cdc

def claimlessTaker : Circuit.AuthorizeSignals := takerOrder.claimless
  0x54936415a2fc0ac66a7fd98033b55231f58055cd7f25139c509e8893621401a
  0x25f4fa619dc279746f810968d3fb5e51adc59964831d1dee62c1cef26e51161
  0x1194739a6a5e6493c1fe04fea67a2b20e470454c033d0ab21622854363f7241f
  0x189d7c92224eaaf71e02c5b18f96bb581ad9015e0c0c19a808998a945ef7c3d5

def claimlessTable : List (List Scalar × Scalar) :=
  ([13, 14, 400, 300, 10000, 500, 7, noClaimsRoot, 12], claimlessMaker.orderHash) ::
    ([14, 13, 320, 380, 10000, 500, 8, noClaimsRoot, 12], claimlessTaker.orderHash) :: tradeTable

def claimlessPoseidon : Poseidon := .ofTable claimlessTable (by decide +kernel) (by decide +kernel)

instance : DecidablePred (· ∈ claimlessPoseidon.asked) := fun xs =>
  inferInstanceAs (Decidable ((claimlessTable.lookup xs).isSome = true))

abbrev claimlessCircomlib : Circomlib := .withSignatures
  [[claimlessMaker.pubKeyAx, claimlessMaker.pubKeyAy, claimlessMaker.sigS, claimlessMaker.sigR8x, claimlessMaker.sigR8y,
      claimlessMaker.orderHash],
    [claimlessTaker.pubKeyAx, claimlessTaker.pubKeyAy, claimlessTaker.sigS, claimlessTaker.sigR8x, claimlessTaker.sigR8y,
      claimlessTaker.orderHash]]

theorem claimlessMaker_valid : Circuit.ValidOrder claimlessCircomlib claimlessPoseidon 20 16 4 claimlessMaker := by
  constructor <;> decide +kernel

theorem claimlessTaker_valid : Circuit.ValidOrder claimlessCircomlib claimlessPoseidon 20 16 4 claimlessTaker := by
  constructor <;> decide +kernel

def claimlessDeployment : Deployment := .small claimlessPoseidon

def claimlessWorld : World := World.fresh claimlessDeployment 20 (Ledger.soleHolder 13 33 1000)

def claimlessParams : SettleAuthParams := ⟨claimlessMaker.calldata 16, claimlessTaker.calldata 16, 300, 380⟩

/-- The trade of two orders without claims, both with a valid proof, is all there ever was; it passes every check and cannot register. -/
theorem settleAuth_claimless_blocked :
    (claimlessParams.maker.Backed claimlessCircomlib claimlessPoseidon ∧
      claimlessParams.taker.Backed claimlessCircomlib claimlessPoseidon) ∧
    (∃ w₁, settleBeforeGroups claimlessDeployment (.permissive 12)
      (claimlessWorld.after claimlessDeployment (tradeSetup ++ takerDeposit)) claimlessParams = .ok w₁) ∧
    (((claimlessWorld.after claimlessDeployment (tradeSetup ++ takerDeposit)).settlement.claimsGroups
        claimlessParams.maker.claimsRoot).token = 0 ∧
      ((claimlessWorld.after claimlessDeployment (tradeSetup ++ takerDeposit)).settlement.claimsGroups
        claimlessParams.taker.claimsRoot).token = 0) ∧
    ¬∃ w', settleAuth claimlessDeployment (.permissive 12)
      (claimlessWorld.after claimlessDeployment (tradeSetup ++ takerDeposit)) claimlessParams = .ok w' := by
  refine ⟨⟨?_, ?_⟩, ?_, ?_, ?_⟩
  · exact ⟨claimlessMaker.assign claimlessPoseidon,
      ⟨4, by decide, claimlessMaker_valid.authorize (by decide) (by decide)⟩, by decide +kernel⟩
  · exact ⟨claimlessTaker.assign claimlessPoseidon,
      ⟨4, by decide, claimlessTaker_valid.authorize (by decide) (by decide)⟩, by decide +kernel⟩
  · exact exists_of_isOk (by decide +kernel)
  · decide +kernel
  · have hfails : (settleAuth claimlessDeployment (.permissive 12)
        (claimlessWorld.after claimlessDeployment (tradeSetup ++ takerDeposit)) claimlessParams).isOk = false := by
      decide +kernel
    rintro ⟨w', hw'⟩
    rw [hw'] at hfails
    cases hfails

/-- A trade with claims on both sides, against the condition. -/
theorem settleAuth_registers_trade :
    (∃ w', settleAuth tradeDeployment (.permissive 12) (tradeWorld.after tradeDeployment (tradeSetup ++ takerDeposit))
      tradeParams = .ok w') ↔
      ((tradeWorld.after tradeDeployment (tradeSetup ++ takerDeposit)).settlement.claimsGroups
          tradeParams.maker.claimsRoot).token = 0 ∧
        ((tradeWorld.after tradeDeployment (tradeSetup ++ takerDeposit)).settlement.claimsGroups
          tradeParams.taker.claimsRoot).token = 0 ∧
        tradeParams.maker.claimsRoot ≠ tradeParams.taker.claimsRoot := by
  have haccepted : (settleBeforeGroups tradeDeployment (.permissive 12)
      (tradeWorld.after tradeDeployment (tradeSetup ++ takerDeposit)) tradeParams).isOk = true := by decide +kernel
  obtain ⟨w₁, hchecks⟩ := exists_of_isOk haccepted
  exact settleAuth_registers_iff tradeWorld_deployed (tradeSetup ++ takerDeposit) hchecks

end ScatterDex
