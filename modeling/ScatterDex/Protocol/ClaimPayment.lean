import ScatterDex.Protocol.ClaimsGroups
import ScatterDex.Protocol.PoolSolvency

/-!
# Every leaf can be paid

A leaf that has not been paid is covered by its group, and the group by the balance of the contract. What a claim still has to pass are the gates that read its recipient, its release time and its proof. The first of them turns the zero address away, so a leaf that names it stays locked.
-/

namespace ScatterDex

open Bn254 Fallible PrivateSettlement

variable {C : Circomlib} {D : Deployment} {P : Poseidon} {env : Env} {w w' : World} {c : ClaimParams}

namespace PrivateSettlement

/-- What a claim must pass apart from what the contract keeps about its group. -/
structure ClaimGates (env : Env) (storage : PrivateSettlement) (c : ClaimParams) : Prop where
  recipient : c.recipient ≠ 0
  notSanctioned : storage.requireNotSanctioned env c.recipient = .ok ()
  identityVerified : storage.requireIdentityVerified env c.recipient = .ok ()
  tierConfigured : storage.claimVerifierByTier (storage.claimsGroups c.claimsRoot).tier ≠ 0
  verified : env.verifyProof (storage.claimVerifierByTier (storage.claimsGroups c.claimsRoot).tier) c.proof
    c.pubSignals = true

/-- WETH is paid out as ETH: the WETH contract backs the amount, and the recipient takes it. -/
structure ClaimParams.TakesEth (D : Deployment) (w : World) (c : ClaimParams) : Prop where
  backed : c.amount ≤ w.books.balanceOf 0 D.weth
  taken : ∃ calls, c.receive = some calls ∧ ∀ w, ∃ w', runExternal D w calls = .ok w'

/-- The amount of a claim leaves for its recipient, as the token or as unwrapped WETH, and then the recipient's code runs. -/
def ClaimParams.Payment (D : Deployment) (c : ClaimParams) (w w' : World) : Prop :=
  c.token ≠ D.weth ∧ (∃ books, w.books.transfer D.tax c.token D.settlement c.recipient c.amount = some books ∧
    w' = { w with books, settlement := w.settlement.claimed c }) ∨
  c.token = D.weth ∧ ∃ burned books₁ books₂ calls, c.receive = some calls ∧
    w.books.burn c.token D.settlement c.amount = some burned ∧
    burned.transfer D.tax 0 D.weth D.settlement c.amount = some books₁ ∧
    books₁.transfer D.tax 0 D.settlement c.recipient c.amount = some books₂ ∧
    Steps (fun call w w' => ExternalCall.run D w call = .ok w') calls
      { w with books := books₂, settlement := w.settlement.claimed c } w'

/-- What the contract keeps about a group lets a claim pass. -/
structure ClaimCovered (storage : PrivateSettlement) (c : ClaimParams) : Prop where
  registered : (storage.claimsGroups c.claimsRoot).token ≠ 0
  unclaimed : storage.claimNullifiers c.claimNullifier = false
  covered : (storage.claimsGroups c.claimsRoot).totalClaimed + c.amount ≤ (storage.claimsGroups c.claimsRoot).totalLocked
  totalLocked_lt : (storage.claimsGroups c.claimsRoot).totalLocked < 2 ^ 128
  token : c.token = (storage.claimsGroups c.claimsRoot).token

theorem executeClaim_payment (hclaim : executeClaim D env w c = .ok w') : c.Payment D w w' :=
  payClaim_ok (executeClaim_ok hclaim).2

/-- A covered claim is down to its gates and its payment. -/
theorem ClaimCovered.executeClaim_eq (hcovered : ClaimCovered w.settlement c) (hreleased : c.releaseTime ≤ env.timestamp) :
    executeClaim D env w c = (do
      require (c.recipient ≠ 0) .zeroAddress
      w.settlement.requireNotSanctioned env c.recipient
      w.settlement.requireIdentityVerified env c.recipient
      require (w.settlement.claimVerifierByTier (w.settlement.claimsGroups c.claimsRoot).tier ≠ 0)
        (.tierNotConfigured (w.settlement.claimsGroups c.claimsRoot).tier.toNat)
      require (env.verifyProof (w.settlement.claimVerifierByTier (w.settlement.claimsGroups c.claimsRoot).tier) c.proof
        c.pubSignals = true) .invalidProof
      payClaim D { w with settlement := w.settlement.claimed c } c) := by
  obtain ⟨hregistered, hunclaimed, hfit, hlocked, htoken⟩ := hcovered
  have hamount : ¬c.amount > 2 ^ 128 - 1 := by omega
  have hsum : (w.settlement.claimsGroups c.claimsRoot).totalClaimed + c.amount < 2 ^ 128 := by omega
  have hspent : ¬w.settlement.claimNullifiers c.claimNullifier = true := by simp [hunclaimed]
  have htime : ¬env.timestamp < c.releaseTime := not_lt.mpr hreleased
  have hpass : ∀ {condition : Prop} [Decidable condition] {e : Error}, condition → require condition e = .ok () :=
    fun hcondition => require_eq_ok.mpr hcondition
  simp only [executeClaim, hpass hregistered, hpass hspent, hpass hamount, hpass hsum, hpass (not_lt.mpr hfit),
    hpass htime, hpass htoken]
  rfl

/-- A payment fails with an error of its own, whatever the recipient's code does. -/
theorem payClaim_error {e : Error} (hpay : payClaim D w c = .error e) : e = .transferFailed := by
  rw [payClaim] at hpay
  split at hpay
  · simp only [Deployment.safeTransfer, bind_eq_error] at hpay
    rcases hpay with hpay | ⟨_, -, hpay | ⟨_, -, hpay | ⟨_, -, hpay⟩⟩⟩
    · exact orRevert_error hpay
    · exact orRevert_error hpay
    · exact orRevert_error hpay
    · cases hreceive : c.receive with
      | none =>
        rw [hreceive] at hpay
        exact (Except.error.inj hpay).symm
      | some calls =>
        rw [hreceive, lowLevelCall, mapError_eq_error] at hpay
        obtain ⟨_, -, rfl⟩ := hpay
        rfl
  · simp only [Deployment.safeTransfer, bind_eq_error] at hpay
    rcases hpay with hpay | ⟨_, -, hpay⟩
    · exact orRevert_error hpay
    · cases hpay

/-- The four refusals that would strand a leaf. -/
def stranding : List Error := [.exceedsTotalLocked, .tokenMismatch, .amountOverflow, .nullifierAlreadySpent]

theorem ClaimCovered.not_stranded (hcovered : ClaimCovered w.settlement c) (hreleased : c.releaseTime ≤ env.timestamp)
    {e : Error} (hclaim : executeClaim D env w c = .error e) : e ∉ stranding := by
  rw [hcovered.executeClaim_eq hreleased] at hclaim
  simp only [requireNotSanctioned, requireIdentityVerified, bind_eq_error, require_eq_error] at hclaim
  rcases hclaim with ⟨-, rfl⟩ | ⟨_, -, ⟨-, rfl⟩ | ⟨_, -, ⟨-, rfl⟩ | ⟨_, -, ⟨-, rfl⟩ | ⟨_, -, ⟨-, rfl⟩ | ⟨_, -, hpay⟩⟩⟩⟩⟩
  · decide
  · decide
  · decide
  · simp [stranding]
  · decide
  · rw [payClaim_error hpay]
    decide

theorem ClaimCovered.pays (hcovered : ClaimCovered w.settlement c) (hreleased : c.releaseTime ≤ env.timestamp)
    (hgates : ClaimGates env w.settlement c) (hstandard : D.Standard)
    (hfunded : c.amount ≤ w.books.balanceOf c.token D.settlement) (heth : c.token = D.weth → c.TakesEth D w) :
    ∃ w', executeClaim D env w c = .ok w' := by
  obtain ⟨hrecipient, hsanctions, hidentity, htier, hverified⟩ := hgates
  have hpass : ∀ {condition : Prop} [Decidable condition] {e : Error}, condition → require condition e = .ok () :=
    fun hcondition => require_eq_ok.mpr hcondition
  rw [hcovered.executeClaim_eq hreleased]
  simp only [hpass hrecipient, hsanctions, hidentity, hpass htier, hpass hverified]
  show ∃ w', payClaim D { w with settlement := w.settlement.claimed c } c = .ok w'
  by_cases hweth : c.token = D.weth
  · obtain ⟨hbacked, calls, hreceive, htaken⟩ := heth hweth
    rw [hweth] at hfunded
    obtain ⟨burned, hburn⟩ := Ledger.burn_ok hfunded
    have hburned := Ledger.burn_balance hburn 0 D.weth
    have hether : c.amount ≤ burned.balanceOf 0 D.weth := by
      rw [if_neg fun h => hcovered.registered (hcovered.token.symm.trans (hweth.trans h.1.symm))] at hburned
      omega
    have hunwrap : ∃ books₁, burned.transfer D.tax 0 D.weth D.settlement c.amount = some books₁ :=
      Ledger.transfer_ok hether
    obtain ⟨books₁, hunwrap⟩ := hunwrap
    have hreceived : c.amount ≤ books₁.balanceOf 0 D.settlement := by
      have hbalance := Ledger.transfer_balance hunwrap 0 D.settlement
      simp only [hstandard 0 c.amount, Nat.sub_zero, true_and, if_true] at hbalance
      split at hbalance
      case isTrue hself =>
        rw [hself] at hbalance ⊢
        omega
      case isFalse => omega
    have hsend : ∃ books₂, books₁.transfer D.tax 0 D.settlement c.recipient c.amount = some books₂ :=
      Ledger.transfer_ok hreceived
    obtain ⟨books₂, hsend⟩ := hsend
    obtain ⟨w', hrun⟩ := htaken { w with books := books₂, settlement := w.settlement.claimed c }
    refine ⟨w', ?_⟩
    simp only [payClaim, if_pos hweth, Deployment.safeTransfer, bind_eq_ok, orRevert_eq_ok]
    exact ⟨burned, hburn, books₁, hunwrap, books₂, hsend, by rw [hreceive, lowLevelCall, mapError_eq_ok, hrun]⟩
  · have htransfer : ∃ books, w.books.transfer D.tax c.token D.settlement c.recipient c.amount = some books :=
      Ledger.transfer_ok hfunded
    obtain ⟨books, htransfer⟩ := htransfer
    refine ⟨{ w with books, settlement := w.settlement.claimed c }, ?_⟩
    simp only [payClaim, if_neg hweth, Deployment.safeTransfer, bind_eq_ok, orRevert_eq_ok, pure_eq_ok]
    exact ⟨books, htransfer, rfl⟩

end PrivateSettlement

/-- **What a registered group does for its leaves**, known through the assignment `s` it was registered from. -/
structure ClaimsComplete (C : Circomlib) (P : Poseidon) (D : Deployment) (w : World) (s : Circuit.AuthorizeSignals)
    (root : ℕ) (positions : List (ℕ × ℕ)) : Prop where
  opened : (w.settlement.claimsGroups root).Opened C P root s
  -- a claim proof of any depth is for a used leaf, under the nullifier of its position
  opens : ∀ depth claim, Circuit.Claim C P depth claim → claim.claimsRoot.val = root →
    ∃ i < s.claimCount.val, claim.leaf = s.claimLeaf i ∧
      P.Digest [tagClaimNull, s.claimSecrets i, (i : Scalar), s.claimsRoot] claim.nullifier
  oneNullifier : ∀ i < s.claimCount.val, ∀ j < s.claimCount.val, ∀ n m,
    P.Digest [tagClaimNull, s.claimSecrets i, (i : Scalar), s.claimsRoot] n →
    P.Digest [tagClaimNull, s.claimSecrets j, (j : Scalar), s.claimsRoot] m → (n = m ↔ i = j)
  claimable : ∀ i < s.claimCount.val, [tagClaimNull, s.claimSecrets i, (i : Scalar), s.claimsRoot] ∈ P.asked →
    ∃ depth, ((w.settlement.claimsGroups root).tier.toNat, depth) ∈ tiers ∧ Circuit.Claim C P depth (s.claimAt P i)
  notOverdrawn : (w.settlement.claimsGroups root).totalClaimed ≤ (w.settlement.claimsGroups root).totalLocked
  notStranded : ∀ i, (root, i) ∉ positions → ∀ env c, c.claimsRoot = root → c.Opens P s i →
    c.releaseTime ≤ env.timestamp → ∀ e, executeClaim D env w c = .error e → e ∉ stranding
  payable : ∀ i, (root, i) ∉ positions → ∀ env c, c.claimsRoot = root → c.Opens P s i →
    c.releaseTime ≤ env.timestamp → ClaimGates env w.settlement c → (c.token = D.weth → c.TakesEth D w) →
    ∃ w', executeClaim D env w c = .ok w' ∧ c.Payment D w w'

theorem ClaimsLedger.claimCovered {storage : PrivateSettlement} {opened : ℕ → Circuit.AuthorizeSignals}
    {done : List ClaimParams} {positions : List (ℕ × ℕ)} (hledger : ClaimsLedger C P storage opened done positions)
    (hregistered : (storage.claimsGroups c.claimsRoot).token ≠ 0) {i : ℕ} (hopens : c.Opens P (opened c.claimsRoot) i)
    (hunpaid : (c.claimsRoot, i) ∉ positions) : ClaimCovered storage c := by
  have hgroup := hledger.group _ hregistered
  obtain ⟨claimsTreeDepth, htier, hauthorize⟩ := hgroup.satisfied
  refine ⟨hregistered, ?_, ?_, ?_, ?_⟩
  · rw [← Bool.not_eq_true, hledger.spent_iff hregistered hopens]
    exact hunpaid
  · rw [hopens.amount]
    exact (hledger.covered hregistered).2 i hopens.used hunpaid
  · rw [← hgroup.totalLocked]
    exact (C.num2Bits_iff 128 (by decide) _).mp hauthorize.rcTotalLocked
  · apply BitVec.eq_of_toNat_eq
    rw [hopens.token, (hauthorize.used_claim (tier_spec htier).2 hopens.used).2, hgroup.token]

/-- **Claims groups are complete.** After any transactions in standard tokens whose authorize proofs and claims are backed, the accepted claims were paid for distinct positions, no group is overdrawn, every used leaf has one nullifier and can be proved, and a due leaf that was not paid is not refused on the group's account: its claim pays in full once it passes the gates. -/
theorem claims_complete (hstandard : D.Standard) (hdeployed : Deployed D w) {calls : List Call}
    (hothers : ∀ call ∈ calls, call.ByOthers D) (hbacked : ∀ call ∈ accepted D w calls, call.ClaimsBacked C P) :
    ∃ opened positions,
      ClaimsLedger C P (w.after D calls).settlement opened ((accepted D w calls).flatMap Call.claims) positions ∧
      ∀ root, ((w.after D calls).settlement.claimsGroups root).token ≠ 0 →
        ClaimsComplete C P D (w.after D calls) (opened root) root positions := by
  obtain ⟨opened, positions, hledger⟩ := Run.accounted hdeployed.accounted hbacked (run_accepted D w calls)
  rw [List.nil_append] at hledger
  have hsolvent := claims_solvency hstandard hdeployed hothers
  refine ⟨opened, positions, hledger, fun root hregistered => ?_⟩
  have hgroup := hledger.group root hregistered
  obtain ⟨claimsTreeDepth, htier, hauthorize⟩ := hgroup.satisfied
  obtain ⟨hmax, hsmall⟩ := tier_spec htier
  refine ⟨hgroup, fun depth claim hclaim hroot => ?_, fun i hi j hj n m hn hm => ⟨?_, ?_⟩, fun i hi hasked => ?_,
    hsolvent.claimed_le root, fun i hunpaid env c hroot hopens hreleased e hclaim => ?_,
    fun i hunpaid env c hroot hopens hreleased hgates heth => ?_⟩
  · apply hclaim.opens hmax hsmall hauthorize
    exact ZMod.val_injective _ (hroot.trans hgroup.root.symm)
  · rintro rfl
    have hwidth : (opened root).claimCount.val < 2 ^ 128 := lt_of_le_of_lt hgroup.count_le (by decide)
    exact (Circuit.claimNullifier_inj (hi.trans hwidth) (hj.trans hwidth) hn hm).2
  · rintro rfl
    exact hn.eq hm
  · exact ⟨claimsTreeDepth, htier, hauthorize.claimAt_claim hmax hsmall hi hasked⟩
  · subst hroot
    exact (hledger.claimCovered hregistered hopens hunpaid).not_stranded hreleased hclaim
  · subst hroot
    have hcovered := hledger.claimCovered hregistered hopens hunpaid
    have hfunded : c.amount ≤ (w.after D calls).books.balanceOf c.token D.settlement := by
      have howed := hsolvent.owed_le c.token (hcovered.token ▸ hregistered) {c.claimsRoot}
      have hroom := hcovered.covered
      rw [owed, Finset.sum_singleton, ClaimsGroup.owes, if_pos hcovered.token.symm] at howed
      omega
    obtain ⟨w', hclaim⟩ := hcovered.pays hreleased hgates hstandard hfunded heth
    exact ⟨w', hclaim, executeClaim_payment hclaim⟩

/-- The first claim of the maker: `200` of token `14` for account `65`, from time `50` on. -/
def makerClaim : ClaimParams :=
  ⟨.zero, makerOrder.claimsRoot.val, 0x2e1b091efadd8ad5ea0507794171f5ceb066227ddc9c50edcb70404fd24913e7, 200, 14, 65, 50,
    none⟩

theorem makerClaim_backed : makerClaim.Backed tradeCircomlib tradePoseidon :=
  ⟨16, 4, (makerOrder.assign tradePoseidon).claimAt tradePoseidon 0, by decide,
    (makerOrder_valid.authorize (by decide) (by decide)).claimAt_claim (by decide) (by decide) (by decide +kernel)
      (by decide +kernel), by decide +kernel⟩

/-- The trade, and the maker's first claim when it is due. -/
def tradeClaimed : List Call := tradeCalls ++ [.claimWithProof { Env.permissive 65 with timestamp := 50 } makerClaim]

theorem tradeClaimed_backed : ∀ call ∈ tradeClaimed, call.ClaimsBacked tradeCircomlib tradePoseidon := by
  intro call hcall
  simp only [tradeClaimed, tradeCalls, List.mem_append, List.mem_singleton] at hcall
  rcases hcall with ((hcall | hcall) | rfl) | rfl
  · simp only [tradeSetup, List.mem_cons, List.not_mem_nil, or_false] at hcall
    rcases hcall with rfl | rfl | rfl | rfl | rfl | rfl | rfl | rfl | rfl <;>
      exact ⟨fun ap hap => absurd hap List.not_mem_nil, fun c hc => absurd hc List.not_mem_nil⟩
  · simp only [takerDeposit, List.mem_cons, List.not_mem_nil, or_false] at hcall
    rcases hcall with rfl | rfl | rfl <;>
      exact ⟨fun ap hap => absurd hap List.not_mem_nil, fun c hc => absurd hc List.not_mem_nil⟩
  · refine ⟨fun ap hap => ?_, fun c hc => absurd hc List.not_mem_nil⟩
    rcases List.mem_cons.mp hap with rfl | hap
    · exact makerOrder_backed
    · rw [List.mem_singleton.mp hap]
      exact takerOrder_backed
  · refine ⟨fun ap hap => absurd hap List.not_mem_nil, fun c hc => ?_⟩
    rw [List.mem_singleton.mp hc]
    exact makerClaim_backed

/-- After the trade and a claim the maker's group has paid `200` of `310`. -/
theorem claims_complete_trade :
    ((tradeWorld.after tradeDeployment tradeClaimed).settlement.claimsGroups makerOrder.claimsRoot.val).totalClaimed = 200 ∧
    ∃ opened positions,
      ClaimsLedger tradeCircomlib tradePoseidon (tradeWorld.after tradeDeployment tradeClaimed).settlement opened
        ((accepted tradeDeployment tradeWorld tradeClaimed).flatMap Call.claims) positions ∧
      ∀ root, ((tradeWorld.after tradeDeployment tradeClaimed).settlement.claimsGroups root).token ≠ 0 →
        ClaimsComplete tradeCircomlib tradePoseidon tradeDeployment (tradeWorld.after tradeDeployment tradeClaimed)
          (opened root) root positions := by
  have hothers : ∀ call ∈ tradeClaimed, call.ByOthers tradeDeployment := by
    intro call hcall
    rcases List.mem_append.mp hcall with hcall | hcall
    · exact tradeCalls_honest.others call hcall
    · rw [List.mem_singleton.mp hcall]
      exact fun e he => absurd he List.not_mem_nil
  exact ⟨by decide +kernel, claims_complete (fun _ _ => rfl) tradeWorld_deployed hothers fun call hcall =>
    tradeClaimed_backed call ((accepted_sublist tradeDeployment tradeWorld tradeClaimed).subset hcall)⟩

/-! ### A leaf nobody can claim -/

theorem PrivateSettlement.executeClaim_recipient (hclaim : executeClaim D env w c = .ok w') : c.recipient ≠ 0 := by
  simp only [executeClaim, bind_eq_ok, require_eq_ok] at hclaim
  exact hclaim.choose_spec.1

theorem Call.run_recipients {call : Call} (hrun : call.run D w = .ok w') : ∀ c ∈ call.claims, c.recipient ≠ 0 := by
  intro c hc
  cases call with
  | claimWithProof env c' =>
    rw [List.mem_singleton.mp hc]
    exact executeClaim_recipient (claimWithProof_ok hrun)
  | claimWithProofBatch env claims =>
    obtain ⟨v, v', hclaim⟩ := (claimWithProofBatch_ok hrun).exists_of_mem hc
    exact executeClaim_recipient hclaim
  | _ => exact absurd hc List.not_mem_nil

/-- The second claim of the taker, of `90` units, names the zero address: whatever happens after the trade, it is never paid. -/
theorem zeroRecipient_never_paid :
    ((takerOrder.calldata 16).Backed tradeCircomlib tradePoseidon ∧
      ((tradeWorld.after tradeDeployment tradeCalls).settlement.claimsGroups takerOrder.claimsRoot.val).token ≠ 0 ∧
      1 < takerOrder.claimCount.val ∧ (takerOrder.claimAmounts 1).val = 90) ∧
    ∀ calls, ∀ c ∈ (accepted tradeDeployment (tradeWorld.after tradeDeployment tradeCalls) calls).flatMap Call.claims,
      ¬c.Opens tradePoseidon takerOrder 1 := by
  refine ⟨⟨takerOrder_backed, by decide +kernel⟩, fun calls c hc hopens => ?_⟩
  obtain ⟨call, hcall, hc⟩ := List.mem_flatMap.mp hc
  obtain ⟨v, v', hrun⟩ := (run_accepted tradeDeployment (tradeWorld.after tradeDeployment tradeCalls) calls).exists_of_mem hcall
  apply Call.run_recipients hrun c hc
  apply BitVec.eq_of_toNat_eq
  rw [hopens.recipient]
  rfl

end ScatterDex
