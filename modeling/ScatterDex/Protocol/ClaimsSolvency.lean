import ScatterDex.Protocol.Run

/-!
# The settlement contract can pay its claims

All groups of a token share one balance. A registration is matched by an inflow in the same token, a claim takes from the balance what it takes from its group, and a router that is approved for an amount can take no more than that. The books of the contract are followed through the external call as guarded by that one allowance.
-/

namespace ScatterDex

open Fallible PrivateSettlement

/-! ### What the groups are owed -/

/-- What a group still owes in a token. -/
def ClaimsGroup.owes (group : ClaimsGroup) (token : Address) : ℕ :=
  if group.token = token then group.totalLocked - group.totalClaimed else 0

/-- What the groups of some roots still owe in a token. -/
def owed (groups : ℕ → ClaimsGroup) (roots : Finset ℕ) (token : Address) : ℕ :=
  ∑ root ∈ roots, (groups root).owes token

theorem owed_update (groups : ℕ → ClaimsGroup) (roots : Finset ℕ) (token : Address) (root : ℕ) (group : ClaimsGroup) :
    owed (Function.update groups root group) roots token + (if root ∈ roots then (groups root).owes token else 0) =
      owed groups roots token + if root ∈ roots then group.owes token else 0 := by
  have hswap : ∀ r, (Function.update groups root group r).owes token +
      (if r = root then (groups root).owes token else 0) =
      (groups r).owes token + if r = root then group.owes token else 0 := by
    intro r
    by_cases hr : r = root
    · subst hr
      simp only [Function.update_self, if_true]
      omega
    · simp [hr]
  have hsum := Finset.sum_congr (rfl : roots = roots) fun r _ => hswap r
  simpa only [owed, Finset.sum_add_distrib, Finset.sum_ite_eq'] using hsum

/-- What a list of registrations promises in a token. -/
def promised (registrations : List Registration) (token : Address) : ℕ :=
  (registrations.map fun r => if r.token = token then r.totalLocked else 0).sum

theorem owed_registered {registrations : List Registration} {groups groups' : ℕ → ClaimsGroup}
    (hregistered : Steps Registered registrations groups groups') (roots : Finset ℕ) (token : Address) :
    owed groups' roots token ≤ owed groups roots token + promised registrations token := by
  induction registrations generalizing groups with
  | nil =>
    obtain rfl := hregistered
    exact Nat.le_add_right _ _
  | cons r registrations ih =>
    obtain ⟨groups₁, ⟨-, rfl⟩, hrest⟩ := hregistered
    have hrest := ih hrest
    have hupdate := owed_update groups roots token r.root ⟨r.totalLocked, 0, r.token, r.tier⟩
    have hnew : (if r.root ∈ roots then ClaimsGroup.owes ⟨r.totalLocked, 0, r.token, r.tier⟩ token else 0) ≤
        if r.token = token then r.totalLocked else 0 := by
      rw [ClaimsGroup.owes]
      split <;> simp
    simp only [promised, List.map_cons, List.sum_cons] at hrest ⊢
    omega

theorem claimed_le_registered {registrations : List Registration} {groups groups' : ℕ → ClaimsGroup}
    (hregistered : Steps Registered registrations groups groups')
    (hclaimed : ∀ root, (groups root).totalClaimed ≤ (groups root).totalLocked) (root : ℕ) :
    (groups' root).totalClaimed ≤ (groups' root).totalLocked := by
  apply hregistered.invariant (I := fun groups => ∀ root, (groups root).totalClaimed ≤ (groups root).totalLocked) _
    hclaimed root
  rintro r - groups - hclaimed ⟨-, rfl⟩ root
  by_cases hroot : root = r.root
  · simp [hroot]
  · rw [Function.update_of_ne hroot]
    exact hclaimed root

/-! ### The invariant -/

/-- No group is overdrawn, and the balance of every token covers what all groups of any finite set owe in it. -/
structure ClaimsSolvent (D : Deployment) (w : World) : Prop where
  claimed_le : ∀ root, (w.settlement.claimsGroups root).totalClaimed ≤ (w.settlement.claimsGroups root).totalLocked
  owed_le : ∀ token ≠ 0, ∀ roots,
    owed w.settlement.claimsGroups roots token ≤ w.books.balanceOf token D.settlement

/-- What holds between transactions: solvency, no allowance, and a platform fee below its maximum. -/
structure ClaimsInvariant (D : Deployment) (w : World) : Prop extends ClaimsSolvent D w where
  allowance : ∀ token spender, w.books.allowance token D.settlement spender = 0
  fee : w.settlement.dexPlatformFeeBps ≤ maxDexPlatformFeeBps

variable {D : Deployment} {env : Env} {w w' : World}

theorem ClaimsSolvent.mono (hw : ClaimsSolvent D w) (hgroups : w'.settlement.claimsGroups = w.settlement.claimsGroups)
    (hbalance : ∀ t ≠ 0, w.books.balanceOf t D.settlement ≤ w'.books.balanceOf t D.settlement) : ClaimsSolvent D w' where
  claimed_le := hgroups ▸ hw.claimed_le
  owed_le := by
    intro token htoken roots
    rw [hgroups]
    exact (hw.owed_le token htoken roots).trans (hbalance token htoken)

/-! ### Calls by others -/

theorem ExternalCall.run_guarded {call : ExternalCall} {earlier : Books} {token spender : Address} {limit : ℕ}
    (hlimit : limit < Ledger.unlimited) (hothers : call.ByOthers D)
    (hguarded : Ledger.Guarded earlier w.books D.settlement token spender limit) (hrun : call.run D w = .ok w') :
    Ledger.Guarded earlier w'.books D.settlement token spender limit ∧
      w'.settlement.claimsGroups = w.settlement.claimsGroups := by
  have hpool : D.settlement ≠ D.pool := D.pool_ne_settlement.symm
  cases call with
  | books action =>
    simp only [run, bind_eq_ok, orRevert_eq_ok, pure_eq_ok] at hrun
    obtain ⟨books, hperform, rfl⟩ := hrun
    exact ⟨hguarded.perform hlimit hothers.2 hperform, rfl⟩
  | vault account vault =>
    cases hrun
    exact ⟨hguarded, rfl⟩
  | administer env admin =>
    simp only [run, bind_eq_ok, pure_eq_ok] at hrun
    obtain ⟨settlement, hadmin, rfl⟩ := hrun
    exact ⟨hguarded, (administer_ok hadmin).2.2.1⟩
  | pool env call =>
    simp only [run, bind_eq_ok, pure_eq_ok] at hrun
    obtain ⟨⟨pool', books'⟩, hcall, rfl⟩ := hrun
    have htransfer : ∀ {t target amount}, w.books.transfer D.tax t D.pool target amount = some books' →
        Ledger.Guarded earlier books' D.settlement token spender limit := fun hpaid =>
      hguarded.mono (Ledger.transfer_balance_ge hpaid hpool) fun t s => by rw [Ledger.transfer_allowance hpaid]
    refine ⟨?_, rfl⟩
    cases call with
    | deposit proof commitment t amount =>
      obtain ⟨-, -, hpaid, -⟩ := CommitmentPool.deposit_ok hcall
      have hsender : D.settlement ≠ env.sender := by
        rcases hothers.2.2 with hne | ⟨args, hargs⟩
        · exact hne.symm
        · cases hargs
      apply hguarded.mono
      · intro t'
        have hbalance := Ledger.transferFrom_balance hpaid t' D.settlement
        rw [if_neg fun h => hsender h.2] at hbalance
        dsimp only
        omega
      · exact Ledger.transferFrom_allowance_of_ne hpaid hsender
    | withdraw args => exact htransfer (CommitmentPool.processWithdraw_ok (CommitmentPool.withdraw_ok hcall)).2.2.2.2
    | withdrawFor args =>
      exact htransfer (CommitmentPool.processWithdraw_ok (CommitmentPool.withdrawFor_ok hcall).2).2.2.2.2
    | transferToSettlement t amount =>
      simp only [PoolCall.run, bind_eq_ok, pure_eq_ok, Prod.mk.injEq] at hcall
      obtain ⟨books, hpaid, -, rfl⟩ := hcall
      exact htransfer (CommitmentPool.transferToSettlement_ok hpaid).2
    | transferFee recipient t amount =>
      simp only [PoolCall.run, bind_eq_ok, pure_eq_ok, Prod.mk.injEq] at hcall
      obtain ⟨books, hpaid, -, rfl⟩ := hcall
      exact htransfer (CommitmentPool.transferFee_ok hpaid).2
    | insertCommitment commitment =>
      simp only [PoolCall.run, bind_eq_ok, pure_eq_ok, Prod.mk.injEq] at hcall
      obtain ⟨pool, -, -, rfl⟩ := hcall
      exact hguarded
    | spendEscrowNullifier nullifier =>
      simp only [PoolCall.run, bind_eq_ok, pure_eq_ok, Prod.mk.injEq] at hcall
      obtain ⟨pool, -, -, rfl⟩ := hcall
      exact hguarded
    | administer admin =>
      simp only [PoolCall.run, bind_eq_ok, pure_eq_ok, Prod.mk.injEq] at hcall
      obtain ⟨pool, -, -, rfl⟩ := hcall
      exact hguarded

theorem externals_guarded {calls : List ExternalCall} {earlier : Books} {token spender : Address} {limit : ℕ}
    (hlimit : limit < Ledger.unlimited) (hothers : ∀ call ∈ calls, call.ByOthers D)
    (hguarded : Ledger.Guarded earlier w.books D.settlement token spender limit)
    (hrun : Steps (fun call w w' => ExternalCall.run D w call = .ok w') calls w w') :
    Ledger.Guarded earlier w'.books D.settlement token spender limit ∧
      w'.settlement.claimsGroups = w.settlement.claimsGroups := by
  apply hrun.invariant (I := fun v => Ledger.Guarded earlier v.books D.settlement token spender limit ∧
    v.settlement.claimsGroups = w.settlement.claimsGroups) _ ⟨hguarded, rfl⟩
  intro call hmem v v' hv hcall
  obtain ⟨hguarded', hgroups⟩ := ExternalCall.run_guarded hlimit (hothers call hmem) hv.1 hcall
  exact ⟨hguarded', hgroups.trans hv.2⟩

theorem ClaimsInvariant.externals {calls : List ExternalCall} (hothers : ∀ call ∈ calls, call.ByOthers D)
    (hw : ClaimsInvariant D w)
    (hrun : Steps (fun call w w' => ExternalCall.run D w call = .ok w') calls w w') : ClaimsInvariant D w' := by
  have hrefl := Ledger.Guarded.refl (L := w.books) (a := D.settlement) hw.allowance 0 0
  obtain ⟨hguarded, hgroups⟩ := externals_guarded (by decide) hothers hrefl hrun
  obtain ⟨hbalance, hallowance⟩ := hguarded.unexposed
  refine ⟨hw.toClaimsSolvent.mono hgroups fun t _ => hbalance t, hallowance, ?_⟩
  exact hrun.invariant (I := fun w => w.settlement.dexPlatformFeeBps ≤ maxDexPlatformFeeBps)
    (fun _ _ _ _ hw hcall => fee_configuration.external hw hcall) hw.fee

/-! ### The paths -/

namespace PrivateSettlement

/-- A path whose payments bring what its registrations promise. -/
theorem Settles.claimsInvariant (hstandard : D.Standard) {spends : List (ℕ × ℕ)} {commitments : List ℕ}
    {payments : List Payment} {registrations : List Registration}
    (hcovered : ∀ token, promised registrations token ≤ Paid.inflow payments D.settlement token)
    (hw : ClaimsInvariant D w) (hsettles : Settles D spends commitments payments registrations w w') :
    ClaimsInvariant D w' := by
  obtain ⟨groups, hregistered, hsettlement⟩ := hsettles.settlement
  have hgroups : w'.settlement.claimsGroups = groups := by rw [hsettlement]
  refine ⟨⟨?_, fun token htoken roots => ?_⟩, fun t s => ?_, fee_configuration.settles hw.fee hsettles⟩
  · rw [hgroups]
    exact claimed_le_registered hregistered hw.claimed_le
  · have howed := owed_registered hregistered roots token
    have hbefore := hw.owed_le token htoken roots
    have hreceived := Paid.receives hstandard hsettles.books D.pool_ne_settlement.symm token
    have hcovered := hcovered token
    rw [hgroups]
    omega
  · rw [Paid.steps_allowance hsettles.books]
    exact hw.allowance t s

theorem platformFee_le (hfee : w.settlement.dexPlatformFeeBps ≤ maxDexPlatformFeeBps) (sellAmount : ℕ) :
    dexPlatformFee w sellAmount ≤ sellAmount := by
  rw [dexPlatformFee, SettleVerifyLib.feeBpsDenominator]
  rw [maxDexPlatformFeeBps] at hfee
  apply Nat.div_le_of_le_mul
  rw [Nat.mul_comm 10000]
  exact Nat.mul_le_mul_left sellAmount (by omega)

/-- **The swap.** Whatever the router does with its allowance, the sold token is back where it was and the bought token covers the new group. -/
theorem Swapped.claimsInvariant {p : SettleDexParams} {calls : List ExternalCall} {sellBalBefore : ℕ}
    {fee returned : Books} {called : World} (hothers : ∀ call ∈ calls, call.ByOthers D)
    (htokens : p.proof.sellToken ≠ p.proof.buyToken) (hw : ClaimsInvariant D w)
    (hsold : w.books.balanceOf p.proof.sellToken D.settlement = sellBalBefore + p.proof.sellAmount.toNat)
    (howed : ∀ roots, p.proof.sellToken ≠ 0 →
      owed w.settlement.claimsGroups roots p.proof.sellToken ≤ sellBalBefore)
    (hswapped : Swapped D p calls sellBalBefore w fee called returned w') : ClaimsInvariant D w' := by
  obtain ⟨vault, feeAmount, hfeeAmount, hfeePaid⟩ := hswapped.feePaid
  obtain ⟨vaults, hcalls⟩ := hswapped.routerCalled
  obtain ⟨vault', surplus, hsurplus, hsurplusPaid⟩ := hswapped.surplusPaid
  obtain ⟨groups, hregistered, hsettlement⟩ := hswapped.settlement
  have hplatform := platformFee_le hw.fee p.proof.sellAmount.toNat
  have hallowance : ∀ t s, fee.allowance t D.settlement s = 0 := by
    intro t s
    rw [hfeePaid.allowance]
    exact hw.allowance t s
  have hlimit : p.proof.sellAmount.toNat - dexPlatformFee w p.proof.sellAmount.toNat < Ledger.unlimited := by
    have hwidth := p.proof.sellAmount.isLt
    have hbig : 2 ^ 128 < Ledger.unlimited := by decide
    omega
  have happroved := Ledger.Guarded.approve hallowance p.proof.sellToken p.dexRouter
    (p.proof.sellAmount.toNat - dexPlatformFee w p.proof.sellAmount.toNat)
  obtain ⟨hguarded, hgroups⟩ := externals_guarded hlimit hothers happroved hcalls
  have hnone : ∀ t s, (called.books.approve p.proof.sellToken D.settlement p.dexRouter 0).allowance t D.settlement s = 0 := by
    intro t s
    by_cases hts : t = p.proof.sellToken ∧ s = p.dexRouter
    · simp [Ledger.approve, hts]
    · simp only [Ledger.approve, true_and, if_neg hts]
      exact hguarded.others t s hts
  -- the contract's balance at each stage: the fee, the call, the return, the surplus
  have hstage₁ := fun t => Paid.payer_le (Steps.single hfeePaid) t
  have hstage₂ := hguarded.kept
  have hstage₃ := fun t => Paid.payer_le (Steps.single hswapped.unspentReturned) t
  have hstage₄ := fun t => Paid.payer_le (Steps.single hsurplusPaid) t
  have hgroups' : w'.settlement.claimsGroups = groups := by rw [hsettlement]
  have hbefore : called.settlement.claimsGroups = w.settlement.claimsGroups := hgroups
  rw [hbefore] at hregistered
  simp only [outflow_cons, outflow_nil, Nat.add_zero, Ledger.approve] at hstage₁ hstage₃ hstage₄
  refine ⟨⟨?_, fun token htoken roots => ?_⟩, fun t s => ?_, ?_⟩
  · rw [hgroups']
    exact claimed_le_registered (Steps.single hregistered) hw.claimed_le
  · have hpromised := owed_registered (Steps.single hregistered) roots token
    simp only [promised, List.map_cons, List.map_nil, List.sum_cons, List.sum_nil, AuthorizeProof.registration]
      at hpromised
    rw [hgroups']
    have hstage₁ := hstage₁ token
    have hstage₂ := hstage₂ token
    have hstage₃ := hstage₃ token
    have hstage₄ := hstage₄ token
    have hreceived := hswapped.received
    by_cases hsell : token = p.proof.sellToken
    · have howed := howed roots (hsell ▸ htoken)
      subst hsell
      simp only [if_true, if_neg htokens.symm] at hpromised hstage₁ hstage₂ hstage₃ hstage₄
      omega
    · have howed := hw.owed_le token htoken roots
      by_cases hbuy : token = p.proof.buyToken
      · subst hbuy
        simp only [if_true, if_neg htokens, if_neg hsell] at hpromised hstage₁ hstage₂ hstage₃ hstage₄
        omega
      · simp only [if_neg hsell, if_neg (Ne.symm hsell), if_neg (Ne.symm hbuy)]
          at hpromised hstage₁ hstage₂ hstage₃ hstage₄
        omega
  · rw [hsurplusPaid.allowance, hswapped.unspentReturned.allowance]
    exact hnone t s
  · have hcalled := hcalls.invariant (I := fun w => w.settlement.dexPlatformFeeBps ≤ maxDexPlatformFeeBps)
      (fun _ _ _ _ hw hcall => fee_configuration.external hw hcall) hw.fee
    rw [hsettlement]
    exact hcalled

theorem settleWithDex_claimsInvariant (hstandard : D.Standard) {p : SettleDexParams} {swap : Option (List ExternalCall)}
    (hothers : ∀ call ∈ swap.getD [], call.ByOthers D) (hw : ClaimsInvariant D w)
    (hsettle : settleWithDex D env w p swap = .ok w') : ClaimsInvariant D w' := by
  obtain ⟨htokens, -, calls, w₁, rfl, hsettles, fee, called, returned, hswapped⟩ := settleWithDex_ok hsettle
  have hw₁ := hsettles.claimsInvariant hstandard (fun _ => Nat.zero_le _) hw
  have hreceived := Paid.receives hstandard hsettles.books D.pool_ne_settlement.symm p.proof.sellToken
  simp only [Paid.inflow, List.map_cons, List.map_nil, List.sum_cons, List.sum_nil, and_self, if_true,
    Nat.add_zero] at hreceived
  obtain ⟨groups, hregistered, hsettlement⟩ := hsettles.settlement
  have hgroups : w₁.settlement.claimsGroups = w.settlement.claimsGroups := by
    rw [hsettlement]
    exact hregistered
  apply hswapped.claimsInvariant hothers htokens hw₁ hreceived
  intro roots htoken
  rw [hgroups]
  exact hw.owed_le p.proof.sellToken htoken roots

theorem claimed_claimsSolvent {c : ClaimParams} {books : Books} (hw : ClaimsSolvent D w)
    (haccepted : ClaimAccepted env w.settlement c)
    (hbalance : ∀ t ≠ 0, w.books.balanceOf t D.settlement ≤
      books.balanceOf t D.settlement + if t = c.token then c.amount else 0) :
    ClaimsSolvent D { w with books, settlement := w.settlement.claimed c } := by
  have hcovered := haccepted.covered
  refine ⟨fun root => ?_, fun token htoken roots => ?_⟩
  · by_cases hroot : root = c.claimsRoot
    · simp only [claimed, hroot, Function.update_self]
      exact hcovered
    · simp only [claimed, Function.update_of_ne hroot]
      exact hw.claimed_le root
  · -- only the sum over the roots with the claim's own matters
    let all := insert c.claimsRoot roots
    have hmem : c.claimsRoot ∈ all := Finset.mem_insert_self _ _
    have hle : owed (w.settlement.claimed c).claimsGroups roots token ≤
        owed (w.settlement.claimed c).claimsGroups all token :=
      Finset.sum_le_sum_of_subset (Finset.subset_insert _ _)
    have hupdate := owed_update w.settlement.claimsGroups all token c.claimsRoot
      { w.settlement.claimsGroups c.claimsRoot with
        totalClaimed := (w.settlement.claimsGroups c.claimsRoot).totalClaimed + c.amount }
    have hbefore := hw.owed_le token htoken all
    have hbalance := hbalance token htoken
    rw [if_pos hmem, if_pos hmem] at hupdate
    dsimp only [claimed] at hle ⊢
    by_cases ht : token = c.token
    · have hgroup : (w.settlement.claimsGroups c.claimsRoot).token = token := haccepted.token.symm.trans ht.symm
      simp only [ClaimsGroup.owes, if_pos ht, if_pos hgroup] at hupdate hbalance
      omega
    · have hgroup : (w.settlement.claimsGroups c.claimsRoot).token ≠ token :=
        fun h => ht (h.symm.trans haccepted.token.symm)
      simp only [ClaimsGroup.owes, if_neg ht, if_neg hgroup] at hupdate hbalance
      omega

theorem executeClaim_claimsInvariant {c : ClaimParams} (hothers : ∀ call ∈ c.receive.getD [], call.ByOthers D)
    (hw : ClaimsInvariant D w) (hclaim : executeClaim D env w c = .ok w') : ClaimsInvariant D w' := by
  obtain ⟨haccepted, hpay⟩ := executeClaim_ok hclaim
  rcases payClaim_ok hpay with ⟨-, books, htransfer, rfl⟩ |
    ⟨-, burned, books₁, books₂, calls, hreceive, hburn, hunwrap, hsend, hcalls⟩
  · have hbalance := fun t => Ledger.transfer_balance htransfer t D.settlement
    simp only [and_true] at hbalance
    refine ⟨claimed_claimsSolvent hw.toClaimsSolvent haccepted fun t _ => ?_, fun t s => ?_, hw.fee⟩
    · have ht := hbalance t
      omega
    · rw [Ledger.transfer_allowance htransfer]
      exact hw.allowance t s
  · have hburned := fun t => Ledger.burn_balance hburn t D.settlement
    simp only [and_true] at hburned
    have hpaid : ClaimsInvariant D { w with books := books₂, settlement := w.settlement.claimed c } := by
      refine ⟨claimed_claimsSolvent hw.toClaimsSolvent haccepted fun t ht => ?_, fun t s => ?_, hw.fee⟩
      · -- the ETH that passes through is not a token
        have hunwrapped := Ledger.transfer_balance hunwrap t D.settlement
        have hsent := Ledger.transfer_balance hsend t D.settlement
        simp only [ht, false_and, if_false, Nat.add_zero] at hunwrapped hsent
        rw [hsent, hunwrapped]
        exact (hburned t).ge
      · rw [Ledger.transfer_allowance hsend, Ledger.transfer_allowance hunwrap, Ledger.burn_allowance hburn]
        exact hw.allowance t s
    rw [hreceive] at hothers
    exact hpaid.externals hothers hcalls

end PrivateSettlement

/-- **The step lemma.** -/
theorem Call.run_claimsInvariant (hstandard : D.Standard) {call : Call} (hothers : call.ByOthers D)
    (hw : ClaimsInvariant D w) (hrun : call.run D w = .ok w') : ClaimsInvariant D w' := by
  cases call with
  | external call => exact ClaimsInvariant.externals hothers hw (Steps.single hrun)
  | settleAuth env p =>
    obtain ⟨-, -, hsettles, -⟩ := settleAuth_ok hrun
    apply hsettles.claimsInvariant hstandard _ hw
    intro token
    simp only [promised, AuthorizeProof.registration, SettleAuthParams.payments, Paid.inflow, List.map_cons,
      List.map_nil, List.sum_cons, List.sum_nil, and_true]
    omega
  | cancelPrivate env p =>
    exact (cancelPrivate_ok hrun).2.2.2.claimsInvariant hstandard (fun _ => Nat.zero_le _) hw
  | settleWithDex env p swap => exact settleWithDex_claimsInvariant hstandard hothers hw hrun
  | scatterDirectAuth env p =>
    obtain ⟨-, -, hsettles, -⟩ := scatterDirectAuth_ok hrun
    apply hsettles.claimsInvariant hstandard _ hw
    intro token
    simp only [promised, AuthorizeProof.registration, Paid.inflow, List.map_cons, List.map_nil, List.sum_cons,
      List.sum_nil, and_true]
    omega
  | claimWithProof env c => exact executeClaim_claimsInvariant hothers hw (claimWithProof_ok hrun)
  | claimWithProofBatch env claims =>
    apply (claimWithProofBatch_ok hrun).invariant (I := ClaimsInvariant D) _ hw
    intro c hc v v' hv hclaim
    apply executeClaim_claimsInvariant _ hv hclaim
    exact fun e he => hothers e (List.mem_flatMap.mpr ⟨c, hc, he⟩)

theorem Deployed.claimsInvariant (hdeployed : Deployed D w) : ClaimsInvariant D w := by
  obtain ⟨hgroups, hfee, -⟩ := hdeployed.settlement_spec
  refine ⟨⟨fun root => ?_, fun token htoken roots => ?_⟩, hdeployed.settlementAllowance, ?_⟩
  · rw [hgroups]
    exact le_rfl
  · have hnone : owed w.settlement.claimsGroups roots token = 0 :=
      Finset.sum_eq_zero fun root _ => by simp [hgroups, ClaimsGroup.owes, ClaimsGroup.empty]
    rw [hnone]
    exact Nat.zero_le _
  · rw [hfee]
    exact Nat.zero_le _

/-- **Claims solvency.** After any transactions in standard tokens, no group is overdrawn and the contract's balance of each token covers what all registered groups of the token still owe. -/
theorem claims_solvency (hstandard : D.Standard) (hdeployed : Deployed D w) {calls : List Call}
    (hothers : ∀ call ∈ calls, call.ByOthers D) : ClaimsSolvent D (w.after D calls) := by
  have hrun := run_accepted D w calls
  have hkept : ClaimsInvariant D (w.after D calls) := by
    apply hrun.invariant (I := ClaimsInvariant D) _ hdeployed.claimsInvariant
    intro call hcall v v' hv hstep
    exact Call.run_claimsInvariant hstandard (hothers call ((accepted_sublist D w calls).subset hcall)) hv hstep
  exact hkept.toClaimsSolvent

/-- A pool of two leaves whose empty root is `5`. -/
def swapDeployment : Deployment := .small .zeroPair

/-- A market order: sell `60` of token `13` for at least `50` of token `14`. -/
def swapOrder : AuthorizeProof where
  proof := .zero
  pubKeyBind := 0
  commitmentRoot := 5
  nullifier := 21
  nonceNullifier := 22
  newCommitment := 0
  sellToken := 13
  buyToken := 14
  sellAmount := 60
  buyAmount := 50
  maxFee := 0
  expiry := 100
  claimsRoot := 31
  totalLocked := 50
  relayer := 12
  orderHash := 0
  tier := 16

/-- Setting up, a swap through a router that takes `40` of the `60` and delivers `55`, and a claim of `30`. -/
def swapCalls : List Call :=
  [.external (.pool (.permissive 7) (.administer (.setAuthorizedSettlement 2))),
    .external (.administer (.permissive 7) (.setTokenWhitelist 13 true)),
    .external (.administer (.permissive 7) (.setTokenWhitelist 14 true)),
    .external (.administer (.permissive 7) (.setAuthorizeVerifier 16 11)),
    .external (.administer (.permissive 7) (.setDexRouterWhitelist 15 true)),
    .settleWithDex (.permissive 12) ⟨swapOrder, 15, 10⟩ (some
      [.books (.transferFrom 13 15 2 15 40), .books (.mint 14 15 60), .books (.transfer 14 15 2 55)]),
    .claimWithProof (.permissive 16) ⟨.zero, 31, 41, 30, 14, 16, 0, none⟩]

/-- The group owes `20` and the contract holds `25`. -/
theorem claims_solvency_swap :
    let w := World.fresh swapDeployment 1 (Ledger.soleHolder 13 1 100)
    (((w.after swapDeployment swapCalls).settlement.claimsGroups 31).owes 14 = 20 ∧
      (w.after swapDeployment swapCalls).books.balanceOf 14 2 = 25) ∧
    ClaimsSolvent swapDeployment (w.after swapDeployment swapCalls) :=
  ⟨by decide +kernel, claims_solvency (fun _ _ => rfl)
    (World.deployed_fresh swapDeployment (by decide) (by decide) (by decide) (by decide) fun _ _ _ => rfl)
    (by simp [swapCalls, Call.ByOthers, Call.externals, ExternalCall.ByOthers, Ledger.Action.actor, swapDeployment,
      Deployment.small, Env.permissive])⟩

end ScatterDex
