import ScatterDex.Protocol.Run

/-!
# Every nullifier is spent once

Two contracts keep a set of spent escrow nullifiers, and seven paths write them. `SpendsExactly` says what a piece of a run does to both sets: the nullifiers it lists are new, distinct, and all that enters the pool's set, and nothing else enters the settlement contract's. It composes, so a run spends exactly what its transactions list.
-/

namespace ScatterDex

open Fallible

/-- The pool's spent set grows by a list of new, distinct nullifiers, and the settlement's by some of them. -/
structure SpendsExactly (ns : List ℕ) (w w' : World) : Prop where
  nodup : ns.Nodup
  fresh : ∀ n ∈ ns, w.pool.nullifiers n = false
  pool_iff : ∀ m, w'.pool.nullifiers m = true ↔ m ∈ ns ∨ w.pool.nullifiers m = true
  settlement : ∀ m, w'.settlement.nullifiers m = true → m ∈ ns ∨ w.settlement.nullifiers m = true

namespace SpendsExactly

variable {ns ms : List ℕ} {w w₁ w' : World}

theorem of_eq (hpool : w'.pool.nullifiers = w.pool.nullifiers)
    (hsettlement : w'.settlement.nullifiers = w.settlement.nullifiers) : SpendsExactly [] w w' where
  nodup := List.nodup_nil
  fresh := fun n hn => absurd hn List.not_mem_nil
  pool_iff := fun m => by simp [hpool]
  settlement := fun m => by simp [hsettlement]

theorem append (hns : SpendsExactly ns w w₁) (hms : SpendsExactly ms w₁ w') : SpendsExactly (ns ++ ms) w w' where
  nodup := by
    apply List.nodup_append.mpr
    refine ⟨hns.nodup, hms.nodup, fun n hn m hm heq => ?_⟩
    have hspent : w₁.pool.nullifiers m = true := (hns.pool_iff m).mpr (Or.inl (heq ▸ hn))
    rw [hms.fresh m hm] at hspent
    exact absurd hspent Bool.false_ne_true
  fresh := by
    intro n hn
    rcases List.mem_append.mp hn with hn | hn
    · exact hns.fresh n hn
    · apply Bool.eq_false_iff.mpr
      intro htrue
      have hspent := (hns.pool_iff n).mpr (Or.inr htrue)
      rw [hms.fresh n hn] at hspent
      exact absurd hspent Bool.false_ne_true
  pool_iff := by
    intro m
    rw [hms.pool_iff, hns.pool_iff, List.mem_append]
    tauto
  settlement := by
    intro m hm
    rw [List.mem_append]
    rcases hms.settlement m hm with hm | hm
    · exact Or.inl (Or.inr hm)
    · rcases hns.settlement m hm with hm | hm
      · exact Or.inl (Or.inl hm)
      · exact Or.inr hm

theorem steps {α : Type} {step : α → World → World → Prop} {spends : α → List ℕ}
    (hstep : ∀ a w w', step a w w' → SpendsExactly (spends a) w w') {as : List α}
    (hsteps : Steps step as w w') : SpendsExactly (as.flatMap spends) w w' := by
  induction as generalizing w with
  | nil =>
    obtain rfl := hsteps
    exact of_eq rfl rfl
  | cons a as ih =>
    obtain ⟨w₁, ha, has⟩ := hsteps
    rw [List.flatMap_cons]
    exact (hstep a w w₁ ha).append (ih has)

end SpendsExactly

/-! ### What each transaction spends -/

def PoolCall.spends : PoolCall → List ℕ
  | .withdraw args => [args.nullifierHash]
  | .withdrawFor args => [args.nullifierHash]
  | .spendEscrowNullifier nullifier => [nullifier]
  | _ => []

def ExternalCall.spends : ExternalCall → List ℕ
  | .pool _ call => call.spends
  | _ => []

/-- A claim in WETH runs the recipient's code. -/
def PrivateSettlement.ClaimParams.spends (D : Deployment) (c : ClaimParams) : List ℕ :=
  if c.token = D.weth then (c.receive.getD []).flatMap ExternalCall.spends else []

/-- The escrow nullifiers a transaction consumes itself. -/
def Call.ownSpends : Call → List ℕ
  | .external call => call.spends
  | .settleAuth _ p => [p.maker.nullifier, p.taker.nullifier]
  | .cancelPrivate _ p => [p.oldNullifier]
  | .settleWithDex _ p _ => [p.proof.nullifier]
  | .scatterDirectAuth _ p => [p.proof.nullifier]
  | .claimWithProof _ _ => []
  | .claimWithProofBatch _ _ => []

/-- Those that calls it makes to unknown code consume. -/
def Call.nestedSpends (D : Deployment) : Call → List ℕ
  | .settleWithDex _ _ swap => (swap.getD []).flatMap ExternalCall.spends
  | .claimWithProof _ c => c.spends D
  | .claimWithProofBatch _ claims => claims.flatMap (·.spends D)
  | .external _ => []
  | .settleAuth _ _ => []
  | .cancelPrivate _ _ => []
  | .scatterDirectAuth _ _ => []

def Call.spends (D : Deployment) (call : Call) : List ℕ := call.ownSpends ++ call.nestedSpends D

variable {D : Deployment} {env : Env} {w w' : World}

theorem SpendsExactly.of_spent {ns : List ℕ} {pool : CommitmentPool} (hspent : Steps CommitmentPool.Spent ns w.pool pool)
    (hpool : w'.pool.nullifiers = pool.nullifiers)
    (hsettlement : ∀ m, w'.settlement.nullifiers m = true → m ∈ ns ∨ w.settlement.nullifiers m = true) :
    SpendsExactly ns w w' := by
  obtain ⟨hnodup, hfresh, hiff, -⟩ := CommitmentPool.spent_steps hspent
  exact ⟨hnodup, hfresh, fun m => by rw [hpool, hiff], hsettlement⟩

theorem CommitmentPool.processWithdraw_spends {pool' : CommitmentPool} {books' : Books} {a : WithdrawArgs}
    (hwithdraw : w.pool.processWithdraw D env w.books a = .ok (pool', books')) :
    SpendsExactly [a.nullifierHash] w { w with pool := pool', books := books' } := by
  obtain ⟨-, hunspent, -, hinserted, -⟩ := processWithdraw_ok hwithdraw
  have hspent : Steps Spent [a.nullifierHash] w.pool
      { w.pool with nullifiers := Function.update w.pool.nullifiers a.nullifierHash true } :=
    ⟨_, ⟨hunspent, rfl⟩, rfl⟩
  exact SpendsExactly.of_spent hspent hinserted.nullifiers fun m hm => Or.inr hm

theorem ExternalCall.run_spends {call : ExternalCall} (hrun : call.run D w = .ok w') :
    SpendsExactly call.spends w w' := by
  cases call with
  | books action =>
    simp only [run, bind_eq_ok, pure_eq_ok] at hrun
    obtain ⟨books, -, rfl⟩ := hrun
    exact SpendsExactly.of_eq rfl rfl
  | vault account vault =>
    cases hrun
    exact SpendsExactly.of_eq rfl rfl
  | administer env admin =>
    simp only [run, bind_eq_ok, pure_eq_ok] at hrun
    obtain ⟨settlement, hadmin, rfl⟩ := hrun
    exact SpendsExactly.of_eq rfl (PrivateSettlement.administer_ok hadmin).1
  | pool env call =>
    simp only [run, bind_eq_ok, pure_eq_ok] at hrun
    obtain ⟨⟨pool', books'⟩, hcall, rfl⟩ := hrun
    cases call with
    | deposit proof commitment token amount =>
      obtain ⟨-, -, -, -, tree, index, -, rfl⟩ := CommitmentPool.deposit_ok hcall
      exact SpendsExactly.of_eq rfl rfl
    | withdraw args => exact CommitmentPool.processWithdraw_spends (CommitmentPool.withdraw_ok hcall)
    | withdrawFor args => exact CommitmentPool.processWithdraw_spends (CommitmentPool.withdrawFor_ok hcall).2
    | insertCommitment commitment =>
      simp only [PoolCall.run, bind_eq_ok, pure_eq_ok, Prod.mk.injEq] at hcall
      obtain ⟨pool, hinsert, rfl, rfl⟩ := hcall
      obtain ⟨-, hinserted⟩ := CommitmentPool.insertCommitment_ok hinsert
      exact SpendsExactly.of_eq hinserted.nullifiers rfl
    | spendEscrowNullifier nullifier =>
      simp only [PoolCall.run, bind_eq_ok, pure_eq_ok, Prod.mk.injEq] at hcall
      obtain ⟨pool, hspend, rfl, rfl⟩ := hcall
      obtain ⟨-, hspent⟩ := CommitmentPool.spendEscrowNullifier_ok hspend
      exact SpendsExactly.of_spent ⟨pool, hspent, rfl⟩ rfl fun m hm => Or.inr hm
    | transferToSettlement token amount =>
      simp only [PoolCall.run, bind_eq_ok, pure_eq_ok, Prod.mk.injEq] at hcall
      obtain ⟨books, -, rfl, rfl⟩ := hcall
      exact SpendsExactly.of_eq rfl rfl
    | transferFee recipient token amount =>
      simp only [PoolCall.run, bind_eq_ok, pure_eq_ok, Prod.mk.injEq] at hcall
      obtain ⟨books, -, rfl, rfl⟩ := hcall
      exact SpendsExactly.of_eq rfl rfl
    | administer admin =>
      simp only [PoolCall.run, bind_eq_ok, pure_eq_ok, Prod.mk.injEq] at hcall
      obtain ⟨pool, hadmin, rfl, rfl⟩ := hcall
      exact SpendsExactly.of_eq (CommitmentPool.administer_ok hadmin).2.2 rfl

theorem ExternalCall.steps_spends {calls : List ExternalCall}
    (hcalls : Steps (fun call w w' => ExternalCall.run D w call = .ok w') calls w w') :
    SpendsExactly (calls.flatMap ExternalCall.spends) w w' :=
  SpendsExactly.steps (fun _ _ _ hrun => ExternalCall.run_spends hrun) hcalls

namespace PrivateSettlement

theorem nullifiers_markAll (self : PrivateSettlement) (pairs : List (ℕ × ℕ)) (m : ℕ) :
    (self.markAll pairs).nullifiers m = true ↔ m ∈ pairs.map Prod.fst ∨ self.nullifiers m = true := by
  induction pairs generalizing self with
  | nil => simp [markAll]
  | cons pair pairs ih =>
    rw [markAll, ih, List.map_cons, List.mem_cons, markNullifiers]
    by_cases hm : m = pair.1 <;> simp [hm]

theorem Settles.spends {spends : List (ℕ × ℕ)} {commitments : List ℕ} {payments : List Payment}
    {registrations : List Registration} (hsettles : Settles D spends commitments payments registrations w w') :
    SpendsExactly (spends.map Prod.fst) w w' := by
  obtain ⟨pool, hspent, hinserted⟩ := hsettles.pool
  apply SpendsExactly.of_spent hspent
  · exact CommitmentPool.nullifiers_of_inserted hinserted
  · obtain ⟨groups, -, hsettlement⟩ := hsettles.settlement
    intro m hm
    rw [hsettlement] at hm
    exact (nullifiers_markAll w.settlement spends m).mp hm

theorem settleWithDex_spends {p : SettleDexParams} {swap : Option (List ExternalCall)}
    (hsettle : settleWithDex D env w p swap = .ok w') :
    SpendsExactly (p.proof.nullifier :: (swap.getD []).flatMap ExternalCall.spends) w w' := by
  obtain ⟨-, -, calls, w₁, rfl, hsettles, fee, called, returned, hswapped⟩ := settleWithDex_ok hsettle
  obtain ⟨vaults, hcalls⟩ := hswapped.routerCalled
  have hcalled := ExternalCall.steps_spends hcalls
  have hrest : SpendsExactly [] called w' := by
    obtain ⟨groups, -, hsettlement⟩ := hswapped.settlement
    apply SpendsExactly.of_eq
    · rw [hswapped.pool]
    · rw [hsettlement]
  have hnested : SpendsExactly (calls.flatMap ExternalCall.spends) w₁ called :=
    ⟨hcalled.nodup, hcalled.fresh, hcalled.pool_iff, hcalled.settlement⟩
  have hall := (hsettles.spends.append hnested).append hrest
  rwa [List.append_nil] at hall

theorem executeClaim_spends {c : ClaimParams} (hclaim : executeClaim D env w c = .ok w') :
    SpendsExactly (c.spends D) w w' := by
  obtain ⟨-, hpay⟩ := executeClaim_ok hclaim
  rw [ClaimParams.spends]
  rcases payClaim_ok hpay with ⟨hweth, books, -, rfl⟩ | ⟨hweth, burned, books₁, books₂, calls, hreceive, -, -, -, hcalls⟩
  · rw [if_neg hweth]
    exact SpendsExactly.of_eq rfl rfl
  · rw [if_pos hweth, hreceive]
    have hcalled := ExternalCall.steps_spends hcalls
    exact ⟨hcalled.nodup, hcalled.fresh, hcalled.pool_iff, hcalled.settlement⟩

end PrivateSettlement

/-- **The step lemma**: an accepted transaction spends the nullifiers it lists. -/
theorem Call.run_spends {call : Call} (hrun : call.run D w = .ok w') : SpendsExactly (call.spends D) w w' := by
  cases call with
  | external call =>
    rw [spends, ownSpends, nestedSpends, List.append_nil]
    exact ExternalCall.run_spends hrun
  | settleAuth env p => exact (PrivateSettlement.settleAuth_ok hrun).2.2.1.spends
  | cancelPrivate env p => exact (PrivateSettlement.cancelPrivate_ok hrun).2.2.2.spends
  | settleWithDex env p swap => exact PrivateSettlement.settleWithDex_spends hrun
  | scatterDirectAuth env p => exact (PrivateSettlement.scatterDirectAuth_ok hrun).2.2.1.spends
  | claimWithProof env c => exact PrivateSettlement.executeClaim_spends (PrivateSettlement.claimWithProof_ok hrun)
  | claimWithProofBatch env claims =>
    have hsteps := PrivateSettlement.claimWithProofBatch_ok hrun
    exact SpendsExactly.steps (fun _ _ _ hclaim => PrivateSettlement.executeClaim_spends hclaim) hsteps

theorem Run.spends {calls : List Call} (hrun : Run D calls w w') :
    SpendsExactly (calls.flatMap (Call.spends D)) w w' :=
  SpendsExactly.steps (fun _ _ _ hcall => Call.run_spends hcall) hrun

/-- **Single spend.** After any transactions, a nullifier the settlement contract marked is spent in the pool too, and the accepted transactions consumed each nullifier at most once. -/
theorem single_spend (hdeployed : Deployed D w) (calls : List Call) :
    (∀ n, (w.after D calls).settlement.nullifiers n = true →
      (w.after D calls).pool.nullifiers n = true) ∧
    ((accepted D w calls).flatMap (Call.spends D)).Nodup := by
  have hspends := (run_accepted D w calls).spends
  refine ⟨fun n hn => ?_, hspends.nodup⟩
  rcases hspends.settlement n hn with hmem | hbefore
  · exact (hspends.pool_iff n).mpr (Or.inl hmem)
  · rw [hdeployed.settlement_spec.2.2.1 n] at hbefore
    exact absurd hbefore Bool.false_ne_true

/-- A pool of two leaves whose empty root is `5`. -/
def replayDeployment : Deployment := .small .zeroPair

/-- The owner connects the contracts, an order is cancelled, and its note is then cancelled and withdrawn again. -/
def replayCalls : List Call :=
  [.external (.pool (.permissive 7) (.administer (.setAuthorizedSettlement 2))),
    .external (.administer (.permissive 7) (.setCancelVerifier 11)),
    .cancelPrivate (.permissive 12) ⟨Groth16Proof.zero, 5, 21, 22, 23⟩,
    .cancelPrivate (.permissive 12) ⟨Groth16Proof.zero, 5, 21, 24, 25⟩,
    .external (.pool (.permissive 12) (.withdraw ⟨Groth16Proof.zero, 5, 21, 0, 13, 1, 12, 12⟩))]

/-- The replays of a spent note are the transactions that do not go through. -/
theorem single_spend_replay :
    let w := World.fresh replayDeployment 1 (Ledger.soleHolder 13 1 100)
    ((accepted replayDeployment w replayCalls).flatMap (Call.spends replayDeployment) = [21] ∧
      (w.after replayDeployment replayCalls).settlement.nullifiers 21 = true) ∧
    (∀ n, (w.after replayDeployment replayCalls).settlement.nullifiers n = true →
      (w.after replayDeployment replayCalls).pool.nullifiers n = true) ∧
    ((accepted replayDeployment w replayCalls).flatMap (Call.spends replayDeployment)).Nodup :=
  ⟨by decide +kernel, single_spend (World.deployed_fresh replayDeployment (by decide) (by decide) (by decide) (by decide)
    fun _ _ _ => rfl) replayCalls⟩

end ScatterDex
