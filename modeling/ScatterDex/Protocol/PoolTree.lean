import ScatterDex.Protocol.Run

/-!
# How the pool grows

A run changes the pool in three ways only: a leaf is inserted, a nullifier is spent, the owner administers it. `Frame` collects what a relation between two pools needs to survive all three, and then it relates the two ends of every run, whoever calls whatever. Two instances follow: the leaves stay and the storage keeps standing for them, and the log holds field elements.
-/

namespace ScatterDex

open Bn254 Fallible

/-! ### The commitments a transaction carries -/

def PoolCall.commitments : PoolCall → List ℕ
  | .deposit _ commitment _ _ => [commitment]
  | .withdraw args | .withdrawFor args => [args.newCommitment]
  | .insertCommitment commitment => [commitment]
  | _ => []

def ExternalCall.commitments : ExternalCall → List ℕ
  | .pool _ call => call.commitments
  | _ => []

def Call.ownCommitments : Call → List ℕ
  | .settleAuth _ p => [p.maker.newCommitment, p.taker.newCommitment]
  | .cancelPrivate _ p => [p.newCommitment]
  | .settleWithDex _ p _ => [p.proof.newCommitment]
  | .scatterDirectAuth _ p => [p.proof.newCommitment]
  | _ => []

/-- Its own, and those of the calls by unknown code it sets off. -/
def Call.commitments (call : Call) : List ℕ := call.ownCommitments ++ call.externals.flatMap ExternalCall.commitments

namespace CommitmentPool

/-- A relation that every change of the pool respects, as long as the inserted commitments are admissible. -/
structure Frame (D : Deployment) (A : ℕ → Prop) (R : CommitmentPool → CommitmentPool → Prop) : Prop where
  refl : ∀ pool, R pool pool
  trans : ∀ pool₁ pool₂ pool₃, R pool₁ pool₂ → R pool₂ pool₃ → R pool₁ pool₃
  inserted : ∀ commitment pool pool', A commitment → Inserted D commitment pool pool' → R pool pool'
  spent : ∀ nullifier pool pool', Spent nullifier pool pool' → R pool pool'
  administered : ∀ env admin pool pool', pool.administer env admin = .ok pool' → R pool pool'

namespace Frame

variable {D : Deployment} {A : ℕ → Prop} {R : CommitmentPool → CommitmentPool → Prop} {env : Env} {w w' : World}

theorem steps (hR : Frame D A R) {σ α : Type*} (pool : σ → CommitmentPool) {step : α → σ → σ → Prop} {as : List α}
    {s s' : σ} (hstep : ∀ a ∈ as, ∀ s s', step a s s' → R (pool s) (pool s')) (hsteps : Steps step as s s') :
    R (pool s) (pool s') :=
  hsteps.invariant (I := fun t => R (pool s) (pool t))
    (fun a ha t t' ht hrun => hR.trans _ _ _ ht (hstep a ha t t' hrun)) (hR.refl _)

theorem processWithdraw (hR : Frame D A R) {pool pool' : CommitmentPool} {books books' : Books} {a : WithdrawArgs}
    (hA : A a.newCommitment) (hwithdraw : pool.processWithdraw D env books a = .ok (pool', books')) : R pool pool' := by
  obtain ⟨-, hunspent, -, hinserted, -⟩ := processWithdraw_ok hwithdraw
  exact hR.trans _ _ _ (hR.spent a.nullifierHash _ _ ⟨hunspent, rfl⟩) (hR.inserted _ _ _ hA hinserted)

theorem poolCall (hR : Frame D A R) {call : PoolCall} {pool pool' : CommitmentPool} {books books' : Books}
    (hA : ∀ c ∈ call.commitments, A c) (hcall : call.run D env pool books = .ok (pool', books')) : R pool pool' := by
  cases call with
  | deposit proof commitment token amount =>
    obtain ⟨hne, -, -, -, hinsert⟩ := deposit_ok hcall
    exact hR.inserted commitment _ _ (hA _ List.mem_cons_self) (Or.inr ⟨hne, hinsert⟩)
  | withdraw args => exact hR.processWithdraw (hA _ List.mem_cons_self) (withdraw_ok hcall)
  | withdrawFor args => exact hR.processWithdraw (hA _ List.mem_cons_self) (withdrawFor_ok hcall).2
  | insertCommitment commitment =>
    simp only [PoolCall.run, bind_eq_ok, pure_eq_ok, Prod.mk.injEq] at hcall
    obtain ⟨pool, hinsert, rfl, -⟩ := hcall
    exact hR.inserted _ _ _ (hA _ List.mem_cons_self) (insertCommitment_ok hinsert).2
  | spendEscrowNullifier nullifier =>
    simp only [PoolCall.run, bind_eq_ok, pure_eq_ok, Prod.mk.injEq] at hcall
    obtain ⟨pool, hspend, rfl, -⟩ := hcall
    exact hR.spent _ _ _ (spendEscrowNullifier_ok hspend).2
  | transferToSettlement token amount =>
    simp only [PoolCall.run, bind_eq_ok, pure_eq_ok, Prod.mk.injEq] at hcall
    obtain ⟨-, -, rfl, -⟩ := hcall
    exact hR.refl _
  | transferFee recipient token amount =>
    simp only [PoolCall.run, bind_eq_ok, pure_eq_ok, Prod.mk.injEq] at hcall
    obtain ⟨-, -, rfl, -⟩ := hcall
    exact hR.refl _
  | administer admin =>
    simp only [PoolCall.run, bind_eq_ok, pure_eq_ok, Prod.mk.injEq] at hcall
    obtain ⟨pool, hadmin, rfl, -⟩ := hcall
    exact hR.administered _ _ _ _ hadmin

theorem external (hR : Frame D A R) {call : ExternalCall} (hA : ∀ c ∈ call.commitments, A c)
    (hrun : call.run D w = .ok w') : R w.pool w'.pool := by
  cases call with
  | books action =>
    simp only [ExternalCall.run, bind_eq_ok, pure_eq_ok] at hrun
    obtain ⟨books, -, rfl⟩ := hrun
    exact hR.refl _
  | vault account vault =>
    cases hrun
    exact hR.refl _
  | administer env admin =>
    simp only [ExternalCall.run, bind_eq_ok, pure_eq_ok] at hrun
    obtain ⟨settlement, -, rfl⟩ := hrun
    exact hR.refl _
  | pool env call =>
    simp only [ExternalCall.run, bind_eq_ok, pure_eq_ok] at hrun
    obtain ⟨⟨pool, books⟩, hcall, rfl⟩ := hrun
    exact hR.poolCall hA hcall

theorem externals (hR : Frame D A R) {calls : List ExternalCall} (hA : ∀ c ∈ calls.flatMap ExternalCall.commitments, A c)
    (hcalls : Steps (fun call w w' => ExternalCall.run D w call = .ok w') calls w w') : R w.pool w'.pool := by
  refine hR.steps World.pool (fun call hcall _ _ hrun => hR.external (fun c hc => ?_) hrun) hcalls
  exact hA c (List.mem_flatMap.mpr ⟨call, hcall, hc⟩)

theorem settles (hR : Frame D A R) {spends : List (ℕ × ℕ)} {commitments : List ℕ} {payments : List Payment}
    {registrations : List Registration} (hA : ∀ c ∈ commitments, A c)
    (hsettles : PrivateSettlement.Settles D spends commitments payments registrations w w') : R w.pool w'.pool := by
  obtain ⟨pool, hspent, hinserted⟩ := hsettles.pool
  have hspends : R w.pool pool := hR.steps id (fun n _ => hR.spent n) hspent
  have hinserts : R pool w'.pool := hR.steps id (fun c hc s s' => hR.inserted c s s' (hA c hc)) hinserted
  exact hR.trans _ _ _ hspends hinserts

theorem claim (hR : Frame D A R) {c : PrivateSettlement.ClaimParams}
    (hA : ∀ commitment ∈ (c.receive.getD []).flatMap ExternalCall.commitments, A commitment)
    (hclaim : PrivateSettlement.executeClaim D env w c = .ok w') : R w.pool w'.pool := by
  obtain ⟨-, hpay⟩ := PrivateSettlement.executeClaim_ok hclaim
  rcases PrivateSettlement.payClaim_ok hpay with ⟨-, books, -, rfl⟩ | ⟨-, _, _, books₂, calls, hreceive, -, -, -, hcalls⟩
  · exact hR.refl _
  · rw [hreceive, Option.getD_some] at hA
    have hcalled := hR.externals hA hcalls
    exact hcalled

theorem call (hR : Frame D A R) {call : Call} (hA : ∀ c ∈ call.commitments, A c) (hrun : call.run D w = .ok w') :
    R w.pool w'.pool := by
  have hown : ∀ c ∈ call.ownCommitments, A c := fun c hc => hA c (List.mem_append_left _ hc)
  have hnested : ∀ c ∈ call.externals.flatMap ExternalCall.commitments, A c := fun c hc =>
    hA c (List.mem_append_right _ hc)
  cases call with
  | external call =>
    refine hR.external (fun c hc => ?_) hrun
    exact hnested c (List.mem_flatMap.mpr ⟨call, List.mem_singleton_self _, hc⟩)
  | settleAuth env p => exact hR.settles hown (PrivateSettlement.settleAuth_ok hrun).2.2.1
  | cancelPrivate env p => exact hR.settles hown (PrivateSettlement.cancelPrivate_ok hrun).2.2.2
  | scatterDirectAuth env p => exact hR.settles hown (PrivateSettlement.scatterDirectAuth_ok hrun).2.2.1
  | settleWithDex env p swap =>
    obtain ⟨-, -, calls, w₁, rfl, hsettles, fee, called, returned, hswapped⟩ := PrivateSettlement.settleWithDex_ok hrun
    obtain ⟨vaults, hcalls⟩ := hswapped.routerCalled
    have hcalled := hR.externals hnested hcalls
    rw [hswapped.pool]
    exact hR.trans _ _ _ (hR.settles hown hsettles) hcalled
  | claimWithProof env c => exact hR.claim hnested (PrivateSettlement.claimWithProof_ok hrun)
  | claimWithProofBatch env claims =>
    have hsteps := PrivateSettlement.claimWithProofBatch_ok hrun
    refine hR.steps World.pool (fun c hc _ _ hclaim => hR.claim (fun commitment hmem => ?_) hclaim) hsteps
    obtain ⟨e, he, hmem⟩ := List.mem_flatMap.mp hmem
    exact hnested commitment (List.mem_flatMap.mpr ⟨e, List.mem_flatMap.mpr ⟨c, hc, he⟩, hmem⟩)

/-- **The run lemma**: the relation holds between the pools at the two ends of a run. -/
theorem after (hR : Frame D A R) (w : World) {calls : List Call} (hA : ∀ call ∈ calls, ∀ c ∈ call.commitments, A c) :
    R w.pool (w.after D calls).pool :=
  hR.steps World.pool
    (fun call hcall _ _ hrun => hR.call (hA call ((accepted_sublist D w calls).subset hcall)) hrun)
    (run_accepted D w calls)

end Frame

/-! ### The leaves stay -/

/-- The leaves stay where they are, and the storage still stands for them. -/
structure Grows (P : Poseidon) (pool pool' : CommitmentPool) : Prop where
  leaves : pool.committed <+: pool'.committed
  levels : pool'.tree.levels = pool.tree.levels
  tracks : IncrementalMerkleTree.Tracks P pool.tree pool.committed →
    IncrementalMerkleTree.Tracks P pool'.tree pool'.committed

theorem Grows.of_eq {P : Poseidon} {pool pool' : CommitmentPool} (htree : pool'.tree = pool.tree)
    (hcommitted : pool'.committed = pool.committed) : Grows P pool pool' where
  leaves := by rw [hcommitted]
  levels := by rw [htree]
  tracks := by
    rw [htree, hcommitted]
    exact id

theorem grows_frame {D : Deployment} (hzeros : D.poseidon.ZeroTable IncrementalMerkleTree.zeroTable) :
    Frame D (fun _ => True) (Grows D.poseidon) where
  refl := fun pool => Grows.of_eq rfl rfl
  trans := fun _ _ _ h₁ h₂ => ⟨h₁.leaves.trans h₂.leaves, h₂.levels.trans h₁.levels, h₂.tracks ∘ h₁.tracks⟩
  inserted := by
    rintro commitment pool pool' - (⟨-, rfl⟩ | ⟨-, tree, index, hinsert, rfl⟩)
    · exact Grows.of_eq rfl rfl
    · exact ⟨List.prefix_append _ _, IncrementalMerkleTree.insert_levels hinsert,
        fun htracks => (IncrementalMerkleTree.insert_tracks hzeros htracks hinsert).1⟩
  spent := by
    rintro nullifier pool pool' ⟨-, rfl⟩
    exact Grows.of_eq rfl rfl
  administered := by
    intro env admin pool pool' hadmin
    obtain ⟨htree, hcommitted, -⟩ := administer_ok hadmin
    exact Grows.of_eq htree hcommitted

theorem grows_after {D : Deployment} (hzeros : D.poseidon.ZeroTable IncrementalMerkleTree.zeroTable) (w : World)
    (calls : List Call) : Grows D.poseidon w.pool (w.after D calls).pool :=
  (grows_frame hzeros).after w fun _ _ _ _ => trivial

/-! ### The log holds field elements -/

/-- The leaves are nonzero field elements. -/
def CanonicalLog (pool : CommitmentPool) : Prop := ∀ c ∈ pool.committed, c ≠ 0 ∧ c < modulus

theorem canonicalLog_frame (D : Deployment) :
    Frame D (· < modulus) fun pool pool' => pool.CanonicalLog → pool'.CanonicalLog where
  refl := fun _ => id
  trans := fun _ _ _ h₁ h₂ => h₂ ∘ h₁
  inserted := by
    rintro commitment pool pool' hfield (⟨-, rfl⟩ | ⟨hne, tree, index, -, rfl⟩)
    · exact id
    · intro hlog c hc
      rcases List.mem_append.mp hc with hc | hc
      · exact hlog c hc
      · obtain rfl := List.mem_singleton.mp hc
        exact ⟨hne, hfield⟩
  spent := by
    rintro nullifier pool pool' ⟨-, rfl⟩
    exact id
  administered := by
    intro env admin pool pool' hadmin hlog
    obtain ⟨-, hcommitted, -⟩ := administer_ok hadmin
    rwa [CanonicalLog, hcommitted]

end CommitmentPool

/-! ### From deployment on -/

variable {D : Deployment} {w : World}

/-- After any transactions the storage of the tree stands for the leaves that were announced. -/
theorem Deployed.tracks (hzeros : D.poseidon.ZeroTable IncrementalMerkleTree.zeroTable) (hdeployed : Deployed D w)
    (calls : List Call) :
    IncrementalMerkleTree.Tracks D.poseidon (w.after D calls).pool.tree (w.after D calls).pool.committed := by
  obtain ⟨htracks, hcommitted, -⟩ := hdeployed.pool_spec
  exact (CommitmentPool.grows_after hzeros w calls).tracks (by rwa [hcommitted])

/-- When the commitments in the calldata are field elements, so are the leaves. -/
theorem Deployed.canonicalLog (hdeployed : Deployed D w) {calls : List Call}
    (hfield : ∀ call ∈ calls, ∀ c ∈ call.commitments, c < modulus) : (w.after D calls).pool.CanonicalLog := by
  apply (CommitmentPool.canonicalLog_frame D).after w hfield
  intro c hc
  rw [hdeployed.pool_spec.2.1] at hc
  cases hc

end ScatterDex
