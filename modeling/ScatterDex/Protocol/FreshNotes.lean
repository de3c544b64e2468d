import ScatterDex.Protocol.PoolSolvency
import ScatterDex.Protocol.SingleSpend

/-!
# When a new note can be spent

The nullifier of a note reads its secret and its salt, and none of the circuits relates the salt of the note it creates to the salt of the note it spends. A change note, a residual or a rotated note is therefore born dead exactly when its owner reuses a pair of secret and salt that was spent before.
-/

namespace ScatterDex

open Bn254 Fallible PrivateSettlement

/-- The commitments to the notes a transaction leaves its owner with, zero when nothing is left. -/
def Call.newCommitments : Call → List ℕ
  | .external (.pool _ (.withdraw a)) | .external (.pool _ (.withdrawFor a)) => [a.newCommitment]
  | .settleAuth _ p => [p.maker.newCommitment, p.taker.newCommitment]
  | .cancelPrivate _ p => [p.newCommitment]
  | .settleWithDex _ p _ => [p.proof.newCommitment]
  | .scatterDirectAuth _ p => [p.proof.newCommitment]
  | _ => []

/-- A transaction that goes through leaves a new note whose nullifier is not spent. -/
def Alive (D : Deployment) (v : World) (call : Call) (n : Note) : Prop :=
  (transact D v call).pool.nullifiers (n.nullifier D.poseidon) = false

/-- No note of the pool that was spent before, or that the transaction spends, has the secret and the salt of the new note, and no code the transaction calls withdraws the new note at once. -/
structure Fresh (D : Deployment) (v : World) (call : Call) (n : Note) : Prop where
  unused : ∀ leaf ∈ v.pool.committed, ∀ m, D.poseidon.Commits m (leaf : Scalar) →
    (v.pool.nullifiers (m.nullifier D.poseidon) = true ∨ m.nullifier D.poseidon ∈ call.ownSpends) →
    ¬(m.secret = n.secret ∧ m.salt = n.salt)
  nested : n.nullifier D.poseidon ∉ call.nestedSpends D

variable {C : Circomlib} {D : Deployment} {v v' w : World} {notes : List Note}

/-! ### Every spent nullifier is that of a note -/

theorem NotesInvariant.leaf_of_note (hnotes : NotesInvariant D v notes) {n : Note} (hn : n ∈ notes) :
    ∃ leaf ∈ v.pool.committed, D.poseidon.Commits n (leaf : Scalar) := by
  obtain ⟨i, hi, rfl⟩ := List.mem_iff_getElem.mp hn
  have hlength : i < v.pool.committed.length := hnotes.commits.length_eq ▸ hi
  exact ⟨v.pool.committed.get ⟨i, hlength⟩, List.get_mem _ _, hnotes.commits.get hlength hi⟩

theorem Move.note_of_mem {ns cs : List ℕ} {spent created : List Note} (hmove : Move D notes ns cs spent created)
    {k : ℕ} (hk : k ∈ ns) : ∃ n ∈ notes, n.nullifierPreimage ∈ D.poseidon.asked ∧ n.nullifier D.poseidon = k := by
  rw [← hmove.nullifiers] at hk
  obtain ⟨n, hn, rfl⟩ := List.mem_map.mp hk
  obtain ⟨hmem, hasked⟩ := hmove.member n hn
  exact ⟨n, hmem, hasked, rfl⟩

theorem Move.note_of_commitment {ns cs : List ℕ} {spent created : List Note}
    (hmove : Move D notes ns cs spent created) {c : ℕ} (hc : c ∈ cs) (hne : c ≠ 0) :
    ∃ n, D.poseidon.Commits n (c : Scalar) := by
  have hfilter : c ∈ cs.filter (· ≠ 0) := List.mem_filter.mpr ⟨hc, by simpa using hne⟩
  obtain ⟨i, hi⟩ := List.mem_iff_get.mp hfilter
  have hcommits := hmove.commits.get i.isLt (hmove.commits.length_eq ▸ i.isLt)
  rw [hi] at hcommits
  exact ⟨_, hcommits⟩

/-- An accepted transaction opens notes of the pool for what it spends itself, and has notes behind what it leaves. -/
theorem Call.opens {call : Call} (hothers : call.ByOthers D) (hbacked : call.Backed C D)
    (hnotes : NotesInvariant D v notes) (hasked : v.pool.TreesAsked D.poseidon) (hrun : call.run D v = .ok v') :
    ∃ spent created, Move D notes call.ownSpends call.newCommitments spent created := by
  obtain ⟨hnested, hbacked⟩ := hbacked
  have hnothing : ∃ spent created, Move D notes [] [] spent created :=
    ⟨[], [], fun _ hn => absurd hn List.not_mem_nil, rfl, List.Forall₂.nil⟩
  cases call with
  | settleAuth env p =>
    obtain ⟨-, ⟨hmakerRoot, htakerRoot⟩, -⟩ := settleAuth_ok hrun
    obtain ⟨_, _, hmaker, -⟩ := hbacked.1.opens hnotes hasked hmakerRoot
    obtain ⟨_, _, htaker, -⟩ := hbacked.2.opens hnotes hasked htakerRoot
    exact ⟨_, _, hmaker.append htaker⟩
  | cancelPrivate env p =>
    obtain ⟨_, _, hmove, -⟩ := hbacked.opens hnotes hasked (cancelPrivate_ok hrun).2.1
    exact ⟨_, _, hmove⟩
  | settleWithDex env p swap =>
    obtain ⟨_, _, hmove, -⟩ := hbacked.opens hnotes hasked (settleWithDex_ok hrun).2.1
    exact ⟨_, _, hmove⟩
  | scatterDirectAuth env p =>
    obtain ⟨_, _, hmove, -⟩ := hbacked.opens hnotes hasked (scatterDirectAuth_ok hrun).2.1
    exact ⟨_, _, hmove⟩
  | claimWithProof env c => exact hnothing
  | claimWithProofBatch env claims => exact hnothing
  | external call =>
    have hmem : call ∈ (Call.external call).externals := List.mem_cons_self
    have hothers := hothers call hmem
    have hbacked := hnested call hmem
    cases call with
    | books action => exact hnothing
    | vault account vault => exact hnothing
    | administer env admin => exact hnothing
    | pool env call =>
      simp only [Call.run, ExternalCall.run, bind_eq_ok, pure_eq_ok] at hrun
      obtain ⟨⟨pool', books'⟩, hcall, -⟩ := hrun
      cases call with
      | withdraw args =>
        have hknown := (CommitmentPool.processWithdraw_ok (CommitmentPool.withdraw_ok hcall)).1
        obtain ⟨_, _, hmove, -⟩ := CommitmentPool.WithdrawArgs.Backed.opens hbacked hnotes hasked hknown
        exact ⟨_, _, hmove⟩
      | withdrawFor args =>
        have hknown := (CommitmentPool.processWithdraw_ok (CommitmentPool.withdrawFor_ok hcall).2).1
        obtain ⟨_, _, hmove, -⟩ := CommitmentPool.WithdrawArgs.Backed.opens hbacked hnotes hasked hknown
        exact ⟨_, _, hmove⟩
      | spendEscrowNullifier nullifier =>
        -- nobody but the settlement contract is authorized
        simp only [PoolCall.run, bind_eq_ok] at hcall
        obtain ⟨_, hspend, -⟩ := hcall
        have hsender := (CommitmentPool.spendEscrowNullifier_ok hspend).1
        rcases hnotes.authorized with hnone | hsettlement
        · exact absurd (hsender.trans hnone) hothers.1
        · exact absurd (hsender.trans hsettlement) (by simpa using hothers.2.2)
      | deposit proof commitment token amount => exact hnothing
      | insertCommitment commitment => exact hnothing
      | transferToSettlement token amount => exact hnothing
      | transferFee recipient token amount => exact hnothing
      | administer admin => exact hnothing

/-! ### Dead notes -/

/-- The step lemma: with notes behind the pool, a new note is alive exactly when it is fresh. -/
theorem alive_iff_fresh_of_notes {call : Call} (hothers : call.ByOthers D) (hbacked : call.Backed C D)
    (hnotes : NotesInvariant D v notes) (hasked : v.pool.TreesAsked D.poseidon) (hrun : call.run D v = .ok v')
    {n : Note} (hn : n.nullifierPreimage ∈ D.poseidon.asked) : Alive D v call n ↔ Fresh D v call n := by
  have htransact : transact D v call = v' := by rw [transact, hrun]
  have hspends := (Call.run_spends hrun).pool_iff (n.nullifier D.poseidon)
  rw [Alive, htransact, ← Bool.not_eq_true, hspends, Call.spends, List.mem_append]
  constructor
  · intro halive
    refine ⟨fun leaf hleaf m hm hspent hsame => halive ?_, fun hmem => halive (Or.inl (Or.inr hmem))⟩
    have heq : m.nullifier D.poseidon = n.nullifier D.poseidon := by
      rw [Note.nullifier, Note.nullifier, (Note.nullifierPreimage_eq_iff m n).mpr hsame]
    rw [heq] at hspent
    rcases hspent with hspent | hspent
    · exact Or.inr hspent
    · exact Or.inl (Or.inl hspent)
  · intro hfresh hdead
    -- a note of the pool with the same nullifier has the same secret and salt
    have hclash : ∀ m ∈ notes, m.nullifierPreimage ∈ D.poseidon.asked →
        m.nullifier D.poseidon = n.nullifier D.poseidon →
        (v.pool.nullifiers (n.nullifier D.poseidon) = true ∨ n.nullifier D.poseidon ∈ call.ownSpends) → False := by
      intro m hm hmasked heq hspent
      obtain ⟨leaf, hleaf, hcommits⟩ := hnotes.leaf_of_note hm
      have hhash : D.poseidon.hash m.nullifierPreimage = D.poseidon.hash n.nullifierPreimage := ZMod.val_injective _ heq
      have hsame := (Note.nullifierPreimage_eq_iff m n).mp (D.poseidon.injOn hmasked hn hhash)
      exact hfresh.unused leaf hleaf m hcommits (heq ▸ hspent) hsame
    rcases hdead with (hown | hnested) | hbefore
    · obtain ⟨spent, created, hmove⟩ := Call.opens hothers hbacked hnotes hasked hrun
      obtain ⟨m, hm, hmasked, heq⟩ := hmove.note_of_mem hown
      exact hclash m hm hmasked heq (Or.inr hown)
    · exact hfresh.nested hnested
    · obtain ⟨m, hm, hmasked, heq⟩ := hnotes.spent _ hbefore
      exact hclash m hm hmasked heq (Or.inl hbefore)

theorem Honest.of_append_singleton {calls : List Call} {call : Call} (hhonest : Honest C D w (calls ++ [call]))
    (hrun : call.run D (w.after D calls) = .ok v') :
    Honest C D w calls ∧ call.ByOthers D ∧ call.KeepsSettlement D ∧ call.Backed C D := by
  have haccepted : accepted D (w.after D calls) [call] = [call] := by
    rw [accepted, hrun]
    rfl
  have happend := accepted_append D w calls [call]
  rw [haccepted] at happend
  have hlast : call ∈ calls ++ [call] := List.mem_append_right calls List.mem_cons_self
  have hbefore : Honest C D w calls := by
    constructor
    · exact fun c hc => hhonest.others c (List.mem_append_left [call] hc)
    · exact fun c hc => hhonest.keeps c (List.mem_append_left [call] hc)
    · intro c hc
      apply hhonest.backed c
      rw [happend]
      exact List.mem_append_left [call] hc
  have hbacked : call.Backed C D := by
    apply hhonest.backed call
    rw [happend]
    exact List.mem_append_right _ List.mem_cons_self
  exact ⟨hbefore, hhonest.others call hlast, hhonest.keeps call hlast, hbacked⟩

/-- **A new note is alive exactly when its secret and salt are fresh.** Whatever transaction is accepted after an honest run, behind each nonzero commitment that it leaves stands a note, and that note can still be spent if and only if it is fresh. -/
theorem alive_iff_fresh (hzeros : D.poseidon.ZeroTable IncrementalMerkleTree.zeroTable) (hdeployed : Deployed D w)
    {calls : List Call} {call : Call} (hhonest : Honest C D w (calls ++ [call]))
    (haccepted : call.run D (w.after D calls) = .ok v') (hasked : v'.pool.TreesAsked D.poseidon) {commitment : ℕ}
    (hmem : commitment ∈ call.newCommitments) (hne : commitment ≠ 0) :
    (∃ n, D.poseidon.Commits n (commitment : Scalar)) ∧
      ∀ n, D.poseidon.Commits n (commitment : Scalar) → n.nullifierPreimage ∈ D.poseidon.asked →
        (Alive D (w.after D calls) call n ↔ Fresh D (w.after D calls) call n) := by
  obtain ⟨hbefore, hothers, hkeeps, hbacked⟩ := hhonest.of_append_singleton haccepted
  have hlast : NoteStep D (w.after D calls) v' := Call.run_noteStep hzeros hothers hkeeps hbacked haccepted
  have hasked' := hasked.of_prefix hlast.grows hlast.levels
  obtain ⟨notes, hnotes, -⟩ := (hbefore.noteStep hzeros).keeps hasked' [] hdeployed.notesInvariant
  obtain ⟨_, _, hmove⟩ := Call.opens hothers hbacked hnotes hasked' haccepted
  exact ⟨hmove.note_of_commitment hmem hne, fun n _ hn =>
    alive_iff_fresh_of_notes hothers hbacked hnotes hasked' haccepted hn⟩

/-! ### A cancellation that reuses the salt -/

/-- The maker cancels the deposited note, with its old salt as the fresh one. -/
def sameSalt : Circuit.CancelSignals where
  commitmentRoot := 0x1a3dcdf2e3483db72aa4f6364a150e0c8c42acc1743d92d6530161b5a541f4db
  oldNullifier := makerOrder.nullifier
  oldNonceNullifier := 0x2c27808853b20f3bc5db17e9d17e29b81f617b994c46b049d18352e205cd83c3
  newCommitment := 0x3007550b9602aec5a6ee2a5fb5600f58acf92d0f3ec1c383564eed965ffcd0c5
  submitter := 33
  secret := makerOrder.secret
  salt := makerOrder.salt
  nonce := 9
  token := makerOrder.sellToken
  balance := makerOrder.balance
  freshSalt := makerOrder.salt
  path := emptyNode
  pathIdx := fun _ => 0
  pubKeyAx := makerOrder.pubKeyAx
  pubKeyAy := makerOrder.pubKeyAy
  sigS := 0x4da309c954472dacd13c49d28be19392afd40c9d0ca3643faf65d153d058d3
  sigR8x := 0xdd7a6f079c8e7ab4daaf664521680b83f1d6aeb948426c112a8fcca3c57fcbe
  sigR8y := 0x1357d3bf4ddbdc1e34dfd0dbee74efb7dd247bb6d4a4df440458fd09b7a573e1

theorem sameSalt_cancel : Circuit.Cancel tradeCircomlib tradePoseidon 20 sameSalt where
  membership := ⟨sameSalt.newCommitment, by decide +kernel,
    Circuit.merkleProof_iff.mpr ⟨by decide +kernel, by decide +kernel, by decide +kernel⟩⟩
  escrowNull := by decide +kernel
  nonceNull := by decide +kernel
  newCommitment := by decide +kernel
  rcBalance := (by decide +kernel : sameSalt.balance.val < 2 ^ 128)
  signature := ⟨0x1c2a6499f8d3182732c38dcb64d7c3e46c90476e37b0e77202a3a501209f0435, by decide +kernel, by decide +kernel⟩

def sameSaltCall : Call := .cancelPrivate (.permissive 33)
  ⟨.zero, sameSalt.commitmentRoot.val, sameSalt.oldNullifier.val, sameSalt.oldNonceNullifier.val,
    sameSalt.newCommitment.val⟩

theorem sameSaltCall_honest : Honest tradeCircomlib tradeDeployment tradeWorld (tradeSetup ++ [sameSaltCall]) := by
  apply Honest.of_forall
  · simp [tradeSetup, sameSaltCall, Call.ByOthers, Call.externals, ExternalCall.ByOthers, Ledger.Action.actor,
      tradeDeployment, Deployment.small, Env.permissive]
  · simp [tradeSetup, sameSaltCall, Call.KeepsSettlement, Call.externals, ExternalCall.KeepsSettlement,
      tradeDeployment, Deployment.small]
  · intro call hcall
    rcases List.mem_append.mp hcall with hcall | hcall
    · exact tradeSetup_backed call hcall
    · rw [List.mem_singleton.mp hcall]
      exact ⟨fun e he => absurd he List.not_mem_nil, sameSalt, sameSalt_cancel, by decide +kernel⟩

theorem sameSaltCall_accepted : ∃ v', sameSaltCall.run tradeDeployment (tradeWorld.after tradeDeployment tradeSetup) =
    .ok v' ∧ v'.pool.TreesAsked tradePoseidon := by
  have hok : (sameSaltCall.run tradeDeployment (tradeWorld.after tradeDeployment tradeSetup)).isOk = true := by
    decide +kernel
  obtain ⟨v', hv'⟩ := exists_of_isOk hok
  have hafter : transact tradeDeployment (tradeWorld.after tradeDeployment tradeSetup) sameSaltCall = v' := by
    rw [transact, hv']
  have hlog : (transact tradeDeployment (tradeWorld.after tradeDeployment tradeSetup) sameSaltCall).pool.committed =
      [makerOrder.deposited, makerOrder.deposited] := by decide +kernel
  refine ⟨v', hv', ?_⟩
  rw [← hafter]
  exact treesAsked_trade hlog (by decide +kernel) (by decide +kernel)

theorem alive_iff_fresh_sameSalt :
    (∃ n, tradeDeployment.poseidon.Commits n (sameSalt.newCommitment.val : Scalar)) ∧
      ∀ n, tradeDeployment.poseidon.Commits n (sameSalt.newCommitment.val : Scalar) →
        n.nullifierPreimage ∈ tradeDeployment.poseidon.asked →
        (Alive tradeDeployment (tradeWorld.after tradeDeployment tradeSetup) sameSaltCall n ↔
          Fresh tradeDeployment (tradeWorld.after tradeDeployment tradeSetup) sameSaltCall n) := by
  obtain ⟨v', haccepted, hasked⟩ := sameSaltCall_accepted
  exact alive_iff_fresh tradePoseidon_zeros tradeWorld_deployed sameSaltCall_honest haccepted hasked
    (List.mem_singleton.mpr rfl) (by decide +kernel)

/-- **A rotated note can be dead on arrival**: the circuit and the contract accept the old salt as the fresh one. -/
theorem not_alive_sameSalt : ¬∀ (calls : List Call) (call : Call) (v' : World) (commitment : ℕ) (n : Note),
    Honest tradeCircomlib tradeDeployment tradeWorld (calls ++ [call]) →
    call.run tradeDeployment (tradeWorld.after tradeDeployment calls) = .ok v' →
    commitment ∈ call.newCommitments → commitment ≠ 0 →
    tradeDeployment.poseidon.Commits n (commitment : Scalar) →
    Alive tradeDeployment (tradeWorld.after tradeDeployment calls) call n := by
  intro halive
  obtain ⟨v', haccepted, -⟩ := sameSaltCall_accepted
  have hcommits : tradeDeployment.poseidon.Commits sameSalt.rotated (sameSalt.newCommitment.val : Scalar) := by
    rw [ZMod.natCast_zmod_val]
    exact sameSalt_cancel.newCommitment
  have hnew := halive tradeSetup sameSaltCall v' sameSalt.newCommitment.val sameSalt.rotated sameSaltCall_honest
    haccepted (List.mem_singleton.mpr rfl) (by decide +kernel) hcommits
  have hdead : (transact tradeDeployment (tradeWorld.after tradeDeployment tradeSetup) sameSaltCall).pool.nullifiers
      (sameSalt.rotated.nullifier tradeDeployment.poseidon) = true := by decide +kernel
  rw [Alive, hdead] at hnew
  exact absurd hnew.symm Bool.false_ne_true

end ScatterDex
