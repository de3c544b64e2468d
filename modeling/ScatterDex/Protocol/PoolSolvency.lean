import ScatterDex.Protocol.EscrowNotes
import ScatterDex.Protocol.UserProtection

/-!
# The pool can pay its notes

A `NoteStep` is a piece of a run: it appends notes to the list behind the pool, and if the pool could pay all unspent notes before, it can after. Each path is one such step because the notes it creates and the money it pays out are covered by the notes it spends; steps compose, so a run is one.
-/

namespace ScatterDex

open Bn254 Fallible PrivateSettlement

/-- Standard tokens of less than `2 ^ 128` units, and no allowance given by the pool. -/
structure Economy (D : Deployment) (w : World) : Prop where
  standard : D.Standard
  cap_le : ∀ token, D.cap token ≤ 2 ^ 128
  supply : ∀ token, w.books.totalSupply token < D.cap token
  allowance : ∀ token spender, w.books.allowance token D.pool spender = 0

/-- The pool's balance of every token covers the unspent notes in it. -/
def PoolSolvent (D : Deployment) (w : World) (notes : List Note) : Prop :=
  ∀ token, Notes.unspent (Note.nullifier D.poseidon) (Note.balanceIn token) w.pool.nullifiers notes ≤
    w.books.balanceOf token D.pool

/-- A piece of a run, as the notes see it. -/
structure NoteStep (D : Deployment) (w w' : World) : Prop where
  grows : w.pool.committed <+: w'.pool.committed
  levels : w'.pool.tree.levels = w.pool.tree.levels
  keeps : w'.pool.TreesAsked D.poseidon → ∀ notes, NotesInvariant D w notes →
    ∃ created, NotesInvariant D w' (notes ++ created) ∧
      (Economy D w → PoolSolvent D w notes → Economy D w' ∧ PoolSolvent D w' (notes ++ created))

theorem CommitmentPool.TreesAsked.of_prefix {P : Poseidon} {pool pool' : CommitmentPool}
    (hasked : pool'.TreesAsked P) (hgrows : pool.committed <+: pool'.committed)
    (hlevels : pool'.tree.levels = pool.tree.levels) : pool.TreesAsked P := by
  obtain ⟨new, hnew⟩ := hgrows
  constructor
  intro k hk
  have hpairs := hasked.pairsIn k (by
    rw [← hnew, List.length_append]
    omega)
  rwa [← hnew, List.take_append_of_le_length hk, hlevels] at hpairs

namespace NoteStep

variable {D : Deployment} {w w₁ w' : World}

theorem refl (w : World) : NoteStep D w w where
  grows := List.prefix_rfl
  levels := rfl
  keeps := fun _ notes hnotes => ⟨[], by rwa [List.append_nil], fun heconomy hsolvent => by
    rw [List.append_nil]
    exact ⟨heconomy, hsolvent⟩⟩

theorem trans (hfirst : NoteStep D w w₁) (hsecond : NoteStep D w₁ w') : NoteStep D w w' where
  grows := hfirst.grows.trans hsecond.grows
  levels := hsecond.levels.trans hfirst.levels
  keeps := by
    intro hasked notes hnotes
    have hasked₁ := hasked.of_prefix hsecond.grows hsecond.levels
    obtain ⟨created₁, hnotes₁, hsolvent₁⟩ := hfirst.keeps hasked₁ notes hnotes
    obtain ⟨created₂, hnotes₂, hsolvent₂⟩ := hsecond.keeps hasked (notes ++ created₁) hnotes₁
    rw [List.append_assoc] at hnotes₂ hsolvent₂
    refine ⟨created₁ ++ created₂, hnotes₂, fun heconomy hsolvent => ?_⟩
    obtain ⟨heconomy', hsolvent'⟩ := hsolvent₁ heconomy hsolvent
    exact hsolvent₂ heconomy' hsolvent'

theorem steps {α : Type} {step : α → World → World → Prop} {as : List α}
    (hstep : ∀ a ∈ as, ∀ w w', step a w w' → NoteStep D w w') (hsteps : Steps step as w w') : NoteStep D w w' :=
  hsteps.invariant (I := NoteStep D w) (fun a ha v v' hv h => hv.trans (hstep a ha v v' h)) (refl w)

theorem of_books (htree : w'.pool.tree = w.pool.tree) (hcommitted : w'.pool.committed = w.pool.committed)
    (hnullifiers : w'.pool.nullifiers = w.pool.nullifiers)
    (hauthorized : w'.pool.authorizedSettlement = w.pool.authorizedSettlement)
    (hpending : w'.pool.pendingSettlement = w.pool.pendingSettlement)
    (hbooks : Economy D w → Economy D w' ∧ ∀ t, w.books.balanceOf t D.pool ≤ w'.books.balanceOf t D.pool) :
    NoteStep D w w' where
  grows := hcommitted ▸ List.prefix_rfl
  levels := congrArg _ htree
  keeps := by
    intro _ notes hnotes
    refine ⟨[], ?_, fun heconomy hsolvent => ?_⟩
    · rw [List.append_nil]
      exact ⟨by rw [htree, hcommitted]; exact hnotes.tracks, hauthorized ▸ hnotes.authorized,
        hpending ▸ hnotes.pending, hcommitted ▸ hnotes.commits, hnullifiers ▸ hnotes.spent⟩
    · obtain ⟨heconomy', hbalance⟩ := hbooks heconomy
      rw [List.append_nil]
      refine ⟨heconomy', fun token => ?_⟩
      rw [hnullifiers]
      exact (hsolvent token).trans (hbalance token)

end NoteStep

/-! ### Spending, creating and paying -/

variable {C : Circomlib} {D : Deployment} {env : Env} {w w' : World}

theorem tracks_inserted (hzeros : D.poseidon.ZeroTable IncrementalMerkleTree.zeroTable) {pool pool' : CommitmentPool}
    {cs : List ℕ} (htracks : IncrementalMerkleTree.Tracks D.poseidon pool.tree pool.committed)
    (hinserted : Steps (CommitmentPool.Inserted D) cs pool pool') :
    IncrementalMerkleTree.Tracks D.poseidon pool'.tree pool'.committed := by
  apply hinserted.invariant (I := fun pool => IncrementalMerkleTree.Tracks D.poseidon pool.tree pool.committed) _ htracks
  intro c _ pool pool' htracks hstep
  rcases hstep with ⟨-, rfl⟩ | ⟨-, tree, index, htree, rfl⟩
  · exact htracks
  · exact (IncrementalMerkleTree.insert_tracks hzeros htracks htree).1

theorem levels_inserted {pool pool' : CommitmentPool} {cs : List ℕ}
    (hinserted : Steps (CommitmentPool.Inserted D) cs pool pool') : pool'.tree.levels = pool.tree.levels := by
  apply hinserted.unchanged (f := fun pool : CommitmentPool => pool.tree.levels)
  intro c pool pool' hstep
  rcases hstep with ⟨-, rfl⟩ | ⟨-, tree, index, htree, rfl⟩
  · rfl
  · exact IncrementalMerkleTree.insert_levels htree

/-- Spending notes takes their balances off the unspent total. -/
theorem unspent_of_spent {P : Poseidon} {pool pool' : CommitmentPool} {notes spent : List Note} (token : Address)
    (hmember : ∀ n ∈ spent, n ∈ notes)
    (hspent : Steps CommitmentPool.Spent (spent.map (Note.nullifier P)) pool pool') :
    Notes.unspent (Note.nullifier P) (Note.balanceIn token) pool'.nullifiers notes +
        Notes.total (Note.balanceIn token) spent ≤
      Notes.unspent (Note.nullifier P) (Note.balanceIn token) pool.nullifiers notes := by
  induction spent generalizing pool with
  | nil =>
    obtain rfl := hspent
    exact le_rfl
  | cons n spent ih =>
    obtain ⟨pool₁, ⟨hfresh, rfl⟩, hrest⟩ := hspent
    have hfirst := Notes.unspent_spend (Note.balanceIn token) (hmember n List.mem_cons_self) hfresh
    have hrest := ih (fun m hm => hmember m (List.mem_cons_of_mem n hm)) hrest
    rw [Notes.total_cons]
    dsimp only at hrest
    omega

/-- **The main step.** Nullifiers of notes are spent, commitments to new notes are inserted, and what is paid out is covered. -/
theorem NoteStep.of_move (hzeros : D.poseidon.ZeroTable IncrementalMerkleTree.zeroTable) {pool₁ : CommitmentPool}
    {ns cs : List ℕ} {payments : List Payment} (hspent : Steps CommitmentPool.Spent ns w.pool pool₁)
    (hinserted : Steps (CommitmentPool.Inserted D) cs pool₁ w'.pool)
    (hpaid : Steps (Paid D D.pool) payments w.books w'.books)
    (hopens : w.pool.TreesAsked D.poseidon → ∀ notes, NotesInvariant D w notes →
      ∃ spent created, Move D notes ns cs spent created ∧
        (Economy D w → Covers spent created (outflow payments))) :
    NoteStep D w w' := by
  obtain ⟨-, -, hiff, hpool₁⟩ := CommitmentPool.spent_steps hspent
  obtain ⟨hcommitted, hpool'⟩ := CommitmentPool.inserted_steps hinserted
  have hnullifiers : w'.pool.nullifiers = pool₁.nullifiers := CommitmentPool.nullifiers_of_inserted hinserted
  have hlog : w'.pool.committed = w.pool.committed ++ cs.filter (· ≠ 0) := by
    rw [hcommitted, hpool₁]
  have hlevels : w'.pool.tree.levels = w.pool.tree.levels := by
    rw [levels_inserted hinserted, hpool₁]
  refine ⟨⟨_, hlog.symm⟩, hlevels, fun hasked notes hnotes => ?_⟩
  obtain ⟨spent, created, hmove, hcovers⟩ := hopens (hasked.of_prefix ⟨_, hlog.symm⟩ hlevels) notes hnotes
  refine ⟨created, ⟨?_, ?_, ?_, ?_, ?_⟩, fun heconomy hsolvent => ⟨⟨heconomy.standard, heconomy.cap_le, ?_, ?_⟩,
    fun token => ?_⟩⟩
  · apply tracks_inserted hzeros _ hinserted
    rw [hpool₁]
    exact hnotes.tracks
  · rw [hpool', hpool₁]
    exact hnotes.authorized
  · rw [hpool', hpool₁]
    exact hnotes.pending
  · rw [hlog]
    exact List.rel_append hnotes.commits hmove.commits
  · intro k hk
    rw [hnullifiers, hiff, ← hmove.nullifiers] at hk
    rcases hk with hk | hk
    · obtain ⟨n, hn, rfl⟩ := List.mem_map.mp hk
      obtain ⟨hmem, hasked⟩ := hmove.member n hn
      exact ⟨n, List.mem_append_left _ hmem, hasked, rfl⟩
    · obtain ⟨n, hn, hrest⟩ := hnotes.spent k hk
      exact ⟨n, List.mem_append_left _ hn, hrest⟩
  · rw [Paid.steps_totalSupply hpaid]
    exact heconomy.supply
  · rw [Paid.steps_allowance hpaid]
    exact heconomy.allowance
  · have hcovers := hcovers heconomy token
    have hbefore := hsolvent token
    have hbalance := Paid.payer_le hpaid token
    have hcreated := Notes.unspent_append_le (Note.nullifier D.poseidon) (Note.balanceIn token)
      pool₁.nullifiers notes created
    rw [← hmove.nullifiers] at hspent
    have htaken := unspent_of_spent token (fun n hn => (hmove.member n hn).1) hspent
    rw [hnullifiers]
    omega

/-! ### Calls by others -/

theorem Economy.of_books (heconomy : Economy D w) (hsupply : w'.books.totalSupply = w.books.totalSupply)
    (hallowance : ∀ t s, w'.books.allowance t D.pool s = w.books.allowance t D.pool s) : Economy D w' where
  standard := heconomy.standard
  cap_le := heconomy.cap_le
  supply := hsupply ▸ heconomy.supply
  allowance := fun t s => (hallowance t s).trans (heconomy.allowance t s)

/-- Only the settlement contract is ever authorized, so what others may not do does not happen. -/
theorem NoteStep.of_authorized (hsender : env.sender = w.pool.authorizedSettlement) (hzero : env.sender ≠ 0)
    (hothers : env.sender ≠ D.settlement) (hgrows : w.pool.committed <+: w'.pool.committed)
    (hlevels : w'.pool.tree.levels = w.pool.tree.levels) : NoteStep D w w' where
  grows := hgrows
  levels := hlevels
  keeps := by
    intro _ notes hnotes
    rcases hnotes.authorized with hnone | hsettlement
    · exact absurd (hsender.trans hnone) hzero
    · exact absurd (hsender.trans hsettlement) hothers

theorem deposit_noteStep (hzeros : D.poseidon.ZeroTable IncrementalMerkleTree.zeroTable) {proof : Groth16Proof}
    {commitment amount : ℕ} {token : Address} {pool' : CommitmentPool} {books' : Books}
    (hbacked : (ExternalCall.pool env (.deposit proof commitment token amount)).Backed C D)
    (hsender : D.pool ≠ env.sender)
    (hdeposit : w.pool.deposit D env w.books proof commitment token amount = .ok (pool', books')) :
    NoteStep D w { w with pool := pool', books := books' } := by
  obtain ⟨hne, -, htransfer, hreceived, tree, index, htree, rfl⟩ := CommitmentPool.deposit_ok hdeposit
  obtain ⟨s, hsat, hsignals⟩ := hbacked
  simp only [Circuit.DepositSignals.publicInputs, List.map_cons, List.map_nil, List.cons.injEq, and_true] at hsignals
  obtain ⟨hcommitment, htoken, hamount⟩ := hsignals
  have hcommits : D.poseidon.Commits s.note (commitment : Scalar) := by
    rw [← hcommitment, ZMod.natCast_zmod_val]
    exact hsat.commitment
  refine ⟨⟨_, rfl⟩, IncrementalMerkleTree.insert_levels htree, fun _ notes hnotes => ⟨[s.note], ?_, ?_⟩⟩
  · exact ⟨(IncrementalMerkleTree.insert_tracks hzeros hnotes.tracks htree).1, hnotes.authorized, hnotes.pending,
      List.rel_append hnotes.commits (List.Forall₂.cons hcommits List.Forall₂.nil), fun k hk => by
        obtain ⟨n, hn, hrest⟩ := hnotes.spent k hk
        exact ⟨n, List.mem_append_left _ hn, hrest⟩⟩
  · intro heconomy hsolvent
    refine ⟨heconomy.of_books (Ledger.transferFrom_totalSupply htransfer) fun t s =>
      Ledger.transferFrom_allowance_of_ne htransfer hsender t s, fun t => ?_⟩
    have hcreated := Notes.unspent_append_le (Note.nullifier D.poseidon) (Note.balanceIn t)
      w.pool.nullifiers notes [s.note]
    have hbefore := hsolvent t
    have hbalance := Ledger.transferFrom_balance htransfer t D.pool
    rw [if_neg fun h => hsender h.2, heconomy.standard] at hbalance
    have hnote : s.note.balanceIn t ≤ if t = token ∧ D.pool = D.pool then amount - 0 else 0 := by
      rw [Note.balanceIn]
      by_cases ht : s.note.token = (t.toNat : Scalar)
      · have hval : t.toNat = token.toNat := by
          have hbig : 2 ^ 160 < modulus := by decide
          have hwidth := t.isLt
          rw [← htoken]
          change _ = s.note.token.val
          rw [ht, ZMod.val_natCast_of_lt (by omega)]
        rw [if_pos ht, if_pos ⟨BitVec.eq_of_toNat_eq hval, rfl⟩]
        exact hamount.le
      · rw [if_neg ht]
        exact Nat.zero_le _
    rw [Notes.total_cons, Notes.total_nil] at hcreated
    dsimp only
    omega

theorem processWithdraw_noteStep (hzeros : D.poseidon.ZeroTable IncrementalMerkleTree.zeroTable)
    {a : CommitmentPool.WithdrawArgs} {pool' : CommitmentPool} {books' : Books} (hbacked : a.Backed C D)
    (hwithdraw : w.pool.processWithdraw D env w.books a = .ok (pool', books')) :
    NoteStep D w { w with pool := pool', books := books' } := by
  obtain ⟨hknown, hfresh, -, hinserted, htransfer⟩ := CommitmentPool.processWithdraw_ok hwithdraw
  have hspent : Steps CommitmentPool.Spent [a.nullifierHash] w.pool
      { w.pool with nullifiers := Function.update w.pool.nullifiers a.nullifierHash true } :=
    ⟨_, ⟨hfresh, rfl⟩, rfl⟩
  have hinserts : Steps (CommitmentPool.Inserted D) [a.newCommitment] _ pool' := ⟨_, hinserted, rfl⟩
  have hpaid : Steps (Paid D D.pool) [⟨a.token, a.recipient, a.amount⟩] w.books books' := ⟨_, Or.inr htransfer, rfl⟩
  apply NoteStep.of_move hzeros hspent hinserts hpaid
  intro hasked notes hnotes
  obtain ⟨spent, created, hmove, hcovers⟩ := hbacked.opens hnotes hasked hknown
  refine ⟨spent, created, hmove, fun heconomy => ?_⟩
  -- an amount the pool could pay is smaller than every supply
  have hsmall : a.amount < 2 ^ 128 :=
    calc a.amount ≤ w.books.balanceOf a.token D.pool := Ledger.transfer_le htransfer
      _ ≤ w.books.totalSupply a.token := Ledger.balanceOf_le _ _ _
      _ < D.cap a.token := heconomy.supply a.token
      _ ≤ 2 ^ 128 := heconomy.cap_le a.token
  intro token
  simpa only [outflow_cons, outflow_nil, Nat.add_zero] using hcovers hsmall token

theorem administer_noteStep {admin : CommitmentPool.Admin} {pool : CommitmentPool}
    (hkeeps : (ExternalCall.pool env (.administer admin)).KeepsSettlement D)
    (hadmin : w.pool.administer env admin = .ok pool) : NoteStep D w { w with pool } := by
  obtain ⟨htree, hcommitted, hnullifiers⟩ := CommitmentPool.administer_ok hadmin
  have hsettlements : (w.pool.authorizedSettlement = 0 ∨ w.pool.authorizedSettlement = D.settlement) →
      (w.pool.pendingSettlement = 0 ∨ w.pool.pendingSettlement = D.settlement) →
      (pool.authorizedSettlement = 0 ∨ pool.authorizedSettlement = D.settlement) ∧
        (pool.pendingSettlement = 0 ∨ pool.pendingSettlement = D.settlement) := by
    cases admin <;>
      simp only [CommitmentPool.administer, bind_eq_ok, require_eq_ok, pure_eq_ok, ExternalCall.KeepsSettlement]
        at hadmin hkeeps <;>
      obtain ⟨_, hadmin⟩ := hadmin <;> grind
  refine ⟨hcommitted ▸ List.prefix_rfl, congrArg _ htree, fun _ notes hnotes => ⟨[], ?_, fun heconomy hsolvent => ?_⟩⟩
  · obtain ⟨hauthorized, hpending⟩ := hsettlements hnotes.authorized hnotes.pending
    rw [List.append_nil]
    exact ⟨by rw [htree, hcommitted]; exact hnotes.tracks, hauthorized, hpending, hcommitted ▸ hnotes.commits,
      hnullifiers ▸ hnotes.spent⟩
  · rw [List.append_nil]
    refine ⟨heconomy.of_books rfl fun _ _ => rfl, fun token => ?_⟩
    dsimp only
    rw [hnullifiers]
    exact hsolvent token

/-- **Calls by others.** -/
theorem ExternalCall.run_noteStep (hzeros : D.poseidon.ZeroTable IncrementalMerkleTree.zeroTable) {call : ExternalCall}
    (hothers : call.ByOthers D) (hkeeps : call.KeepsSettlement D) (hbacked : call.Backed C D)
    (hrun : call.run D w = .ok w') : NoteStep D w w' := by
  cases call with
  | books action =>
    simp only [run, bind_eq_ok, orRevert_eq_ok, pure_eq_ok] at hrun
    obtain ⟨books, hperform, rfl⟩ := hrun
    refine NoteStep.of_books rfl rfl rfl rfl rfl fun heconomy => ?_
    have hguarded := (Ledger.Guarded.refl heconomy.allowance 0 0).perform (by decide) hothers.1 hperform
    obtain ⟨hbalance, hallowance⟩ := hguarded.unexposed
    exact ⟨⟨heconomy.standard, heconomy.cap_le, Ledger.perform_supply hperform heconomy.supply, hallowance⟩, hbalance⟩
  | vault account vault =>
    cases hrun
    exact NoteStep.of_books rfl rfl rfl rfl rfl fun heconomy => ⟨heconomy.of_books rfl fun _ _ => rfl, fun _ => le_rfl⟩
  | administer env admin =>
    simp only [run, bind_eq_ok, pure_eq_ok] at hrun
    obtain ⟨settlement, -, rfl⟩ := hrun
    exact NoteStep.of_books rfl rfl rfl rfl rfl fun heconomy => ⟨heconomy.of_books rfl fun _ _ => rfl, fun _ => le_rfl⟩
  | pool env call =>
    simp only [run, bind_eq_ok, pure_eq_ok] at hrun
    obtain ⟨⟨pool', books'⟩, hcall, rfl⟩ := hrun
    obtain ⟨hzero, hpool, hsender⟩ := hothers
    cases call with
    | deposit proof commitment token amount => exact deposit_noteStep hzeros hbacked hpool.symm hcall
    | withdraw args => exact processWithdraw_noteStep hzeros hbacked (CommitmentPool.withdraw_ok hcall)
    | withdrawFor args => exact processWithdraw_noteStep hzeros hbacked (CommitmentPool.withdrawFor_ok hcall).2
    | insertCommitment commitment =>
      have hsender : env.sender ≠ D.settlement := by simpa using hsender
      simp only [PoolCall.run, bind_eq_ok, pure_eq_ok, Prod.mk.injEq] at hcall
      obtain ⟨pool, hinsert, rfl, rfl⟩ := hcall
      obtain ⟨hauthorized, hinserted⟩ := CommitmentPool.insertCommitment_ok hinsert
      exact NoteStep.of_authorized hauthorized hzero hsender ⟨_, hinserted.spec.1.symm⟩
        (levels_inserted (Steps.single hinserted))
    | spendEscrowNullifier nullifier =>
      have hsender : env.sender ≠ D.settlement := by simpa using hsender
      simp only [PoolCall.run, bind_eq_ok, pure_eq_ok, Prod.mk.injEq] at hcall
      obtain ⟨pool, hspend, rfl, rfl⟩ := hcall
      obtain ⟨hauthorized, -, rfl⟩ := CommitmentPool.spendEscrowNullifier_ok hspend
      exact NoteStep.of_authorized hauthorized hzero hsender List.prefix_rfl rfl
    | transferToSettlement token amount =>
      have hsender : env.sender ≠ D.settlement := by simpa using hsender
      simp only [PoolCall.run, bind_eq_ok, pure_eq_ok, Prod.mk.injEq] at hcall
      obtain ⟨books, htransfer, rfl, rfl⟩ := hcall
      exact NoteStep.of_authorized (CommitmentPool.transferToSettlement_ok htransfer).1 hzero hsender
        List.prefix_rfl rfl
    | transferFee recipient token amount =>
      have hsender : env.sender ≠ D.settlement := by simpa using hsender
      simp only [PoolCall.run, bind_eq_ok, pure_eq_ok, Prod.mk.injEq] at hcall
      obtain ⟨books, htransfer, rfl, rfl⟩ := hcall
      exact NoteStep.of_authorized (CommitmentPool.transferFee_ok htransfer).1 hzero hsender List.prefix_rfl rfl
    | administer admin =>
      simp only [PoolCall.run, bind_eq_ok, pure_eq_ok, Prod.mk.injEq] at hcall
      obtain ⟨pool, hadmin, rfl, rfl⟩ := hcall
      exact administer_noteStep hkeeps hadmin

theorem externals_noteStep (hzeros : D.poseidon.ZeroTable IncrementalMerkleTree.zeroTable) {calls : List ExternalCall}
    (hothers : ∀ e ∈ calls, e.ByOthers D) (hkeeps : ∀ e ∈ calls, e.KeepsSettlement D)
    (hbacked : ∀ e ∈ calls, e.Backed C D)
    (hrun : Steps (fun call w w' => ExternalCall.run D w call = .ok w') calls w w') : NoteStep D w w' :=
  NoteStep.steps (fun e he _ _ hcall =>
    ExternalCall.run_noteStep hzeros (hothers e he) (hkeeps e he) (hbacked e he) hcall) hrun

/-! ### The paths -/

namespace PrivateSettlement

theorem Settles.noteStep (hzeros : D.poseidon.ZeroTable IncrementalMerkleTree.zeroTable) {spends : List (ℕ × ℕ)}
    {commitments : List ℕ} {payments : List Payment} {registrations : List Registration}
    (hsettles : Settles D spends commitments payments registrations w w')
    (hopens : w.pool.TreesAsked D.poseidon → ∀ notes, NotesInvariant D w notes →
      ∃ spent created, Move D notes (spends.map Prod.fst) commitments spent created ∧
        Covers spent created (outflow payments)) : NoteStep D w w' := by
  obtain ⟨pool₁, hspent, hinserted⟩ := hsettles.pool
  apply NoteStep.of_move hzeros hspent hinserted hsettles.books
  intro hasked notes hnotes
  obtain ⟨spent, created, hmove, hcovers⟩ := hopens hasked notes hnotes
  exact ⟨spent, created, hmove, fun _ => hcovers⟩

theorem settleAuth_noteStep (hzeros : D.poseidon.ZeroTable IncrementalMerkleTree.zeroTable) {p : SettleAuthParams}
    (hmaker : p.maker.Backed C D.poseidon) (htaker : p.taker.Backed C D.poseidon)
    (hsettle : settleAuth D env w p = .ok w') : NoteStep D w w' := by
  obtain ⟨hcross, ⟨hmakerRoot, htakerRoot⟩, hsettles, -⟩ := settleAuth_ok hsettle
  apply hsettles.noteStep hzeros
  intro hasked notes hnotes
  obtain ⟨makerSpent, makerCreated, hmakerMove, hmakerCovers⟩ := hmaker.opens hnotes hasked hmakerRoot
  obtain ⟨takerSpent, takerCreated, htakerMove, htakerCovers⟩ := htaker.opens hnotes hasked htakerRoot
  refine ⟨makerSpent ++ takerSpent, makerCreated ++ takerCreated, hmakerMove.append htakerMove, fun token => ?_⟩
  have hcovers := hmakerCovers.append htakerCovers token
  have hmakerCap := ite_add_le (c := p.taker.sellToken = token) hcross.makerCap
  have htakerCap := ite_add_le (c := p.taker.buyToken = token) hcross.takerCap
  simp only [SettleAuthParams.payments, outflow_cons, outflow_nil, hcross.makerSells, ← hcross.takerSells]
    at hcovers ⊢
  omega

theorem cancelPrivate_noteStep (hzeros : D.poseidon.ZeroTable IncrementalMerkleTree.zeroTable) {p : CancelParams}
    (hbacked : p.Backed C D.poseidon env.sender) (hcancel : cancelPrivate D env w p = .ok w') : NoteStep D w w' := by
  obtain ⟨-, hknown, -, hsettles⟩ := cancelPrivate_ok hcancel
  exact hsettles.noteStep hzeros fun hasked notes hnotes => hbacked.opens hnotes hasked hknown

theorem scatterDirectAuth_noteStep (hzeros : D.poseidon.ZeroTable IncrementalMerkleTree.zeroTable)
    {p : ScatterDirectAuthParams} (hbacked : p.proof.Backed C D.poseidon)
    (hscatter : scatterDirectAuth D env w p = .ok w') : NoteStep D w w' := by
  obtain ⟨hvalid, hknown, hsettles, -⟩ := scatterDirectAuth_ok hscatter
  apply hsettles.noteStep hzeros
  intro hasked notes hnotes
  obtain ⟨spent, created, hmove, hcovers⟩ := hbacked.opens hnotes hasked hknown
  refine ⟨spent, created, hmove, fun token => ?_⟩
  have hcovers := hcovers token
  have hcap := ite_add_le (c := p.proof.buyToken = token) hvalid.claimsCap
  simp only [outflow_cons, outflow_nil, hvalid.sameToken] at hcovers ⊢
  omega

/-- A payment by somebody else leaves the pool at least what it had. -/
theorem noteStep_of_sent {payer : Address} (payment : Payment) {books : Books} (settlement : PrivateSettlement)
    (vaults : Address → FeeVault) (hpayer : D.pool ≠ payer) (hpaid : Paid D payer payment w.books books) :
    NoteStep D w { w with books, settlement, vaults } := by
  refine NoteStep.of_books rfl rfl rfl rfl rfl fun heconomy => ⟨?_, ?_⟩
  · exact heconomy.of_books hpaid.totalSupply fun t s => by rw [hpaid.allowance]
  · exact Paid.other_le (Steps.single hpaid) hpayer

theorem noteStep_of_approved (token router : Address) (amount : ℕ) :
    NoteStep D w { w with books := w.books.approve token D.settlement router amount } := by
  refine NoteStep.of_books rfl rfl rfl rfl rfl fun heconomy => ⟨?_, fun _ => le_rfl⟩
  refine heconomy.of_books rfl fun t s => ?_
  simp [Ledger.approve, D.pool_ne_settlement]

theorem Swapped.noteStep (hzeros : D.poseidon.ZeroTable IncrementalMerkleTree.zeroTable) {p : SettleDexParams}
    {calls : List ExternalCall} {sellBalBefore : ℕ} {fee returned : Books} {called : World}
    (hothers : ∀ e ∈ calls, e.ByOthers D) (hkeeps : ∀ e ∈ calls, e.KeepsSettlement D)
    (hbacked : ∀ e ∈ calls, e.Backed C D) (hswapped : Swapped D p calls sellBalBefore w fee called returned w') :
    NoteStep D w w' := by
  obtain ⟨vault, feeAmount, -, hfeePaid⟩ := hswapped.feePaid
  obtain ⟨vaults, hcalls⟩ := hswapped.routerCalled
  obtain ⟨vault', surplus, -, hsurplusPaid⟩ := hswapped.surplusPaid
  have hpaid := noteStep_of_sent _ w.settlement vaults D.pool_ne_settlement hfeePaid
  have happroved := hpaid.trans (noteStep_of_approved p.proof.sellToken p.dexRouter
    (p.proof.sellAmount.toNat - dexPlatformFee w p.proof.sellAmount.toNat))
  have hcalled := happroved.trans (externals_noteStep hzeros hothers hkeeps hbacked hcalls)
  have hrevoked := hcalled.trans (noteStep_of_approved p.proof.sellToken p.dexRouter 0)
  have hreturned := hrevoked.trans (noteStep_of_sent _ called.settlement called.vaults
    D.pool_ne_settlement hswapped.unspentReturned)
  have hsent := hreturned.trans (noteStep_of_sent _ w'.settlement w'.vaults
    D.pool_ne_settlement hsurplusPaid)
  have hworld : w' = { called with books := w'.books, settlement := w'.settlement, vaults := w'.vaults } := by
    rw [← hswapped.pool]
  rw [hworld]
  exact hsent

theorem settleWithDex_noteStep (hzeros : D.poseidon.ZeroTable IncrementalMerkleTree.zeroTable) {p : SettleDexParams}
    {swap : Option (List ExternalCall)} (hothers : ∀ e ∈ swap.getD [], e.ByOthers D)
    (hkeeps : ∀ e ∈ swap.getD [], e.KeepsSettlement D) (hnested : ∀ e ∈ swap.getD [], e.Backed C D)
    (hbacked : p.proof.Backed C D.poseidon) (hsettle : settleWithDex D env w p swap = .ok w') : NoteStep D w w' := by
  obtain ⟨-, hknown, calls, w₁, rfl, hsettles, fee, called, returned, hswapped⟩ := settleWithDex_ok hsettle
  have hsettled : NoteStep D w w₁ := by
    apply hsettles.noteStep hzeros
    intro hasked notes hnotes
    obtain ⟨spent, created, hmove, hcovers⟩ := hbacked.opens hnotes hasked hknown
    exact ⟨spent, created, hmove, hcovers⟩
  exact hsettled.trans (hswapped.noteStep hzeros hothers hkeeps hnested)

theorem executeClaim_noteStep (hzeros : D.poseidon.ZeroTable IncrementalMerkleTree.zeroTable) {c : ClaimParams}
    (hothers : ∀ e ∈ c.receive.getD [], e.ByOthers D) (hkeeps : ∀ e ∈ c.receive.getD [], e.KeepsSettlement D)
    (hnested : ∀ e ∈ c.receive.getD [], e.Backed C D) (hclaim : executeClaim D env w c = .ok w') : NoteStep D w w' := by
  obtain ⟨-, hpay⟩ := executeClaim_ok hclaim
  rcases payClaim_ok hpay with ⟨-, books, htransfer, rfl⟩ |
    ⟨-, burned, books₁, books₂, calls, hreceive, hburn, hunwrap, hsend, hcalls⟩
  · exact noteStep_of_sent ⟨_, _, _⟩ _ _ D.pool_ne_settlement (Or.inr htransfer)
  · have hburned : NoteStep D w { w with books := burned, settlement := w.settlement.claimed c } := by
      refine NoteStep.of_books rfl rfl rfl rfl rfl fun heconomy => ⟨?_, fun t => ?_⟩
      · exact heconomy.of_books (Ledger.burn_totalSupply hburn) fun t s => by rw [Ledger.burn_allowance hburn]
      · have hbalance := Ledger.burn_balance hburn t D.pool
        rw [if_neg fun h => D.pool_ne_settlement h.2] at hbalance
        exact hbalance.ge
    have hunwrapped := hburned.trans (noteStep_of_sent ⟨_, _, _⟩ (w.settlement.claimed c) w.vaults
      D.pool_ne_weth (Or.inr hunwrap))
    have hsent := hunwrapped.trans (noteStep_of_sent ⟨_, _, _⟩ (w.settlement.claimed c) w.vaults
      D.pool_ne_settlement (Or.inr hsend))
    rw [hreceive] at hothers hkeeps hnested
    exact hsent.trans (externals_noteStep hzeros hothers hkeeps hnested hcalls)

end PrivateSettlement

/-- **The step lemma.** -/
theorem Call.run_noteStep (hzeros : D.poseidon.ZeroTable IncrementalMerkleTree.zeroTable) {call : Call}
    (hothers : call.ByOthers D) (hkeeps : call.KeepsSettlement D) (hbacked : call.Backed C D)
    (hrun : call.run D w = .ok w') : NoteStep D w w' := by
  obtain ⟨hnested, hbacked⟩ := hbacked
  cases call with
  | external call =>
    have hmem : call ∈ (Call.external call).externals := List.mem_cons_self
    exact ExternalCall.run_noteStep hzeros (hothers call hmem) (hkeeps call hmem) (hnested call hmem) hrun
  | settleAuth env p => exact settleAuth_noteStep hzeros hbacked.1 hbacked.2 hrun
  | cancelPrivate env p => exact cancelPrivate_noteStep hzeros hbacked hrun
  | settleWithDex env p swap => exact settleWithDex_noteStep hzeros hothers hkeeps hnested hbacked hrun
  | scatterDirectAuth env p => exact scatterDirectAuth_noteStep hzeros hbacked hrun
  | claimWithProof env c => exact executeClaim_noteStep hzeros hothers hkeeps hnested (claimWithProof_ok hrun)
  | claimWithProofBatch env claims =>
    have hmem : ∀ c ∈ claims, ∀ e ∈ c.receive.getD [], e ∈ (Call.claimWithProofBatch env claims).externals :=
      fun c hc e he => List.mem_flatMap.mpr ⟨c, hc, he⟩
    exact NoteStep.steps (fun c hc _ _ hclaim => executeClaim_noteStep hzeros (fun e he => hothers e (hmem c hc e he))
      (fun e he => hkeeps e (hmem c hc e he)) (fun e he => hnested e (hmem c hc e he)) hclaim)
      (claimWithProofBatch_ok hrun)

/-- What a run must be for its notes to make sense: others act as others, the owner authorizes this settlement contract only, and the accepted proofs are backed. -/
structure Honest (C : Circomlib) (D : Deployment) (w : World) (calls : List Call) : Prop where
  others : ∀ call ∈ calls, call.ByOthers D
  keeps : ∀ call ∈ calls, call.KeepsSettlement D
  backed : ∀ call ∈ accepted D w calls, call.Backed C D

theorem Honest.noteStep {calls : List Call} (hzeros : D.poseidon.ZeroTable IncrementalMerkleTree.zeroTable)
    (hhonest : Honest C D w calls) : NoteStep D w (w.after D calls) := by
  apply NoteStep.steps _ (run_accepted D w calls)
  intro call hcall v v' hrun
  have hmem := (accepted_sublist D w calls).subset hcall
  exact Call.run_noteStep hzeros (hhonest.others call hmem) (hhonest.keeps call hmem) (hhonest.backed call hcall) hrun

theorem Deployed.notesInvariant (hdeployed : Deployed D w) : NotesInvariant D w [] := by
  obtain ⟨htracks, hcommitted, hauthorized, hpending, hnullifiers⟩ := hdeployed.pool_spec
  refine ⟨hcommitted ▸ htracks, Or.inl hauthorized, Or.inl hpending, ?_, fun k hk => ?_⟩
  · rw [hcommitted]
    exact List.Forall₂.nil
  · rw [hnullifiers] at hk
    exact absurd hk Bool.false_ne_true

/-- **Pool solvency.** After any honest run over standard tokens of less than `2 ^ 128` units there are notes behind the pool, one a commitment, and the pool's balance of every token covers those of them that are not spent. -/
theorem pool_solvency {calls : List Call} (hzeros : D.poseidon.ZeroTable IncrementalMerkleTree.zeroTable)
    (hstandard : D.Standard) (hcap : ∀ token, D.cap token ≤ 2 ^ 128) (hdeployed : Deployed D w)
    (hsupply : ∀ token, w.books.totalSupply token < D.cap token) (hhonest : Honest C D w calls)
    (hasked : (w.after D calls).pool.TreesAsked D.poseidon) :
    ∃ notes, List.Forall₂ (fun (leaf : ℕ) n => D.poseidon.Commits n (leaf : Scalar))
        (w.after D calls).pool.committed notes ∧
      ∀ token, Notes.unspent (Note.nullifier D.poseidon) (Note.balanceIn token)
        (w.after D calls).pool.nullifiers notes ≤ (w.after D calls).books.balanceOf token D.pool := by
  have heconomy : Economy D w := ⟨hstandard, hcap, hsupply, hdeployed.poolAllowance⟩
  have hempty : PoolSolvent D w [] := fun _ => Nat.zero_le _
  obtain ⟨created, hnotes, hsolvent⟩ := (hhonest.noteStep hzeros).keeps hasked [] hdeployed.notesInvariant
  exact ⟨[] ++ created, hnotes.commits, (hsolvent heconomy hempty).2⟩

/-! ### The trade -/

theorem tradePoseidon_zeros : tradePoseidon.ZeroTable IncrementalMerkleTree.zeroTable := by
  have hlength : IncrementalMerkleTree.zeroTable.length = 20 := rfl
  have hrows : ∀ i < 19, tradePoseidon.hashWords (IncrementalMerkleTree.zeroTable.getD i 0)
      (IncrementalMerkleTree.zeroTable.getD i 0) = IncrementalMerkleTree.zeroTable.getD (i + 1) 0 := by
    decide +kernel
  exact fun i hi => hrows i (by omega)

theorem treesAsked_trade {pool : CommitmentPool} {log : List ℕ} (hlog : pool.committed = log)
    (hlevels : pool.tree.levels = 20)
    (hlayers : ∀ k ≤ log.length, MerkleTree.layersIn tradePoseidon.hashPair
      (fun left right => decide ([left, right] ∈ tradePoseidon.asked)) emptyNode 0 20
      ((log.take k).map fun leaf : ℕ => (leaf : Scalar)) = true) : pool.TreesAsked tradePoseidon := by
  apply CommitmentPool.treesAsked_of_layersIn _ tradePoseidon_zeros hlevels.le
    fun left right hmember => of_decide_eq_true hmember
  rwa [hlevels, hlog]

/-- The deposit of the note of an order. -/
def Circuit.AuthorizeSignals.deposit (s : Circuit.AuthorizeSignals) : Circuit.DepositSignals :=
  ⟨s.deposited, s.sellToken, s.balance, s.secret, s.salt, s.pubKeyAx, s.pubKeyAy⟩

theorem makerOrder_deposit : Circuit.Deposit tradeCircomlib tradePoseidon makerOrder.deposit where
  pubKeyOnCurve := by decide +kernel
  smallOrder := ⟨0x2b1d2664bda7cf08cca4350668ef0748545495e18f0fd2c9b17b5ddc7ef4b10f,
    0x267df4319d67b217751a810c7872cdfa1c320a01a3e9b4474e2bf13f2b4dde04,
    0x222613b863ce71f86dfb7c7b71f0d47aea4419b6e4646de4586554f1844807d1,
    0x1825871add97d50c3ae3f5ee0f8930600b9642a7372d27668471de79dc2f5ae6,
    0x11d19d61c4d57ae7dcc761dd815e6de8d1d3bffb4d13b575292b0ca69e9361ae,
    0x10bee9ed960ecb6a6312520dcf8420bdcf8eea9868b8d0c149b038533ac2578e, by decide +kernel⟩
  commitment := by decide +kernel

theorem takerOrder_deposit : Circuit.Deposit tradeCircomlib tradePoseidon takerOrder.deposit where
  pubKeyOnCurve := by decide +kernel
  smallOrder := ⟨0x14c8585d874cc423ad6a3b685b18ffc2374d0f76ef5030710b0b804c0f7e13fe,
    0x2f1c5492a23262bb8751dbe05a13e7a3e2936a2df740e295d062e4b38b15734f,
    0x12c76d627691c500861febaa3a1ba087c818746ed2878269caf4d2de9d26e112,
    0x29c510aadeed643805d35277270f759e4fa175fc89e991288aac05df2a432c03,
    0x30465e4c15754e3429d5d1fc48258bb8b55134e089837e5dd9f8e0c8ae44bebe,
    0x2e05fa07172422c79f4dece44e79a239600179f66f15aaeb31f6f49028cd4773, by decide +kernel⟩
  commitment := by decide +kernel

theorem Honest.of_forall {calls : List Call} (hothers : ∀ call ∈ calls, call.ByOthers D)
    (hkeeps : ∀ call ∈ calls, call.KeepsSettlement D) (hbacked : ∀ call ∈ calls, call.Backed C D) :
    Honest C D w calls :=
  ⟨hothers, hkeeps, fun call hcall => hbacked call ((accepted_sublist D w calls).subset hcall)⟩

theorem tradeSetup_backed : ∀ call ∈ tradeSetup, call.Backed tradeCircomlib tradeDeployment := by
  have hdeposit : ∃ s, Circuit.Deposit tradeCircomlib tradeDeployment.poseidon s ∧
      s.publicInputs.map ZMod.val = [makerOrder.deposited, (13 : Address).toNat, 1000] :=
    ⟨makerOrder.deposit, makerOrder_deposit, by decide +kernel⟩
  simpa [tradeSetup, Call.Backed, Call.externals, ExternalCall.Backed] using hdeposit

theorem takerDeposit_backed : ∀ call ∈ takerDeposit, call.Backed tradeCircomlib tradeDeployment := by
  have hdeposit : ∃ s, Circuit.Deposit tradeCircomlib tradeDeployment.poseidon s ∧
      s.publicInputs.map ZMod.val = [takerOrder.deposited, (14 : Address).toNat, 320] :=
    ⟨takerOrder.deposit, takerOrder_deposit, by decide +kernel⟩
  simpa [takerDeposit, Call.Backed, Call.externals, ExternalCall.Backed] using hdeposit

def tradeCalls : List Call := tradeSetup ++ takerDeposit ++ [.settleAuth (.permissive 12) tradeParams]

theorem tradeCalls_honest : Honest tradeCircomlib tradeDeployment tradeWorld tradeCalls := by
  apply Honest.of_forall
  · simp [tradeCalls, tradeSetup, takerDeposit, Call.ByOthers, Call.externals, ExternalCall.ByOthers,
      Ledger.Action.actor, tradeDeployment, Deployment.small, Env.permissive]
  · simp [tradeCalls, tradeSetup, takerDeposit, Call.KeepsSettlement, Call.externals, ExternalCall.KeepsSettlement,
      tradeDeployment, Deployment.small]
  · intro call hcall
    simp only [tradeCalls, List.mem_append, List.mem_singleton] at hcall
    rcases hcall with (hcall | hcall) | rfl
    · exact tradeSetup_backed call hcall
    · exact takerDeposit_backed call hcall
    · exact ⟨fun e he => absurd he List.not_mem_nil, makerOrder_backed, takerOrder_backed⟩

/-- After the trade the maker's residual of `600` is the only unspent note, and the pool holds `607` and `7`. -/
theorem pool_solvency_trade :
    ((tradeWorld.after tradeDeployment tradeCalls).books.balanceOf 13 tradeDeployment.pool = 607 ∧
      (tradeWorld.after tradeDeployment tradeCalls).books.balanceOf 14 tradeDeployment.pool = 7) ∧
    ∃ notes, List.Forall₂ (fun (leaf : ℕ) n => tradeDeployment.poseidon.Commits n (leaf : Scalar))
        (tradeWorld.after tradeDeployment tradeCalls).pool.committed notes ∧
      ∀ token, Notes.unspent (Note.nullifier tradeDeployment.poseidon) (Note.balanceIn token)
        (tradeWorld.after tradeDeployment tradeCalls).pool.nullifiers notes ≤
          (tradeWorld.after tradeDeployment tradeCalls).books.balanceOf token tradeDeployment.pool := by
  have hlog : (tradeWorld.after tradeDeployment tradeCalls).pool.committed =
      [makerOrder.deposited, takerOrder.deposited, makerOrder.newCommitment.val] := by decide +kernel
  have hasked : (tradeWorld.after tradeDeployment tradeCalls).pool.TreesAsked tradePoseidon :=
    treesAsked_trade hlog (by decide +kernel) (by decide +kernel)
  have hsupply : ∀ token, tradeWorld.books.totalSupply token < tradeDeployment.cap token := by
    intro token
    simp only [tradeWorld, World.fresh, Ledger.soleHolder, tradeDeployment, Deployment.small]
    split <;> norm_num
  exact ⟨by decide +kernel, pool_solvency tradePoseidon_zeros (fun _ _ => rfl) (fun _ => le_rfl) tradeWorld_deployed
    hsupply tradeCalls_honest hasked⟩

end ScatterDex
