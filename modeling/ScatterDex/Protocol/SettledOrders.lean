import ScatterDex.Protocol.OrderLifecycle

/-!
# Orders settled on chain

The relayer reads the outcome of a settlement off its own transaction: an error is an order that was not settled. That is right as long as a block decides each settlement while the operation that sent it, or asked a peer to, waits for it. A transaction mined after the wait was given up leaves a live order behind, and the next attempt reverts on its spent nullifier.
-/

namespace ScatterDex

open Fallible Transactions Mempool

namespace Relayer

/-- A settlement that spends the nullifier was mined. -/
def World.Spent (w : World) (n : ℕ) : Prop := ∃ txHash nullifiers, n ∈ nullifiers ∧ w.Mined txHash nullifiers

/-- A settlement is mined while an operation has its orders in hand, and no operation gives up after that. -/
def World.Awaited (w : World) : Step → Prop
  | .accept i => w.Rechecked (.accept i)
  | .insert i => ∀ post, w.posts[i]? = some post → ¬w.Spent post.order.nullifier
  | .workerEnd submission => ∀ job ∈ w.worker, (∃ err, submission.result job.label = .error err) →
    ∀ n ∈ job.nullifiers, ¬w.Spent n
  | .offerEnd n _ settled => settled = none → ¬w.Spent n
  | .offerThrow n _ => ¬w.Spent n
  | .acceptEnd n _ submission => (∃ err, submission.result "settleAuth" = .error err) → ¬w.Spent n
  | .restart => ∀ n, w.InHand n → ¬w.Spent n
  | .mine txHash => ∀ tx, w.txs[txHash]? = some tx → ∀ n ∈ tx.body, (w.cells n).row.isSome = true → w.InHand n
  | _ => True

theorem World.Awaited.rechecked {w : World} {a : Step} (ha : w.Awaited a) : w.Rechecked a := by
  cases a with
  | accept i => exact ha
  | _ => trivial

/-! ### Transactions -/

section

variable {w w' : World} {a : Step} {n txHash : ℕ} {nullifiers : List ℕ}

@[simp] theorem World.modify_txs {f : Cell → Cell} : (w.modify n f).txs = w.txs := rfl

@[simp] theorem World.inc_txs {pk : PubKeyId} : (w.incPubKeyCount pk).txs = w.txs := rfl

@[simp] theorem World.dec_txs {pk : PubKeyId} : (w.decPubKeyCount pk).txs = w.txs := rfl

theorem handleJob_txs {row : OrderRow} {counterparty : Option (ℕ × Entry)} : (w.handleJob n row counterparty).txs = w.txs := by
  unfold World.handleJob
  dsimp only
  split
  · rfl
  · split <;> rfl

theorem jobSettled_txs {job : Job} : (w.jobSettled job txHash).txs = w.txs := by
  unfold World.jobSettled
  cases job.partner <;> rfl

theorem jobFailed_txs {job : Job} {err : String} : (w.jobFailed job err).txs = w.txs := by
  unfold World.jobFailed
  dsimp only
  cases job.partner <;> split <;> rfl

theorem World.txs_step (hstep : run a w = .ok w') :
    (∃ body, w'.txs = w.txs ++ [⟨body, .pending⟩]) ∨
      (∃ i tx fate, w.txs[i]? = some tx ∧ tx.fate = .pending ∧ w'.txs = settle w.txs i fate ∧ (fate = .mined → a = .mine i)) ∨
      w'.txs = w.txs := by
  cases a
  case workerSend =>
    simp only [run, bind_eq_ok, orError_eq_ok, pure_eq_ok] at hstep
    obtain ⟨job, -, rfl⟩ := hstep
    exact Or.inl ⟨_, rfl⟩
  case acceptSend m i =>
    simp only [run, bind_eq_ok, orError_eq_ok, pure_eq_ok] at hstep
    obtain ⟨h, -, taker, -, rfl⟩ := hstep
    exact Or.inl ⟨_, rfl⟩
  case peerSend body =>
    obtain rfl := Except.ok.inj hstep
    exact Or.inl ⟨_, rfl⟩
  case mine i =>
    simp only [run, bind_eq_ok, require_eq_ok, orError_eq_ok, pure_eq_ok] at hstep
    obtain ⟨tx, htx, -, hpending, -, -, rfl⟩ := hstep
    exact Or.inr (Or.inl ⟨i, tx, .mined, htx, hpending, rfl, fun _ => rfl⟩)
  case revert i =>
    simp only [run, bind_eq_ok, require_eq_ok, orError_eq_ok, pure_eq_ok] at hstep
    obtain ⟨tx, htx, -, hpending, rfl⟩ := hstep
    exact Or.inr (Or.inl ⟨i, tx, .reverted, htx, hpending, rfl, fun h => (by cases h)⟩)
  -- no other step reaches the chain
  all_goals
    apply Or.inr
    apply Or.inr
    simp only [run, bind_eq_ok, require_eq_ok, orError_eq_ok, pure_eq_ok] at hstep
    grind [World.modify_txs, World.dec_txs, World.inc_txs, handleJob_txs, jobSettled_txs, jobFailed_txs, pure_eq_ok, bind_eq_ok, require_eq_ok, orError_eq_ok]

theorem World.Spent.step (hspent : w.Spent n) (hstep : run a w = .ok w') : w'.Spent n := by
  obtain ⟨txHash, nullifiers, hn, hmined⟩ := hspent
  refine ⟨txHash, nullifiers, hn, ?_⟩
  unfold World.Mined at hmined ⊢
  rcases World.txs_step hstep with ⟨body, htxs⟩ | ⟨i, tx, fate, htx, hpending, htxs, -⟩ | htxs
  · obtain ⟨hlt, -⟩ := List.getElem?_eq_some_iff.mp hmined
    rw [htxs, List.getElem?_append_left hlt]
    exact hmined
  · have hne : i ≠ txHash := by
      rintro rfl
      obtain rfl := Option.some.inj (htx.symm.trans hmined)
      cases hpending
    rw [htxs, settle_of_ne hne]
    exact hmined
  · rw [htxs]
    exact hmined

theorem World.spent_of_step (hstep : run a w = .ok w') (hspent : w'.Spent n) :
    w.Spent n ∨ ∃ txHash tx, a = .mine txHash ∧ w.txs[txHash]? = some tx ∧ n ∈ tx.body := by
  obtain ⟨txHash, nullifiers, hn, hmined⟩ := hspent
  unfold World.Mined at hmined
  rcases World.txs_step hstep with ⟨body, htxs⟩ | ⟨i, tx, fate, htx, hpending, htxs, hmine⟩ | htxs
  · rw [htxs, List.getElem?_append] at hmined
    split at hmined
    · exact Or.inl ⟨txHash, nullifiers, hn, hmined⟩
    · rw [List.getElem?_singleton] at hmined
      split at hmined <;> cases hmined
  · rw [htxs] at hmined
    rcases of_settle hmined with hsame | ⟨rfl, hfate, fate₀, hbody⟩
    · exact Or.inl ⟨txHash, nullifiers, hn, hsame⟩
    · exact Or.inr ⟨txHash, _, hmine hfate.symm, hbody, hn⟩
  · rw [htxs] at hmined
    exact Or.inl ⟨txHash, nullifiers, hn, hmined⟩

/-! ### The order of a spent nullifier -/

/-- The order of a spent nullifier is in hand or has its outcome. -/
def Cell.Outcome (c : Cell) (t : Option Task) : Prop :=
  ∀ row ∈ c.row, (c.holds ≠ [] ∨ t ≠ none) ∨ row.status = .settled ∨ row.status = .cancelled

variable {c c' : Cell} {t t' : Option Task} {row : OrderRow}

theorem Cell.Outcome.of_row (hstatus : ∀ row ∈ c.row, row.status = .settled ∨ row.status = .cancelled) : c.Outcome t :=
  fun row hrow => Or.inr (hstatus row hrow)

theorem Moves.outcome (hw : w.Sound) (hspent : w.Spent n) (hc : (w.cells n).Outcome (w.task n)) (ha : w.Awaited a)
    (hmove : Moves w n a c' t') : c'.Outcome t' ∧
      ((∀ row ∈ (w.cells n).row, row.status.isLiveStatus = false) → ∀ r ∈ c'.row, r.status.isLiveStatus = false) := by
  have hs := hw.cell n
  -- a row in the queue is not in hand, and so it has its outcome
  have hqueue : ∀ row : OrderRow, (w.cells n).row = some row → row.Claimable w.nowMs → w.worker = none → False := by
    intro row hrow hdue hidle
    rcases hc row hrow with (hheld | hbusy) | hdone | hdone
    · exact hheld (hs.free_of_row hrow (Or.inr hdue.1)).1
    · exact hbusy (World.task_of_idle hidle)
    · rcases hdue.1 with h | h <;> cases hdone.symm.trans h
    · rcases hdue.1 with h | h <;> cases hdone.symm.trans h
  cases hmove with
  | keep => exact ⟨hc, id⟩
  | forget hn hrow hfailed => exact ⟨fun row hrow' => (by cases hrow'), fun _ r hr => (by cases hr)⟩
  | @insert i post hpost hn hrow =>
    subst hn
    exact absurd hspent (ha post hpost)
  | start hidle hrow hdue hgone => exact (hqueue _ hrow hdue hidle).elim
  | matched hidle hentry hlive => exact ⟨fun row hrow => Or.inl (Or.inr (Option.some_ne_none _)), id⟩
  | park hidle hrow hdue => exact (hqueue _ hrow hdue hidle).elim
  | @ownSettled submission job txHash hjob hn hmined =>
    have hrow' : ∀ r ∈ ((w.cells n).finish job.stored (·.markSettled txHash) .settled).row, r.status = .settled := by
      intro r hr
      rw [Cell.finish, Cell.mark_row] at hr
      obtain ⟨row, -, rfl⟩ := Option.map_eq_some_iff.mp hr
      rfl
    refine ⟨.of_row fun r hr => Or.inl (hrow' r hr), fun hlive r hr => ?_⟩
    rw [hrow' r hr]
    rfl
  | @partnerSettled submission job p txHash hjob hpair hmined =>
    have hrow' : ∀ r ∈ ((w.cells n).finish (some p) (·.markSettled txHash) .settled).row, r.status = .settled := by
      intro r hr
      rw [Cell.finish, Cell.mark_row] at hr
      obtain ⟨row, -, rfl⟩ := Option.map_eq_some_iff.mp hr
      rfl
    refine ⟨.of_row fun r hr => Or.inl (hrow' r hr), fun hlive r hr => ?_⟩
    rw [hrow' r hr]
    rfl
  | @ownFailed submission job err hjob hn herr =>
    refine absurd hspent (ha job hjob ⟨err, herr⟩ n ?_)
    subst hn
    unfold Job.nullifiers
    split <;> simp
  | @partnerFailed submission job p err hjob hpair herr =>
    refine absurd hspent (ha job hjob ⟨err, herr⟩ n ?_)
    rw [Job.nullifiers, hpair]
    exact List.mem_cons_self
  | offer hentry hlive hnow =>
    refine ⟨fun row hrow => Or.inl (Or.inl (List.append_ne_nil_of_right_ne_nil _ (List.cons_ne_nil _ _))),
      fun _ r hr => ?_⟩
    obtain ⟨row', -, rfl⟩ := Option.map_eq_some_iff.mp hr
    rfl
  | accept hv hn =>
    refine ⟨fun row hrow => Or.inl (Or.inl (List.append_ne_nil_of_right_ne_nil _ (List.cons_ne_nil _ _))),
      fun _ r hr => ?_⟩
    obtain ⟨row', -, rfl⟩ := Option.map_eq_some_iff.mp hr
    rfl
  | @holdSettled a i h txHash hhold ha' hmined =>
    have hrow' : ∀ r ∈ ((w.cells n).holdSettled i h txHash).row, r.status = .settled := by
      intro r hr
      obtain ⟨row, -, rfl⟩ := Option.map_eq_some_iff.mp hr
      rfl
    refine ⟨.of_row fun r hr => Or.inl (hrow' r hr), fun hlive r hr => ?_⟩
    rw [hrow' r hr]
    rfl
  | restore hhold ha' =>
    rcases ha' with rfl | rfl | ⟨submission, err, rfl, herr⟩
    · exact absurd hspent (ha rfl)
    · exact absurd hspent ha
    · exact absurd hspent (ha ⟨err, herr⟩)
  | release hhold hstatus => exact absurd hspent ha
  | @cancel a e hentry ha' =>
    have hrow' : ∀ r ∈ ((w.cells n).cancel e).row, r.status = .cancelled := by
      intro r hr
      rw [Cell.cancel_row] at hr
      obtain ⟨row, -, rfl⟩ := Option.map_eq_some_iff.mp hr
      rfl
    refine ⟨.of_row fun r hr => Or.inr (hrow' r hr), fun hlive r hr => ?_⟩
    rw [hrow' r hr]
    rfl
  | purge hentry hstatus =>
    refine ⟨fun row hrow => ?_, fun hlive r hr => ?_⟩
    · rw [Cell.removeEntry_row] at hrow
      rw [Cell.removeEntry_holds]
      exact hc row hrow
    · rw [Cell.removeEntry_row] at hr
      exact hlive r hr
  | sweep =>
    have hswept : ∀ r ∈ ((w.cells n).updateRow fun row => row.sweep w.nowSeconds).row, ∃ row ∈ (w.cells n).row,
        r.toAuthorizeOrderRow = row.sweep w.nowSeconds := by
      intro r hr
      obtain ⟨row, hrow, rfl⟩ := Option.map_eq_some_iff.mp hr
      exact ⟨row, hrow, rfl⟩
    refine ⟨fun r hr => ?_, fun hlive r hr => ?_⟩
    · obtain ⟨row, hrow, hr'⟩ := hswept r hr
      rcases hc row hrow with hhand | hdone
      · exact Or.inl hhand
      · apply Or.inr
        rw [hr', AuthorizeOrderRow.sweep_of_other] <;> rcases hdone with h | h <;> rw [h] <;> decide
    · obtain ⟨row, hrow, hr'⟩ := hswept r hr
      rw [hr']
      rcases row.sweep_status w.nowSeconds with h | h
      · rw [h]
        exact hlive row hrow
      · rw [h]
        rfl
  | restart =>
    have hdone : ∀ row ∈ (w.cells n).row, row.status = .settled ∨ row.status = .cancelled :=
      fun row hrow => (hc row hrow).resolve_left fun hhand => ha n hhand hspent
    have hrow' : ∀ r ∈ ((w.cells n).restart w.nextId).row, r.status = .settled ∨ r.status = .cancelled := by
      intro r hr
      rw [Cell.restart_row] at hr
      obtain ⟨row, hrow, rfl⟩ := Option.map_eq_some_iff.mp hr
      have hunsettling : row.status ≠ .settling := by
        rcases hdone row hrow with h | h <;> rw [h] <;> decide
      show row.resetOrphaned.status = _ ∨ row.resetOrphaned.status = _
      rw [AuthorizeOrderRow.resetOrphaned, if_neg hunsettling]
      exact hdone row hrow
    refine ⟨.of_row hrow', fun hlive r hr => ?_⟩
    rcases hrow' r hr with h | h <;> rw [h] <;> rfl

end

/-! ### Runs -/

structure World.Settles (w : World) : Prop where
  sound : w.Sound
  outcome : ∀ n, w.Spent n → (w.cells n).Outcome (w.task n)

theorem World.settles_start (nowMs : ℕ) : (World.start nowMs).Settles where
  sound := World.sound_start nowMs
  outcome n _ row hrow := by cases hrow

theorem World.Settles.step {w w' : World} {a : Step} (hw : w.Settles) (ha : w.Awaited a) (hstep : run a w = .ok w') :
    w'.Settles where
  sound := hw.sound.step ha.rechecked hstep
  outcome n hspent := by
    rcases World.spent_of_step hstep hspent with hbefore | ⟨txHash, tx, rfl, htx, hn⟩
    · exact (World.moves hw.sound.distinct hstep n).outcome hw.sound hbefore (hw.outcome n hbefore) ha |>.1
    · have hsame : w'.cells = w.cells ∧ w'.worker = w.worker := by
        simp only [run, bind_eq_ok, require_eq_ok, orError_eq_ok, pure_eq_ok] at hstep
        obtain ⟨-, -, -, -, -, -, rfl⟩ := hstep
        exact ⟨rfl, rfl⟩
      intro row hrow
      rw [hsame.1] at hrow ⊢
      rw [World.task, hsame.2]
      exact Or.inl (ha tx htx n hn (Option.isSome_of_eq_some hrow))

/-- In a run that waits for each settlement, an order settled on chain is never failed or dead, and once it is not live it never is again. -/
theorem settled_orders (nowMs : ℕ) (as bs : List Step) (halong : Along run World.Awaited (World.start nowMs) (as ++ bs)) (n : ℕ)
    (hspent : (after run (World.start nowMs) as).Spent n) (row : OrderRow)
    (hrow : ((after run (World.start nowMs) as).cells n).row = some row) :
    row.status ≠ .failed ∧ row.status ≠ .dead_letter ∧ (row.status.isLiveStatus = false →
      ∀ r ∈ ((after run (World.start nowMs) (as ++ bs)).cells n).row, r.status.isLiveStatus = false) := by
  obtain ⟨has, hbs⟩ := halong.of_append
  have hsettles : (after run (World.start nowMs) as).Settles :=
    invariant_along (fun w a w' hw ha hstep => hw.step ha hstep) (World.settles_start nowMs) has
  have hopen : row.status ≠ .failed ∧ row.status ≠ .dead_letter := by
    have hs := hsettles.sound.cell n
    have hthis : ∀ {r : OrderRow}, ((after run (World.start nowMs) as).cells n).row = some r → r = row :=
      fun hr => Option.some.inj (hr.symm.trans hrow)
    rcases hsettles.outcome n hspent row hrow with (hheld | hbusy) | hdone | hdone
    · obtain ⟨h, hh⟩ := List.exists_mem_of_ne_nil _ hheld
      obtain ⟨-, -, -, ⟨r, hr, hstatus⟩, -⟩ := hs.held h hh
      obtain rfl := hthis hr
      rcases hstatus with h | h <;> rw [h] <;> decide
    · obtain ⟨task, htask⟩ := Option.ne_none_iff_exists'.mp hbusy
      cases task with
      | own stored pubKey =>
        obtain ⟨r, hr, hstatus⟩ := (hs.own _ _ htask).1
        obtain rfl := hthis hr
        rcases hstatus with h | h | h <;> rw [h] <;> decide
      | partner p =>
        obtain ⟨r, hr, hstatus⟩ := (hs.partner _ htask).1
        obtain rfl := hthis hr
        exact hstatus
    · rw [hdone]
      decide
    · rw [hdone]
      decide
  refine ⟨hopen.1, hopen.2, fun hlive => ?_⟩
  rw [after_append]
  have hkept := invariant_along
    (I := fun w : World => w.Settles ∧ w.Spent n ∧ ∀ r ∈ (w.cells n).row, r.status.isLiveStatus = false)
    (fun w a w' hw ha hstep => ?_) ⟨hsettles, hspent, fun r hr => ?_⟩ hbs
  · exact hkept.2.2
  · obtain ⟨hw, hspent, hquiet⟩ := hw
    exact ⟨hw.step ha hstep, hspent.step hstep,
      ((World.moves hw.sound.distinct hstep n).outcome hw.sound hspent (hw.outcome n hspent) ha).2 hquiet⟩
  · obtain rfl := Option.some.inj (hrow.symm.trans hr)
    exact hlive

/-- A same-token order whose settlement was sent. -/
def scatterSent : List Step := submitted (plainOrder 5 7 7 100) (1, 2) ++ [.claim 5 none, .workerSend]

/-- A submission whose receipt comes, and one whose receipt does not. -/
def received : Submission := .sent ⟨fun _ => .ok 0, .ok (some true), fun _ => .ok none⟩

def timedOut : Submission := .sent ⟨fun _ => .ok 0, .error "timeout", fun _ => .ok none⟩

theorem settled_orders_scatter : ∃ r, ((after run (World.start 0) (scatterSent ++ [.mine 0] ++ [.workerEnd received])).cells 5).row = some r ∧
    r.status.isLiveStatus = false := by
  have hmined : (after run (World.start 0) (scatterSent ++ [.mine 0])).Mined 0 [5] := by decide +kernel
  have hstatus : (after run (World.start 0) (scatterSent ++ [.mine 0])).rowStatus 5 = some .settling := by decide +kernel
  have hinsert : World.Awaited (after run (World.start 0) [.post (plainOrder 5 7 7 100) 1 (1, 2), .reserve 0]) (.insert 0) := by
    intro post _ hspent
    obtain ⟨txHash, nullifiers, -, hmined⟩ := hspent
    have hnone : (after run (World.start 0) [.post (plainOrder 5 7 7 100) 1 (1, 2), .reserve 0]).txs.isEmpty = true := by
      decide +kernel
    rw [World.Mined, List.isEmpty_iff.mp hnone] at hmined
    cases hmined
  have hmine : World.Awaited (after run (World.start 0) scatterSent) (.mine 0) := by
    intro tx htx n hn _
    have hbody : ((after run (World.start 0) scatterSent).txs[0]?).map (fun tx => tx.body) = some [5] := by decide +kernel
    have htask : ((after run (World.start 0) scatterSent).task 5).isSome = true := by decide +kernel
    rw [htx] at hbody
    have hsole : tx.body = [5] := Option.some.inj hbody
    rw [hsole, List.mem_singleton] at hn
    subst hn
    exact Or.inr (Option.isSome_iff_ne_none.mp htask)
  have hend : World.Awaited (after run (World.start 0) (scatterSent ++ [.mine 0])) (.workerEnd received) := by
    intro job _ herr
    obtain ⟨err, herr⟩ := herr
    cases herr
  have halong : Along run World.Awaited (World.start 0) (scatterSent ++ [.mine 0] ++ [.workerEnd received]) :=
    ⟨trivial, trivial, hinsert, trivial, trivial, hmine, hend, trivial⟩
  obtain ⟨row, hrow, hsettling⟩ := World.rowStatus_eq_some.mp hstatus
  have hthere : ((after run (World.start 0) (scatterSent ++ [.mine 0] ++ [.workerEnd received])).cells 5).row.isSome = true := by
    decide +kernel
  obtain ⟨r, hr⟩ := Option.isSome_iff_exists.mp hthere
  refine ⟨r, hr, (settled_orders 0 _ _ halong 5 ⟨0, [5], List.mem_singleton_self 5, hmined⟩ row hrow).2.2 ?_ r hr⟩
  rw [hsettling]
  rfl

/-- A transaction is mined after its receipt was given up, and the retry reverts on the spent nullifier. -/
theorem settled_order_failed : ¬∀ nowMs as n s, (after run (World.start nowMs) as).Spent n →
    (after run (World.start nowMs) as).rowStatus n = some s → s ≠ .failed := by
  intro h
  have hmined : (after run (World.start 0) (scatterSent ++ [.workerEnd timedOut, .mine 0, .elapse 2000, .claim 5 none,
      .workerEnd (.refused "execution reverted")])).Mined 0 [5] := by decide +kernel
  have hfailed : (after run (World.start 0) (scatterSent ++ [.workerEnd timedOut, .mine 0, .elapse 2000, .claim 5 none,
      .workerEnd (.refused "execution reverted")])).rowStatus 5 = some .failed := by decide +kernel
  exact h 0 _ 5 _ ⟨0, [5], List.mem_singleton_self 5, hmined⟩ hfailed rfl

end Relayer

end ScatterDex
