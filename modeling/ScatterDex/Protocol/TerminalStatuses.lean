import ScatterDex.Protocol.OrderLifecycle

/-!
# Final statuses

A row that is settled, cancelled, dead or expired should stay so, and a failed one leaves only by a new submission. Most writers update a row whatever its status, and what keeps the law is that they take turns: the worker writes a row that is settling, an operation between relayers one that is matched. The turns are broken by the expiry sweep on the row of the job, by a cancellation of an order that an operation has in hand or of a failed one, and by an operation that starts on an order the sweep has expired.
-/

namespace ScatterDex

open Transactions

namespace Relayer

def AuthorizeOrderStatus.isFinal (s : AuthorizeOrderStatus) : Bool := s ∈ [.settled, .cancelled, .dead_letter, .expired]

/-- No writer comes between an operation and its row, and none starts on a row that expired. -/
def World.Undisturbed (w : World) : Step → Prop
  | .offer n _ _ => ∀ row ∈ (w.cells n).row, row.status ≠ .expired
  | .accept i => ∀ v, w.verifying[i]? = some v → (w.cells v.mapKey).entry = some v.maker ∧
    ((w.cells v.mapKey).status v.maker.id).isLiveStatus = true ∧ ∀ row ∈ (w.cells v.mapKey).row, row.status ≠ .expired
  | .sweep => ∀ job ∈ w.worker, ∀ row ∈ (w.cells job.nullifier).row, ¬row.Swept w.nowSeconds
  | .privateCancel n => (w.cells n).holds = [] ∧ (∀ job ∈ w.worker, job.nullifier ≠ n) ∧
    ∀ row ∈ (w.cells n).row, row.status ≠ .failed
  | _ => True

theorem World.Undisturbed.rechecked {w : World} {a : Step} (ha : w.Undisturbed a) : w.Rechecked a := by
  cases a with
  | accept i =>
    intro v hv
    obtain ⟨hentry, hlive, -⟩ := ha v hv
    exact ⟨hentry, hlive⟩
  | _ => trivial

/-- The row of a job is settling, and that of an operation between relayers matched. -/
structure Cell.InTurn (c : Cell) (t : Option Task) : Prop where
  own : ∀ stored pubKey, t = some (.own stored pubKey) → ∃ row ∈ c.row, row.status = .settling
  held : ∀ h ∈ c.holds, ∃ row ∈ c.row, row.status = .matched

section

variable {w w' : World} {a : Step} {n : ℕ} {c c' : Cell} {t t' : Option Task} {row : OrderRow}

theorem Cell.InTurn.of_free (hholds : c.holds = []) (hown : ∀ stored pubKey, t ≠ some (.own stored pubKey)) : c.InTurn t where
  own stored pubKey ht := absurd ht (hown stored pubKey)
  held h hh := by
    rw [hholds] at hh
    cases hh

theorem Cell.InTurn.of_idle (hholds : c.holds = []) : c.InTurn none :=
  .of_free hholds fun stored pubKey h => (by cases h)

theorem Cell.InTurn.hold (e : Entry) (taker : Option ℕ) (hrow : c.row = some row) : (c.hold e taker).InTurn none where
  own stored pubKey h := by cases h
  held h _ := by
    refine ⟨{ row with toAuthorizeOrderRow := row.updateStatus .matched none }, ?_, rfl⟩
    show c.row.map _ = _
    rw [hrow]
    rfl

theorem Cell.InTurn.moves (hw : w.Sound) (hturn : (w.cells n).InTurn (w.task n)) (ha : w.Undisturbed a)
    (hmove : Moves w n a c' t') : c'.InTurn t' := by
  have hs := hw.cell n
  have hbusy : ∀ {task}, w.task n = some task → w.task n ≠ none := by
    intro task ht hnone
    cases ht.symm.trans hnone
  cases hmove with
  | keep => exact hturn
  | forget hn hrow hfailed =>
    obtain ⟨hholds, hown⟩ := hs.free_of_row hrow (Or.inl hfailed)
    exact .of_free hholds hown
  | insert hpost hn hrow =>
    obtain ⟨-, hholds, ht⟩ := hs.empty_of_none hrow
    rw [ht]
    exact .of_idle (Cell.indexOrder_holds.trans hholds)
  | start hidle hrow hdue hgone =>
    refine ⟨fun stored pubKey _ => ⟨_, Cell.startJob_row hrow, rfl⟩, fun h hh => ?_⟩
    rw [Cell.startJob, Cell.mark_holds, Cell.updateRow_holds, (hs.free_of_row hrow (Or.inr hdue.1)).1] at hh
    cases hh
  | matched hidle hentry hlive =>
    exact .of_free (hs.free_of_live hentry hlive).1 fun stored pubKey h => (by cases Option.some.inj h)
  | park hidle hrow hdue =>
    obtain ⟨hholds, hown⟩ := hs.free_of_row hrow (Or.inr hdue.1)
    exact .of_free hholds hown
  | ownSettled hjob hn hmined => exact .of_idle (Cell.mark_holds.trans (hs.unheld_of_task (hbusy (World.task_own hjob hn))))
  | partnerSettled hjob hpair hmined =>
    exact .of_idle (Cell.mark_holds.trans (hs.unheld_of_task (hbusy (hw.distinct.task_partner hjob hpair))))
  | ownFailed hjob hn herr => exact .of_idle (Cell.mark_holds.trans (hs.unheld_of_task (hbusy (World.task_own hjob hn))))
  | partnerFailed hjob hpair herr => exact .of_idle (hs.unheld_of_task (hbusy (hw.distinct.task_partner hjob hpair)))
  | offer hentry hlive hnow =>
    obtain ⟨row, hrow⟩ := hs.row_isSome hentry
    rw [(hs.free_of_live hentry hlive).2]
    exact .hold _ _ hrow
  | accept hv hn =>
    subst hn
    obtain ⟨hentry, hlive, -⟩ := ha _ hv
    obtain ⟨row, hrow⟩ := hs.row_isSome hentry
    rw [(hs.free_of_live hentry hlive).2]
    exact .hold _ _ hrow
  | holdSettled hhold ha' hmined =>
    obtain ⟨ht, hholds⟩ := hs.released hhold
    rw [ht]
    exact .of_idle hholds
  | restore hhold ha' =>
    obtain ⟨ht, hholds⟩ := hs.released hhold
    rw [ht]
    exact .of_idle hholds
  | release hhold hstatus =>
    obtain ⟨ht, hholds⟩ := hs.released hhold
    rw [ht]
    exact .of_idle hholds
  | cancel hentry ha' =>
    have hfree : (w.cells n).holds = [] ∧ ∀ stored pubKey, w.task n ≠ some (.own stored pubKey) := by
      rcases ha' with rfl | ⟨rfl, hlive⟩
      · obtain ⟨hholds, hjob, -⟩ := ha
        refine ⟨hholds, fun stored pubKey ht => ?_⟩
        obtain ⟨job, hworker, hn, -⟩ := World.task_eq_own ht
        exact hjob job hworker hn
      · obtain ⟨hholds, ht⟩ := hs.free_of_live hentry hlive
        refine ⟨hholds, fun stored pubKey h => ?_⟩
        cases ht.symm.trans h
    exact .of_free (Cell.cancel_holds.trans hfree.1) hfree.2
  | purge hentry hstatus =>
    refine ⟨fun stored pubKey ht => ?_, fun h hh => ?_⟩
    · rw [Cell.removeEntry_row]
      exact hturn.own stored pubKey ht
    · rw [Cell.removeEntry_holds] at hh
      rw [Cell.removeEntry_row]
      exact hturn.held h hh
  | sweep =>
    refine ⟨fun stored pubKey ht => ?_, fun h hh => ?_⟩
    · obtain ⟨row, hrow, hsettling⟩ := hturn.own stored pubKey ht
      obtain ⟨job, hworker, rfl, -⟩ := World.task_eq_own ht
      refine ⟨{ row with toAuthorizeOrderRow := row.sweep w.nowSeconds }, ?_, ?_⟩
      · rw [Cell.updateRow_row, hrow]
        rfl
      · rw [AuthorizeOrderRow.sweep, if_neg (ha job hworker row hrow)]
        exact hsettling
    · obtain ⟨row, hrow, hmatched⟩ := hturn.held h hh
      refine ⟨{ row with toAuthorizeOrderRow := row.sweep w.nowSeconds }, ?_, ?_⟩
      · rw [Cell.updateRow_row, hrow]
        rfl
      · rw [AuthorizeOrderRow.sweep_of_held (Or.inl hmatched)]
        exact hmatched
  | restart => exact .of_idle (Cell.restart_holds _ _)

/-! ### Rows -/

/-- A submission of the nullifier, whatever becomes of it. -/
def Step.Posts (a : Step) (n : ℕ) : Prop :=
  ∃ order relayerAddress pubKey, a = .post order relayerAddress pubKey ∧ order.nullifier = n

/-- A final row stays final, and a failed row failed, unless a submission of its nullifier comes. -/
structure OrderRow.Kept (row : OrderRow) (posted : Prop) (row' : Option OrderRow) : Prop where
  final : row.status.isFinal = true → ∃ r ∈ row', r.status.isFinal = true
  failed : row.status = .failed → ¬posted → ∃ r ∈ row', r.status = .failed

theorem OrderRow.Kept.of_status {posted : Prop} {row' : Option OrderRow} {r : OrderRow} (hr : row' = some r)
    (hstatus : r.status = row.status) : row.Kept posted row' where
  final hfinal := ⟨r, hr, hstatus ▸ hfinal⟩
  failed hfailed _ := ⟨r, hr, hstatus.trans hfailed⟩

theorem OrderRow.Kept.of_open {posted : Prop} {row' : Option OrderRow}
    (hopen : row.status.isFinal = false ∧ row.status ≠ .failed) : row.Kept posted row' where
  final hfinal := absurd (hopen.1.symm.trans hfinal) Bool.false_ne_true
  failed hfailed := absurd hfailed hopen.2

theorem Moves.kept (hw : w.Sound) (hturn : (w.cells n).InTurn (w.task n)) (ha : w.Undisturbed a)
    (hmove : Moves w n a c' t') (hrow : (w.cells n).row = some row) : row.Kept (a.Posts n) c'.row := by
  have hs := hw.cell n
  have hin : ∀ {s}, (∃ r ∈ (w.cells n).row, r.status = s) → row.status = s := by
    intro s hex
    obtain ⟨r, hr, hstatus⟩ := hex
    obtain rfl := Option.some.inj (hrow.symm.trans hr)
    exact hstatus
  have hqueued : ∀ {r : OrderRow}, (w.cells n).row = some r → r.Claimable w.nowMs → row.status.isFinal = false ∧ row.status ≠ .failed := by
    intro r hr hdue
    obtain rfl := Option.some.inj (hrow.symm.trans hr)
    rcases hdue.1 with h | h <;> rw [h] <;> decide
  have hlive : ∀ {e : Entry}, (w.cells n).entry = some e → ((w.cells n).status e.id).isLiveStatus = true →
      row.status.isDone = false := by
    intro e he hlive
    apply (hs.active_iff he hrow).mp
    rw [AuthorizeOrderStatus.isActive, hlive, Bool.true_or]
  have hopen : row.status.isDone = false → row.status ≠ .expired → row.status.isFinal = false ∧ row.status ≠ .failed := by
    cases row.status <;> decide
  cases hmove with
  | keep => exact .of_status hrow rfl
  | forget hn hrow' hfailed =>
    obtain rfl := Option.some.inj (hrow.symm.trans hrow')
    refine ⟨fun hfinal => ?_, fun _ hpost => absurd ⟨_, _, _, rfl, hn.symm⟩ hpost⟩
    rw [hfailed] at hfinal
    cases hfinal
  | insert hpost hn hnone => cases hrow.symm.trans hnone
  | start hidle hrow' hdue hgone => exact .of_open (hqueued hrow' hdue)
  | matched hidle hentry hlive' => exact .of_status hrow rfl
  | park hidle hrow' hdue => exact .of_open (hqueued hrow' hdue)
  | ownSettled hjob hn hmined =>
    have hsettling := hin (hturn.own _ _ (World.task_own hjob hn))
    exact .of_open (by rw [hsettling]; decide)
  | @partnerSettled submission job p txHash hjob hpair hmined =>
    refine ⟨fun _ => ⟨{ row with toAuthorizeOrderRow := row.markSettled txHash }, ?_, rfl⟩, fun hfailed _ => ?_⟩
    · rw [Cell.finish, Cell.mark_row, Cell.updateRow_row, hrow]
      rfl
    · obtain ⟨r, hr, hnot, -⟩ := (hs.partner _ (hw.distinct.task_partner hjob hpair)).1
      obtain rfl := Option.some.inj (hrow.symm.trans hr)
      exact absurd hfailed hnot
  | ownFailed hjob hn herr =>
    have hsettling := hin (hturn.own _ _ (World.task_own hjob hn))
    exact .of_open (by rw [hsettling]; decide)
  | partnerFailed hjob hpair herr => exact .of_status hrow rfl
  | offer hentry hlive' hnow => exact .of_open (hopen (hlive hentry hlive') (ha row hrow))
  | accept hv hn =>
    subst hn
    obtain ⟨hentry, hlive', hexpired⟩ := ha _ hv
    exact .of_open (hopen (hlive hentry hlive') (hexpired row hrow))
  | holdSettled hhold ha' hmined =>
    have hmatched := hin (hturn.held _ (List.mem_of_getElem? hhold))
    exact .of_open (by rw [hmatched]; decide)
  | restore hhold ha' =>
    have hmatched := hin (hturn.held _ (List.mem_of_getElem? hhold))
    exact .of_open (by rw [hmatched]; decide)
  | release hhold hstatus => exact .of_status hrow rfl
  | @cancel a e hentry ha' =>
    refine ⟨fun _ => ⟨{ row with toAuthorizeOrderRow := row.updateStatus .cancelled none }, ?_, rfl⟩, fun hfailed _ => ?_⟩
    · rw [Cell.cancel_row, hrow]
      rfl
    · rcases ha' with rfl | ⟨rfl, hlive'⟩
      · exact absurd hfailed (ha.2.2 row hrow)
      · have hdone := hlive hentry hlive'
        rw [hfailed] at hdone
        cases hdone
  | purge hentry hstatus => exact .of_status (Cell.removeEntry_row.trans hrow) rfl
  | sweep =>
    have hrow' : ((w.cells n).updateRow fun row => row.sweep w.nowSeconds).row =
        some { row with toAuthorizeOrderRow := row.sweep w.nowSeconds } := by
      rw [Cell.updateRow_row, hrow]
      rfl
    by_cases hswept : row.Swept w.nowSeconds
    · apply OrderRow.Kept.of_open
      rcases hswept.1 with h | h | h <;> rw [h] <;> decide
    · refine .of_status hrow' ?_
      show (row.sweep w.nowSeconds).status = _
      rw [AuthorizeOrderRow.sweep, if_neg hswept]
  | restart =>
    have hrow' : ((w.cells n).restart w.nextId).row = some { row with toAuthorizeOrderRow := row.resetOrphaned } := by
      rw [Cell.restart_row, hrow]
      rfl
    by_cases hsettling : row.status = .settling
    · exact .of_open (by rw [hsettling]; decide)
    · refine .of_status hrow' ?_
      show row.resetOrphaned.status = _
      rw [AuthorizeOrderRow.resetOrphaned, if_neg hsettling]

end

/-! ### Runs -/

/-- A relayer whose writers take turns. -/
structure World.InTurn (w : World) : Prop where
  sound : w.Sound
  cell : ∀ n, (w.cells n).InTurn (w.task n)

theorem World.inTurn_start (nowMs : ℕ) : (World.start nowMs).InTurn where
  sound := World.sound_start nowMs
  cell _ := .of_idle rfl

theorem World.InTurn.step {w w' : World} {a : Step} (hw : w.InTurn) (ha : w.Undisturbed a) (hstep : run a w = .ok w') :
    w'.InTurn where
  sound := hw.sound.step ha.rechecked hstep
  cell n := (hw.cell n).moves hw.sound ha (World.moves hw.sound.distinct hstep n)

/-- In a run without such a disturbance a final row stays final for ever, and a failed one failed until its nullifier is submitted again. -/
theorem final_statuses (nowMs : ℕ) (as bs : List Step) (halong : Along run World.Undisturbed (World.start nowMs) (as ++ bs))
    (n : ℕ) (row : OrderRow) (hrow : ((after run (World.start nowMs) as).cells n).row = some row) :
    row.Kept (∃ a ∈ bs, a.Posts n) ((after run (World.start nowMs) (as ++ bs)).cells n).row := by
  obtain ⟨has, hbs⟩ := halong.of_append
  have hturn : (after run (World.start nowMs) as).InTurn :=
    invariant_along (fun w a w' hw ha hstep => hw.step ha hstep) (World.inTurn_start nowMs) has
  rw [after_append]
  constructor
  · intro hfinal
    have hkept := invariant_along (I := fun w : World => w.InTurn ∧ ∃ r ∈ (w.cells n).row, r.status.isFinal = true)
      (fun w a w' hw ha hstep => ?_) ⟨hturn, row, hrow, hfinal⟩ hbs
    · exact hkept.2
    · obtain ⟨hw, r, hr, hfinal⟩ := hw
      exact ⟨hw.step ha hstep, ((World.moves hw.sound.distinct hstep n).kept hw.sound (hw.cell n) ha hr).final hfinal⟩
  · intro hfailed hposts
    have hpost : Along run (fun _ a => ¬Step.Posts a n) (after run (World.start nowMs) as) bs :=
      along_of_forall fun a ha _ hposted => hposts ⟨a, ha, hposted⟩
    have hkept := invariant_along (I := fun w : World => w.InTurn ∧ ∃ r ∈ (w.cells n).row, r.status = .failed)
      (fun w a w' hw ha hstep => ?_) ⟨hturn, row, hrow, hfailed⟩ (hbs.and hpost)
    · exact hkept.2
    · obtain ⟨hw, r, hr, hfailed⟩ := hw
      exact ⟨hw.step ha.1 hstep, ((World.moves hw.sound.distinct hstep n).kept hw.sound (hw.cell n) ha.1 hr).failed hfailed ha.2⟩

theorem final_statuses_failed : ∃ r ∈ ((after run (World.start 0) (submitted (plainOrder 5 7 7 100) (1, 2) ++
    [.claim 5 none, .workerEnd (.refused "execution reverted")] ++ [.purge 5])).cells 5).row, r.status = .failed := by
  have hstatus : (after run (World.start 0) (submitted (plainOrder 5 7 7 100) (1, 2) ++
      [.claim 5 none, .workerEnd (.refused "execution reverted")])).rowStatus 5 = some .failed := by decide +kernel
  obtain ⟨row, hrow, hfailed⟩ := World.rowStatus_eq_some.mp hstatus
  have halong : Along run World.Undisturbed (World.start 0) (submitted (plainOrder 5 7 7 100) (1, 2) ++
      [.claim 5 none, .workerEnd (.refused "execution reverted")] ++ [.purge 5]) :=
    ⟨trivial, trivial, trivial, trivial, trivial, trivial, trivial⟩
  apply (final_statuses 0 _ _ halong 5 row hrow).failed hfailed
  intro hposted
  obtain ⟨a, ha, order, relayerAddress, pubKey, rfl, -⟩ := hposted
  cases List.mem_singleton.mp ha

/-- The sweep expires the row of a job, and the worker then schedules the retry of an error. -/
theorem expired_row_revived :
    ¬∀ nowMs as bs n s s', (after run (World.start nowMs) as).rowStatus n = some s → s.isFinal = true →
      (after run (World.start nowMs) (as ++ bs)).rowStatus n = some s' → s'.isActive = false := by
  intro h
  have hexpired : (after run (World.start 0) (submitted (plainOrder 5 7 7 100) (1, 2) ++
      [.claim 5 none, .elapse 200000, .sweep])).rowStatus 5 = some .expired := by decide +kernel
  have hretrying : (after run (World.start 0) (submitted (plainOrder 5 7 7 100) (1, 2) ++
      [.claim 5 none, .elapse 200000, .sweep] ++ [.workerEnd (.refused "timeout")])).rowStatus 5 = some .retrying := by
    decide +kernel
  exact absurd (h 0 _ _ 5 _ _ hexpired rfl hretrying) (by decide)

end Relayer

end ScatterDex
