import ScatterDex.Protocol.OrderLifecycle

/-!
# Orders that are left behind

The worker claims rows that are accepted or due for a retry, the sweep expires those and the ones that are settling, and no query selects a row that is pending or matched. Such a row is not lost as long as an operation between relayers holds it. The relayer strands an order where it writes a status from memory to the row, where it expires a row without looking at the map, and where a restart forgets the operation behind a matched row.
-/

namespace ScatterDex

open Transactions

namespace Relayer

/-- At some later time the worker can claim the row, or the sweep expires it. -/
def AuthorizeOrderRow.Selectable (row : AuthorizeOrderRow) (nowMs : ℕ) : Prop :=
  ∃ ms, nowMs ≤ ms ∧ (row.Claimable ms ∨ row.Swept (ms / 1000))

/-- An order that is live in memory can be claimed or is in hand, and so is every row that is not terminal. -/
structure World.Attended (w : World) (n : ℕ) : Prop where
  live : ∀ e ∈ (w.cells n).entry, ((w.cells n).status e.id).isLiveStatus = true →
    (∃ row ∈ (w.cells n).row, row.status = .accepted ∨ row.status = .retrying) ∨ w.InHand n
  row : ∀ row ∈ (w.cells n).row, row.status.isTerminalStatus = false → row.Selectable w.nowMs ∨ w.InHand n

/-- What the hold of an ended operation writes back is not pending. -/
def World.Restores (w : World) (n i : ℕ) : Prop := ∀ h, (w.cells n).holds[i]? = some h → h.prior ≠ .pending

/-- No operation writes a pending status back, no row expires while the map counts on it, and no restart comes between. -/
def World.Tidy (w : World) : Step → Prop
  | .accept i => w.Rechecked (.accept i)
  | .offerEnd n i settled => settled = none → w.Restores n i
  | .offerThrow n i => w.Restores n i
  | .acceptEnd n i submission => (∃ err, submission.result "settleAuth" = .error err) → w.Restores n i
  | .workerEnd submission => ∀ job ∈ w.worker, (∃ err, submission.result job.label = .error err) →
    ∀ pair ∈ job.partner, ∀ row ∈ (w.cells pair.1).row, row.status ≠ .expired
  | .sweep => ∀ n, ∀ row ∈ (w.cells n).row, row.Swept w.nowSeconds →
    ∀ e ∈ (w.cells n).entry, ((w.cells n).status e.id).isLiveStatus = false
  | .restart => ∀ n, ∀ row ∈ (w.cells n).row, row.status ≠ .matched
  | _ => True

theorem World.Tidy.rechecked {w : World} {a : Step} (ha : w.Tidy a) : w.Rechecked a := by
  cases a with
  | accept i => exact ha
  | _ => trivial

/-- Each status of a row has someone who goes on with it. -/
structure Cell.Attended (c : Cell) (t : Option Task) : Prop where
  live : ∀ e ∈ c.entry, (c.status e.id).isLiveStatus = true → ∃ row ∈ c.row, row.status = .accepted ∨ row.status = .retrying
  pending : ∀ row ∈ c.row, row.status ≠ .pending
  matched : ∀ row ∈ c.row, row.status = .matched → c.holds ≠ []
  settling : ∀ row ∈ c.row, row.status = .settling → ∃ stored pubKey, t = some (.own stored pubKey)
  gone : c.holds ≠ [] → c.entry = none → ∀ row ∈ c.row, row.status ≠ .matched

section

variable {w w' : World} {a : Step} {n : ℕ} {c c' : Cell} {t t' : Option Task} {row : OrderRow}

theorem Cell.Attended.of_row {r : OrderRow} (hrow : c.row = some r)
    (hstatus : r.status ≠ .pending ∧ r.status ≠ .matched ∧ r.status ≠ .settling)
    (hlive : ∀ e ∈ c.entry, (c.status e.id).isLiveStatus = true → r.status = .accepted ∨ r.status = .retrying) :
    c.Attended t := by
  have hthis : ∀ r' ∈ c.row, r' = r := fun r' hr => (Option.some.inj (hrow.symm.trans hr)).symm
  constructor
  · intro e he h
    exact ⟨r, hrow, hlive e he h⟩
  · intro r' hr
    rw [hthis r' hr]
    exact hstatus.1
  · intro r' hr h
    rw [hthis r' hr] at h
    exact absurd h hstatus.2.1
  · intro r' hr h
    rw [hthis r' hr] at h
    exact absurd h hstatus.2.2
  · intro _ _ r' hr
    rw [hthis r' hr]
    exact hstatus.2.1

theorem Cell.Attended.of_none (hrow : c.row = none) (hentry : c.entry = none) : c.Attended t := by
  constructor
  · intro e he
    rw [hentry] at he
    cases he
  all_goals
    intros
    simp_all

theorem Cell.Attended.hold {e : Entry} (taker : Option ℕ) (he : c.entry = some e) (hrow : c.row = some row) :
    (c.hold e taker).Attended t := by
  have hrow' : (c.hold e taker).row = some { row with toAuthorizeOrderRow := row.updateStatus .matched none } := by
    show c.row.map _ = _
    rw [hrow]
    rfl
  have hthis : ∀ r ∈ (c.hold e taker).row, r.status = .matched := by
    intro r hr
    obtain rfl := Option.some.inj (hrow'.symm.trans hr)
    rfl
  constructor
  · intro e' he' hlive
    obtain rfl := Option.some.inj (he.symm.trans he')
    change (Function.update c.status e.id .matched e.id).isLiveStatus = true at hlive
    rw [Function.update_self] at hlive
    cases hlive
  · intro r hr
    rw [hthis r hr]
    decide
  · intro r hr _
    exact List.append_ne_nil_of_right_ne_nil _ (List.cons_ne_nil _ _)
  · intro r hr h
    rw [hthis r hr] at h
    cases h
  · intro _ hnone
    cases he.symm.trans hnone

theorem Moves.attended (hw : w.Sound) (hc : (w.cells n).Attended (w.task n)) (ha : w.Tidy a)
    (hmove : Moves w n a c' t') : c'.Attended t' := by
  have hs := hw.cell n
  have hterm : ∀ {s : AuthorizeOrderStatus}, s = .accepted ∨ s = .retrying →
      s ≠ .pending ∧ s ≠ .matched ∧ s ≠ .settling := by
    intro s h
    rcases h with rfl | rfl <;> decide
  cases hmove with
  | keep => exact hc
  | forget hn hrow hfailed => exact .of_none rfl rfl
  | @insert i post hpost hn hrow =>
    refine .of_row (r := { acceptedRow post.order with pubKey := post.pubKey }) Cell.indexOrder_row ⟨?_, ?_, ?_⟩ fun _ _ _ => Or.inl rfl <;>
      exact fun h => (by cases h)
  | @start counterparty row hidle hrow hdue hgone =>
    have hrow' := @Cell.startJob_row _ (w.cells n).entry _ hrow
    have hthis : ∀ r ∈ ((w.cells n).startJob (w.cells n).entry).row, r.status = .settling := by
      intro r hr
      obtain rfl := Option.some.inj (hrow'.symm.trans hr)
      rfl
    constructor
    · intro e he hlive
      rw [Cell.startJob, Cell.mark_entry, Cell.updateRow_entry, Option.mem_def] at he
      rw [he, Cell.startJob, Cell.mark_status] at hlive
      cases hlive
    · intro r hr
      rw [hthis r hr]
      decide
    · intro r hr h
      rw [hthis r hr] at h
      cases h
    · exact fun r hr _ => ⟨_, _, rfl⟩
    · intro _ _ r hr
      rw [hthis r hr]
      decide
  | @matched n' p hidle hentry hlive =>
    have hidle' := World.task_of_idle (n := n) hidle
    constructor
    · intro e he hlive'
      obtain rfl := Option.some.inj (hentry.symm.trans he)
      rw [Cell.setStatus_self] at hlive'
      cases hlive'
    · exact hc.pending
    · exact hc.matched
    · intro r hr hsettling
      obtain ⟨stored, pubKey, ht⟩ := hc.settling r hr hsettling
      cases hidle'.symm.trans ht
    · exact hc.gone
  | @park counterparty row hidle hrow hdue =>
    refine .of_row (r := { row with toAuthorizeOrderRow := row.claim.deferAccepted (w.nowMs + noMatchRepoll) }) ?_
      (hterm (Or.inl rfl)) fun _ _ _ => Or.inl rfl
    rw [Cell.park, Cell.updateRow_row, hrow]
    rfl
  | @ownSettled submission job txHash hjob hn hmined =>
    have ht := World.task_own hjob hn
    obtain ⟨⟨row, hrow, -⟩, hobject⟩ := hs.own _ _ ht
    refine .of_row (r := { row with toAuthorizeOrderRow := row.markSettled txHash }) ?_ ⟨?_, ?_, ?_⟩ fun e he hlive => ?_
    · rw [Cell.finish, Cell.mark_row, Cell.updateRow_row, hrow]
      rfl
    · exact fun h => (by cases h)
    · exact fun h => (by cases h)
    · exact fun h => (by cases h)
    · rw [Cell.finish, Cell.mark_entry, Cell.updateRow_entry] at he
      rw [(hobject e he).1, Cell.finish, Cell.mark_status] at hlive
      cases hlive
  | @partnerSettled submission job p txHash hjob hpair hmined =>
    have ht := hw.distinct.task_partner hjob hpair
    obtain ⟨⟨row, hrow, -⟩, hobject⟩ := hs.partner _ ht
    refine .of_row (r := { row with toAuthorizeOrderRow := row.markSettled txHash }) ?_ ⟨?_, ?_, ?_⟩ fun e he hlive => ?_
    · rw [Cell.finish, Cell.mark_row, Cell.updateRow_row, hrow]
      rfl
    · exact fun h => (by cases h)
    · exact fun h => (by cases h)
    · exact fun h => (by cases h)
    · rw [Cell.finish, Cell.mark_entry, Cell.updateRow_entry] at he
      rw [(hobject e he).1, Cell.finish, Cell.mark_status] at hlive
      cases hlive
  | @ownFailed submission job err hjob hn herr =>
    have ht := World.task_own hjob hn
    obtain ⟨⟨row, hrow, -⟩, hobject⟩ := hs.own _ _ ht
    obtain ⟨-, hstatus, hmem⟩ := handleSettleError_spec w.nowMs job.attempt err row.toAuthorizeOrderRow
    refine .of_row (r := { row with toAuthorizeOrderRow :=
      (handleSettleError w.nowMs job.attempt err).1 row.toAuthorizeOrderRow }) ?_ ?_ fun e he hlive => ?_
    · rw [Cell.finish, Cell.mark_row, Cell.updateRow_row, hrow]
      rfl
    · show ((handleSettleError w.nowMs job.attempt err).1 row.toAuthorizeOrderRow).status ≠ _ ∧ _
      rw [hstatus]
      revert hmem
      cases (handleSettleError w.nowMs job.attempt err).2 <;> decide
    · rw [Cell.finish, Cell.mark_entry, Cell.updateRow_entry] at he
      rw [(hobject e he).1, Cell.finish, Cell.mark_status] at hlive
      show ((handleSettleError w.nowMs job.attempt err).1 row.toAuthorizeOrderRow).status = _ ∨ _
      rw [hstatus]
      revert hmem hlive
      cases (handleSettleError w.nowMs job.attempt err).2 <;> decide
  | @partnerFailed submission job p err hjob hpair herr =>
    have ht := hw.distinct.task_partner hjob hpair
    obtain ⟨-, hobject⟩ := hs.partner _ ht
    have hunsettling : ∀ r ∈ (w.cells n).row, r.status ≠ .settling := by
      intro r hr hsettling
      obtain ⟨stored, pubKey, ht'⟩ := hc.settling r hr hsettling
      cases Option.some.inj (ht.symm.trans ht')
    have hheld : (w.cells n).holds = [] := by
      apply hs.unheld_of_task
      rw [ht]
      exact Option.some_ne_none _
    constructor
    · intro e he _
      obtain ⟨row, hrow⟩ := hs.row_isSome he
      obtain ⟨rfl, hmatched⟩ := hobject e he
      have hdone := hs.active_iff he hrow
      rw [hmatched] at hdone
      have hopen := hdone.mp rfl
      have hpending := hc.pending row hrow
      have hunheld : row.status ≠ .matched := fun h => hc.matched row hrow h hheld
      have hunexpired := ha job hjob ⟨err, herr⟩ _ hpair row hrow
      have hother := hunsettling row hrow
      refine ⟨row, hrow, ?_⟩
      revert hopen hpending hunheld hunexpired hother
      cases row.status <;> decide
    · exact hc.pending
    · exact hc.matched
    · intro r hr hsettling
      exact absurd hsettling (hunsettling r hr)
    · exact hc.gone
  | offer hentry hlive hnow =>
    obtain ⟨row, hrow⟩ := hs.row_isSome hentry
    exact .hold _ hentry hrow
  | accept hv hn =>
    subst hn
    obtain ⟨hentry, -⟩ := ha _ hv
    obtain ⟨row, hrow⟩ := hs.row_isSome hentry
    exact .hold _ hentry hrow
  | @holdSettled a i h txHash hhold ha' hmined =>
    obtain ⟨-, -, -, ⟨row, hrow, -⟩, hobject⟩ := hs.held h (List.mem_of_getElem? hhold)
    refine .of_row (r := { row with toAuthorizeOrderRow := row.updateStatus .settled (some txHash) }) ?_ ⟨?_, ?_, ?_⟩
      fun e he hlive => ?_
    · show (w.cells n).row.map _ = _
      rw [hrow]
      rfl
    · exact fun h => (by cases h)
    · exact fun h => (by cases h)
    · exact fun h => (by cases h)
    · rw [(hobject e he).1] at hlive
      change (Function.update (w.cells n).status h.entry.id .settled h.entry.id).isLiveStatus = true at hlive
      rw [Function.update_self] at hlive
      cases hlive
  | @restore a i h hhold ha' =>
    obtain ⟨-, -, hprior, ⟨row, hrow, -⟩, -⟩ := hs.held h (List.mem_of_getElem? hhold)
    have hback : h.prior ≠ .pending := by
      rcases ha' with rfl | rfl | ⟨submission, err, rfl, herr⟩
      · exact ha rfl h hhold
      · exact ha h hhold
      · exact ha ⟨err, herr⟩ h hhold
    have hqueued : h.prior = .accepted ∨ h.prior = .retrying := by
      revert hprior hback
      cases h.prior <;> decide
    refine .of_row (r := { row with toAuthorizeOrderRow := row.updateStatus h.prior none }) ?_ (hterm hqueued) fun _ _ _ => hqueued
    show (w.cells n).row.map _ = _
    rw [hrow]
    rfl
  | @release i h hhold hstatus =>
    obtain ⟨hone, hidle, -, ⟨row, hrow, hheld⟩, hobject⟩ := hs.held h (List.mem_of_getElem? hhold)
    have hentry : (w.cells n).entry = none := by
      rw [Option.eq_none_iff_forall_ne_some]
      intro e he
      obtain ⟨rfl, hmatched⟩ := hobject e he
      exact hstatus hmatched
    have hcancelled : row.status = .cancelled := by
      refine hheld.resolve_left (hc.gone ?_ hentry row hrow)
      rw [hone]
      exact List.cons_ne_nil _ _
    refine .of_row hrow ?_ fun e he => ?_
    · rw [hcancelled]
      decide
    · cases hentry.symm.trans he
  | @cancel a e hentry ha' =>
    obtain ⟨row, hrow⟩ := hs.row_isSome hentry
    refine .of_row (r := { row with toAuthorizeOrderRow := row.updateStatus .cancelled none }) ?_ ⟨?_, ?_, ?_⟩ fun e' he' => ?_
    · rw [Cell.cancel_row, hrow]
      rfl
    · exact fun h => (by cases h)
    · exact fun h => (by cases h)
    · exact fun h => (by cases h)
    · cases he'
  | @purge e hentry hstatus =>
    have hunheld : (w.cells n).holds = [] := by
      apply List.eq_nil_iff_forall_not_mem.mpr
      intro h hh
      have hmatched := ((hs.held h hh).2.2.2.2 e hentry).2
      rw [hmatched] at hstatus
      cases hstatus
    constructor
    · intro e' he'
      cases he'
    · rw [Cell.removeEntry_row]
      exact hc.pending
    · rw [Cell.removeEntry_row, Cell.removeEntry_holds]
      exact hc.matched
    · rw [Cell.removeEntry_row]
      exact hc.settling
    · rw [Cell.removeEntry_holds]
      exact fun h => absurd hunheld h
  | sweep =>
    have hswept : ∀ r ∈ ((w.cells n).updateRow fun row => row.sweep w.nowSeconds).row, ∃ row ∈ (w.cells n).row,
        (r.status = row.status ∧ (row.sweep w.nowSeconds).status = row.status) ∨ r.status = .expired := by
      intro r hr
      obtain ⟨row, hrow, rfl⟩ := Option.map_eq_some_iff.mp hr
      refine ⟨row, hrow, ?_⟩
      rcases row.sweep_status w.nowSeconds with h | h
      · exact Or.inl ⟨h, h⟩
      · exact Or.inr h
    constructor
    · intro e he hlive
      obtain ⟨row, hrow, hqueued⟩ := hc.live e he hlive
      refine ⟨{ row with toAuthorizeOrderRow := row.sweep w.nowSeconds }, ?_, ?_⟩
      · rw [Cell.updateRow_row, hrow]
        rfl
      · have hkept : ¬row.Swept w.nowSeconds := by
          intro h
          have hnot := ha n row hrow h e he
          exact absurd (hnot.symm.trans hlive) Bool.false_ne_true
        show (row.sweep w.nowSeconds).status = _ ∨ (row.sweep w.nowSeconds).status = _
        rw [AuthorizeOrderRow.sweep, if_neg hkept]
        exact hqueued
    · intro r hr
      obtain ⟨row, hrow, ⟨h, -⟩ | h⟩ := hswept r hr
      · rw [h]
        exact hc.pending row hrow
      · rw [h]
        decide
    · intro r hr hmatched
      obtain ⟨row, hrow, ⟨h, -⟩ | h⟩ := hswept r hr
      · exact hc.matched row hrow (h.symm.trans hmatched)
      · cases h.symm.trans hmatched
    · intro r hr hsettling
      obtain ⟨row, hrow, ⟨h, -⟩ | h⟩ := hswept r hr
      · exact hc.settling row hrow (h.symm.trans hsettling)
      · cases h.symm.trans hsettling
    · intro hheld hnone r hr
      obtain ⟨row, hrow, ⟨h, -⟩ | h⟩ := hswept r hr
      · rw [h]
        exact hc.gone hheld hnone row hrow
      · rw [h]
        decide
  | restart =>
    cases hrow : (w.cells n).row with
    | none =>
      apply Cell.Attended.of_none
      · rw [Cell.restart_row, hrow]
        rfl
      · rw [Cell.restart_entry, hrow]
        rfl
    | some row =>
      have hpending := hc.pending row hrow
      have hmatched := ha n row hrow
      have hreset : row.resetOrphaned.status ≠ .pending ∧ row.resetOrphaned.status ≠ .matched ∧
          row.resetOrphaned.status ≠ .settling ∧ (row.status.isLiveStatus = true →
            row.resetOrphaned.status = .accepted ∨ row.resetOrphaned.status = .retrying) := by
        unfold AuthorizeOrderRow.resetOrphaned
        split
        · exact ⟨fun h => (by cases h), fun h => (by cases h), fun h => (by cases h), fun _ => Or.inl rfl⟩
        · rename_i hsettling
          refine ⟨hpending, hmatched, hsettling, fun hlive => ?_⟩
          revert hpending hlive
          cases row.status <;> decide
      refine .of_row (r := { row with toAuthorizeOrderRow := row.resetOrphaned }) ?_ ⟨hreset.1, hreset.2.1, hreset.2.2.1⟩
        fun e he hlive => hreset.2.2.2 ?_
      · rw [Cell.restart_row, hrow]
        rfl
      · rw [Cell.restart_entry, Option.mem_def, Option.map_eq_some_iff] at he
        obtain ⟨row', hfilter, rfl⟩ := he
        rwa [Cell.restart_status _ _ hrow] at hlive

end

/-! ### Runs -/

theorem AuthorizeOrderRow.selectable_of_status {row : AuthorizeOrderRow} (nowMs : ℕ)
    (hstatus : row.status = .accepted ∨ row.status = .settling ∨ row.status = .retrying) : row.Selectable nowMs := by
  refine ⟨nowMs + (row.order.publicSignals.expiry + 1) * 1000, Nat.le_add_right _ _, Or.inr ⟨hstatus, ?_⟩⟩
  omega

theorem World.attended_of_cell {w : World} {n : ℕ} (hc : (w.cells n).Attended (w.task n)) : w.Attended n where
  live e he hlive := Or.inl (hc.live e he hlive)
  row row hrow hopen := by
    have hpending := hc.pending row hrow
    by_cases hmatched : row.status = .matched
    · exact Or.inr (Or.inl (hc.matched row hrow hmatched))
    · apply Or.inl
      apply AuthorizeOrderRow.selectable_of_status
      revert hopen hpending hmatched
      cases row.status <;> decide

/-- In a run that stays tidy no order is left behind. -/
theorem orders_attended (nowMs : ℕ) (as : List Step) (halong : Along run World.Tidy (World.start nowMs) as) (n : ℕ) :
    (after run (World.start nowMs) as).Attended n := by
  have hkept := invariant_along (I := fun w : World => w.Sound ∧ ∀ n, (w.cells n).Attended (w.task n))
    (fun w a w' hw ha hstep => ?_) ⟨World.sound_start nowMs, fun n => Cell.Attended.of_none rfl rfl⟩ halong
  · exact World.attended_of_cell (hkept.2 n)
  · obtain ⟨hw, hcells⟩ := hw
    exact ⟨hw.step ha.rechecked hstep, fun n => (World.moves hw.distinct hstep n).attended hw (hcells n) ha⟩

/-- A remote order that crosses the second of two orders that cross. -/
def remoteSummary : OrderSummary := ⟨7, 8, 100, 100, 50⟩

theorem orders_attended_offered :
    (after run (World.start 0) (crossing ++ [.offer 6 0 remoteSummary, .offerEnd 6 0 none])).Attended 6 := by
  have hprior : World.Restores (after run (World.start 0) (crossing ++ [.offer 6 0 remoteSummary])) 6 0 := by
    intro h hh hpending
    have hall : ((after run (World.start 0) (crossing ++ [.offer 6 0 remoteSummary])).cells 6).holds.all
        (fun h => decide (h.prior ≠ .pending)) = true := by decide +kernel
    exact of_decide_eq_true (List.all_eq_true.mp hall h (List.mem_of_getElem? hh)) hpending
  apply orders_attended 0 _ _ 6
  exact ⟨trivial, trivial, trivial, trivial, trivial, trivial, trivial, fun _ => hprior, trivial⟩

/-- After a failed job the counterparty is pending in memory, and an offer of it that is rejected makes it pending in the table. -/
theorem rejected_offer_strands : ¬∀ nowMs as n, (after run (World.start nowMs) as).Attended n := by
  intro h
  have hattended := h 0 (crossing ++ [.claim 5 (some 6), .workerEnd (.refused "timeout"), .offer 6 0 remoteSummary,
    .offerEnd 6 0 none]) 6
  have hpending : (after run (World.start 0) (crossing ++ [.claim 5 (some 6), .workerEnd (.refused "timeout"),
      .offer 6 0 remoteSummary, .offerEnd 6 0 none])).rowStatus 6 = some .pending := by decide +kernel
  have hidle : (after run (World.start 0) (crossing ++ [.claim 5 (some 6), .workerEnd (.refused "timeout"),
      .offer 6 0 remoteSummary, .offerEnd 6 0 none])).worker.isNone = true := by decide +kernel
  have hunheld : ((after run (World.start 0) (crossing ++ [.claim 5 (some 6), .workerEnd (.refused "timeout"),
      .offer 6 0 remoteSummary, .offerEnd 6 0 none])).cells 6).holds.isEmpty = true := by decide +kernel
  obtain ⟨row, hrow, hstatus⟩ := World.rowStatus_eq_some.mp hpending
  have hopen : row.status.isTerminalStatus = false := by rw [hstatus]; decide
  rcases hattended.row row hrow hopen with ⟨ms, -, hdue | hswept⟩ | hheld | hworker
  · rcases hdue.1 with h' | h' <;> cases hstatus.symm.trans h'
  · rcases hswept.1 with h' | h' | h' <;> cases hstatus.symm.trans h'
  · exact hheld (List.isEmpty_iff.mp hunheld)
  · exact hworker (World.task_of_idle (Option.isNone_iff_eq_none.mp hidle))

end Relayer

end ScatterDex
