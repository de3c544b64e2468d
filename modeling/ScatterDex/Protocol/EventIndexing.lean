import ScatterDex.Library.Transactions
import ScatterDex.Relayer.CancelIndex
import ScatterDex.SharedOrderbook.Indexers

/-!
# What the indexes hold

The relayer hears of every cancellation once and in order, and the tables of the shared orderbook hold the events of all the blocks before their cursors, through errors, restarts and heads that go back.
-/

namespace ScatterDex

open BlockScan Fallible

/-! ### Cancellations -/

namespace Relayer

variable {α : Type} {events : ℕ → List α} {cancelConfirmations : ℕ} {indexBlockRange : Option ℚ} {s s' : CancelIndex α}

/-- A pass may begin at `startBlock`: after the last block, or where one of the callers asked for as long as there is none. -/
def CancelIndex.Starts (froms : ℕ → Prop) (s : CancelIndex α) (startBlock : ℕ) : Prop :=
  if s.lastCancelBlock ≥ 0 then (startBlock : ℤ) = s.lastCancelBlock + 1 else froms startBlock

/-- The events up to the last block were delivered, and the pass under way continues there. -/
structure CancelIndex.Sound (events : ℕ → List α) (froms : ℕ → Prop) (s : CancelIndex α) : Prop where
  last : -1 ≤ s.lastCancelBlock
  fresh : s.lastCancelBlock = -1 → s.delivered = []
  delivered : 0 ≤ s.lastCancelBlock → ∃ start, froms start ∧ (start : ℤ) ≤ s.lastCancelBlock ∧
    s.delivered = between events start (s.lastCancelBlock + 1).toNat
  head : ∀ startBlock, s.cancelScanInflight = some (.head startBlock) → s.Starts froms startBlock
  query : ∀ scan, s.cancelScanInflight = some (.query scan) → s.Starts froms scan.start ∧ scan.Sound events ∧
    scan.cursor ≤ scan.tip

theorem CancelIndex.Sound.idle {froms : ℕ → Prop} (hs : s.Sound events froms) :
    ({ s with cancelScanInflight := none } : CancelIndex α).Sound events froms where
  last := hs.last
  fresh := hs.fresh
  delivered := hs.delivered
  head _ hpass := by cases hpass
  query _ hpass := by cases hpass

theorem CancelIndex.Sound.deliver {froms : ℕ → Prop} (hs : s.Sound events froms) {scan : Scan α}
    (hstarts : s.Starts froms scan.start) (hscan : scan.Sound events) (hlive : scan.start ≤ scan.tip)
    (hdone : scan.tip < scan.cursor) : (s.deliver scan).Sound events froms where
  last := by
    change (-1 : ℤ) ≤ (scan.tip : ℤ)
    omega
  fresh hnone := by
    change (scan.tip : ℤ) = -1 at hnone
    omega
  delivered _ := by
    have hout := hscan.done hdone
    have htip : ((scan.tip : ℤ) + 1).toNat = scan.tip + 1 := by omega
    change ∃ start, froms start ∧ (start : ℤ) ≤ (scan.tip : ℤ) ∧
      s.delivered ++ scan.out = between events start ((scan.tip : ℤ) + 1).toNat
    rw [hout, htip]
    unfold CancelIndex.Starts at hstarts
    split at hstarts
    · next hlast =>
      obtain ⟨start, hstart, hle, hdelivered⟩ := hs.delivered hlast
      have hseam : (s.lastCancelBlock + 1).toNat = scan.start := by omega
      refine ⟨start, hstart, by omega, ?_⟩
      rw [hdelivered, hseam]
      exact between_append (by omega) (by omega)
    · next hlast =>
      have hlast' := hs.last
      refine ⟨scan.start, hstarts, by omega, ?_⟩
      rw [hs.fresh (by omega), List.nil_append]
  head _ hpass := by cases hpass
  query _ hpass := by cases hpass

theorem CancelIndex.Sound.step {froms : ℕ → Prop} (hs : s.Sound events froms) {step : CancelStep}
    (hfroms : ∀ fromBlock, step = .indexCancels fromBlock → froms fromBlock)
    (hrun : CancelIndex.run events cancelConfirmations indexBlockRange step s = .ok s') : s'.Sound events froms := by
  cases step with
  | indexCancels fromBlock =>
    simp only [CancelIndex.run, bind_eq_ok, require_eq_ok, pure_eq_ok] at hrun
    obtain ⟨-, -, rfl⟩ := hrun
    refine ⟨hs.last, hs.fresh, hs.delivered, fun startBlock hpass => ?_, fun _ hpass => (by cases hpass)⟩
    obtain rfl := CancelPass.head.inj (Option.some.inj hpass)
    unfold CancelIndex.Starts
    dsimp only
    split
    · next hlast => exact Int.toNat_of_nonneg (by omega)
    · exact hfroms fromBlock rfl
  | head number =>
    simp only [CancelIndex.run] at hrun
    split at hrun
    · next startBlock hpass =>
      split at hrun
      · obtain rfl := Except.ok.inj hrun
        exact hs.idle
      · next hhead =>
        obtain rfl := Except.ok.inj hrun
        refine ⟨hs.last, hs.fresh, hs.delivered, fun _ hpass => (by cases hpass), fun scan hscan => ?_⟩
        obtain rfl := CancelPass.query.inj (Option.some.inj hscan)
        refine ⟨hs.head startBlock hpass, Scan.begin_sound, ?_⟩
        change startBlock ≤ ((number : ℤ) - cancelConfirmations).toNat
        omega
    · cases hrun
  | logs =>
    simp only [CancelIndex.run] at hrun
    split at hrun
    · next scan hpass =>
      obtain ⟨hstarts, hscan, hlive⟩ := hs.query scan hpass
      have hpushed := hscan.push (windowSize_pos Nat.one_pos indexBlockRange) hlive
      split at hrun
      · next hmore =>
        obtain rfl := Except.ok.inj hrun
        refine ⟨hs.last, hs.fresh, hs.delivered, fun _ hpass => (by cases hpass), fun scan' hscan' => ?_⟩
        obtain rfl := CancelPass.query.inj (Option.some.inj hscan')
        exact ⟨hstarts, hpushed, hmore⟩
      · next hdone =>
        obtain rfl := Except.ok.inj hrun
        exact hs.deliver hstarts hpushed (hscan.start_le.trans hlive) (not_le.mp hdone)
    · cases hrun
  | rpcError =>
    obtain rfl := Except.ok.inj hrun
    exact hs.idle

/-- **Every cancellation is delivered once, and in order**, in every run of calls, heads and errors: nothing before the first pass that completes, and after it the events of exactly the blocks from the one that a caller asked for to the last one. -/
theorem cancels_delivered (events : ℕ → List α) (cancelConfirmations : ℕ) (indexBlockRange : Option ℚ) (steps : List CancelStep) :
    let s := Transactions.after (CancelIndex.run events cancelConfirmations indexBlockRange) .start steps
    (s.lastCancelBlock = -1 ∧ s.delivered = []) ∨
      ∃ start last : ℕ, .indexCancels start ∈ steps ∧ start ≤ last ∧ s.lastCancelBlock = last ∧
        s.delivered = between events start (last + 1) := by
  intro s
  have hs : s.Sound events fun fromBlock => .indexCancels fromBlock ∈ steps := by
    refine Transactions.invariant (I := CancelIndex.Sound events fun fromBlock => .indexCancels fromBlock ∈ steps) ?_ ?_
    · intro step hstep s s' hs hrun
      exact hs.step (fun fromBlock heq => heq ▸ hstep) hrun
    · exact ⟨le_rfl, fun _ => rfl, fun h => absurd h (show ¬(0 : ℤ) ≤ -1 by decide), fun _ h => (by cases h), fun _ h => (by cases h)⟩
  by_cases hlast : 0 ≤ s.lastCancelBlock
  · obtain ⟨start, hstart, hle, hdelivered⟩ := hs.delivered hlast
    refine Or.inr ⟨start, s.lastCancelBlock.toNat, hstart, by omega, by omega, ?_⟩
    rw [hdelivered, show (s.lastCancelBlock + 1).toNat = s.lastCancelBlock.toNat + 1 by omega]
  · have hnone := hs.last
    exact Or.inl ⟨by omega, hs.fresh (by omega)⟩

/-! Without an error of the RPC, a pass gets to its tip: each window moves its cursor. -/

variable (events cancelConfirmations indexBlockRange) in
theorem CancelIndex.logs_deliver {scan : Scan α} (hpass : s.cancelScanInflight = some (.query scan)) (hlive : scan.cursor ≤ scan.tip) :
    ∃ windows, let t := Transactions.after (CancelIndex.run events cancelConfirmations indexBlockRange) s (List.replicate windows .logs)
      t.lastCancelBlock = scan.tip ∧ t.cancelScanInflight = none := by
  obtain ⟨remaining, hremaining⟩ : ∃ remaining, scan.tip + 1 - scan.cursor ≤ remaining := ⟨_, le_rfl⟩
  induction remaining generalizing s scan with
  | zero => exact absurd hremaining (by omega)
  | succ remaining ih =>
    have hpos := windowSize_pos Nat.one_pos indexBlockRange
    let size := windowSize 1 indexBlockRange
    let read := scan.push size (between events scan.cursor (scan.windowEnd size + 1))
    by_cases hmore : read.cursor ≤ read.tip
    · have hstep : CancelIndex.run events cancelConfirmations indexBlockRange .logs s =
          .ok { s with cancelScanInflight := some (.query read) } := by
        simp only [CancelIndex.run, hpass]
        exact if_pos hmore
      have hshorter : read.tip + 1 - read.cursor ≤ remaining := by
        change scan.tip + 1 - (scan.cursor + size) ≤ remaining
        omega
      let moved : CancelIndex α := { s with cancelScanInflight := some (.query read) }
      obtain ⟨windows, hwindows⟩ := ih (show moved.cancelScanInflight = some (.query read) from rfl) hmore hshorter
      refine ⟨windows + 1, ?_⟩
      rw [List.replicate_succ, Transactions.after_cons, Transactions.transact_ok hstep]
      exact hwindows
    · have hstep : CancelIndex.run events cancelConfirmations indexBlockRange .logs s = .ok (s.deliver read) := by
        simp only [CancelIndex.run, hpass]
        exact if_neg hmore
      refine ⟨1, ?_⟩
      rw [List.replicate_one, Transactions.after_cons, Transactions.transact_ok hstep]
      exact ⟨rfl, rfl⟩

/-- A pass without errors moves the last block to its tip. -/
theorem CancelIndex.pass_reaches_tip (hidle : s.cancelScanInflight = none) {fromBlock number startBlock : ℕ}
    (hstart : startBlock = if s.lastCancelBlock ≥ 0 then (s.lastCancelBlock + 1).toNat else fromBlock)
    (htip : (startBlock : ℤ) ≤ number - cancelConfirmations) :
    ∃ windows, let steps := .indexCancels fromBlock :: .head number :: List.replicate windows .logs
      let t := Transactions.after (CancelIndex.run events cancelConfirmations indexBlockRange) s steps
      t.lastCancelBlock = number - cancelConfirmations ∧ t.cancelScanInflight = none := by
  let asked : CancelIndex α := { s with cancelScanInflight := some (.head startBlock) }
  let begun : CancelIndex α := { s with cancelScanInflight := some (.query (.begin startBlock ((number : ℤ) - cancelConfirmations).toNat)) }
  have hasked : CancelIndex.run events cancelConfirmations indexBlockRange (.indexCancels fromBlock) s = .ok asked := by
    simp only [CancelIndex.run, hidle, bind_eq_ok, require_eq_ok, pure_eq_ok]
    exact ⟨(), rfl, by rw [← hstart]⟩
  have hbegun : CancelIndex.run events cancelConfirmations indexBlockRange (.head number) asked = .ok begun :=
    if_neg (by omega)
  have hlive : startBlock ≤ ((number : ℤ) - cancelConfirmations).toNat := by omega
  obtain ⟨windows, hlast, hdone⟩ := CancelIndex.logs_deliver events cancelConfirmations indexBlockRange
    (show begun.cancelScanInflight = some _ from rfl) hlive
  refine ⟨windows, ?_⟩
  intro steps t
  have ht : t = Transactions.after (CancelIndex.run events cancelConfirmations indexBlockRange) begun (List.replicate windows .logs) := by
    show Transactions.after _ _ (_ :: _ :: _) = _
    rw [Transactions.after_cons, Transactions.transact_ok hasked, Transactions.after_cons, Transactions.transact_ok hbegun]
  rw [ht]
  refine ⟨hlast.trans ?_, hdone⟩
  exact Int.toNat_of_nonneg (by omega)

end Relayer

/-! ### Tables -/

namespace SharedOrderbook

variable {Key Row : Type} [DecidableEq Key] {events : EventRows Key Row} {config : IndexerConfig} {s s' : Indexer Key Row}
  {table : IndexTable Key Row}

/-- The table holds every event from the deploy block to the cursor, and nothing but events from the deploy block on. -/
structure IndexTable.Holds (events : EventRows Key Row) (deployBlock : ℕ) (table : IndexTable Key Row) : Prop where
  complete : ∀ cursor, table.cursor = some cursor → ∀ block, deployBlock ≤ block → block ≤ cursor →
    ∀ key row, (key, row) ∈ events.rows block → table.rows key = some row
  sound : ∀ key row, table.rows key = some row → ∃ block, deployBlock ≤ block ∧ (key, row) ∈ events.rows block

omit [DecidableEq Key] in
theorem IndexTable.Holds.identical {deployBlock block : ℕ} (hholds : table.Holds events deployBlock) {key : Key} {row row' : Row}
    (hmem : (key, row) ∈ events.rows block) (hrow : table.rows key = some row') : row' = row := by
  obtain ⟨block', -, hmem'⟩ := hholds.sound key row' hrow
  exact events.unique hmem' hmem

theorem upsertAll_rows (table : IndexTable Key Row) {rows : List (Key × Row)}
    (hunique : ∀ key row row', (key, row) ∈ rows → (key, row') ∈ rows → row = row') (key : Key) : (∀ row, (key, row) ∈ rows → (table.upsertAll rows).rows key = some row) ∧
      ((∀ row, (key, row) ∉ rows) → (table.upsertAll rows).rows key = table.rows key) := by
  unfold IndexTable.upsertAll
  dsimp only
  generalize table.rows = stored
  induction rows generalizing stored with
  | nil => simp
  | cons p rows ih =>
    obtain ⟨key', row'⟩ := p
    have hrest : ∀ key row row', (key, row) ∈ rows → (key, row') ∈ rows → row = row' := fun key row row' h h' =>
      hunique key row row' (List.mem_cons_of_mem _ h) (List.mem_cons_of_mem _ h')
    obtain ⟨hin, hout⟩ := ih hrest (Function.update stored key' (some row'))
    rw [List.foldl_cons]
    constructor
    · intro row hmem
      by_cases hlater : ∃ row, (key, row) ∈ rows
      · obtain ⟨row'', hlater⟩ := hlater
        rw [hunique key row row'' hmem (List.mem_cons_of_mem _ hlater)]
        exact hin row'' hlater
      · rw [hout fun row'' hrow => hlater ⟨row'', hrow⟩]
        rcases List.mem_cons.mp hmem with heq | hrow
        · obtain ⟨rfl, rfl⟩ := Prod.mk.inj heq
          exact Function.update_self ..
        · exact absurd ⟨row, hrow⟩ hlater
    · intro hnone
      have hne : key ≠ key' := fun heq => hnone row' (heq ▸ List.mem_cons_self)
      rw [hout fun row hrow => hnone row (List.mem_cons_of_mem _ hrow)]
      exact Function.update_of_ne hne ..

omit [DecidableEq Key] in
theorem EventRows.between_unique (events : EventRows Key Row) (lo hi : ℕ) (key : Key) (row row' : Row) (hmem : (key, row) ∈ between events.rows lo hi)
    (hmem' : (key, row') ∈ between events.rows lo hi) : row = row' := by
  obtain ⟨block, -, -, hblock⟩ := mem_between.mp hmem
  obtain ⟨block', -, -, hblock'⟩ := mem_between.mp hmem'
  exact events.unique hblock hblock'

theorem IndexTable.Holds.upsertAll_kept {deployBlock lo hi : ℕ} (hholds : table.Holds events deployBlock) {key : Key} {row : Row}
    (hrow : table.rows key = some row) : (table.upsertAll (between events.rows lo hi)).rows key = some row := by
  obtain ⟨hin, hout⟩ := upsertAll_rows table (events.between_unique lo hi) key
  by_cases hagain : ∃ row', (key, row') ∈ between events.rows lo hi
  · obtain ⟨row', hmem⟩ := hagain
    obtain ⟨block, -, -, hblock⟩ := mem_between.mp hmem
    rw [hholds.identical hblock hrow]
    exact hin row' hmem
  · rw [hout fun row' hmem => hagain ⟨row', hmem⟩, hrow]

theorem IndexTable.Holds.upsertAll {deployBlock lo hi : ℕ} (hholds : table.Holds events deployBlock) (hlo : deployBlock ≤ lo) :
    (table.upsertAll (between events.rows lo hi)).Holds events deployBlock where
  complete cursor hcursor block hdeploy hle key row hmem :=
    hholds.upsertAll_kept (hholds.complete cursor hcursor block hdeploy hle key row hmem)
  sound key row hrow := by
    obtain ⟨hin, hout⟩ := upsertAll_rows table (events.between_unique lo hi) key
    by_cases hnew : ∃ row', (key, row') ∈ between events.rows lo hi
    · obtain ⟨row', hmem⟩ := hnew
      obtain rfl := Option.some.inj (hrow.symm.trans (hin row' hmem))
      obtain ⟨block, hblock, -, hevent⟩ := mem_between.mp hmem
      exact ⟨block, hlo.trans hblock, hevent⟩
    · rw [hout fun row' hmem => hnew ⟨row', hmem⟩] at hrow
      exact hholds.sound key row hrow

/-- The pass continues where the table ends. -/
structure Indexer.Sound (events : EventRows Key Row) (config : IndexerConfig) (s : Indexer Key Row) : Prop where
  holds : s.table.Holds events config.deployBlock
  begins : ∀ start toBlock stage, s.pass = some ⟨start, toBlock, stage⟩ → config.deployBlock ≤ start ∧ start ≤ toBlock ∧
    (∀ cursor, s.table.cursor = some cursor → cursor < start) ∧
    ∀ block, config.deployBlock ≤ block → block < start → ∀ key row, (key, row) ∈ events.rows block → s.table.rows key = some row
  upsert : ∀ start toBlock rows, s.pass = some ⟨start, toBlock, .upsert rows⟩ →
    rows = between events.rows start (config.windowEnd start toBlock + 1)
  stored : ∀ start toBlock, s.pass = some ⟨start, toBlock, .setCursor⟩ →
    ∀ key row, (key, row) ∈ between events.rows start (config.windowEnd start toBlock + 1) → s.table.rows key = some row

/-- The cursor does not go back. -/
def IndexTable.Advances (table table' : IndexTable Key Row) : Prop :=
  ∀ cursor, table.cursor = some cursor → ∃ cursor', table'.cursor = some cursor' ∧ cursor ≤ cursor'

omit [DecidableEq Key] in
theorem IndexTable.Advances.of_eq {table table' : IndexTable Key Row} (heq : table'.cursor = table.cursor) :
    table.Advances table' :=
  fun cursor hcursor => ⟨cursor, heq.trans hcursor, le_rfl⟩

theorem IndexerConfig.window_pos (config : IndexerConfig) : 0 < config.window := windowSize_pos (by decide) _

theorem IndexerConfig.windowEnd_eq (config : IndexerConfig) {start toBlock : ℕ} (hlive : start ≤ toBlock) :
    start ≤ config.windowEnd start toBlock ∧
      (start + config.window ≤ toBlock → config.windowEnd start toBlock + 1 = start + config.window) := by
  have hpos := config.window_pos
  unfold IndexerConfig.windowEnd
  omega

omit [DecidableEq Key] in
theorem next_eq_some {start toBlock start' toBlock' : ℕ} {stage : IndexStage Key Row} :
    IndexPass.next start toBlock = some ⟨start', toBlock', stage⟩ ↔
      start ≤ toBlock ∧ start = start' ∧ toBlock = toBlock' ∧ .fetch = stage := by
  unfold IndexPass.next
  split <;> simp_all

namespace Indexer.Sound

theorem begin (hs : s.Sound events config) {latest : ℕ} (hrun : s.run events config (.begin latest) = .ok s') :
    s'.Sound events config ∧ s.table.Advances s'.table := by
  simp only [Indexer.run, bind_eq_ok, require_eq_ok, pure_eq_ok] at hrun
  obtain ⟨-, -, rfl⟩ := hrun
  refine ⟨⟨hs.holds, fun start toBlock stage hpass => ?_, fun start toBlock rows hpass => ?_, fun start toBlock hpass => ?_⟩, .of_eq rfl⟩
  · obtain ⟨hle, rfl, rfl, rfl⟩ := next_eq_some.mp hpass
    dsimp only
    cases hcursor : s.table.cursor with
    | none =>
      rw [hcursor] at hle
      exact ⟨le_rfl, hle, fun _ h => (by cases h), fun block hdeploy hlt => absurd hlt (not_lt.mpr hdeploy)⟩
    | some cursor =>
      rw [hcursor] at hle
      refine ⟨le_max_left _ _, hle, fun _ h => ?_, fun block hdeploy hlt key row hmem => ?_⟩
      · obtain rfl := Option.some.inj h
        exact lt_max_of_lt_right (Nat.lt_succ_self _)
      · have hlt' : block < max config.deployBlock (cursor + 1) := hlt
        exact hs.holds.complete cursor hcursor block hdeploy (by omega) key row hmem
  · obtain ⟨-, -, -, hstage⟩ := next_eq_some.mp hpass
    cases hstage
  · obtain ⟨-, -, -, hstage⟩ := next_eq_some.mp hpass
    cases hstage

theorem fetched (hs : s.Sound events config) (hrun : s.run events config .fetched = .ok s') :
    s'.Sound events config ∧ s.table.Advances s'.table := by
  simp only [Indexer.run] at hrun
  split at hrun
  · next start toBlock hpass =>
    obtain rfl := Except.ok.inj hrun
    refine ⟨⟨hs.holds, fun start' toBlock' stage hp => ?_, fun start' toBlock' rows hp => ?_, fun start' toBlock' hp key row hmem => ?_⟩,
      .of_eq rfl⟩
    · obtain ⟨rfl, rfl, -⟩ := IndexPass.mk.inj (Option.some.inj hp)
      exact hs.begins _ _ _ hpass
    · obtain ⟨rfl, rfl, hstage⟩ := IndexPass.mk.inj (Option.some.inj hp)
      split at hstage
      · cases hstage
      · exact (IndexStage.upsert.inj hstage).symm
    · obtain ⟨rfl, rfl, hstage⟩ := IndexPass.mk.inj (Option.some.inj hp)
      split at hstage
      · next hempty =>
        rw [hempty] at hmem
        cases hmem
      · cases hstage
  · cases hrun

theorem upserted (hs : s.Sound events config) (hrun : s.run events config .upserted = .ok s') :
    s'.Sound events config ∧ s.table.Advances s'.table := by
  simp only [Indexer.run] at hrun
  split at hrun
  · next start toBlock rows hpass =>
    obtain rfl := Except.ok.inj hrun
    obtain ⟨hdeploy, hlive, hcursor, hbefore⟩ := hs.begins _ _ _ hpass
    obtain rfl := hs.upsert _ _ _ hpass
    refine ⟨⟨hs.holds.upsertAll hdeploy, fun start' toBlock' stage hp => ?_, fun start' toBlock' rows hp => ?_,
      fun start' toBlock' hp key row hmem => ?_⟩, .of_eq rfl⟩
    · obtain ⟨rfl, rfl, -⟩ := IndexPass.mk.inj (Option.some.inj hp)
      exact ⟨hdeploy, hlive, hcursor, fun block hblock hlt key row hmem =>
        hs.holds.upsertAll_kept (hbefore block hblock hlt key row hmem)⟩
    · obtain ⟨-, -, hstage⟩ := IndexPass.mk.inj (Option.some.inj hp)
      cases hstage
    · obtain ⟨rfl, rfl, -⟩ := IndexPass.mk.inj (Option.some.inj hp)
      exact (upsertAll_rows _ (events.between_unique _ _) key).1 row hmem
  · cases hrun

theorem cursorSet (hs : s.Sound events config) (hrun : s.run events config .cursorSet = .ok s') :
    s'.Sound events config ∧ s.table.Advances s'.table := by
  simp only [Indexer.run] at hrun
  split at hrun
  · next start toBlock hpass =>
    obtain rfl := Except.ok.inj hrun
    obtain ⟨hdeploy, hlive, hcursor, hbefore⟩ := hs.begins _ _ _ hpass
    obtain ⟨hend, hfull⟩ := config.windowEnd_eq hlive
    -- every block up to the new cursor was read before or in this window
    have hread : ∀ block, config.deployBlock ≤ block → block ≤ config.windowEnd start toBlock → ∀ key row,
        (key, row) ∈ events.rows block → s.table.rows key = some row := by
      intro block hblock hle key row hmem
      by_cases hlt : block < start
      · exact hbefore block hblock hlt key row hmem
      · exact hs.stored _ _ hpass key row (mem_between.mpr ⟨block, by omega, by omega, hmem⟩)
    refine ⟨⟨⟨fun cursor heq => ?_, hs.holds.sound⟩, fun start' toBlock' stage hp => ?_, fun start' toBlock' rows hp => ?_,
      fun start' toBlock' hp => ?_⟩, fun cursor heq => ⟨_, rfl, ?_⟩⟩
    · obtain rfl := Option.some.inj heq
      exact hread
    · obtain ⟨hle, rfl, rfl, rfl⟩ := next_eq_some.mp hp
      have hwindow := hfull hle
      refine ⟨hdeploy.trans (Nat.le_add_right _ _), hle, fun cursor heq => ?_, fun block hblock hlt => hread block hblock (by omega)⟩
      obtain rfl := Option.some.inj heq
      omega
    · obtain ⟨-, -, -, hstage⟩ := next_eq_some.mp hp
      cases hstage
    · obtain ⟨-, -, -, hstage⟩ := next_eq_some.mp hp
      cases hstage
    · have hlt := hcursor cursor heq
      omega
  · cases hrun

theorem step (hs : s.Sound events config) {step : IndexStep} (hrun : s.run events config step = .ok s') :
    s'.Sound events config ∧ s.table.Advances s'.table := by
  cases step with
  | begin latest => exact hs.begin hrun
  | fetched => exact hs.fetched hrun
  | upserted => exact hs.upserted hrun
  | cursorSet => exact hs.cursorSet hrun
  | stop =>
    obtain rfl := Except.ok.inj hrun
    exact ⟨⟨hs.holds, fun _ _ _ h => (by cases h), fun _ _ _ h => (by cases h), fun _ _ h => (by cases h)⟩, .of_eq rfl⟩

omit [DecidableEq Key] in
theorem start : (Indexer.start : Indexer Key Row).Sound events config where
  holds := ⟨fun _ h => (by cases h), fun _ _ h => (by cases h)⟩
  begins _ _ _ h := by cases h
  upsert _ _ _ h := by cases h
  stored _ _ h := by cases h

end Indexer.Sound

/-- Both tables of a chain hold its events, and nothing else. -/
structure ChainIndex.Holds (chain : IndexedChain) (index : ChainIndex) : Prop where
  commitments : index.commitments.table.Holds (commitmentEvents chain.inserted) chain.commitmentConfig.deployBlock
  claims : index.claims.table.Holds (claimEvents chain.claimed) chain.claimConfig.deployBlock

structure ChainIndex.Advances (index index' : ChainIndex) : Prop where
  commitments : index.commitments.table.Advances index'.commitments.table
  claims : index.claims.table.Advances index'.claims.table

omit [DecidableEq Key] in
theorem IndexTable.Advances.trans {a b c : IndexTable Key Row} (hab : a.Advances b) (hbc : b.Advances c) : a.Advances c := by
  intro cursor hcursor
  obtain ⟨cursor', hcursor', hle⟩ := hab cursor hcursor
  obtain ⟨cursor'', hcursor'', hle'⟩ := hbc cursor' hcursor'
  exact ⟨cursor'', hcursor'', hle.trans hle'⟩

/-- Both indexers of a chain are sound. -/
structure ChainIndex.Sound (chain : IndexedChain) (index : ChainIndex) : Prop where
  commitments : index.commitments.Sound (commitmentEvents chain.inserted) chain.commitmentConfig
  claims : index.claims.Sound (claimEvents chain.claimed) chain.claimConfig

theorem runIndexers_sound {chains : ℕ → IndexedChain} {index index' : ℕ → ChainIndex} {step : IndexersStep}
    (hsound : ∀ chainId, (index chainId).Sound (chains chainId)) (hrun : runIndexers chains step index = .ok index') :
    ∀ chainId, (index' chainId).Sound (chains chainId) ∧ (index chainId).Advances (index' chainId) := by
  intro chainId
  have hs := hsound chainId
  cases step with
  | commitments changed step =>
    simp only [runIndexers, bind_eq_ok, pure_eq_ok] at hrun
    obtain ⟨commitments, hstep, rfl⟩ := hrun
    by_cases heq : chainId = changed
    · subst heq
      obtain ⟨hsound', hadvances⟩ := hs.commitments.step hstep
      rw [Function.update_self]
      exact ⟨⟨hsound', hs.claims⟩, hadvances, .of_eq rfl⟩
    · rw [Function.update_of_ne heq]
      exact ⟨hs, .of_eq rfl, .of_eq rfl⟩
  | claims changed step =>
    simp only [runIndexers, bind_eq_ok, pure_eq_ok] at hrun
    obtain ⟨claims, hstep, rfl⟩ := hrun
    by_cases heq : chainId = changed
    · subst heq
      obtain ⟨hsound', hadvances⟩ := hs.claims.step hstep
      rw [Function.update_self]
      exact ⟨⟨hs.commitments, hsound'⟩, .of_eq rfl, hadvances⟩
    · rw [Function.update_of_ne heq]
      exact ⟨hs, .of_eq rfl, .of_eq rfl⟩

/-- **The tables are complete up to their cursors.** In every run of passes on any chains, with errors and deaths between any two writes and any heads, each table holds the rows of all the events from the deploy block to its cursor, every row it holds is the row of an event, so that storing it again changes nothing, and no cursor ever goes back. -/
theorem indexes_complete (chains : ℕ → IndexedChain) (steps more : List IndexersStep) (chainId : ℕ) :
    let index := Transactions.after (runIndexers chains) (fun _ => ⟨.start, .start⟩) steps
    (index chainId).Holds (chains chainId) ∧
      (index chainId).Advances (Transactions.after (runIndexers chains) index more chainId) := by
  intro index
  have hsound : ∀ chainId, (index chainId).Sound (chains chainId) := by
    refine Transactions.invariant (I := fun index : ℕ → ChainIndex => ∀ chainId, (index chainId).Sound (chains chainId)) ?_ fun _ =>
      ⟨.start, .start⟩
    intro step _ index index' hsound hrun chainId
    exact (runIndexers_sound hsound hrun chainId).1
  have hlater : (∀ chainId, (Transactions.after (runIndexers chains) index more chainId).Sound (chains chainId)) ∧
      ∀ chainId, (index chainId).Advances (Transactions.after (runIndexers chains) index more chainId) := by
    refine Transactions.invariant (I := fun later : ℕ → ChainIndex => (∀ chainId, (later chainId).Sound (chains chainId)) ∧
      ∀ chainId, (index chainId).Advances (later chainId)) ?_ ⟨hsound, fun _ => ⟨.of_eq rfl, .of_eq rfl⟩⟩
    intro step _ later later' hs hrun
    have hstep := runIndexers_sound hs.1 hrun
    refine ⟨fun chainId => (hstep chainId).1, fun chainId => ⟨?_, ?_⟩⟩
    · exact (hs.2 chainId).commitments.trans (hstep chainId).2.commitments
    · exact (hs.2 chainId).claims.trans (hstep chainId).2.claims
  exact ⟨⟨(hsound chainId).commitments.holds, (hsound chainId).claims.holds⟩, hlater.2 chainId⟩

end SharedOrderbook

end ScatterDex
