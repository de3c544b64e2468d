import ScatterDex.SharedOrderbook.Verifier
import Mathlib.Algebra.Order.BigOperators.Group.List

/-!
# Progress of the verifier

A row that no pass has verified yet has a budget of attempts. A pass looks at the oldest rows of its chain only, but each row it looks at is verified or spends an attempt, so what is left of the budgets shrinks.
-/

namespace ScatterDex

open Fallible Transactions

namespace SharedOrderbook

/-- Unverified, and within its budget of attempts. -/
def SettlementRow.Active (maxVerifyAttempts : ℕ) (row : SettlementRow) : Prop :=
  row.verified = false ∧ row.verifyAttempts < maxVerifyAttempts

instance (maxVerifyAttempts : ℕ) (row : SettlementRow) : Decidable (row.Active maxVerifyAttempts) :=
  inferInstanceAs (Decidable (_ ∧ _))

/-- On a chain, and at or below a block. -/
def SettlementRow.InScope (chainId maxBlock : Option ℕ) (row : SettlementRow) : Prop :=
  (∀ chain ∈ chainId, row.chainId = chain) ∧ ∀ block ∈ maxBlock, row.blockNumber ≤ block

instance (chainId maxBlock : Option ℕ) (row : SettlementRow) : Decidable (row.InScope chainId maxBlock) :=
  inferInstanceAs (Decidable (_ ∧ _))

/-- The attempts that the active rows of a scope have left. -/
def SettlementsTable.budget (maxVerifyAttempts : ℕ) (chainId maxBlock : Option ℕ) (table : SettlementsTable) : ℕ :=
  ((table.rows.filter fun row => row.Active maxVerifyAttempts ∧ row.InScope chainId maxBlock).map fun row =>
    maxVerifyAttempts - row.verifyAttempts).sum

/-- What a row contributes to a budget. -/
def SettlementRow.left (maxVerifyAttempts : ℕ) (chainId maxBlock : Option ℕ) (row : SettlementRow) : ℕ :=
  if row.Active maxVerifyAttempts ∧ row.InScope chainId maxBlock then maxVerifyAttempts - row.verifyAttempts else 0

theorem SettlementsTable.budget_eq (maxVerifyAttempts : ℕ) (chainId maxBlock : Option ℕ) (table : SettlementsTable) :
    table.budget maxVerifyAttempts chainId maxBlock =
      (table.rows.map (SettlementRow.left maxVerifyAttempts chainId maxBlock)).sum := by
  unfold budget
  induction table.rows with
  | nil => rfl
  | cons row rows ih =>
    rw [List.filter_cons, List.map_cons, List.sum_cons, ← ih]
    unfold SettlementRow.left
    by_cases hrow : row.Active maxVerifyAttempts ∧ row.InScope chainId maxBlock
    · rw [if_pos (decide_eq_true hrow), if_pos hrow]
      rfl
    · rw [if_neg (by simpa using hrow), if_neg hrow, zero_add]

/-! ### What a pass does to a row -/

/-- A row keeps its place, stays verified, and takes back no attempt. -/
structure SettlementRow.Ages (row row' : SettlementRow) : Prop where
  txHash : row'.txHash = row.txHash
  chainId : row'.chainId = row.chainId
  blockNumber : row'.blockNumber = row.blockNumber
  verified : row.verified = true → row'.verified = true
  attempts : row.verifyAttempts ≤ row'.verifyAttempts

namespace SettlementRow.Ages

variable {row row' row'' : SettlementRow} {maxVerifyAttempts : ℕ} {chainId maxBlock : Option ℕ}

theorem refl (row : SettlementRow) : row.Ages row := ⟨rfl, rfl, rfl, id, le_rfl⟩

theorem trans (hfirst : row.Ages row') (hsecond : row'.Ages row'') : row.Ages row'' where
  txHash := hsecond.txHash.trans hfirst.txHash
  chainId := hsecond.chainId.trans hfirst.chainId
  blockNumber := hsecond.blockNumber.trans hfirst.blockNumber
  verified := fun hverified => hsecond.verified (hfirst.verified hverified)
  attempts := hfirst.attempts.trans hsecond.attempts

theorem active (hages : row.Ages row') (hactive : row'.Active maxVerifyAttempts) : row.Active maxVerifyAttempts := by
  refine ⟨?_, hages.attempts.trans_lt hactive.2⟩
  cases hverified : row.verified with
  | false => rfl
  | true => exact (hages.verified hverified).symm.trans hactive.1

theorem inScope_iff (hages : row.Ages row') : row'.InScope chainId maxBlock ↔ row.InScope chainId maxBlock := by
  rw [SettlementRow.InScope, SettlementRow.InScope, hages.chainId, hages.blockNumber]

theorem left_le (hages : row.Ages row') :
    row'.left maxVerifyAttempts chainId maxBlock ≤ row.left maxVerifyAttempts chainId maxBlock := by
  unfold SettlementRow.left
  by_cases hactive' : row'.Active maxVerifyAttempts ∧ row'.InScope chainId maxBlock
  · rw [if_pos hactive', if_pos ⟨hages.active hactive'.1, hages.inScope_iff.mp hactive'.2⟩]
    exact Nat.sub_le_sub_left hages.attempts _
  · rw [if_neg hactive']
    exact Nat.zero_le _

theorem left_lt (hactive : row.Active maxVerifyAttempts) (hscope : row.InScope chainId maxBlock)
    (hspent : row'.verified = true ∨ row.verifyAttempts < row'.verifyAttempts) :
    row'.left maxVerifyAttempts chainId maxBlock < row.left maxVerifyAttempts chainId maxBlock := by
  have hbudget := hactive.2
  have hleft : row.left maxVerifyAttempts chainId maxBlock = maxVerifyAttempts - row.verifyAttempts :=
    if_pos ⟨hactive, hscope⟩
  rw [hleft]
  unfold SettlementRow.left
  by_cases hactive' : row'.Active maxVerifyAttempts ∧ row'.InScope chainId maxBlock
  · rw [if_pos hactive']
    rcases hspent with hverified | hattempts
    · exact absurd (hverified.symm.trans hactive'.1.1) (by decide)
    · omega
  · rw [if_neg hactive']
    omega

theorem spent_of_inactive (hactive : row.Active maxVerifyAttempts) (hinactive : ¬row'.Active maxVerifyAttempts) :
    row'.verified = true ∨ row.verifyAttempts < row'.verifyAttempts := by
  cases hverified : row'.verified with
  | true => exact Or.inl rfl
  | false =>
    right
    by_contra hattempts
    exact hinactive ⟨hverified, (not_lt.mp hattempts).trans_lt hactive.2⟩

end SettlementRow.Ages

/-- The rows of a table, aged one by one. -/
def SettlementsTable.AgesBy (g : SettlementRow → SettlementRow) (table table' : SettlementsTable) : Prop :=
  table'.rows = table.rows.map g ∧ ∀ row : SettlementRow, row.Ages (g row)

namespace SettlementsTable

variable {table table' : SettlementsTable} {g : SettlementRow → SettlementRow} {maxVerifyAttempts : ℕ}
  {chainId maxBlock : Option ℕ}

theorem AgesBy.budget_le (hages : table.AgesBy g table') :
    table'.budget maxVerifyAttempts chainId maxBlock ≤ table.budget maxVerifyAttempts chainId maxBlock := by
  rw [budget_eq, budget_eq, hages.1, List.map_map]
  exact List.sum_le_sum fun row _ => (hages.2 row).left_le

theorem AgesBy.budget_lt (hages : table.AgesBy g table') {row : SettlementRow} (hrow : row ∈ table.rows)
    (hactive : row.Active maxVerifyAttempts) (hscope : row.InScope chainId maxBlock)
    (hspent : (g row).verified = true ∨ row.verifyAttempts < (g row).verifyAttempts) :
    table'.budget maxVerifyAttempts chainId maxBlock < table.budget maxVerifyAttempts chainId maxBlock := by
  rw [budget_eq, budget_eq, hages.1, List.map_map]
  refine List.sum_lt_sum _ _ (fun row _ => (hages.2 row).left_le) ⟨row, hrow, ?_⟩
  exact SettlementRow.Ages.left_lt hactive hscope hspent

theorem AgesBy.refl (table : SettlementsTable) : table.AgesBy id table := ⟨(List.map_id _).symm, .refl⟩

theorem AgesBy.trans {table'' : SettlementsTable} {g' : SettlementRow → SettlementRow} (hfirst : table.AgesBy g table')
    (hsecond : table'.AgesBy g' table'') : table.AgesBy (g' ∘ g) table'' :=
  ⟨by rw [hsecond.1, hfirst.1, List.map_map], fun row => (hfirst.2 row).trans (hsecond.2 (g row))⟩

theorem ages_foldl {β : Type} {p : β → SettlementRow → Bool} {f : β → SettlementRow → SettlementRow}
    (hages : ∀ b row, p b row = true → row.Ages (f b row)) (bs : List β) (row : SettlementRow) :
    row.Ages (bs.foldl (fun row b => if p b row then f b row else row) row) := by
  induction bs generalizing row with
  | nil => exact .refl row
  | cons b bs ih =>
    rw [List.foldl_cons]
    split
    · exact (hages b row (by assumption)).trans (ih _)
    · exact ih row

/-! ### The writes of a pass -/

theorem quarantineFutureSettlements_ages (table : SettlementsTable) (chain : Option ℕ) (aboveBlock : ℕ) :
    ∃ g, table.AgesBy g (table.quarantineFutureSettlements maxVerifyAttempts chain aboveBlock) := by
  refine ⟨_, rfl, fun row => ?_⟩
  split
  · next hrow =>
    obtain ⟨-, hattempts, -⟩ := of_decide_eq_true hrow
    exact ⟨rfl, rfl, rfl, id, hattempts.le⟩
  · exact .refl row

/-- A row that a write passes over for its state is verified. -/
theorem verified_of_not {row : SettlementRow} {txHash : ℕ} (htx : row.txHash = txHash)
    (hnot : ¬(row.txHash = txHash ∧ row.verified = false)) : row.verified = true := by
  cases hverified : row.verified with
  | true => rfl
  | false => exact absurd ⟨htx, hverified⟩ hnot

theorem markSettlementsVerified_ages (table : SettlementsTable) (entries : List VerifyDecision) :
    ∃ g, table.AgesBy g (table.markSettlementsVerified entries) ∧
      ∀ row, row.txHash ∈ entries.map VerifyDecision.txHash → (g row).verified = true := by
  have hflip : ∀ (entries : List VerifyDecision) (row : SettlementRow), row.Ages (entries.foldl (fun row e =>
      if decide (row.txHash = e.txHash ∧ row.verified = false) then e.apply row else row) row) :=
    ages_foldl fun _ _ _ => ⟨rfl, rfl, rfl, fun _ => rfl, le_rfl⟩
  refine ⟨_, ⟨Table.foldl_update_rows entries table, hflip entries⟩, fun row hrow => ?_⟩
  induction entries generalizing row with
  | nil => cases hrow
  | cons e entries ih =>
    rw [List.foldl_cons]
    by_cases hmatch : row.txHash = e.txHash ∧ row.verified = false
    · rw [if_pos (decide_eq_true hmatch)]
      exact (hflip entries _).verified rfl
    · rw [if_neg (by simpa using hmatch)]
      rcases List.mem_cons.mp hrow with htx | hlater
      · exact (hflip entries row).verified (verified_of_not htx hmatch)
      · exact ih row hlater

theorem recordVerifyFailures_ages (table : SettlementsTable) (txHashes : List ℕ) :
    ∃ g, table.AgesBy g (table.recordVerifyFailures txHashes) ∧
      ∀ row, row.txHash ∈ txHashes → (g row).verified = true ∨ row.verifyAttempts < (g row).verifyAttempts := by
  have hbump : ∀ (txHashes : List ℕ) (row : SettlementRow), row.Ages (txHashes.foldl (fun row h =>
      if decide (row.txHash = h ∧ row.verified = false) then { row with verifyAttempts := row.verifyAttempts + 1 }
      else row) row) :=
    ages_foldl fun _ _ _ => ⟨rfl, rfl, rfl, id, Nat.le_succ _⟩
  refine ⟨_, ⟨Table.foldl_update_rows txHashes table, hbump txHashes⟩, fun row hrow => ?_⟩
  induction txHashes generalizing row with
  | nil => cases hrow
  | cons h txHashes ih =>
    rw [List.foldl_cons]
    by_cases hmatch : row.txHash = h ∧ row.verified = false
    · rw [if_pos (decide_eq_true hmatch)]
      have hspent := (hbump txHashes { row with verifyAttempts := row.verifyAttempts + 1 }).attempts
      exact Or.inr (Nat.lt_of_succ_le hspent)
    · rw [if_neg (by simpa using hmatch)]
      rcases List.mem_cons.mp hrow with htx | hlater
      · exact Or.inl ((hbump txHashes row).verified (verified_of_not htx hmatch))
      · exact ih row hlater

theorem recordEventAttribution_ages (table : SettlementsTable) (rows : List EventAttribution) :
    ∃ g, table.AgesBy g (table.recordEventAttribution rows) := by
  have hstamp : ∀ (r : EventAttribution) (row : SettlementRow), row.Ages { row with
      eventMakerRelayer := some r.eventMakerRelayer
      eventTakerRelayer := some r.eventTakerRelayer } := fun _ _ => ⟨rfl, rfl, rfl, id, le_rfl⟩
  exact ⟨_, Table.foldl_update_rows rows table, ages_foldl (fun r row _ => hstamp r row) rows⟩

/-! ### The rows a pass looks at -/

/-- Oldest block first, and by their hash within a block. -/
def listedBefore (a b : SettlementRow) : Prop :=
  a.blockNumber < b.blockNumber ∨ (a.blockNumber = b.blockNumber ∧ a.txHash ≤ b.txHash)

instance : DecidableRel listedBefore := fun _ _ => inferInstanceAs (Decidable (_ ∨ _))

instance : Std.Total listedBefore where
  total a b := by
    unfold listedBefore
    omega

instance : IsTrans SettlementRow listedBefore where
  trans a b c := by
    unfold listedBefore
    omega

theorem listUnverifiedSettlements_prefix (table : SettlementsTable) (maxVerifyAttempts : ℕ)
    (chainId maxBlock limit : Option ℕ) :
    ∃ ordered : List SettlementRow, ordered.Pairwise listedBefore ∧
      (∀ row, row ∈ ordered ↔ row ∈ table.rows ∧ row.Active maxVerifyAttempts ∧ row.InScope chainId maxBlock) ∧
      table.listUnverifiedSettlements maxVerifyAttempts chainId maxBlock limit =
        ordered.take (min (limit.getD 500) 5000) := by
  refine ⟨_, List.pairwise_insertionSort listedBefore (table.rows.filter fun row =>
    row.verified = false ∧ row.verifyAttempts < maxVerifyAttempts ∧ (∀ chain ∈ chainId, row.chainId = chain) ∧
      ∀ block ∈ maxBlock, row.blockNumber ≤ block), fun row => ?_, rfl⟩
  rw [List.mem_insertionSort, List.mem_filter, decide_eq_true_eq]
  simp only [SettlementRow.Active, SettlementRow.InScope, and_assoc]

/-- The oldest row of a pass is no younger than any active row in its scope. -/
theorem head_activeRows {opts : VerifyOptions} (hlimit : opts.limit ≠ some 0) {row : SettlementRow}
    (hrow : row ∈ table.rows) (hactive : row.Active maxVerifyAttempts)
    (hscope : row.InScope (some opts.chainId) opts.maxBlock) :
    ∃ oldest, (activeRows table maxVerifyAttempts opts).head? = some oldest ∧ oldest ∈ table.rows ∧
      oldest.Active maxVerifyAttempts ∧ oldest.InScope (some opts.chainId) opts.maxBlock ∧
      oldest.blockNumber ≤ row.blockNumber := by
  obtain ⟨ordered, hsorted, hmem, hlisted⟩ :=
    listUnverifiedSettlements_prefix table maxVerifyAttempts (some opts.chainId) opts.maxBlock opts.limit
  have hrowOrdered := (hmem row).mpr ⟨hrow, hactive, hscope⟩
  cases ordered with
  | nil => cases hrowOrdered
  | cons oldest rest =>
    have hpos : 0 < min (opts.limit.getD 500) 5000 := by
      cases hcap : opts.limit with
      | none => decide
      | some cap =>
        have hcapPos : cap ≠ 0 := fun hzero => hlimit (hcap.trans (congrArg some hzero))
        rw [Option.getD_some]
        omega
    obtain ⟨cap, hcap⟩ := Nat.exists_eq_succ_of_ne_zero hpos.ne'
    rw [hcap, List.take_succ_cons] at hlisted
    obtain ⟨hin, holdestActive, holdestScope⟩ := (hmem oldest).mp List.mem_cons_self
    refine ⟨oldest, ?_, hin, holdestActive, holdestScope, ?_⟩
    · -- the block window of the oldest row holds that row
      unfold activeRows
      rw [hlisted]
      cases opts.maxBlockRange with
      | none => rfl
      | some range =>
        show (List.filter (fun row => decide (row.blockNumber ≤ oldest.blockNumber + range))
          (oldest :: rest.take cap)).head? = some oldest
        rw [List.filter_cons, if_pos (decide_eq_true (Nat.le_add_right _ _))]
        rfl
    · rcases List.mem_cons.mp hrowOrdered with rfl | hrest
      · exact le_rfl
      · rcases List.rel_of_pairwise_cons hsorted hrest with hlt | ⟨heq, -⟩
        · exact hlt.le
        · exact heq.le

end SettlementsTable

theorem report_covers {rows : List SettlementRow} (events : List SettledAuthEvent) {row : SettlementRow} (hrow : row ∈ rows) :
    row.txHash ∈ (matchSettlements rows events).matched.map VerifyDecision.txHash ∨
      row.txHash ∈ (matchSettlements rows events).unmatched.map Prod.fst := by
  cases hmatch : matchSettlement events row with
  | inl d =>
    left
    obtain ⟨ev, -, -, hd⟩ := matchSettlement_inl hmatch
    refine List.mem_map.mpr ⟨d, List.mem_filterMap.mpr ⟨row, hrow, ?_⟩, by rw [hd]⟩
    rw [hmatch]
    rfl
  | inr p =>
    right
    have hp : p.1 = row.txHash := by
      unfold matchSettlement at hmatch
      split at hmatch
      · rw [← Sum.inr.inj hmatch]
      · split at hmatch
        · rw [← Sum.inr.inj hmatch]
        · split at hmatch
          · rw [← Sum.inr.inj hmatch]
          · cases hmatch
    refine List.mem_map.mpr ⟨p, List.mem_filterMap.mpr ⟨row, hrow, ?_⟩, hp⟩
    rw [hmatch]
    rfl

/-! ### A pass -/

section Pass

variable {maxVerifyAttempts : ℕ} {fetcher : EventFetcher} {opts : VerifyOptions} {futureBlockThreshold : Option ℕ}
  {table : SettlementsTable}

theorem writes_age (table : SettlementsTable) (report : VerifyReport) :
    ∃ g, table.AgesBy g (((table.markSettlementsVerified report.matched).recordVerifyFailures
        (report.unmatched.map Prod.fst)).recordEventAttribution report.attributions) ∧
      ∀ row : SettlementRow, row.txHash ∈ report.matched.map VerifyDecision.txHash ∨
          row.txHash ∈ report.unmatched.map Prod.fst →
        (g row).verified = true ∨ row.verifyAttempts < (g row).verifyAttempts := by
  obtain ⟨mark, hmark, hmarked⟩ := table.markSettlementsVerified_ages report.matched
  obtain ⟨fail, hfail, hfailed⟩ :=
    (table.markSettlementsVerified report.matched).recordVerifyFailures_ages (report.unmatched.map Prod.fst)
  obtain ⟨attest, hattest⟩ := SettlementsTable.recordEventAttribution_ages
    ((table.markSettlementsVerified report.matched).recordVerifyFailures (report.unmatched.map Prod.fst))
    report.attributions
  refine ⟨_, (hmark.trans hfail).trans hattest, ?_⟩
  intro row hrow
  have hlast := (hfail.2 (mark row)).trans (hattest.2 _)
  rcases hrow with hmatched | hunmatched
  · exact Or.inl (hlast.verified (hmarked row hmatched))
  · rcases hfailed (mark row) ((hmark.2 row).txHash ▸ hunmatched) with hverified | hattempts
    · exact Or.inl ((hattest.2 _).verified hverified)
    · exact Or.inr (((hmark.2 row).attempts.trans_lt hattempts).trans_le (hattest.2 _).attempts)

/-- The table whose rows a pass looks at. -/
def scanned (maxVerifyAttempts : ℕ) (opts : VerifyOptions) (futureBlockThreshold : Option ℕ) (table : SettlementsTable) :
    SettlementsTable :=
  match futureBlockThreshold with
  | some aboveBlock => table.quarantineFutureSettlements maxVerifyAttempts (some opts.chainId) aboveBlock
  | none => table

theorem scanned_ages (maxVerifyAttempts : ℕ) (opts : VerifyOptions) (futureBlockThreshold : Option ℕ)
    (table : SettlementsTable) : ∃ g, table.AgesBy g (scanned maxVerifyAttempts opts futureBlockThreshold table) := by
  cases futureBlockThreshold with
  | none => exact ⟨id, .refl table⟩
  | some aboveBlock => exact table.quarantineFutureSettlements_ages (some opts.chainId) aboveBlock

/-- A pass either only scans, because there is nothing to look at or the fetch failed, or writes a report of its active rows. -/
theorem runVerifyPass_cases (maxVerifyAttempts : ℕ) (fetcher : EventFetcher) (opts : VerifyOptions)
    (futureBlockThreshold : Option ℕ) (table : SettlementsTable) :
    ((runVerifyPass maxVerifyAttempts fetcher opts futureBlockThreshold table).1 =
        scanned maxVerifyAttempts opts futureBlockThreshold table ∧
      (activeRows (scanned maxVerifyAttempts opts futureBlockThreshold table) maxVerifyAttempts opts = [] ∨
        ∃ e, (runVerifyPass maxVerifyAttempts fetcher opts futureBlockThreshold table).2 = .error e)) ∨
    ∃ events, ∃ report, report = matchSettlements
        (activeRows (scanned maxVerifyAttempts opts futureBlockThreshold table) maxVerifyAttempts opts) events ∧
      runVerifyPass maxVerifyAttempts fetcher opts futureBlockThreshold table =
        ((((scanned maxVerifyAttempts opts futureBlockThreshold table).markSettlementsVerified
          report.matched).recordVerifyFailures (report.unmatched.map Prod.fst)).recordEventAttribution
          report.attributions, .ok report) := by
  have hpass : runVerifyPass maxVerifyAttempts fetcher opts futureBlockThreshold table =
      runVerifyPass maxVerifyAttempts fetcher opts none
        (scanned maxVerifyAttempts opts futureBlockThreshold table) := by
    cases futureBlockThreshold <;> rfl
  rw [hpass]
  generalize scanned maxVerifyAttempts opts futureBlockThreshold table = table
  unfold runVerifyPass
  dsimp only
  cases hrows : activeRows table maxVerifyAttempts opts with
  | nil => exact Or.inl ⟨rfl, Or.inl rfl⟩
  | cons oldest rest =>
    rw [List.head?_cons, List.getLast?_cons]
    dsimp only
    cases fetcher oldest.blockNumber _ with
    | error e => exact Or.inl ⟨rfl, Or.inr ⟨e, rfl⟩⟩
    | ok events => exact Or.inr ⟨events, _, rfl, rfl⟩

theorem scanned_runVerifyPass (maxVerifyAttempts : ℕ) (fetcher : EventFetcher) (opts : VerifyOptions)
    (futureBlockThreshold : Option ℕ) (table : SettlementsTable) :
    ∃ g, (scanned maxVerifyAttempts opts futureBlockThreshold table).AgesBy g
      (runVerifyPass maxVerifyAttempts fetcher opts futureBlockThreshold table).1 := by
  rcases runVerifyPass_cases maxVerifyAttempts fetcher opts futureBlockThreshold table with
    ⟨hpass, -⟩ | ⟨events, report, -, hpass⟩
  · exact ⟨id, hpass ▸ .refl _⟩
  · obtain ⟨g, hwrites, -⟩ := writes_age (scanned maxVerifyAttempts opts futureBlockThreshold table) report
    rw [hpass]
    exact ⟨g, hwrites⟩

theorem runVerifyPass_ages (maxVerifyAttempts : ℕ) (fetcher : EventFetcher) (opts : VerifyOptions)
    (futureBlockThreshold : Option ℕ) (table : SettlementsTable) :
    ∃ g, table.AgesBy g (runVerifyPass maxVerifyAttempts fetcher opts futureBlockThreshold table).1 := by
  obtain ⟨g, hscanned⟩ := scanned_ages maxVerifyAttempts opts futureBlockThreshold table
  obtain ⟨g', hrest⟩ := scanned_runVerifyPass maxVerifyAttempts fetcher opts futureBlockThreshold table
  exact ⟨_, hscanned.trans hrest⟩

/-- A pass that succeeds while an active row is in its scope takes something from every budget that counts the rows of its chain up to that row. -/
theorem runVerifyPass_spends (hlimit : opts.limit ≠ some 0) {row : SettlementRow} (hrow : row ∈ table.rows)
    (hactive : row.Active maxVerifyAttempts) (hscope : row.InScope (some opts.chainId) opts.maxBlock)
    {report : VerifyReport} (hok : (runVerifyPass maxVerifyAttempts fetcher opts futureBlockThreshold table).2 = .ok report)
    {chainId maxBlock : Option ℕ} (hcounts : ∀ other : SettlementRow, other.chainId = row.chainId →
      other.blockNumber ≤ row.blockNumber → other.InScope chainId maxBlock) :
    (runVerifyPass maxVerifyAttempts fetcher opts futureBlockThreshold table).1.budget maxVerifyAttempts chainId maxBlock <
      table.budget maxVerifyAttempts chainId maxBlock := by
  obtain ⟨g, hscanned⟩ := scanned_ages maxVerifyAttempts opts futureBlockThreshold table
  by_cases hstill : (g row).Active maxVerifyAttempts
  · -- the row is still active when the pass looks
    have hin : g row ∈ (scanned maxVerifyAttempts opts futureBlockThreshold table).rows := by
      rw [hscanned.1]
      exact List.mem_map_of_mem hrow
    obtain ⟨oldest, hhead, holdest, holdestActive, holdestScope, hle⟩ :=
      SettlementsTable.head_activeRows hlimit hin hstill ((hscanned.2 row).inScope_iff.mpr hscope)
    rcases runVerifyPass_cases maxVerifyAttempts fetcher opts futureBlockThreshold table with
      ⟨-, hnone | ⟨e, herror⟩⟩ | ⟨events, report, hreport, hpass⟩
    · rw [hnone] at hhead
      cases hhead
    · rw [herror] at hok
      cases hok
    · obtain ⟨g', hwrites, hspent⟩ := writes_age (scanned maxVerifyAttempts opts futureBlockThreshold table) report
      have hcovered := report_covers events (List.mem_of_head? hhead)
      rw [← hreport] at hcovered
      have hchain : oldest.chainId = row.chainId :=
        (holdestScope.1 _ rfl).trans (hscope.1 _ rfl).symm
      rw [hpass]
      calc _ < (scanned maxVerifyAttempts opts futureBlockThreshold table).budget maxVerifyAttempts chainId maxBlock :=
            hwrites.budget_lt holdest holdestActive
              (hcounts oldest hchain (hle.trans_eq (hscanned.2 row).blockNumber)) (hspent oldest hcovered)
        _ ≤ table.budget maxVerifyAttempts chainId maxBlock := hscanned.budget_le
  · -- the row was given up before
    obtain ⟨g', hrest⟩ := scanned_runVerifyPass maxVerifyAttempts fetcher opts futureBlockThreshold table
    calc _ ≤ (scanned maxVerifyAttempts opts futureBlockThreshold table).budget maxVerifyAttempts chainId maxBlock :=
          hrest.budget_le
      _ < table.budget maxVerifyAttempts chainId maxBlock :=
          hscanned.budget_lt hrow hactive (hcounts row rfl le_rfl)
            (SettlementRow.Ages.spent_of_inactive hactive hstill)

end Pass

/-! ### Runs of passes -/

structure VerifyCall where
  fetcher : EventFetcher
  opts : VerifyOptions
  futureBlockThreshold : Option ℕ

def VerifyCall.run (maxVerifyAttempts : ℕ) (call : VerifyCall) (table : SettlementsTable) :
    SettlementsTable × Except String VerifyReport :=
  runVerifyPass maxVerifyAttempts call.fetcher call.opts call.futureBlockThreshold table

def afterPasses (maxVerifyAttempts : ℕ) (table : SettlementsTable) (calls : List VerifyCall) : SettlementsTable :=
  calls.foldl (fun table call => (call.run maxVerifyAttempts table).1) table

/-- A pass on a chain that reaches a block, takes at least one row, and succeeds. -/
def VerifyCall.Serves (maxVerifyAttempts chainId block : ℕ) (table : SettlementsTable) (call : VerifyCall) : Prop :=
  call.opts.chainId = chainId ∧ (∀ maxBlock ∈ call.opts.maxBlock, block ≤ maxBlock) ∧ call.opts.limit ≠ some 0 ∧
    (call.run maxVerifyAttempts table).2.isOk = true

instance (maxVerifyAttempts chainId block : ℕ) (table : SettlementsTable) (call : VerifyCall) :
    Decidable (call.Serves maxVerifyAttempts chainId block table) :=
  inferInstanceAs (Decidable (_ ∧ _ ∧ _ ∧ _))

/-- How many passes of a run serve a block of a chain. -/
def served (maxVerifyAttempts chainId block : ℕ) (table : SettlementsTable) : List VerifyCall → ℕ
  | [] => 0
  | call :: calls =>
    (if call.Serves maxVerifyAttempts chainId block table then 1 else 0) +
      served maxVerifyAttempts chainId block (call.run maxVerifyAttempts table).1 calls

variable {maxVerifyAttempts : ℕ}

theorem afterPasses_ages (maxVerifyAttempts : ℕ) (calls : List VerifyCall) (table : SettlementsTable) :
    ∃ g, table.AgesBy g (afterPasses maxVerifyAttempts table calls) := by
  induction calls generalizing table with
  | nil => exact ⟨id, .refl table⟩
  | cons call calls ih =>
    obtain ⟨g, hpass⟩ := runVerifyPass_ages maxVerifyAttempts call.fetcher call.opts call.futureBlockThreshold table
    obtain ⟨g', hrest⟩ := ih (call.run maxVerifyAttempts table).1
    exact ⟨_, hpass.trans hrest⟩

/-- A row that is served as often as there are attempts left up to its block is no longer active. -/
theorem inactive_of_served {calls : List VerifyCall} {table : SettlementsTable} {row : SettlementRow} (hrow : row ∈ table.rows)
    (hserved : table.budget maxVerifyAttempts (some row.chainId) (some row.blockNumber) ≤
      served maxVerifyAttempts row.chainId row.blockNumber table calls) :
    ∃ row' ∈ (afterPasses maxVerifyAttempts table calls).rows, row'.txHash = row.txHash ∧
      ¬row'.Active maxVerifyAttempts := by
  induction calls generalizing table row with
  | nil =>
    refine ⟨row, hrow, rfl, fun hactive => ?_⟩
    have hmem : row.left maxVerifyAttempts (some row.chainId) (some row.blockNumber) ∈
        table.rows.map (SettlementRow.left maxVerifyAttempts (some row.chainId) (some row.blockNumber)) :=
      List.mem_map_of_mem hrow
    have hleft : row.left maxVerifyAttempts (some row.chainId) (some row.blockNumber) =
        maxVerifyAttempts - row.verifyAttempts :=
      if_pos ⟨hactive, fun _ heq => Option.some.inj heq, fun _ heq => (Option.some.inj heq).le⟩
    have hle := List.single_le_sum (fun _ _ => Nat.zero_le _) _ hmem
    have hpos := hactive.2
    rw [SettlementsTable.budget_eq] at hserved
    have hzero : served maxVerifyAttempts row.chainId row.blockNumber table [] = 0 := rfl
    omega
  | cons call calls ih =>
    obtain ⟨g, hpass⟩ := runVerifyPass_ages maxVerifyAttempts call.fetcher call.opts call.futureBlockThreshold table
    have hrow' : g row ∈ (call.run maxVerifyAttempts table).1.rows := by
      rw [VerifyCall.run, hpass.1]
      exact List.mem_map_of_mem hrow
    have hages := hpass.2 row
    by_cases hactive : row.Active maxVerifyAttempts
    · have hspent : (call.run maxVerifyAttempts table).1.budget maxVerifyAttempts (some row.chainId)
          (some row.blockNumber) ≤
            served maxVerifyAttempts row.chainId row.blockNumber (call.run maxVerifyAttempts table).1 calls := by
        rw [served] at hserved
        split at hserved
        · next hserves =>
          obtain ⟨hchain, hblock, hlimit, hok⟩ := hserves
          cases hreport : (call.run maxVerifyAttempts table).2 with
          | error e =>
            rw [hreport] at hok
            cases hok
          | ok report =>
            have hcounts : ∀ other : SettlementRow, other.chainId = row.chainId → other.blockNumber ≤ row.blockNumber →
                other.InScope (some row.chainId) (some row.blockNumber) := fun other hotherChain hle =>
              ⟨fun _ heq => hotherChain.trans (Option.some.inj heq), fun _ heq => hle.trans_eq (Option.some.inj heq)⟩
            have hlt := runVerifyPass_spends hlimit hrow hactive
              ⟨fun _ heq => hchain.symm.trans (Option.some.inj heq), hblock⟩ hreport hcounts
            rw [← VerifyCall.run] at hlt
            omega
        · have hle : (call.run maxVerifyAttempts table).1.budget maxVerifyAttempts (some row.chainId)
            (some row.blockNumber) ≤ _ := hpass.budget_le
          omega
      rw [← hages.chainId, ← hages.blockNumber] at hspent
      obtain ⟨row', hfinal, htx, hinactive⟩ := ih hrow' hspent
      exact ⟨row', hfinal, htx.trans hages.txHash, hinactive⟩
    · -- a row that is not active stays so
      obtain ⟨g', hrest⟩ := afterPasses_ages maxVerifyAttempts calls (call.run maxVerifyAttempts table).1
      refine ⟨g' (g row), ?_, (hrest.2 _).txHash.trans hages.txHash, fun hfinal => hactive (hages.active ((hrest.2 _).active hfinal))⟩
      show g' (g row) ∈ (afterPasses maxVerifyAttempts (call.run maxVerifyAttempts table).1 calls).rows
      rw [hrest.1]
      exact List.mem_map_of_mem hrow'

/-- **The verifier makes progress.** A successful pass that may take a row, while some row of its chain at or below its last block is active, leaves fewer attempts to the active rows, of the whole table and of its scope; and in any run of passes a row that is served as often as there were attempts left on its chain up to its block ends verified or quarantined. -/
theorem verifier_progress (maxVerifyAttempts : ℕ) :
    (∀ (call : VerifyCall) (table : SettlementsTable), call.opts.limit ≠ some 0 →
      (∃ row ∈ table.rows, row.Active maxVerifyAttempts ∧ row.InScope (some call.opts.chainId) call.opts.maxBlock) →
      (call.run maxVerifyAttempts table).2.isOk = true →
        (call.run maxVerifyAttempts table).1.budget maxVerifyAttempts none none < table.budget maxVerifyAttempts none none ∧
        (call.run maxVerifyAttempts table).1.budget maxVerifyAttempts (some call.opts.chainId) call.opts.maxBlock <
          table.budget maxVerifyAttempts (some call.opts.chainId) call.opts.maxBlock) ∧
    ∀ (calls : List VerifyCall) (table : SettlementsTable), ∀ row ∈ table.rows,
      table.budget maxVerifyAttempts (some row.chainId) (some row.blockNumber) ≤
          served maxVerifyAttempts row.chainId row.blockNumber table calls →
        ∃ row' ∈ (afterPasses maxVerifyAttempts table calls).rows, row'.txHash = row.txHash ∧
          (row'.verified = true ∨ maxVerifyAttempts ≤ row'.verifyAttempts) := by
  constructor
  · rintro call table hlimit ⟨row, hrow, hactive, hscope⟩ hok
    cases hreport : (call.run maxVerifyAttempts table).2 with
    | error e =>
      rw [hreport] at hok
      cases hok
    | ok report =>
      constructor
      · refine runVerifyPass_spends hlimit hrow hactive hscope hreport fun other _ _ => ⟨?_, ?_⟩
        · exact fun _ hnone => by cases hnone
        · exact fun _ hnone => by cases hnone
      · refine runVerifyPass_spends hlimit hrow hactive hscope hreport fun other hchain hle => ⟨?_, ?_⟩
        · exact fun chain heq => hchain.trans (hscope.1 chain heq)
        · exact fun block heq => hle.trans (hscope.2 block heq)
  · intro calls table row hrow hserved
    obtain ⟨row', hfinal, htx, hinactive⟩ := inactive_of_served hrow hserved
    refine ⟨row', hfinal, htx, ?_⟩
    cases hverified : row'.verified with
    | true => exact Or.inl rfl
    | false =>
      right
      by_contra hattempts
      exact hinactive ⟨hverified, not_le.mp hattempts⟩

def fakeReport : SettlementInsert where
  txHash := 7
  chainId := some 1
  blockNumber := 0
  blockTime := none
  makerRelayer := 5
  takerRelayer := none
  makerOrderId := none
  takerOrderId := none
  makerNullifier := 11
  takerNullifier := 12
  feeMaker := 0
  feeTaker := 0
  userMaxFeeMaker := 0
  userMaxFeeTaker := 0
  sellToken := none
  buyToken := none
  sellAmount := none
  buyAmount := none
  type := none

/-- A report without an event on the chain. -/
def fakeTable : SettlementsTable := (SettlementsTable.insertSettlement Table.empty (fun _ => none) 5 fakeReport 1000).1

/-- A pass over a chain without events. -/
def emptyPass (limit : Option ℕ) : VerifyCall := ⟨fun _ _ => .ok [], ⟨1, some 100, limit, some 10000⟩, some 1100⟩

theorem verifier_progress_fake :
    (((emptyPass none).run 2 fakeTable).1.budget 2 none none < fakeTable.budget 2 none none ∧
      ((emptyPass none).run 2 fakeTable).1.budget 2 (some 1) (some 100) < fakeTable.budget 2 (some 1) (some 100)) ∧
    ∃ row ∈ (afterPasses 2 fakeTable [emptyPass none, emptyPass none]).rows,
      row.txHash = 7 ∧ (row.verified = true ∨ 2 ≤ row.verifyAttempts) := by
  constructor
  · exact (verifier_progress 2).1 (emptyPass none) fakeTable (by decide) (by decide +kernel) (by decide +kernel)
  · have hfirst : fakeReport.row 5 1000 ∈ fakeTable.rows := by decide +kernel
    exact (verifier_progress 2).2 [emptyPass none, emptyPass none] fakeTable _ hfirst (by decide +kernel)

/-- A pass that may take no row succeeds and looks at none. -/
theorem verifier_idle :
    (∃ row ∈ fakeTable.rows, row.Active 2 ∧ row.InScope (some 1) (some 100)) ∧
      ((emptyPass (some 0)).run 2 fakeTable).2.isOk = true ∧
      ((emptyPass (some 0)).run 2 fakeTable).1.budget 2 none none = fakeTable.budget 2 none none := by
  decide +kernel

end SharedOrderbook

end ScatterDex
