import ScatterDex.SharedOrderbook.Verifier

/-!
# What a verified settlement says

A pass confirms the rows of its snapshot and marks whatever sits under their hashes afterwards. The mark is right as long as a report that is stored in between, in the place of a confirmed row or after a prune dropped it, makes no other claim.
-/

namespace ScatterDex

open Transactions

namespace SharedOrderbook

variable (chain : Set LogEnvelope)

/-- A row repeats an event of the chain: its nullifiers, its transaction, its relayers and its fees. -/
def SettlementRow.OnChain (row : SettlementRow) : Prop :=
  ∃ log ∈ chain, log.project.Confirms row ∧ log.project.feeTokenMaker = some row.feeMaker ∧
    log.project.feeTokenTaker = some row.feeTaker

/-- The fetcher returns logs of the chain. -/
def VerifierStep.FetchesFrom : VerifierStep → Prop
  | .fetched _ logs => ∀ log ∈ logs, log ∈ chain
  | _ => True

/-- A report that is stored under the hash of a row of a snapshot not marked yet is confirmed by the events that confirm the snapshot. -/
def VerifierStep.Undisturbing (s : VerifierState) : VerifierStep → Prop
  | .insertSettlement _ submitter payload now =>
    ∀ pass p, s.passes pass = some p → ∀ old ∈ p.unmarked, old.txHash = payload.txHash →
      (∀ row ∈ s.settlements.rows, row.txHash = payload.txHash → row.GivesWayTo submitter payload) →
      ∀ log ∈ chain, log.project.Confirms old → log.project.Confirms (payload.row submitter now)
  | _ => True

/-- The database before anything was reported. -/
def VerifierState.start : VerifierState := ⟨Table.empty, fun _ => none⟩

/-- The rows a pass is about to mark still claim what its snapshot claims. -/
structure VerifierState.Follows (s : VerifierState) : Prop where
  verified : ∀ row ∈ s.settlements.rows, row.verified = true → row.OnChain chain
  unmarked : ∀ pass p, s.passes pass = some p → ∀ old ∈ p.unmarked, ∀ row ∈ s.settlements.rows, row.txHash = old.txHash →
    row.verified = false → ∀ log ∈ chain, log.project.Confirms old → log.project.Confirms row
  report : ∀ pass rows report, s.passes pass = some (.marking rows report) → ∀ d ∈ report.matched, ∃ old ∈ rows,
    ∃ log ∈ chain, log.project.Confirms old ∧
      d = ⟨old.txHash, log.project.blockTime, log.project.feeTokenMaker, log.project.feeTokenTaker⟩

variable {chain} {s : VerifierState} {table : SettlementsTable}

theorem SettlementRow.OnChain.of_sameReport {row row' : SettlementRow} (hrow : row.OnChain chain)
    (hsame : row.SameReport row') : row'.OnChain chain := by
  obtain ⟨log, hlog, hconfirms, hmaker, htaker⟩ := hrow
  obtain ⟨hfeeMaker, hfeeTaker⟩ := hsame.fees
  exact ⟨log, hlog, hconfirms.congr hsame.claimed, hfeeMaker ▸ hmaker, hfeeTaker ▸ htaker⟩

theorem claimed_txHash {row row' : SettlementRow} (hclaimed : row'.claimed = row.claimed) : row'.txHash = row.txHash :=
  congrArg Prod.fst hclaimed

namespace VerifierState.Follows

theorem setPass {pass : ℕ} {next : Option VerifyPass} (hs : s.Follows chain)
    (hunmarked : ∀ p, next = some p → ∀ old ∈ p.unmarked, ∀ row ∈ s.settlements.rows, row.txHash = old.txHash →
      row.verified = false → ∀ log ∈ chain, log.project.Confirms old → log.project.Confirms row)
    (hreport : ∀ rows report, next = some (.marking rows report) → ∀ d ∈ report.matched, ∃ old ∈ rows,
      ∃ log ∈ chain, log.project.Confirms old ∧
        d = ⟨old.txHash, log.project.blockTime, log.project.feeTokenMaker, log.project.feeTokenTaker⟩) :
    VerifierState.Follows chain ⟨s.settlements, Function.update s.passes pass next⟩ where
  verified := hs.verified
  unmarked := by
    intro pass' p hpass
    by_cases hsame : pass' = pass
    · simp only [hsame, Function.update_self] at hpass
      exact hunmarked p hpass
    · simp only [Function.update_of_ne hsame] at hpass
      exact hs.unmarked pass' p hpass
  report := by
    intro pass' rows report hpass
    by_cases hsame : pass' = pass
    · simp only [hsame, Function.update_self] at hpass
      exact hreport rows report hpass
    · simp only [Function.update_of_ne hsame] at hpass
      exact hs.report pass' rows report hpass

theorem leave {pass : ℕ} {next : Option VerifyPass} (hs : s.Follows chain)
    (hpast : next = none ∨ ∃ report, next = some (.failing report) ∨ next = some (.attesting report)) :
    VerifierState.Follows chain ⟨s.settlements, Function.update s.passes pass next⟩ := by
  apply hs.setPass
  · rintro p rfl old hold
    rcases hpast with hnone | ⟨report, hpast | hpast⟩
    · cases hnone
    · cases hpast
      exact absurd hold List.not_mem_nil
    · cases hpast
      exact absurd hold List.not_mem_nil
  · rintro rows report rfl
    rcases hpast with hnone | ⟨report', hpast | hpast⟩
    · cases hnone
    · cases hpast
    · cases hpast

theorem of_sameReport (hs : s.Follows chain) (hrewrites : Table.Rewrites SettlementRow.SameReport s.settlements table) :
    VerifierState.Follows chain ⟨table, s.passes⟩ where
  verified := by
    intro row' hrow' hverified
    obtain ⟨row, hrow, hsame⟩ := hrewrites.source row' hrow'
    exact (hs.verified row hrow (hsame.verified ▸ hverified)).of_sameReport hsame
  unmarked := by
    intro pass p hpass old hold row' hrow' htx hunverified log hlog hconfirms
    obtain ⟨row, hrow, hsame⟩ := hrewrites.source row' hrow'
    have htx : row.txHash = old.txHash := (claimed_txHash hsame.claimed).symm.trans htx
    exact (hs.unmarked pass p hpass old hold row hrow htx (hsame.verified ▸ hunverified) log hlog hconfirms).congr hsame.claimed
  report := hs.report

theorem insertSettlement {getOrder : String → Option StoredOrder} {submitter : Address} {payload : SettlementInsert}
    {now : ℕ} (hs : s.Follows chain)
    (hundisturbing : (VerifierStep.insertSettlement getOrder submitter payload now).Undisturbing chain s) :
    VerifierState.Follows chain
      ⟨(s.settlements.insertSettlement getOrder submitter payload now).1, s.passes⟩ := by
  rcases SettlementsTable.insertSettlement_cases s.settlements getOrder submitter payload now with
    ⟨hkept, -⟩ | ⟨-, hgives, hrows⟩
  · rw [hkept]
    exact hs
  · have hclaimed : (SettlementsTable.storedRow s.settlements getOrder submitter payload now).claimed =
        (payload.row submitter now).claimed := SettlementsTable.storedRow_claimed
    refine ⟨fun row hrow hverified => ?_, fun pass p hpass old hold row hrow htx => ?_, hs.report⟩
    · rcases (hrows row).mp hrow with ⟨hmember, -⟩ | rfl
      · exact hs.verified row hmember hverified
      · cases hverified
    · rcases (hrows row).mp hrow with ⟨hmember, -⟩ | rfl
      · exact hs.unmarked pass p hpass old hold row hmember htx
      · intro _ log hlog hconfirms
        have htx : old.txHash = payload.txHash := htx.symm.trans (claimed_txHash hclaimed)
        exact (hundisturbing pass p hpass old hold htx hgives log hlog hconfirms).congr hclaimed

/-- Marking writes the values of an event that confirms the row. -/
theorem mark {pass : ℕ} {rows : List SettlementRow} {report : VerifyReport} (hs : s.Follows chain)
    (hpass : s.passes pass = some (.marking rows report)) :
    VerifierState.Follows chain ⟨s.settlements.markSettlementsVerified report.matched, s.passes⟩ := by
  have hrewrites := SettlementsTable.markSettlementsVerified_rewrites s.settlements report.matched
  refine ⟨fun row' hrow' hverified => ?_, fun pass' p hpass' old hold row' hrow' htx hunverified => ?_, hs.report⟩
  · obtain ⟨row, hrow, rfl | ⟨hunverified, d, hd, htx, rfl⟩⟩ := hrewrites.source row' hrow'
    · exact hs.verified _ hrow hverified
    · obtain ⟨old, hold, log, hlog, hconfirms, rfl⟩ := hs.report pass rows report hpass d hd
      have hconfirms := hs.unmarked pass _ hpass old hold row hrow htx.symm hunverified log hlog hconfirms
      obtain ⟨feeMaker, feeTaker, hmaker, htaker⟩ := log.project_fees
      refine ⟨log, hlog, hconfirms.congr rfl, ?_, ?_⟩
      · simp only [VerifyDecision.apply, hmaker, Option.getD_some]
      · simp only [VerifyDecision.apply, htaker, Option.getD_some]
  · obtain ⟨row, hrow, rfl | ⟨-, d, -, -, rfl⟩⟩ := hrewrites.source row' hrow'
    · exact hs.unmarked pass' p hpass' old hold _ hrow htx hunverified
    · cases hunverified

theorem pruneSettlements (hs : s.Follows chain) (maxRows : ℕ) : VerifierState.Follows chain ⟨s.settlements.pruneSettlements maxRows, s.passes⟩ where
  verified row hrow := hs.verified row (SettlementsTable.mem_pruneSettlements hrow)
  unmarked pass p hpass old hold row hrow := hs.unmarked pass p hpass old hold row (SettlementsTable.mem_pruneSettlements hrow)
  report := hs.report

theorem run {maxVerifyAttempts : ℕ} {step : VerifierStep} {s' : VerifierState} (hs : s.Follows chain)
    (hfetch : step.FetchesFrom chain) (hundisturbing : step.Undisturbing chain s)
    (hrun : step.run maxVerifyAttempts s = .ok s') : s'.Follows chain := by
  cases step with
  | insertSettlement getOrder submitter payload now =>
    cases hrun
    exact hs.insertSettlement hundisturbing
  | quarantine chainId aboveBlock =>
    cases hrun
    exact hs.of_sameReport (SettlementsTable.quarantineFutureSettlements_rewrites _ _ _ _)
  | snapshot pass opts =>
    simp only [VerifierStep.run] at hrun
    split at hrun
    · cases hrun
    · cases hrun
      exact hs
    · cases hrun
      rename_i rows _ _
      apply hs.setPass
      · rintro p hp old hold row hrow htx - log - hconfirms
        cases hp
        rw [s.settlements.eq_of_key hrow (mem_activeRows hold) htx]
        exact hconfirms
      · rintro rows report hmarking
        cases hmarking
  | fetched pass logs =>
    simp only [VerifierStep.run] at hrun
    split at hrun
    · rename_i rows hpass
      cases hrun
      apply hs.setPass
      · rintro p hp old hold
        cases hp
        exact hs.unmarked pass _ hpass old hold
      · rintro rows' report' hmarking d hd
        cases hmarking
        obtain ⟨old, hold, ev, hev, hconfirms, rfl⟩ := mem_matched hd
        obtain ⟨log, hlog, rfl⟩ := List.mem_map.mp hev
        exact ⟨old, hold, log, hfetch log hlog, hconfirms, rfl⟩
    · cases hrun
  | markSettlementsVerified pass =>
    simp only [VerifierStep.run] at hrun
    split at hrun
    · rename_i rows report hpass
      cases hrun
      exact (hs.mark hpass).leave (Or.inr ⟨report, Or.inl rfl⟩)
    · cases hrun
  | recordVerifyFailures pass =>
    simp only [VerifierStep.run] at hrun
    split at hrun
    · rename_i report hpass
      cases hrun
      exact (hs.of_sameReport (SettlementsTable.recordVerifyFailures_rewrites _ _)).leave (Or.inr ⟨report, Or.inr rfl⟩)
    · cases hrun
  | recordEventAttribution pass =>
    simp only [VerifierStep.run] at hrun
    split at hrun
    · cases hrun
      exact (hs.of_sameReport (SettlementsTable.recordEventAttribution_rewrites _ _)).leave (Or.inl rfl)
    · cases hrun
  | pruneSettlements maxRows =>
    cases hrun
    exact hs.pruneSettlements maxRows
  | stop pass =>
    cases hrun
    exact hs.leave (Or.inl rfl)

end VerifierState.Follows

theorem VerifierState.follows_start : VerifierState.start.Follows chain where
  verified := fun _ hrow => absurd hrow List.not_mem_nil
  unmarked := fun _ _ hpass => by cases hpass
  report := fun _ _ _ hpass => by cases hpass

/-- **A verified row repeats an on-chain event**, in every run in which no report disturbs a pass between its snapshot and its mark. -/
theorem verified_onChain {maxVerifyAttempts : ℕ} {steps : List VerifierStep}
    (hfetch : ∀ step ∈ steps, step.FetchesFrom chain)
    (hundisturbed : Along (VerifierStep.run maxVerifyAttempts) (fun s step => step.Undisturbing chain s)
      VerifierState.start steps) :
    ∀ row ∈ (after (VerifierStep.run maxVerifyAttempts) VerifierState.start steps).settlements.rows,
      row.verified = true → row.OnChain chain := by
  have halong := Along.and hundisturbed
    (along_of_forall (P := fun _ step => step.FetchesFrom chain) fun step hstep _ => hfetch step hstep)
  exact (invariant_along (fun s step s' hs hstep hrun => hs.run hstep.2 hstep.1 hrun) VerifierState.follows_start
    halong).verified

/-- Relayer 1 settles the pair (7, 8) for itself and relayer 2. -/
def settledLog : LogEnvelope where
  event := .privateSettledAuth 7 8 0 0 1 2 1 3 4
  txHash := 100
  blockNumber := 10
  blockTime := some 1000

/-- The report of the settling relayer. -/
def honestReport : SettlementInsert where
  txHash := 100
  chainId := none
  blockNumber := 10
  blockTime := none
  makerRelayer := 1
  takerRelayer := some 2
  makerOrderId := none
  takerOrderId := none
  makerNullifier := 7
  takerNullifier := 8
  feeMaker := 3
  feeTaker := 4
  userMaxFeeMaker := 30
  userMaxFeeTaker := 30
  sellToken := none
  buyToken := none
  sellAmount := none
  buyAmount := none
  type := some .settleAuth

def honestPass : List VerifierStep :=
  [.insertSettlement (fun _ => none) 1 honestReport 900, .snapshot 0 ⟨DEFAULT_CHAIN_ID, none, none, none⟩,
    .fetched 0 [settledLog], .markSettlementsVerified 0]

theorem verified_onChain_honest :
    (∃ row ∈ (after (VerifierStep.run 5) VerifierState.start honestPass).settlements.rows, row.verified = true) ∧
      ∀ row ∈ (after (VerifierStep.run 5) VerifierState.start honestPass).settlements.rows,
        row.verified = true → row.OnChain {settledLog} := by
  refine ⟨by decide +kernel, verified_onChain ?_ ⟨fun _ _ hpass => (by cases hpass), trivial, trivial, trivial, trivial⟩⟩
  simp [honestPass, VerifierStep.FetchesFrom]

/-- Relayer 9 claims the transaction, with other nullifiers and other fees. -/
def squattingReport : SettlementInsert :=
  { honestReport with makerRelayer := 9, takerRelayer := none, makerNullifier := 5, takerNullifier := 6 }

/-- The claim arrives while the events of the pass are fetched. -/
def squattedPass : List VerifierStep :=
  [.insertSettlement (fun _ => none) 1 honestReport 900, .snapshot 0 ⟨DEFAULT_CHAIN_ID, none, none, none⟩,
    .insertSettlement (fun _ => none) 9 squattingReport 901, .fetched 0 [settledLog], .markSettlementsVerified 0]

/-- The mark then verifies a row that no event confirms. -/
theorem squatted_row_verified :
    (∀ step ∈ squattedPass, step.FetchesFrom {settledLog}) ∧
      ∃ row ∈ (after (VerifierStep.run 5) VerifierState.start squattedPass).settlements.rows,
        row.verified = true ∧ ¬row.OnChain {settledLog} := by
  refine ⟨by simp [squattedPass, VerifierStep.FetchesFrom], ?_⟩
  have hverified : ∃ row ∈ (after (VerifierStep.run 5) VerifierState.start squattedPass).settlements.rows,
      row.verified = true ∧ row.makerRelayer = 9 := by decide +kernel
  obtain ⟨row, hrow, hverified, hmaker⟩ := hverified
  refine ⟨row, hrow, hverified, ?_⟩
  rintro ⟨log, rfl, hconfirms, -⟩
  exact absurd (hconfirms.makerRelayer.trans hmaker) (by decide)

end SharedOrderbook

end ScatterDex
