import ScatterDex.Library.Transactions
import ScatterDex.SharedOrderbook.Settlements

/-!
# The settlement verifier

A pass takes a snapshot of unverified rows, waits for the events of their blocks, and writes what it found in three transactions: the rows it confirmed, the rows it did not, and the attributions the events attest. The orderbook stores reports in another process, so a report may arrive between any two of these.
-/

namespace ScatterDex

open Fallible

namespace SharedOrderbook

/-! ### Events -/

/-- The two settlement events of the contract. -/
inductive SettlementEvent where
  | privateSettledAuth (makerNullifier takerNullifier claimsRootMaker claimsRootTaker : ℕ)
      (makerRelayer takerRelayer submitter : Address) (feeTokenMaker feeTokenTaker : ℕ)
  | scatterDirectAuthSettled (nullifier nonceNullifier claimsRoot : ℕ) (relayer : Address) (fee : ℕ)
  deriving DecidableEq

/-- A log of the chain. The time of its block may be missing. -/
structure LogEnvelope where
  event : SettlementEvent
  txHash : ℕ
  blockNumber : ℕ
  blockTime : Option ℕ
  deriving DecidableEq

/-- What the matcher reads of an event. -/
structure SettledAuthEvent where
  txHash : ℕ
  blockNumber : ℕ
  blockTime : Option ℕ
  makerNullifier : ℕ
  takerNullifier : ℕ
  makerRelayer : Address
  takerRelayer : Address
  feeTokenMaker : Option ℕ
  feeTokenTaker : Option ℕ
  deriving DecidableEq

/-- `projectPrivateSettledAuth` and `projectScatterDirectAuth`: a scatter is an event whose taker side mirrors the nullifier, names nobody and pays nothing. -/
def LogEnvelope.project (log : LogEnvelope) : SettledAuthEvent :=
  match log.event with
  | .privateSettledAuth makerNullifier takerNullifier _ _ makerRelayer takerRelayer _ feeTokenMaker feeTokenTaker =>
    ⟨log.txHash, log.blockNumber, log.blockTime, makerNullifier, takerNullifier, makerRelayer, takerRelayer,
      some feeTokenMaker, some feeTokenTaker⟩
  | .scatterDirectAuthSettled nullifier _ _ relayer fee =>
    ⟨log.txHash, log.blockNumber, log.blockTime, nullifier, nullifier, relayer, 0, some fee, some 0⟩

theorem LogEnvelope.project_fees (log : LogEnvelope) :
    ∃ feeMaker feeTaker, log.project.feeTokenMaker = some feeMaker ∧ log.project.feeTokenTaker = some feeTaker := by
  rcases log with ⟨_ | _, _, _, _⟩ <;> exact ⟨_, _, rfl, rfl⟩

/-! ### Matching -/

inductive UnmatchedReason where
  | noEvent
  | txMismatch
  | relayerMismatch (eventMakerRelayer eventTakerRelayer : Address)
  deriving DecidableEq

structure VerifyReport where
  matched : List VerifyDecision
  unmatched : List (ℕ × UnmatchedReason)
  deriving DecidableEq

/-- Events by their nullifier pair; of two with one pair the later stays. -/
def byPair (events : List SettledAuthEvent) (makerNullifier takerNullifier : ℕ) : Option SettledAuthEvent :=
  events.reverse.find? fun ev => ev.makerNullifier = makerNullifier ∧ ev.takerNullifier = takerNullifier

/-- The verdict on one row. -/
def matchSettlement (events : List SettledAuthEvent) (row : SettlementRow) : VerifyDecision ⊕ ℕ × UnmatchedReason :=
  match byPair events row.makerNullifier row.takerNullifier with
  | none => .inr (row.txHash, .noEvent)
  | some ev =>
    if ev.txHash ≠ row.txHash then .inr (row.txHash, .txMismatch)
    else if ev.makerRelayer ≠ row.makerRelayer ∨ row.takerRelayer.any fun taker => ev.takerRelayer ≠ taker then
      .inr (row.txHash, .relayerMismatch ev.makerRelayer ev.takerRelayer)
    else .inl ⟨row.txHash, ev.blockTime, ev.feeTokenMaker, ev.feeTokenTaker⟩

def matchSettlements (unverified : List SettlementRow) (events : List SettledAuthEvent) : VerifyReport where
  matched := unverified.filterMap fun row => (matchSettlement events row).getLeft?
  unmatched := unverified.filterMap fun row => (matchSettlement events row).getRight?

/-- An event agrees with a row on its nullifiers, its transaction and its relayers; a row may leave its taker out. -/
structure SettledAuthEvent.Confirms (ev : SettledAuthEvent) (row : SettlementRow) : Prop where
  txHash : ev.txHash = row.txHash
  makerNullifier : ev.makerNullifier = row.makerNullifier
  takerNullifier : ev.takerNullifier = row.takerNullifier
  makerRelayer : ev.makerRelayer = row.makerRelayer
  takerRelayer : ∀ taker ∈ row.takerRelayer, ev.takerRelayer = taker

theorem SettledAuthEvent.Confirms.congr {ev : SettledAuthEvent} {row row' : SettlementRow} (hconfirms : ev.Confirms row)
    (hclaimed : row'.claimed = row.claimed) : ev.Confirms row' := by
  simp only [SettlementRow.claimed, Prod.mk.injEq] at hclaimed
  obtain ⟨htx, hmaker, htaker, hmakerRelayer, htakerRelayer⟩ := hclaimed
  exact ⟨hconfirms.txHash.trans htx.symm, hconfirms.makerNullifier.trans hmaker.symm,
    hconfirms.takerNullifier.trans htaker.symm, hconfirms.makerRelayer.trans hmakerRelayer.symm,
    htakerRelayer ▸ hconfirms.takerRelayer⟩

theorem matchSettlement_inl {events : List SettledAuthEvent} {row : SettlementRow} {d : VerifyDecision}
    (hmatch : matchSettlement events row = .inl d) :
    ∃ ev ∈ events, ev.Confirms row ∧ d = ⟨row.txHash, ev.blockTime, ev.feeTokenMaker, ev.feeTokenTaker⟩ := by
  unfold matchSettlement at hmatch
  split at hmatch
  · cases hmatch
  · rename_i ev hfind
    split at hmatch
    · cases hmatch
    · rename_i htx
      split at hmatch
      · cases hmatch
      · rename_i hrelayers
        rw [not_or, not_not] at hrelayers
        have hmember := List.mem_of_find?_eq_some hfind
        have hpair := List.find?_some hfind
        simp only [decide_eq_true_eq] at hpair
        refine ⟨ev, List.mem_reverse.mp hmember, ⟨not_not.mp htx, hpair.1, hpair.2, hrelayers.1, fun taker htaker => ?_⟩,
          (Sum.inl.inj hmatch).symm⟩
        by_contra hne
        exact hrelayers.2 ((Option.any_eq_true _ _).mpr ⟨taker, htaker, decide_eq_true hne⟩)

theorem mem_matched {rows : List SettlementRow} {events : List SettledAuthEvent} {d : VerifyDecision}
    (hd : d ∈ (matchSettlements rows events).matched) :
    ∃ row ∈ rows, ∃ ev ∈ events, ev.Confirms row ∧
      d = ⟨row.txHash, ev.blockTime, ev.feeTokenMaker, ev.feeTokenTaker⟩ := by
  obtain ⟨row, hrow, hleft⟩ := List.mem_filterMap.mp hd
  obtain ⟨ev, hev, hconfirms⟩ := matchSettlement_inl (Sum.getLeft?_eq_some_iff.mp hleft)
  exact ⟨row, hrow, ev, hev, hconfirms⟩

/-! ### Passes -/

/-- How far a pass has come. -/
inductive VerifyPass where
  | fetching (activeRows : List SettlementRow)
  | marking (activeRows : List SettlementRow) (report : VerifyReport)
  | failing (report : VerifyReport)
  | attesting (report : VerifyReport)
  deriving DecidableEq

/-- The snapshot of a pass that has not marked its rows yet. -/
def VerifyPass.unmarked : VerifyPass → List SettlementRow
  | .fetching activeRows => activeRows
  | .marking activeRows _ => activeRows
  | .failing _ => []
  | .attesting _ => []

structure VerifyOptions where
  chainId : ℕ
  maxBlock : Option ℕ
  limit : Option ℕ
  maxBlockRange : Option ℕ
  deriving DecidableEq

/-- The rows of a pass: those in the block window of the oldest. -/
def activeRows (table : SettlementsTable) (maxVerifyAttempts : ℕ) (opts : VerifyOptions) : List SettlementRow :=
  let rows := SettlementsTable.listUnverifiedSettlements table maxVerifyAttempts (some opts.chainId) opts.maxBlock
    opts.limit
  match rows.head?, opts.maxBlockRange with
  | some oldest, some range => rows.filter fun row => row.blockNumber ≤ oldest.blockNumber + range
  | _, _ => rows

theorem mem_activeRows {table : SettlementsTable} {maxVerifyAttempts : ℕ} {opts : VerifyOptions} {row : SettlementRow}
    (hrow : row ∈ activeRows table maxVerifyAttempts opts) : row ∈ table.rows := by
  have hlisted : ∀ row ∈ SettlementsTable.listUnverifiedSettlements table maxVerifyAttempts (some opts.chainId)
      opts.maxBlock opts.limit, row ∈ table.rows := fun row hrow =>
    (List.mem_filter.mp ((List.mem_insertionSort _).mp (List.mem_of_mem_take hrow))).1
  unfold activeRows at hrow
  dsimp only at hrow
  split at hrow
  · exact hlisted row (List.mem_filter.mp hrow).1
  · exact hlisted row hrow

/-- The attributions a report attests: those of its relayer mismatches. -/
def VerifyReport.attributions (report : VerifyReport) : List EventAttribution :=
  report.unmatched.filterMap fun (txHash, reason) =>
    match reason with
    | .relayerMismatch maker taker => some ⟨txHash, maker, taker⟩
    | _ => none

/-- The database, and the passes under way. -/
structure VerifierState where
  settlements : SettlementsTable
  passes : ℕ → Option VerifyPass

/-- What runs without interruption: one transaction of the database each, and the arrival of the events. -/
inductive VerifierStep where
  | insertSettlement (getOrder : String → Option StoredOrder) (submitter : Address) (payload : SettlementInsert) (now : ℕ)
  | quarantine (chainId : Option ℕ) (aboveBlock : ℕ)
  | snapshot (pass : ℕ) (opts : VerifyOptions)
  | fetched (pass : ℕ) (logs : List LogEnvelope)
  | markSettlementsVerified (pass : ℕ)
  | recordVerifyFailures (pass : ℕ)
  | recordEventAttribution (pass : ℕ)
  | pruneSettlements (maxRows : ℕ)
  -- the fetch failed, or the process died
  | stop (pass : ℕ)

namespace VerifierStep

variable (maxVerifyAttempts : ℕ)

/-- A step of the verifier. A pass goes through its stages in order. -/
def run (step : VerifierStep) (s : VerifierState) : Except Unit VerifierState :=
  match step with
  | .insertSettlement getOrder submitter payload now =>
    .ok { s with settlements := (s.settlements.insertSettlement getOrder submitter payload now).1 }
  | .quarantine chainId aboveBlock =>
    .ok { s with settlements := s.settlements.quarantineFutureSettlements maxVerifyAttempts chainId aboveBlock }
  | .snapshot pass opts =>
    match s.passes pass, activeRows s.settlements maxVerifyAttempts opts with
    | some _, _ => .error ()
    | none, [] => .ok s
    | none, rows => .ok { s with passes := Function.update s.passes pass (some (.fetching rows)) }
  | .fetched pass logs =>
    match s.passes pass with
    | some (.fetching rows) =>
      let report := matchSettlements rows (logs.map LogEnvelope.project)
      .ok { s with passes := Function.update s.passes pass (some (.marking rows report)) }
    | _ => .error ()
  | .markSettlementsVerified pass =>
    match s.passes pass with
    | some (.marking _ report) =>
      .ok ⟨s.settlements.markSettlementsVerified report.matched, Function.update s.passes pass (some (.failing report))⟩
    | _ => .error ()
  | .recordVerifyFailures pass =>
    match s.passes pass with
    | some (.failing report) =>
      .ok ⟨s.settlements.recordVerifyFailures (report.unmatched.map Prod.fst),
        Function.update s.passes pass (some (.attesting report))⟩
    | _ => .error ()
  | .recordEventAttribution pass =>
    match s.passes pass with
    | some (.attesting report) =>
      .ok ⟨s.settlements.recordEventAttribution report.attributions, Function.update s.passes pass none⟩
    | _ => .error ()
  | .pruneSettlements maxRows => .ok { s with settlements := s.settlements.pruneSettlements maxRows }
  | .stop pass => .ok { s with passes := Function.update s.passes pass none }

end VerifierStep

/-! ### A pass without interruption -/

/-- `ethers.Contract.queryFilter` over a block window, which can fail. -/
abbrev EventFetcher := ℕ → ℕ → Except String (List SettledAuthEvent)

/-- The table after a pass, and the report. A pass that fails has only given up the rows of impossible blocks. -/
def runVerifyPass (maxVerifyAttempts : ℕ) (fetcher : EventFetcher) (opts : VerifyOptions)
    (futureBlockThreshold : Option ℕ) (table : SettlementsTable) : SettlementsTable × Except String VerifyReport :=
  let table : SettlementsTable := match futureBlockThreshold with
    | some aboveBlock => table.quarantineFutureSettlements maxVerifyAttempts (some opts.chainId) aboveBlock
    | none => table
  let rows := activeRows table maxVerifyAttempts opts
  match rows.head?, rows.getLast? with
  | some oldest, some newest =>
    match fetcher oldest.blockNumber newest.blockNumber with
    | .error e => (table, .error e)
    | .ok events =>
      let report := matchSettlements rows events
      let marked := table.markSettlementsVerified report.matched
      let failed := SettlementsTable.recordVerifyFailures marked (report.unmatched.map Prod.fst)
      (failed.recordEventAttribution report.attributions, .ok report)
  | _, _ => (table, .ok ⟨[], []⟩)

end SharedOrderbook

end ScatterDex
