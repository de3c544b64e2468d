import ScatterDex.Relayer.PushOutbox
import ScatterDex.SharedOrderbook.Verifier
import ScatterDex.Library.Steps

/-!
# Settlements on their way to the shared orderbook

A relayer and the shared orderbook, with the requests between them. A request can arrive late or never, its answer can be lost, the relayer can crash and start again with what its database has, and other relayers, the verify passes and the cap on the number of records work on the same records. Whatever the order of all this, a settlement is acknowledged only after the orderbook took its record, so it waits in the outbox or the orderbook took it, and has it until the cap makes it one of the oldest to go.
-/

namespace ScatterDex

open SharedOrderbook Relayer

namespace Protocol

/-- A request to store a record. It is awaited until it is answered, timed out or forgotten in a crash; it can be processed at any time. -/
structure PushRequest where
  payload : SettlementInsert
  awaited : Bool
  processed : Bool

structure DeliveryState where
  outbox : PushOutbox
  /-- What the worker has left of its batch. -/
  batch : List SettlementInsert
  requests : List PushRequest
  orderbook : VerifierState
  /-- Every record handed over to the outbox. -/
  enqueued : List SettlementInsert
  /-- The records of this relayer the orderbook processed. -/
  accepted : List SettlementInsert
  /-- The hashes of the records the orderbook gave up to its cap. -/
  pruned : List ℕ

inductive DeliveryStep where
  -- a settlement confirmed, and is pushed at once
  | settled (ctx : SettlePushContext) (now : ℕ)
  | tick (now : ℕ)
  | sendNext
  | arrive (i : ℕ) (getOrder : String → Option StoredOrder) (now : ℕ)
  | acknowledged (i : ℕ) (now : ℕ)
  -- refused, timed out or lost
  | unanswered (i : ℕ) (error : String) (now : ℕ)
  | prune (now : ℕ)
  | crash
  | orderbook (step : VerifierStep)

namespace DeliveryStep

variable (us : Address) (chainId maxVerifyAttempts : ℕ)

/-- The relayer stamps a record with its chain. -/
def stamped (payload : SettlementInsert) : SettlementInsert :=
  { payload with chainId := payload.chainId.or (some chainId) }

/-- The hashes of the records that are over the cap in a step of the orderbook. -/
def overCap (orderbook : VerifierState) : VerifierStep → List ℕ
  | .pruneSettlements maxRows => (orderbook.settlements.oldest maxRows).map SettlementRow.txHash
  | _ => []

/-- A step of the relayer, of a request or of the orderbook. -/
def run (step : DeliveryStep) (s : DeliveryState) : Except Unit DeliveryState :=
  match step with
  | .settled ctx now =>
    let payload := ctx.payload us
    .ok { s with
      outbox := s.outbox.enqueueSettlementPush payload now
      requests := s.requests ++ [⟨payload, true, false⟩]
      enqueued := payload :: s.enqueued }
  | .tick now =>
    match s.batch with
    | [] =>
      .ok { s with batch :=
        (s.outbox.getPendingSettlementPushes DEFAULT_BATCH_SIZE DEFAULT_RETRY_BACKOFF_MS now).map PushRow.payload }
    | _ => .error ()
  | .sendNext =>
    match s.batch with
    | [] => .error ()
    | payload :: batch => .ok { s with batch, requests := s.requests ++ [⟨payload, true, false⟩] }
  | .arrive i getOrder now =>
    match s.requests[i]? with
    | some ⟨payload, awaited, false⟩ =>
      .ok { s with
        orderbook := { s.orderbook with
          settlements := (s.orderbook.settlements.insertSettlement getOrder us (stamped chainId payload) now).1 }
        requests := s.requests.set i ⟨payload, awaited, true⟩
        accepted := payload :: s.accepted }
    | _ => .error ()
  | .acknowledged i now =>
    match s.requests[i]? with
    | some ⟨payload, true, true⟩ =>
      .ok { s with
        outbox := s.outbox.markSettlementPushSucceeded payload.txHash now
        requests := s.requests.set i ⟨payload, false, true⟩ }
    | _ => .error ()
  | .unanswered i error now =>
    match s.requests[i]? with
    | some ⟨payload, true, processed⟩ =>
      .ok { s with
        outbox := s.outbox.markSettlementPushFailed payload.txHash error now
        requests := s.requests.set i ⟨payload, false, processed⟩ }
    | _ => .error ()
  | .prune now => .ok { s with outbox := s.outbox.prunePushedSettlementPushes DEFAULT_PRUNE_PUSHED_AFTER_MS now }
  | .crash =>
    .ok { s with batch := [], requests := s.requests.map fun r => { r with awaited := false } }
  | .orderbook step =>
    (step.run maxVerifyAttempts s.orderbook).map fun orderbook => { s with orderbook, pruned := overCap s.orderbook step ++ s.pruned }

def Taken (step : DeliveryStep) (s s' : DeliveryState) : Prop :=
  step.run us chainId maxVerifyAttempts s = .ok s'

end DeliveryStep

namespace DeliveryState

/-- A relayer with an empty outbox, and an orderbook with whatever records it has. -/
def start (orderbook : VerifierState) : DeliveryState := ⟨.empty, [], [], orderbook, [], [], []⟩

/-- The orderbook has a record of a transaction. -/
def HasRecord (orderbook : VerifierState) (txHash : ℕ) : Prop :=
  ∃ row ∈ orderbook.settlements.rows, row.txHash = txHash

/-- What every run keeps. -/
structure Invariant (s : DeliveryState) : Prop where
  rows : ∀ row ∈ s.outbox.rows, row.payload ∈ s.enqueued ∧ row.payload.txHash = row.txHash
  batch : ∀ payload ∈ s.batch, payload ∈ s.enqueued
  requests : ∀ r ∈ s.requests, r.payload ∈ s.enqueued ∧ (r.processed = true → r.payload ∈ s.accepted)
  accepted : ∀ payload ∈ s.accepted, payload ∈ s.enqueued
  records : ∀ payload ∈ s.accepted, HasRecord s.orderbook payload.txHash ∨ payload.txHash ∈ s.pruned
  acknowledged : ∀ row ∈ s.outbox.rows, row.pushedAt ≠ none → ∃ q ∈ s.accepted, q.txHash = row.txHash
  delivered : ∀ payload ∈ s.enqueued,
    s.outbox.Waits payload.txHash ∨ ∃ q ∈ s.accepted, q.txHash = payload.txHash

variable {us : Address} {chainId maxVerifyAttempts : ℕ} {s s' : DeliveryState}

/-! ### Records stay -/

theorem insertSettlement_hasRecord (orderbook : VerifierState) (getOrder : String → Option StoredOrder)
    (submitter : Address) (payload : SettlementInsert) (now : ℕ) {txHash : ℕ}
    (hhas : txHash = payload.txHash ∨ HasRecord orderbook txHash) :
    HasRecord { orderbook with
      settlements := (orderbook.settlements.insertSettlement getOrder submitter payload now).1 } txHash := by
  rcases SettlementsTable.insertSettlement_cases orderbook.settlements getOrder submitter payload now with
    ⟨hkept, row, hrow, htx, -⟩ | ⟨-, -, hrows⟩
  · rcases hhas with rfl | hhas
    · exact ⟨row, by rw [hkept]; exact hrow, htx⟩
    · obtain ⟨other, hother, hotherTx⟩ := hhas
      exact ⟨other, by rw [hkept]; exact hother, hotherTx⟩
  · have hstored : (SettlementsTable.storedRow orderbook.settlements getOrder submitter payload now).txHash =
        payload.txHash := SettlementsTable.snapshot_txHash
    by_cases hown : txHash = payload.txHash
    · exact ⟨_, (hrows _).mpr (Or.inr rfl), hstored.trans hown.symm⟩
    · obtain ⟨row, hrow, htx⟩ := hhas.resolve_left hown
      exact ⟨row, (hrows row).mpr (Or.inl ⟨hrow, fun heq => hown (htx.symm.trans heq)⟩), htx⟩

theorem rewrites_hasRecord {R : SettlementRow → SettlementRow → Prop} {table table' : SettlementsTable}
    (hkey : ∀ row row', R row row' → row'.claimed = row.claimed) (hrewrites : Table.Rewrites R table table') {txHash : ℕ}
    (hhas : ∃ row ∈ table.rows, row.txHash = txHash) : ∃ row ∈ table'.rows, row.txHash = txHash := by
  obtain ⟨row, hrow, htx⟩ := hhas
  obtain ⟨row', hrow', hR⟩ := hrewrites.target row hrow
  exact ⟨row', hrow', (congrArg Prod.fst (hkey row row' hR)).trans htx⟩

/-- A prune loses the records over the cap, and no other. -/
theorem pruneSettlements_hasRecord {orderbook : VerifierState} {maxRows txHash : ℕ} (hhas : HasRecord orderbook txHash) :
    HasRecord { orderbook with settlements := orderbook.settlements.pruneSettlements maxRows } txHash ∨
      txHash ∈ DeliveryStep.overCap orderbook (.pruneSettlements maxRows) := by
  obtain ⟨row, hrow, rfl⟩ := hhas
  rcases SettlementsTable.pruneSettlements_cases orderbook.settlements maxRows with hkept | ⟨-, -, hrows⟩
  · exact Or.inl ⟨row, hkept.symm ▸ hrow, rfl⟩
  · by_cases hold : row ∈ orderbook.settlements.oldest maxRows
    · exact Or.inr (List.mem_map_of_mem hold)
    · exact Or.inl ⟨row, (hrows row).mpr ⟨hrow, hold⟩, rfl⟩

/-- No work of the orderbook loses a record, but for the cap. -/
theorem orderbook_hasRecord {orderbook orderbook' : VerifierState} {step : VerifierStep} {txHash : ℕ}
    (hstep : step.run maxVerifyAttempts orderbook = .ok orderbook') (hhas : HasRecord orderbook txHash) :
    HasRecord orderbook' txHash ∨ txHash ∈ DeliveryStep.overCap orderbook step := by
  have hsame : ∀ row row' : SettlementRow, row.SameReport row' → row'.claimed = row.claimed :=
    fun _ _ h => h.claimed
  cases step with
  | insertSettlement getOrder submitter payload now =>
    cases hstep
    exact Or.inl (insertSettlement_hasRecord orderbook getOrder submitter payload now (Or.inr hhas))
  | quarantine chainId aboveBlock =>
    cases hstep
    exact Or.inl (rewrites_hasRecord hsame (SettlementsTable.quarantineFutureSettlements_rewrites _ _ _ _) hhas)
  | snapshot pass opts =>
    simp only [VerifierStep.run] at hstep
    split at hstep
    · cases hstep
    · cases hstep
      exact Or.inl hhas
    · cases hstep
      exact Or.inl hhas
  | fetched pass logs =>
    simp only [VerifierStep.run] at hstep
    split at hstep
    · cases hstep
      exact Or.inl hhas
    · cases hstep
  | markSettlementsVerified pass =>
    simp only [VerifierStep.run] at hstep
    split at hstep
    · cases hstep
      exact Or.inl (rewrites_hasRecord (fun _ _ h => h.claimed) (SettlementsTable.markSettlementsVerified_rewrites _ _) hhas)
    · cases hstep
  | recordVerifyFailures pass =>
    simp only [VerifierStep.run] at hstep
    split at hstep
    · cases hstep
      exact Or.inl (rewrites_hasRecord hsame (SettlementsTable.recordVerifyFailures_rewrites _ _) hhas)
    · cases hstep
  | recordEventAttribution pass =>
    simp only [VerifierStep.run] at hstep
    split at hstep
    · cases hstep
      exact Or.inl (rewrites_hasRecord hsame (SettlementsTable.recordEventAttribution_rewrites _ _) hhas)
    · cases hstep
  | pruneSettlements maxRows =>
    cases hstep
    exact pruneSettlements_hasRecord hhas
  | stop pass =>
    cases hstep
    exact Or.inl hhas

/-! ### One step -/

theorem invariant_start (orderbook : VerifierState) : (start orderbook).Invariant where
  rows := fun _ h => absurd h List.not_mem_nil
  batch := fun _ h => absurd h List.not_mem_nil
  requests := fun _ h => absurd h List.not_mem_nil
  accepted := fun _ h => absurd h List.not_mem_nil
  records := fun _ h => absurd h List.not_mem_nil
  acknowledged := fun _ h => absurd h List.not_mem_nil
  delivered := fun _ h => absurd h List.not_mem_nil

/-- A new request is for a record that was enqueued, and nobody has processed it. -/
theorem requests_append {payload : SettlementInsert} {enqueued accepted : List SettlementInsert}
    {requests : List PushRequest} (hpayload : payload ∈ enqueued)
    (hrequests : ∀ r ∈ requests, r.payload ∈ enqueued ∧ (r.processed = true → r.payload ∈ accepted)) :
    ∀ r ∈ requests ++ [⟨payload, true, false⟩], r.payload ∈ enqueued ∧ (r.processed = true → r.payload ∈ accepted) := by
  intro r hr
  rcases List.mem_append.mp hr with hold | hnew
  · exact hrequests r hold
  · rw [List.mem_singleton] at hnew
    subst hnew
    exact ⟨hpayload, fun h => absurd h Bool.false_ne_true⟩

theorem requests_set {payload : SettlementInsert} {enqueued accepted : List SettlementInsert}
    {requests : List PushRequest} {i : ℕ} {awaited processed : Bool} (hpayload : payload ∈ enqueued)
    (hprocessed : processed = true → payload ∈ accepted)
    (hrequests : ∀ r ∈ requests, r.payload ∈ enqueued ∧ (r.processed = true → r.payload ∈ accepted)) :
    ∀ r ∈ requests.set i ⟨payload, awaited, processed⟩,
      r.payload ∈ enqueued ∧ (r.processed = true → r.payload ∈ accepted) := by
  intro r hr
  rcases List.mem_or_eq_of_mem_set hr with hold | rfl
  · exact hrequests r hold
  · exact ⟨hpayload, hprocessed⟩

theorem invariant_step {step : DeliveryStep} (hinv : s.Invariant) (hstep : step.Taken us chainId maxVerifyAttempts s s') :
    s'.Invariant := by
  unfold DeliveryStep.Taken at hstep
  cases step with
  | settled ctx now =>
    cases hstep
    constructor
    · intro row hrow
      rcases PushOutbox.mem_enqueue hrow with hold | ⟨htx, hpayload, -⟩
      · exact ⟨List.mem_cons_of_mem _ (hinv.rows row hold).1, (hinv.rows row hold).2⟩
      · exact ⟨hpayload ▸ List.mem_cons_self, (congrArg SettlementInsert.txHash hpayload).trans htx.symm⟩
    · exact fun payload hmem => List.mem_cons_of_mem _ (hinv.batch payload hmem)
    · apply requests_append List.mem_cons_self
      exact fun r hr => ⟨List.mem_cons_of_mem _ (hinv.requests r hr).1, (hinv.requests r hr).2⟩
    · exact fun payload hmem => List.mem_cons_of_mem _ (hinv.accepted payload hmem)
    · exact hinv.records
    · intro row hrow hpushed
      rcases PushOutbox.mem_enqueue hrow with hold | ⟨-, -, hnone⟩
      · exact hinv.acknowledged row hold hpushed
      · exact absurd hnone hpushed
    · intro payload hmem
      rcases List.mem_cons.mp hmem with rfl | hold
      · -- the settlement may have been enqueued before, and acknowledged
        obtain ⟨row, hrow, htx⟩ := PushOutbox.enqueue_has s.outbox (ctx.payload us) now
        by_cases hpushed : row.pushedAt = none
        · exact Or.inl ⟨row, hrow, htx, hpushed⟩
        · rcases PushOutbox.mem_enqueue hrow with hold | ⟨-, -, hnone⟩
          · exact Or.inr (htx ▸ hinv.acknowledged row hold hpushed)
          · exact absurd hnone hpushed
      · rcases hinv.delivered payload hold with ⟨row, hrow, hwaits⟩ | haccepted
        · exact Or.inl ⟨row, PushOutbox.enqueue_keeps hrow, hwaits⟩
        · exact Or.inr haccepted
  | tick now =>
    simp only [DeliveryStep.run] at hstep
    split at hstep
    · cases hstep
      refine { hinv with batch := ?_ }
      intro payload hmem
      obtain ⟨row, hrow, rfl⟩ := List.mem_map.mp hmem
      exact (hinv.rows row (PushOutbox.mem_pending hrow)).1
    · cases hstep
  | sendNext =>
    simp only [DeliveryStep.run] at hstep
    split at hstep
    · cases hstep
    · rename_i payload batch hbatch
      cases hstep
      have hpayload : payload ∈ s.enqueued := hinv.batch payload (hbatch ▸ List.mem_cons_self)
      exact { hinv with
        batch := fun other hmem => hinv.batch other (hbatch ▸ List.mem_cons_of_mem _ hmem)
        requests := requests_append hpayload hinv.requests }
  | arrive i getOrder now =>
    simp only [DeliveryStep.run] at hstep
    split at hstep
    · rename_i payload awaited hrequest
      cases hstep
      have hpayload : payload ∈ s.enqueued := (hinv.requests _ (List.mem_of_getElem? hrequest)).1
      constructor
      · exact hinv.rows
      · exact hinv.batch
      · apply requests_set hpayload fun _ => List.mem_cons_self
        exact fun r hr => ⟨(hinv.requests r hr).1, fun h => List.mem_cons_of_mem _ ((hinv.requests r hr).2 h)⟩
      · intro other hmem
        rcases List.mem_cons.mp hmem with rfl | hold
        · exact hpayload
        · exact hinv.accepted other hold
      · intro other hmem
        rcases List.mem_cons.mp hmem with rfl | hold
        · exact Or.inl (insertSettlement_hasRecord _ _ _ _ _ (Or.inl rfl))
        · exact (hinv.records other hold).imp_left fun hhas => insertSettlement_hasRecord _ _ _ _ _ (Or.inr hhas)
      · intro row hrow hpushed
        obtain ⟨q, hq, htx⟩ := hinv.acknowledged row hrow hpushed
        exact ⟨q, List.mem_cons_of_mem _ hq, htx⟩
      · intro other hmem
        rcases hinv.delivered other hmem with hwaits | ⟨q, hq, htx⟩
        · exact Or.inl hwaits
        · exact Or.inr ⟨q, List.mem_cons_of_mem _ hq, htx⟩
    · cases hstep
  | acknowledged i now =>
    simp only [DeliveryStep.run] at hstep
    split at hstep
    · rename_i payload hrequest
      cases hstep
      obtain ⟨hpayload, hprocessed⟩ := hinv.requests _ (List.mem_of_getElem? hrequest)
      constructor
      · intro row hrow
        obtain ⟨old, hold, htx, hsame, -⟩ := PushOutbox.mem_succeeded hrow
        exact ⟨hsame ▸ (hinv.rows old hold).1, hsame ▸ htx ▸ (hinv.rows old hold).2⟩
      · exact hinv.batch
      · exact requests_set hpayload hprocessed hinv.requests
      · exact hinv.accepted
      · exact hinv.records
      · intro row hrow hpushed
        obtain ⟨old, hold, htx, -, hmark | hmarked⟩ := PushOutbox.mem_succeeded hrow
        · exact htx ▸ hinv.acknowledged old hold (hmark ▸ hpushed)
        · exact ⟨payload, hprocessed rfl, hmarked.symm⟩
      · intro other hmem
        rcases hinv.delivered other hmem with hwaits | haccepted
        · -- what is acknowledged has been processed
          by_cases hown : other.txHash = payload.txHash
          · exact Or.inr ⟨payload, hprocessed rfl, hown.symm⟩
          · exact Or.inl (PushOutbox.succeeded_waits hown hwaits)
        · exact Or.inr haccepted
    · cases hstep
  | unanswered i error now =>
    simp only [DeliveryStep.run] at hstep
    split at hstep
    · rename_i payload processed hrequest
      cases hstep
      obtain ⟨hpayload, hprocessed⟩ := hinv.requests _ (List.mem_of_getElem? hrequest)
      constructor
      · intro row hrow
        obtain ⟨old, hold, htx, hsame, -⟩ := PushOutbox.mem_failed hrow
        exact ⟨hsame ▸ (hinv.rows old hold).1, hsame ▸ htx ▸ (hinv.rows old hold).2⟩
      · exact hinv.batch
      · exact requests_set hpayload hprocessed hinv.requests
      · exact hinv.accepted
      · exact hinv.records
      · intro row hrow hpushed
        obtain ⟨old, hold, htx, -, hmark⟩ := PushOutbox.mem_failed hrow
        exact htx ▸ hinv.acknowledged old hold (hmark ▸ hpushed)
      · intro other hmem
        exact (hinv.delivered other hmem).imp_left PushOutbox.failed_waits
    · cases hstep
  | prune now =>
    cases hstep
    refine { hinv with rows := ?_, acknowledged := ?_, delivered := ?_ }
    · exact fun row hrow => hinv.rows row (Table.mem_delete.mp hrow).1
    · exact fun row hrow => hinv.acknowledged row (Table.mem_delete.mp hrow).1
    · exact fun other hmem => (hinv.delivered other hmem).imp_left PushOutbox.prune_waits
  | crash =>
    cases hstep
    refine { hinv with batch := fun _ h => absurd h List.not_mem_nil, requests := ?_ }
    intro r hr
    obtain ⟨old, hold, rfl⟩ := List.mem_map.mp hr
    exact hinv.requests old hold
  | orderbook step =>
    simp only [DeliveryStep.run] at hstep
    cases hrun : step.run maxVerifyAttempts s.orderbook with
    | error e =>
      rw [hrun] at hstep
      cases hstep
    | ok orderbook =>
      rw [hrun] at hstep
      cases hstep
      refine { hinv with records := fun payload hmem => ?_ }
      rcases hinv.records payload hmem with hhas | hpruned
      · exact (orderbook_hasRecord hrun hhas).imp_right (List.mem_append_left _)
      · exact Or.inr (List.mem_append_right _ hpruned)

end DeliveryState

open DeliveryState

variable {us : Address} {chainId maxVerifyAttempts : ℕ} {orderbook : VerifierState} {steps : List DeliveryStep}
  {s : DeliveryState}

/-- No confirmed settlement is lost on its way: it waits in the outbox, with its record, or the orderbook took a record under its hash, and has one unless its cap dropped it. -/
theorem no_settlement_lost
    (hrun : Steps (fun step => DeliveryStep.Taken us chainId maxVerifyAttempts step) steps (start orderbook) s) :
    ∀ payload ∈ s.enqueued,
      (∃ row ∈ s.outbox.rows, row.txHash = payload.txHash ∧ row.pushedAt = none ∧ row.payload ∈ s.enqueued) ∨
        (∃ q ∈ s.accepted, q.txHash = payload.txHash) ∧
          ((∃ row ∈ s.orderbook.settlements.rows, row.txHash = payload.txHash) ∨ payload.txHash ∈ s.pruned) := by
  have hinv : s.Invariant := hrun.invariant (fun _ _ _ _ hs hstep => invariant_step hs hstep) (invariant_start orderbook)
  intro payload hmem
  rcases hinv.delivered payload hmem with ⟨row, hrow, htx, hpushed⟩ | ⟨q, hq, htx⟩
  · exact Or.inl ⟨row, hrow, htx, hpushed, (hinv.rows row hrow).1⟩
  · exact Or.inr ⟨⟨q, hq, htx⟩, htx ▸ hinv.records q hq⟩

/-- A settlement as its relayer pushes it. -/
def pushedContext : SettlePushContext :=
  ⟨7, 50, none, none, 1, 2, 10, 20, 30, 30, none, some 5, some 6, some 100, some 200, false⟩

/-- The first push is lost with a crash, the worker sends the record again, and once it is acknowledged a later settlement of another relayer pushes it over a cap of one record. -/
theorem no_settlement_lost_crash :
    ∃ s : DeliveryState, (s.enqueued = [pushedContext.payload 12] ∧ s.orderbook.settlements.rows.map SettlementRow.txHash = [8]) ∧
      ∀ payload ∈ s.enqueued,
        (∃ row ∈ s.outbox.rows, row.txHash = payload.txHash ∧ row.pushedAt = none ∧ row.payload ∈ s.enqueued) ∨
          (∃ q ∈ s.accepted, q.txHash = payload.txHash) ∧
            ((∃ row ∈ s.orderbook.settlements.rows, row.txHash = payload.txHash) ∨ payload.txHash ∈ s.pruned) :=
  ⟨_, ⟨rfl, by decide +kernel⟩, @no_settlement_lost 12 1 5 ⟨.empty, fun _ => none⟩
    [.settled pushedContext 1000, .crash, .tick 40000, .sendNext, .arrive 1 (fun _ => none) 50, .acknowledged 1 41000,
      .orderbook (.insertSettlement (fun _ => none) 13 { pushedContext.payload 13 with txHash := 8 } 60), .orderbook (.pruneSettlements 1)] _
    ⟨_, rfl, _, rfl, _, rfl, _, rfl, _, rfl, _, rfl, _, rfl, _, rfl, rfl⟩⟩

end Protocol

end ScatterDex
