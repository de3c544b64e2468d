import ScatterDex.Relayer.SettlementHistory

/-!
# A history rebuilt from the shared records

A settlement reaches the history of a relayer twice over: the live path writes it from the orders, and a backfill writes it from the record the shared orderbook keeps. The two agree on what happened, on the tokens and on every fee above zero. A record has no gas cost and no duration, and it always has its block, which the live row of a counterparty does not.

A counterparty takes its amounts from the maker's legs in a backfill and from its own order on the live path. These are the same where the two orders mirror each other.
-/

namespace ScatterDex

open SharedOrderbook Relayer

namespace Protocol

/-- What a transaction settled. -/
inductive SettledContent where
  | settleAuth (pair : SettledPair)
  | scatterDirectAuth (ps : AuthorizePublicSignals)

/-- A settlement on chain. A relayer never makes itself an offer, so the taker's relayer is another where one is named. -/
structure Settlement where
  txHash : ℕ
  blockNumber : ℕ
  submitter : Address
  content : SettledContent
  offered : ∀ pair, content = .settleAuth pair → pair.pushExtras.takerRelayer ≠ some submitter

namespace Settlement

/-- The record the submitter pushes. -/
def payload (s : Settlement) : SettlementInsert :=
  match s.content with
  | .settleAuth pair => (pair.pushContext s.txHash s.blockNumber).payload s.submitter
  | .scatterDirectAuth ps => (ps.scatterContext s.txHash s.blockNumber).payload s.submitter

/-- What the live path of a relayer records: as the submitter, or as the relayer of the taker once the peer has answered. -/
def liveEvent (s : Settlement) (us : Address) (measure : SendMeasure) : Option SettlementEventInput :=
  match s.content with
  | .settleAuth pair =>
    if us = s.submitter then some (pair.submitterEvent s.txHash s.blockNumber measure)
    else if pair.pushExtras.takerRelayer = some us then
      some (pair.taker.counterpartyEvent s.txHash (some pair.offerAnswer))
    else none
  | .scatterDirectAuth ps =>
    if us = s.submitter then some (ps.scatterEvent s.txHash s.blockNumber measure) else none

/-- The amounts of the two orders are each other's. -/
def LegsMirror (s : Settlement) : Prop :=
  ∀ pair, s.content = .settleAuth pair →
    pair.maker.sellAmount = pair.taker.buyAmount ∧ pair.taker.sellAmount = pair.maker.buyAmount

end Settlement

/-- The record as the API hands it out. -/
def sharedSettlement (row : SettlementRow) : SharedSettlement where
  txHash := some row.txHash
  makerRelayer := some row.makerRelayer
  takerRelayer := row.takerRelayer
  sellToken := row.sellToken
  buyToken := row.buyToken
  sellAmount := row.sellAmount
  buyAmount := row.buyAmount
  feeMaker := some row.feeMaker
  feeTaker := some row.feeTaker
  blockNumber := some row.blockNumber

def relayerFilter (us : Address) (chainId : ℕ) (since : Option ℕ) (limit offset : Option ℕ) : SettlementListFilter where
  chainId := some chainId
  relayer := some us
  pair := none
  since
  verified := none
  limit
  offset

/-- `GET /api/settlements` of the shared orderbook, as the relayer's client asks for it. -/
def fetchSettlementsForAddress (table : SettlementsTable) (us : Address) (chainId : ℕ) (since : Option ℕ)
    (limit offset : ℕ) : Except String (List SharedSettlement) :=
  .ok ((table.listSettlements (relayerFilter us chainId since (some limit) (some offset))).map sharedSettlement)

/-- A fee without its block and its time. -/
def accrual (fee : FeeAccrualRow) : FeeAccrual := ⟨fee.side, fee.token, fee.amountWei⟩

/-- What a backfill gets back of a settlement the live path would have recorded. -/
structure Restores (s : Settlement) (us : Address) (live restored : SettlementHistoryRow × List FeeAccrualRow) : Prop where
  settlement : (restored.1.txHash, restored.1.type, restored.1.status, restored.1.counterparty) =
    (live.1.txHash, live.1.type, live.1.status, live.1.counterparty)
  tokens : (restored.1.sellToken, restored.1.buyToken) = (live.1.sellToken, live.1.buyToken)
  amounts : us = s.submitter ∨ s.LegsMirror →
    (restored.1.sellAmount, restored.1.buyAmount) = (live.1.sellAmount, live.1.buyAmount)
  block : restored.1.blockNumber = some s.blockNumber ∧ (us = s.submitter → live.1.blockNumber = some s.blockNumber)
  unmeasured : restored.1.gasCostEth = none ∧ restored.1.durationMs = none
  fees : restored.2.map accrual = (live.2.map accrual).filter fun fee => 0 < fee.amountWei

variable {us : Address} {measure : SendMeasure} {s : Settlement} {evt : SettlementEventInput} {row : SettlementRow}
  {chainId now liveNow createdAt : ℕ}

theorem map_accrual_feeRows (evt : SettlementEventInput) (now : ℕ) : (evt.feeRows now).map accrual = evt.fees := by
  rw [SettlementEventInput.feeRows, List.map_map]
  exact List.map_id _

theorem feeIfPositive_some (side : FeeSide) (token : Address) (amount : ℕ) :
    feeIfPositive side (some token) (some amount) = [⟨side, token, amount⟩].filter fun fee => 0 < fee.amountWei := by
  by_cases hpos : 0 < amount <;> simp [feeIfPositive, hpos]

/-- The record of a pair: the maker's legs under the submitter, and the fees of both sides. -/
theorem record_pair {pair : SettledPair} (createdAt : ℕ) (hcontent : s.content = .settleAuth pair) :
    sharedSettlement (s.payload.row s.submitter createdAt) =
      { txHash := some s.txHash
        makerRelayer := some s.submitter
        takerRelayer := some (pair.pushExtras.takerRelayer.getD s.submitter)
        sellToken := some (Address.ofSignal pair.maker.sellToken)
        buyToken := some (Address.ofSignal pair.maker.buyToken)
        sellAmount := some pair.maker.sellAmount
        buyAmount := some pair.maker.buyAmount
        feeMaker := some pair.feeTokenMaker
        feeTaker := some pair.feeTokenTaker
        blockNumber := some s.blockNumber } := by
  unfold Settlement.payload
  rw [hcontent]
  rfl

theorem record_scatter {ps : AuthorizePublicSignals} (createdAt : ℕ) (hcontent : s.content = .scatterDirectAuth ps) :
    sharedSettlement (s.payload.row s.submitter createdAt) =
      { txHash := some s.txHash
        makerRelayer := some s.submitter
        takerRelayer := none
        sellToken := some (Address.ofSignal ps.sellToken)
        buyToken := some (Address.ofSignal ps.sellToken)
        sellAmount := some ps.totalLocked
        buyAmount := some ps.totalLocked
        feeMaker := some ps.scatterFee
        feeTaker := some 0
        blockNumber := some s.blockNumber } := by
  unfold Settlement.payload
  rw [hcontent]
  rfl

theorem compatible_tokens (pair : SettledPair) :
    pair.maker.sellToken = pair.taker.buyToken ∧ pair.taker.sellToken = pair.maker.buyToken :=
  of_decide_eq_true pair.compatible

/-- A pair we sent: the taker's fee is ours as well where no other relayer brought the taker. -/
theorem fees_submitter {pair : SettledPair} (measure : SendMeasure) (createdAt : ℕ) (hcontent : s.content = .settleAuth pair) :
    (sharedSettlement (s.payload.row s.submitter createdAt)).fees s.submitter =
      (pair.submitterEvent s.txHash s.blockNumber measure).fees.filter fun fee => 0 < fee.amountWei := by
  have hoffered := s.offered pair hcontent
  rw [record_pair createdAt hcontent, SharedSettlement.fees, SettledPair.submitterEvent]
  cases hpeer : pair.pushExtras.takerRelayer with
  | none =>
    simp only [SharedSettlement.isScatterDirect, SharedSettlement.isMaker, SharedSettlement.isTaker, feeIfPositive_some,
      Option.getD_none, Option.isSome_none, ← (compatible_tokens pair).1]
    simp [List.filter_cons, List.filter_nil]
    split_ifs <;> rfl
  | some peer =>
    have hne : peer ≠ s.submitter := fun heq => hoffered (hpeer.trans (congrArg some heq))
    simp [SharedSettlement.isScatterDirect, SharedSettlement.isMaker, SharedSettlement.isTaker, feeIfPositive_some, hne]

/-- A pair a peer sent for an order of ours: the fee of the taker's side. -/
theorem fees_counterparty {pair : SettledPair} (createdAt : ℕ) (hcontent : s.content = .settleAuth pair) (hus : us ≠ s.submitter)
    (hpeer : pair.pushExtras.takerRelayer = some us) :
    (sharedSettlement (s.payload.row s.submitter createdAt)).fees us =
      (pair.taker.counterpartyEvent s.txHash (some pair.offerAnswer)).fees.filter fun fee => 0 < fee.amountWei := by
  rw [record_pair createdAt hcontent, SharedSettlement.fees, AuthorizePublicSignals.counterpartyEvent]
  simp [SharedSettlement.isScatterDirect, SharedSettlement.isMaker, SharedSettlement.isTaker, feeIfPositive_some, hpeer,
    hus.symm, SettledPair.offerAnswer, (compatible_tokens pair).1]

theorem fees_scatter {ps : AuthorizePublicSignals} (measure : SendMeasure) (createdAt : ℕ) (hcontent : s.content = .scatterDirectAuth ps) :
    (sharedSettlement (s.payload.row s.submitter createdAt)).fees s.submitter =
      (ps.scatterEvent s.txHash s.blockNumber measure).fees.filter fun fee => 0 < fee.amountWei := by
  rw [record_scatter createdAt hcontent, SharedSettlement.fees, AuthorizePublicSignals.scatterEvent]
  by_cases hpos : 0 < ps.scatterFee <;>
    simp [SharedSettlement.isScatterDirect, SharedSettlement.isMaker, SharedSettlement.isTaker, feeIfPositive, hpos]

theorem event_maker {record : SharedSettlement} {txHash : ℕ} (hmaker : record.isMaker us = true) :
    record.event us txHash =
      { txHash
        type := if record.isScatterDirect then .scatterDirectAuth else .settleAuth
        status := .confirmed
        blockNumber := record.blockNumber
        gasCostEth := none
        sellToken := record.sellToken
        buyToken := record.buyToken
        sellAmount := record.sellAmount
        buyAmount := record.buyAmount
        durationMs := none
        counterparty := false
        fees := record.fees us } := by
  simp [SharedSettlement.event, hmaker]

/-- Without the maker's side, the legs of a record are turned round. -/
theorem event_counterparty {record : SharedSettlement} {txHash : ℕ} (hmaker : record.isMaker us = false)
    (htaker : record.takerRelayer = some us) :
    record.event us txHash =
      { txHash
        type := .settleAuth
        status := .confirmed
        blockNumber := record.blockNumber
        gasCostEth := none
        sellToken := record.buyToken
        buyToken := record.sellToken
        sellAmount := record.buyAmount
        buyAmount := record.sellAmount
        durationMs := none
        counterparty := true
        fees := record.fees us } := by
  simp [SharedSettlement.event, SharedSettlement.isScatterDirect, SharedSettlement.isTaker, hmaker, htaker]

theorem liveEvent_txHash (hlive : s.liveEvent us measure = some evt) : evt.txHash = s.txHash := by
  unfold Settlement.liveEvent at hlive
  cases hcontent : s.content with
  | settleAuth pair =>
    rw [hcontent] at hlive
    dsimp only at hlive
    split_ifs at hlive
    · cases hlive
      rfl
    · cases hlive
      rfl
  | scatterDirectAuth ps =>
    rw [hcontent] at hlive
    dsimp only at hlive
    split_ifs at hlive
    cases hlive
    rfl

theorem restores_record (now liveNow : ℕ) (hlive : s.liveEvent us measure = some evt)
    (hreports : sharedSettlement row = sharedSettlement (s.payload.row s.submitter createdAt)) :
    ∃ restored, (sharedSettlement row).restored us s.txHash now = some restored ∧
      Restores s us (evt.historyRow liveNow, evt.feeRows liveNow) restored := by
  rw [hreports]
  unfold Settlement.liveEvent at hlive
  cases hcontent : s.content with
  | settleAuth pair =>
    rw [hcontent] at hlive
    dsimp only at hlive
    have hrecord := record_pair createdAt hcontent
    by_cases hus : us = s.submitter
    · rw [if_pos hus, Option.some_inj] at hlive
      subst hus hlive
      have hmaker : (sharedSettlement (s.payload.row s.submitter createdAt)).isMaker s.submitter = true := by
        rw [hrecord]
        exact decide_eq_true rfl
      refine ⟨_, if_pos (Or.inl hmaker), ?_⟩
      have hfees := fees_submitter measure createdAt hcontent
      rw [event_maker hmaker]
      constructor
      · rw [hrecord]
        rfl
      · rw [hrecord]
        rfl
      · intro _
        rw [hrecord]
        rfl
      · rw [hrecord]
        exact ⟨rfl, fun _ => rfl⟩
      · exact ⟨rfl, rfl⟩
      · rw [map_accrual_feeRows, map_accrual_feeRows]
        exact hfees
    · rw [if_neg hus] at hlive
      split at hlive
      · rename_i hpeer
        rw [Option.some_inj] at hlive
        subst hlive
        have hmaker : (sharedSettlement (s.payload.row s.submitter createdAt)).isMaker us = false := by
          rw [hrecord]
          exact decide_eq_false fun heq => hus (Option.some_inj.mp heq).symm
        have htaker : (sharedSettlement (s.payload.row s.submitter createdAt)).takerRelayer = some us := by
          rw [hrecord, hpeer, Option.getD_some]
        refine ⟨_, if_pos (Or.inr (decide_eq_true htaker)), ?_⟩
        have hfees := fees_counterparty createdAt hcontent hus hpeer
        rw [event_counterparty hmaker htaker]
        constructor
        · rfl
        · rw [hrecord]
          simp [SettlementEventInput.historyRow, AuthorizePublicSignals.counterpartyEvent, compatible_tokens pair]
        · rintro (heq | hmirror)
          · exact absurd heq hus
          · rw [hrecord]
            simp [SettlementEventInput.historyRow, AuthorizePublicSignals.counterpartyEvent, hmirror pair hcontent]
        · rw [hrecord]
          exact ⟨rfl, fun heq => absurd heq hus⟩
        · exact ⟨rfl, rfl⟩
        · rw [map_accrual_feeRows, map_accrual_feeRows]
          exact hfees
      · cases hlive
  | scatterDirectAuth ps =>
    rw [hcontent] at hlive
    dsimp only at hlive
    have hrecord := record_scatter createdAt hcontent
    split at hlive
    · rename_i hus
      rw [Option.some_inj] at hlive
      subst hus hlive
      have hmaker : (sharedSettlement (s.payload.row s.submitter createdAt)).isMaker s.submitter = true := by
        rw [hrecord]
        exact decide_eq_true rfl
      refine ⟨_, if_pos (Or.inl hmaker), ?_⟩
      have hfees := fees_scatter measure createdAt hcontent
      rw [event_maker hmaker]
      constructor
      · rw [hrecord]
        rfl
      · rw [hrecord]
        rfl
      · intro _
        rw [hrecord]
        rfl
      · rw [hrecord]
        exact ⟨rfl, fun _ => rfl⟩
      · exact ⟨rfl, rfl⟩
      · rw [map_accrual_feeRows, map_accrual_feeRows]
        exact hfees
    · cases hlive

/-- The records a backfill asks for, in the order of the pages. -/
def relayerRecords (table : SettlementsTable) (us : Address) (chainId : ℕ) (since : Option ℚ) : List SharedSettlement :=
  (table.selectedSettlements (relayerFilter us chainId (since.map fun ms => ⌊ms / 1000⌋₊) none none)).map sharedSettlement

theorem relayerRecords_distinct (table : SettlementsTable) (us : Address) (chainId : ℕ) (since : Option ℚ) :
    ((relayerRecords table us chainId since).map SharedSettlement.txHash).Nodup := by
  have hkeys := (@SettlementsTable.selectedSettlements_distinct table
    (relayerFilter us chainId (since.map fun ms => ⌊ms / 1000⌋₊) none none)).map (Option.some_injective ℕ)
  rw [List.map_map] at hkeys
  rw [relayerRecords, List.map_map]
  exact hkeys

/-- A backfill goes through the records once, as far as its pages reach. -/
theorem backfill_db (table : SettlementsTable) (db : HistoryDB) (us : Address) (chainId : ℕ) {since : Option ℚ} (now : ℕ)
    (hsince : since.any (fun ms => ms < 0) = false) :
    (backfillFromSharedOb (fetchSettlementsForAddress table us chainId) db us since now).1 =
      ((relayerRecords table us chainId since).take (MAX_PAGES * PAGE_SIZE)).foldl (restoreRow us now) db := by
  have hfetch : ∀ offset, fetchSettlementsForAddress table us chainId (since.map fun ms => ⌊ms / 1000⌋₊) PAGE_SIZE offset =
      .ok (((relayerRecords table us chainId since).drop offset).take PAGE_SIZE) := by
    intro offset
    rw [relayerRecords, ← List.map_drop, ← List.map_take]
    rfl
  rw [backfillFromSharedOb, hsince, if_neg Bool.false_ne_true]
  dsimp only
  rw [backfillPages_listing hfetch, Nat.zero_mul, List.drop_zero]

theorem mem_relayerRecords {table : SettlementsTable} {since : Option ℚ} (hrow : row ∈ table.rows) (hchain : row.chainId = chainId)
    (hours : row.submitter = us ∨ row.makerRelayer = us ∨ row.takerRelayer = some us)
    (hrecent : ∀ ms ∈ since, ⌊ms / 1000⌋₊ ≤ row.blockTime.getD row.createdAt) :
    sharedSettlement row ∈ relayerRecords table us chainId since := by
  refine List.mem_map_of_mem (SettlementsTable.mem_selectedSettlements.mpr ⟨hrow, ?_⟩)
  have hdated : ((since.map fun ms => ⌊ms / 1000⌋₊).all fun seconds => seconds ≤ row.blockTime.getD row.createdAt) = true := by
    cases since with
    | none => rfl
    | some ms => exact decide_eq_true (hrecent ms rfl)
  simp [SettlementListFilter.selects, relayerFilter, hchain, hours, hdated]

theorem backfill_record {table : SettlementsTable} {since : Option ℚ} (db : HistoryDB) (now : ℕ)
    (hsince : since.any (fun ms => ms < 0) = false)
    (hreach : sharedSettlement row ∈ (relayerRecords table us chainId since).take (MAX_PAGES * PAGE_SIZE)) :
    (backfillFromSharedOb (fetchSettlementsForAddress table us chainId) db us since now).1.getSettlementByTxHash
        row.txHash =
      (db.getSettlementByTxHash row.txHash).or ((sharedSettlement row).restored us row.txHash now) := by
  have hdistinct := (relayerRecords_distinct table us chainId since).sublist ((List.take_sublist (MAX_PAGES * PAGE_SIZE) _).map _)
  rw [backfill_db table db us chainId now hsince]
  exact foldl_restoreRow hdistinct hreach rfl

theorem backfill_again (table : SettlementsTable) (db : HistoryDB) (us : Address) (chainId : ℕ) (since : Option ℚ)
    (now now' : ℕ) :
    let fetch := fetchSettlementsForAddress table us chainId
    (backfillFromSharedOb fetch (backfillFromSharedOb fetch db us since now).1 us since now').1 =
      (backfillFromSharedOb fetch db us since now).1 := by
  dsimp only
  cases hsince : since.any fun ms => ms < 0 with
  | true =>
    unfold backfillFromSharedOb
    rw [hsince]
    rfl
  | false =>
    rw [backfill_db table _ us chainId now' hsince, backfill_db table db us chainId now hsince]
    apply foldl_restoreRow_again
    exact (relayerRecords_distinct table us chainId since).sublist ((List.take_sublist _ _).map _)

theorem backfill_keeps_history (fetch : Option ℕ → ℕ → ℕ → Except String (List SharedSettlement)) (db : HistoryDB)
    (us : Address) (since : Option ℚ) (now txHash : ℕ) {known : SettlementHistoryRow × List FeeAccrualRow}
    (hknown : db.getSettlementByTxHash txHash = some known) :
    (backfillFromSharedOb fetch db us since now).1.getSettlementByTxHash txHash = some known := by
  unfold backfillFromSharedOb
  split
  · exact hknown
  · exact backfillPages_keeps _ _ _ hknown

/-- A backfill is safe to run, and to run again: whatever the orderbook answers it leaves what the history has, and over the same records a second run adds nothing to the first. -/
theorem backfill_rerun (db : HistoryDB) (us : Address) (since : Option ℚ) (now : ℕ) :
    (∀ (fetch : Option ℕ → ℕ → ℕ → Except String (List SharedSettlement)) (txHash : ℕ)
        (known : SettlementHistoryRow × List FeeAccrualRow), db.getSettlementByTxHash txHash = some known →
      (backfillFromSharedOb fetch db us since now).1.getSettlementByTxHash txHash = some known) ∧
      ∀ (table : SettlementsTable) (chainId now' : ℕ),
        (backfillFromSharedOb (fetchSettlementsForAddress table us chainId)
            (backfillFromSharedOb (fetchSettlementsForAddress table us chainId) db us since now).1 us since now').1 =
          (backfillFromSharedOb (fetchSettlementsForAddress table us chainId) db us since now).1 :=
  ⟨fun fetch txHash _ hknown => backfill_keeps_history fetch db us since now txHash hknown,
    fun table chainId now' => backfill_again table db us chainId since now now'⟩

/-- A settlement the history lost comes back from its record as the live path would have written it, but for the gas cost, the duration and the fees of zero; a settlement the history has keeps its row and its fees. -/
theorem backfill_restores_settlement {table : SettlementsTable} {db : HistoryDB} {since : Option ℚ}
    (hlive : s.liveEvent us measure = some evt) (hsince : since.any (fun ms => ms < 0) = false)
    (hreach : sharedSettlement (s.payload.row s.submitter createdAt) ∈
      (relayerRecords table us chainId since).take (MAX_PAGES * PAGE_SIZE)) :
    let after := (backfillFromSharedOb (fetchSettlementsForAddress table us chainId) db us since now).1
    (db.getSettlementByTxHash s.txHash = none →
      ∃ live restored, (db.recordSettlementEvent evt liveNow).getSettlementByTxHash s.txHash = some live ∧
        after.getSettlementByTxHash s.txHash = some restored ∧ Restores s us live restored) ∧
      ∀ known, db.getSettlementByTxHash s.txHash = some known → after.getSettlementByTxHash s.txHash = some known := by
  have hevt : evt.txHash = s.txHash := liveEvent_txHash hlive
  have htx : (s.payload.row s.submitter createdAt).txHash = s.txHash := by
    show s.payload.txHash = s.txHash
    unfold Settlement.payload
    cases s.content <;> rfl
  obtain ⟨restored, hrestored, hrestores⟩ := restores_record now liveNow hlive rfl
  have hafter := backfill_record db now hsince hreach
  rw [htx, hrestored] at hafter
  constructor
  · intro hmissing
    rw [hmissing, Option.none_or] at hafter
    exact ⟨_, restored, hevt ▸ HistoryDB.record_new (hevt.symm ▸ hmissing), hafter, hrestores⟩
  · intro known hknown
    rw [hknown, Option.some_or] at hafter
    exact hafter

/-- A pair of orders with mirrored legs, as a relayer settles it at no fee. -/
def freePair : SettledPair where
  maker := ⟨1, 2, 3, 4, 5, 6, 7, 100, 200, 30, 10, 11, 200, 12, 13⟩
  taker := ⟨1, 2, 8, 9, 5, 7, 6, 200, 100, 30, 10, 11, 100, 12, 13⟩
  feeBps := 0
  pushExtras := ⟨none, none, none⟩
  compatible := by decide

def freeSettlement : Settlement where
  txHash := 1
  blockNumber := 50
  submitter := 12
  content := .settleAuth freePair
  offered := by
    intro pair hpair
    cases hpair
    intro hpeer
    cases hpeer

def freeRecord : SettlementRow := freeSettlement.payload.row 12 1000

def freeTable : SettlementsTable := ⟨[freeRecord], by decide⟩

theorem backfill_restores_settlement_free :
    ∃ live restored,
      (HistoryDB.empty.recordSettlementEvent (freePair.submitterEvent 1 50 ⟨"0.01", 1200⟩) 2000).getSettlementByTxHash 1 =
        some live ∧
      (backfillFromSharedOb (fetchSettlementsForAddress freeTable 12 DEFAULT_CHAIN_ID) .empty 12 none
        3000).1.getSettlementByTxHash 1 = some restored ∧
      Restores freeSettlement 12 live restored :=
  (@backfill_restores_settlement 12 ⟨"0.01", 1200⟩ freeSettlement _ DEFAULT_CHAIN_ID 3000 2000 1000 freeTable .empty none rfl rfl (by
    rw [List.take_of_length_le (by decide +kernel)]
    have hmem : freeRecord ∈ freeTable.rows := List.mem_cons_self
    exact mem_relayerRecords hmem rfl (Or.inl rfl) fun _ h => absurd h (Option.not_mem_none _))).1 rfl

/-- A backfilled history has no fees of zero, where the live path writes one for each side. -/
theorem backfill_drops_free_fees :
    ((HistoryDB.empty.recordSettlementEvent (freePair.submitterEvent 1 50 ⟨"0.01", 1200⟩) 2000).getSettlementByTxHash
        1).map (fun r => r.2.map accrual) = some [⟨.maker, 7, 0⟩, ⟨.taker, 6, 0⟩] ∧
      ((backfillFromSharedOb (fetchSettlementsForAddress freeTable 12 DEFAULT_CHAIN_ID) .empty 12 none
        3000).1.getSettlementByTxHash 1).map (fun r => r.2.map accrual) = some [] := by
  decide +kernel

end Protocol

end ScatterDex
