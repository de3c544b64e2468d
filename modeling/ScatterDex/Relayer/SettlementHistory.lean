import ScatterDex.Relayer.AuthorizeOrder
import ScatterDex.SharedOrderbook.SettlementReads
import Mathlib.Data.Rat.Floor

/-!
# The history of settlements

A relayer keeps a row for every settlement it took part in, and a row for every fee it accrued. The live path writes them when the transaction confirms, and pushes a record of the settlement to the shared orderbook. A database that lost rows gets them back from these records.

Hashes, addresses and amounts are values: the database lowers the case of the texts before it stores them.
-/

namespace ScatterDex

open SharedOrderbook Fallible

namespace Relayer

inductive SettlementStatus where
  | confirmed
  | failed
  deriving DecidableEq, Repr

inductive FeeSide where
  | maker
  | taker
  | scatterDirect
  deriving DecidableEq, Repr

structure FeeAccrual where
  side : FeeSide
  token : Address
  amountWei : ℕ
  deriving DecidableEq

/-- What the callers of `recordSettlementEvent` know of a settlement. -/
structure SettlementEventInput where
  txHash : ℕ
  type : SettlementType
  status : SettlementStatus
  blockNumber : Option ℕ
  gasCostEth : Option String
  sellToken : Option Address
  buyToken : Option Address
  sellAmount : Option ℕ
  buyAmount : Option ℕ
  durationMs : Option ℕ
  counterparty : Bool
  fees : List FeeAccrual

structure SettlementHistoryRow where
  txHash : ℕ
  type : SettlementType
  status : SettlementStatus
  blockNumber : Option ℕ
  gasCostEth : Option String
  sellToken : Option Address
  buyToken : Option Address
  sellAmount : Option ℕ
  buyAmount : Option ℕ
  durationMs : Option ℕ
  counterparty : Bool
  createdAt : ℕ
  deriving DecidableEq

structure FeeAccrualRow where
  txHash : ℕ
  side : FeeSide
  token : Address
  amountWei : ℕ
  blockNumber : Option ℕ
  createdAt : ℕ
  deriving DecidableEq

/-- `settlement_history` and `fee_history`. A fee goes in with its settlement, in one transaction. -/
structure HistoryDB where
  settlements : Table SettlementHistoryRow.txHash
  fees : List FeeAccrualRow
  recorded : ∀ fee ∈ fees, ∃ row ∈ settlements.rows, row.txHash = fee.txHash

def SettlementEventInput.historyRow (evt : SettlementEventInput) (now : ℕ) : SettlementHistoryRow where
  txHash := evt.txHash
  type := evt.type
  status := evt.status
  blockNumber := evt.blockNumber
  gasCostEth := evt.gasCostEth
  sellToken := evt.sellToken
  buyToken := evt.buyToken
  sellAmount := evt.sellAmount
  buyAmount := evt.buyAmount
  durationMs := evt.durationMs
  counterparty := evt.counterparty
  createdAt := now

def SettlementEventInput.feeRows (evt : SettlementEventInput) (now : ℕ) : List FeeAccrualRow :=
  evt.fees.map fun fee =>
    { txHash := evt.txHash, side := fee.side, token := fee.token, amountWei := fee.amountWei
      blockNumber := evt.blockNumber, createdAt := now }

namespace HistoryDB

def empty : HistoryDB := ⟨.empty, [], fun _ hfee => absurd hfee List.not_mem_nil⟩

/-- `INSERT OR IGNORE` of the settlement; a transaction already recorded adds no fees. -/
def recordSettlementEvent (db : HistoryDB) (evt : SettlementEventInput) (now : ℕ) : HistoryDB :=
  match hinsert : db.settlements.insert (evt.historyRow now) with
  | none => db
  | some settlements =>
    { settlements
      fees := db.fees ++ evt.feeRows now
      recorded := by
        intro fee hfee
        rw [(Table.insert_eq_some.mp hinsert).2]
        rcases List.mem_append.mp hfee with hold | hnew
        · obtain ⟨row, hrow, htx⟩ := db.recorded fee hold
          exact ⟨row, List.mem_append_left _ hrow, htx⟩
        · obtain ⟨accrual, -, rfl⟩ := List.mem_map.mp hnew
          exact ⟨evt.historyRow now, List.mem_append_right _ List.mem_cons_self, rfl⟩ }

def getSettlementByTxHash (db : HistoryDB) (txHash : ℕ) : Option (SettlementHistoryRow × List FeeAccrualRow) :=
  (db.settlements.lookup txHash).map fun row => (row, db.fees.filter fun fee => fee.txHash = txHash)

variable {db : HistoryDB} {evt : SettlementEventInput} {now txHash : ℕ}

theorem getSettlementByTxHash_eq_none :
    db.getSettlementByTxHash txHash = none ↔ ∀ row ∈ db.settlements.rows, row.txHash ≠ txHash := by
  rw [getSettlementByTxHash, Option.map_eq_none_iff, Table.lookup_eq_none]

theorem record_new (hnew : db.getSettlementByTxHash evt.txHash = none) :
    (db.recordSettlementEvent evt now).getSettlementByTxHash evt.txHash =
      some (evt.historyRow now, evt.feeRows now) := by
  have hfree := getSettlementByTxHash_eq_none.mp hnew
  unfold recordSettlementEvent
  split
  · rename_i htaken
    obtain ⟨row, hrow, htx⟩ := Table.insert_eq_none.mp htaken
    exact absurd htx (hfree row hrow)
  · rename_i settlements hinsert
    obtain ⟨-, hrows⟩ := Table.insert_eq_some.mp hinsert
    have hlookup : settlements.lookup evt.txHash = some (evt.historyRow now) := by
      apply Table.lookup_eq_some.mpr
      rw [hrows]
      exact ⟨List.mem_append_right _ List.mem_cons_self, rfl⟩
    have hold : db.fees.filter (fun fee => fee.txHash = evt.txHash) = [] := by
      apply List.filter_eq_nil_iff.mpr
      intro fee hfee htx
      obtain ⟨row, hrow, hrowTx⟩ := db.recorded fee hfee
      exact hfree row hrow (hrowTx.trans (of_decide_eq_true htx))
    have hadded : (evt.feeRows now).filter (fun fee => fee.txHash = evt.txHash) = evt.feeRows now := by
      apply List.filter_eq_self.mpr
      intro fee hfee
      obtain ⟨accrual, -, rfl⟩ := List.mem_map.mp hfee
      exact decide_eq_true rfl
    show (settlements.lookup evt.txHash).map _ = _
    rw [hlookup, Option.map_some, List.filter_append, hold, hadded, List.nil_append]

theorem record_other (hother : evt.txHash ≠ txHash) :
    (db.recordSettlementEvent evt now).getSettlementByTxHash txHash = db.getSettlementByTxHash txHash := by
  unfold recordSettlementEvent
  split
  · rfl
  · rename_i settlements hinsert
    obtain ⟨-, hrows⟩ := Table.insert_eq_some.mp hinsert
    have hlookup : settlements.lookup txHash = db.settlements.lookup txHash := by
      have hnot : ¬(evt.historyRow now).txHash = txHash := hother
      rw [Table.lookup, Table.lookup, hrows, List.find?_append, List.find?_singleton, if_neg (by simpa using hnot),
        Option.or_none]
    have hadded : (evt.feeRows now).filter (fun fee => fee.txHash = txHash) = [] := by
      apply List.filter_eq_nil_iff.mpr
      intro fee hfee htx
      obtain ⟨accrual, -, rfl⟩ := List.mem_map.mp hfee
      exact hother (of_decide_eq_true htx)
    show (settlements.lookup txHash).map _ = _
    rw [hlookup, List.filter_append, hadded, List.append_nil]
    rfl

end HistoryDB

/-! ### The live path -/

def Address.ofSignal (value : ℕ) : Address := BitVec.ofNat 160 value

/-- What the cross-relayer matcher adds to a push. -/
structure PushExtras where
  makerOrderId : Option String
  takerOrderId : Option String
  takerRelayer : Option Address

/-- What the submitter knows of a settlement it sent. -/
structure SettlePushContext where
  txHash : ℕ
  blockNumber : ℕ
  makerOrderId : Option String
  takerOrderId : Option String
  makerNullifier : ℕ
  takerNullifier : ℕ
  feeMaker : ℕ
  feeTaker : ℕ
  userMaxFeeMaker : ℕ
  userMaxFeeTaker : ℕ
  takerRelayer : Option Address
  sellToken : Option Address
  buyToken : Option Address
  sellAmount : Option ℕ
  buyAmount : Option ℕ
  singleParty : Bool

/-- The record a settlement is pushed as: the relayer that sent it is the maker's, and the taker's too unless another is named or there is no taker. -/
def SettlePushContext.payload (ctx : SettlePushContext) (ourAddr : Address) : SettlementInsert where
  txHash := ctx.txHash
  chainId := none
  blockNumber := ctx.blockNumber
  blockTime := none
  makerRelayer := ourAddr
  takerRelayer := if ctx.singleParty then none else some (ctx.takerRelayer.getD ourAddr)
  makerOrderId := ctx.makerOrderId
  takerOrderId := ctx.takerOrderId
  makerNullifier := ctx.makerNullifier
  takerNullifier := ctx.takerNullifier
  feeMaker := ctx.feeMaker
  feeTaker := ctx.feeTaker
  userMaxFeeMaker := ctx.userMaxFeeMaker
  userMaxFeeTaker := ctx.userMaxFeeTaker
  sellToken := ctx.sellToken
  buyToken := ctx.buyToken
  sellAmount := ctx.sellAmount
  buyAmount := ctx.buyAmount
  type := some (if ctx.singleParty then .scatterDirectAuth else .settleAuth)

/-- What the relayer measured while it sent a transaction. -/
structure SendMeasure where
  gasCostEth : String
  durationMs : ℕ

/-- A pair of orders the chain settled, at the rate of the relayer that sent it. -/
structure SettledPair where
  maker : AuthorizePublicSignals
  taker : AuthorizePublicSignals
  feeBps : ℕ
  pushExtras : PushExtras
  compatible : maker.isTokenCompatible taker = true

namespace SettledPair

variable (pair : SettledPair)

def feeTokenMaker : ℕ := computeSideFee pair.maker.buyAmount pair.maker.maxFee pair.feeBps

def feeTokenTaker : ℕ := computeSideFee pair.taker.buyAmount pair.taker.maxFee pair.feeBps

/-- The row and the fees `submitAuthSettle` records: the maker's order, and the fees of both sides unless the taker's relayer is another. -/
def submitterEvent (txHash blockNumber : ℕ) (measure : SendMeasure) : SettlementEventInput where
  txHash
  type := .settleAuth
  status := .confirmed
  blockNumber := some blockNumber
  gasCostEth := some measure.gasCostEth
  sellToken := some (Address.ofSignal pair.maker.sellToken)
  sellAmount := some pair.maker.sellAmount
  buyToken := some (Address.ofSignal pair.maker.buyToken)
  buyAmount := some pair.maker.buyAmount
  durationMs := some measure.durationMs
  counterparty := false
  fees :=
    if pair.pushExtras.takerRelayer.isSome then
      [⟨.maker, Address.ofSignal pair.maker.buyToken, pair.feeTokenMaker⟩]
    else
      [⟨.maker, Address.ofSignal pair.maker.buyToken, pair.feeTokenMaker⟩,
        ⟨.taker, Address.ofSignal pair.taker.buyToken, pair.feeTokenTaker⟩]

/-- The answer of the relayer that settled a peer's offer: the fee it took from the taker, and its token. -/
def offerAnswer : ℕ × Address := (pair.feeTokenTaker, Address.ofSignal pair.taker.buyToken)

def pushContext (txHash blockNumber : ℕ) : SettlePushContext where
  txHash
  blockNumber
  makerNullifier := pair.maker.nullifier
  takerNullifier := pair.taker.nullifier
  feeMaker := pair.feeTokenMaker
  feeTaker := pair.feeTokenTaker
  userMaxFeeMaker := pair.maker.maxFee
  userMaxFeeTaker := pair.taker.maxFee
  sellToken := some (Address.ofSignal pair.maker.sellToken)
  buyToken := some (Address.ofSignal pair.maker.buyToken)
  sellAmount := some pair.maker.sellAmount
  buyAmount := some pair.maker.buyAmount
  makerOrderId := pair.pushExtras.makerOrderId
  takerOrderId := pair.pushExtras.takerOrderId
  takerRelayer := pair.pushExtras.takerRelayer
  singleParty := false

end SettledPair

/-- The row the matcher records for an order of its own that a peer settled, with the fee of the peer's answer. -/
def AuthorizePublicSignals.counterpartyEvent (ps : AuthorizePublicSignals) (txHash : ℕ)
    (answer : Option (ℕ × Address)) : SettlementEventInput where
  txHash
  type := .settleAuth
  status := .confirmed
  blockNumber := none
  gasCostEth := none
  sellToken := some (Address.ofSignal ps.sellToken)
  sellAmount := some ps.sellAmount
  buyToken := some (Address.ofSignal ps.buyToken)
  buyAmount := some ps.buyAmount
  durationMs := none
  counterparty := true
  fees := answer.toList.map fun a => ⟨.taker, a.2, a.1⟩

/-- The fee of a scatter is what its order leaves unlocked. -/
def AuthorizePublicSignals.scatterFee (ps : AuthorizePublicSignals) : ℕ :=
  if ps.totalLocked < ps.sellAmount then ps.sellAmount - ps.totalLocked else 0

def AuthorizePublicSignals.scatterEvent (ps : AuthorizePublicSignals) (txHash blockNumber : ℕ)
    (measure : SendMeasure) : SettlementEventInput where
  txHash
  type := .scatterDirectAuth
  status := .confirmed
  blockNumber := some blockNumber
  gasCostEth := some measure.gasCostEth
  durationMs := some measure.durationMs
  sellToken := some (Address.ofSignal ps.sellToken)
  buyToken := some (Address.ofSignal ps.sellToken)
  sellAmount := some ps.totalLocked
  buyAmount := some ps.totalLocked
  counterparty := false
  fees := [⟨.scatterDirect, Address.ofSignal ps.sellToken, ps.scatterFee⟩]

def AuthorizePublicSignals.scatterContext (ps : AuthorizePublicSignals) (txHash blockNumber : ℕ) :
    SettlePushContext where
  txHash
  blockNumber
  makerOrderId := none
  takerOrderId := none
  makerNullifier := ps.nullifier
  takerNullifier := ps.nullifier
  feeMaker := ps.scatterFee
  feeTaker := 0
  userMaxFeeMaker := ps.maxFee
  userMaxFeeTaker := 0
  takerRelayer := none
  sellToken := some (Address.ofSignal ps.sellToken)
  buyToken := some (Address.ofSignal ps.sellToken)
  sellAmount := some ps.totalLocked
  buyAmount := some ps.totalLocked
  singleParty := true

/-! ### The backfill -/

def PAGE_SIZE : ℕ := 200

def MAX_PAGES : ℕ := 50

/-- A record as it arrives: every field the backfill reads may be missing. -/
structure SharedSettlement where
  txHash : Option ℕ
  makerRelayer : Option Address
  takerRelayer : Option Address
  sellToken : Option Address
  buyToken : Option Address
  sellAmount : Option ℕ
  buyAmount : Option ℕ
  feeMaker : Option ℕ
  feeTaker : Option ℕ
  blockNumber : Option ℕ

structure BackfillResult where
  scanned : ℕ
  inserted : ℕ
  skipped : ℕ
  errors : ℕ
  pages : ℕ

/-- A fee of one side, unless the record names no token or no fee above zero. -/
def feeIfPositive (side : FeeSide) (token : Option Address) (amount : Option ℕ) : List FeeAccrual :=
  match token, amount with
  | some token, some amountWei => if 0 < amountWei then [⟨side, token, amountWei⟩] else []
  | _, _ => []

namespace SharedSettlement

variable (row : SharedSettlement) (ourAddr : Address)

def isMaker : Bool := row.makerRelayer = some ourAddr

def isTaker : Bool := row.takerRelayer = some ourAddr

def isScatterDirect : Bool := row.takerRelayer = none

def fees : List FeeAccrual :=
  if row.isScatterDirect ∧ row.isMaker ourAddr ∧ feeIfPositive .scatterDirect row.sellToken row.feeMaker ≠ [] then
    feeIfPositive .scatterDirect row.sellToken row.feeMaker
  else
    (if row.isMaker ourAddr then feeIfPositive .maker row.buyToken row.feeMaker else []) ++
      (if row.isTaker ourAddr then feeIfPositive .taker row.sellToken row.feeTaker else [])

/-- The event of a record: the maker's legs as they stand, the taker's the other way round. -/
def event (txHash : ℕ) : SettlementEventInput where
  txHash
  type := if row.isScatterDirect then .scatterDirectAuth else .settleAuth
  status := .confirmed
  blockNumber := row.blockNumber
  gasCostEth := none
  sellToken := if row.isMaker ourAddr then row.sellToken else row.buyToken
  buyToken := if row.isMaker ourAddr then row.buyToken else row.sellToken
  sellAmount := if row.isMaker ourAddr then row.sellAmount else row.buyAmount
  buyAmount := if row.isMaker ourAddr then row.buyAmount else row.sellAmount
  durationMs := none
  counterparty := !row.isMaker ourAddr && row.isTaker ourAddr
  fees := row.fees ourAddr

end SharedSettlement

/-- Whether a record went in: not where the history has it, nor where neither side was ours. -/
def insertIfMissing (db : HistoryDB) (row : SharedSettlement) (ourAddr : Address) (now : ℕ) :
    Except String (HistoryDB × Bool) :=
  match row.txHash with
  | none => .error "row missing txHash"
  | some txHash =>
    if (db.getSettlementByTxHash txHash).isSome then .ok (db, false)
    else if ¬row.isMaker ourAddr ∧ ¬row.isTaker ourAddr then .ok (db, false)
    else .ok (db.recordSettlementEvent (row.event ourAddr txHash) now, true)

def backfillRow (ourAddr : Address) (now : ℕ) (s : HistoryDB × BackfillResult) (row : SharedSettlement) :
    HistoryDB × BackfillResult :=
  let result := { s.2 with scanned := s.2.scanned + 1 }
  match insertIfMissing s.1 row ourAddr now with
  | .ok (db, true) => (db, { result with inserted := result.inserted + 1 })
  | .ok (_, false) => (s.1, { result with skipped := result.skipped + 1 })
  | .error _ => (s.1, { result with errors := result.errors + 1 })

/-- The pages from `page` on, until one is not full. A page that cannot be fetched ends the backfill, and what went in stays. -/
def backfillPages (fetch : ℕ → Except String (List SharedSettlement)) (ourAddr : Address) (now : ℕ) :
    ℕ → ℕ → HistoryDB × BackfillResult → HistoryDB × Except String BackfillResult
  | 0, _, s => (s.1, .ok s.2)
  | pagesLeft + 1, page, s =>
    match fetch (page * PAGE_SIZE) with
    | .error e => (s.1, .error e)
    | .ok rows =>
      let counted := (s.1, { s.2 with pages := s.2.pages + 1 })
      if rows.length < PAGE_SIZE then
        let done := rows.foldl (backfillRow ourAddr now) counted
        (done.1, .ok done.2)
      else backfillPages fetch ourAddr now pagesLeft (page + 1) (rows.foldl (backfillRow ourAddr now) counted)

/-- `since` is in milliseconds here, and in seconds where the records are. -/
def backfillFromSharedOb (fetchSettlementsForAddress : Option ℕ → ℕ → ℕ → Except String (List SharedSettlement))
    (db : HistoryDB) (ownAddress : Address) (since : Option ℚ) (now : ℕ) : HistoryDB × Except String BackfillResult :=
  if since.any fun ms => ms < 0 then (db, .error "backfill: invalid 'since' value")
  else
    let sinceSeconds := since.map fun ms => ⌊ms / 1000⌋₊
    backfillPages (fun offset => fetchSettlementsForAddress sinceSeconds PAGE_SIZE offset) ownAddress now MAX_PAGES 0
      (db, ⟨0, 0, 0, 0, 0⟩)

/-! ### What a backfill leaves -/

variable {ourAddr : Address} {now txHash : ℕ} {db : HistoryDB} {row : SharedSettlement}

/-- The history after one record. -/
def restoreRow (ourAddr : Address) (now : ℕ) (db : HistoryDB) (row : SharedSettlement) : HistoryDB :=
  match insertIfMissing db row ourAddr now with
  | .ok (db', true) => db'
  | _ => db

/-- What a record restores under its hash. -/
def SharedSettlement.restored (row : SharedSettlement) (ourAddr : Address) (txHash now : ℕ) :
    Option (SettlementHistoryRow × List FeeAccrualRow) :=
  if row.isMaker ourAddr ∨ row.isTaker ourAddr then
    some ((row.event ourAddr txHash).historyRow now, (row.event ourAddr txHash).feeRows now)
  else none

theorem backfillRow_db (s : HistoryDB × BackfillResult) :
    (backfillRow ourAddr now s row).1 = restoreRow ourAddr now s.1 row := by
  unfold backfillRow restoreRow
  dsimp only
  split <;> simp_all

theorem foldl_backfillRow_db (rows : List SharedSettlement) (s : HistoryDB × BackfillResult) :
    (rows.foldl (backfillRow ourAddr now) s).1 = rows.foldl (restoreRow ourAddr now) s.1 := by
  induction rows generalizing s with
  | nil => rfl
  | cons row rows ih =>
    rw [List.foldl_cons, List.foldl_cons, ih, backfillRow_db]

theorem restoreRow_other (hother : row.txHash ≠ some txHash) :
    (restoreRow ourAddr now db row).getSettlementByTxHash txHash = db.getSettlementByTxHash txHash := by
  unfold restoreRow insertIfMissing
  cases hrow : row.txHash with
  | none => rfl
  | some rowTx =>
    have hne : rowTx ≠ txHash := fun heq => hother (hrow.trans (congrArg some heq))
    dsimp only
    split_ifs
    · rfl
    · rfl
    · exact HistoryDB.record_other hne

theorem restoreRow_own (htx : row.txHash = some txHash) :
    (restoreRow ourAddr now db row).getSettlementByTxHash txHash =
      (db.getSettlementByTxHash txHash).or (row.restored ourAddr txHash now) := by
  unfold restoreRow insertIfMissing SharedSettlement.restored
  rw [htx]
  dsimp only
  cases hknown : db.getSettlementByTxHash txHash with
  | some found =>
    rw [Option.some_or]
    exact hknown
  | none =>
    rw [Option.none_or, Option.isSome_none, if_neg Bool.false_ne_true]
    by_cases hours : row.isMaker ourAddr = true ∨ row.isTaker ourAddr = true
    · rw [if_pos hours, if_neg (by tauto)]
      exact HistoryDB.record_new hknown
    · rw [if_neg hours, if_pos (by tauto)]
      exact hknown

theorem foldl_restoreRow {rows : List SharedSettlement} (hdistinct : (rows.map SharedSettlement.txHash).Nodup)
    (hrow : row ∈ rows) (htx : row.txHash = some txHash) :
    (rows.foldl (restoreRow ourAddr now) db).getSettlementByTxHash txHash =
      (db.getSettlementByTxHash txHash).or (row.restored ourAddr txHash now) := by
  have hothers : ∀ (rows : List SharedSettlement) (db : HistoryDB), some txHash ∉ rows.map SharedSettlement.txHash →
      (rows.foldl (restoreRow ourAddr now) db).getSettlementByTxHash txHash = db.getSettlementByTxHash txHash := by
    intro rows
    induction rows with
    | nil => exact fun db _ => rfl
    | cons other rows ih =>
      intro db hfree
      rw [List.map_cons, List.mem_cons, not_or] at hfree
      rw [List.foldl_cons, ih _ hfree.2, restoreRow_other (Ne.symm hfree.1)]
  induction rows generalizing db with
  | nil => cases hrow
  | cons first rows ih =>
    rw [List.map_cons, List.nodup_cons] at hdistinct
    rw [List.foldl_cons]
    rcases List.mem_cons.mp hrow with rfl | hlater
    · rw [hothers rows _ (htx ▸ hdistinct.1), restoreRow_own htx]
    · have hne : first.txHash ≠ some txHash := by
        intro heq
        exact hdistinct.1 (List.mem_map.mpr ⟨row, hlater, htx.trans heq.symm⟩)
      rw [ih hdistinct.2 hlater, restoreRow_other hne]

/-- Read page by page, a list that does not change gives its records in their order, as far as the pages reach. -/
theorem backfillPages_listing {fetch : ℕ → Except String (List SharedSettlement)} {records : List SharedSettlement}
    (hfetch : ∀ offset, fetch offset = .ok ((records.drop offset).take PAGE_SIZE)) (pagesLeft page : ℕ)
    (s : HistoryDB × BackfillResult) :
    (backfillPages fetch ourAddr now pagesLeft page s).1 =
      ((records.drop (page * PAGE_SIZE)).take (pagesLeft * PAGE_SIZE)).foldl (restoreRow ourAddr now) s.1 := by
  induction pagesLeft generalizing page s with
  | zero =>
    rw [backfillPages, Nat.zero_mul, List.take_zero]
    rfl
  | succ pagesLeft ih =>
    have hsplit : (records.drop (page * PAGE_SIZE)).take ((pagesLeft + 1) * PAGE_SIZE) =
        (records.drop (page * PAGE_SIZE)).take PAGE_SIZE ++
          (records.drop ((page + 1) * PAGE_SIZE)).take (pagesLeft * PAGE_SIZE) := by
      rw [Nat.succ_mul, Nat.add_comm, List.take_add, List.drop_drop, Nat.succ_mul page]
    rw [backfillPages, hfetch]
    dsimp only
    split
    · -- a page that is not full is the last, and nothing lies behind it
      rename_i hshort
      have hend : records.drop ((page + 1) * PAGE_SIZE) = [] := by
        rw [List.length_take, List.length_drop] at hshort
        apply List.drop_eq_nil_of_le
        rw [Nat.succ_mul]
        omega
      rw [foldl_backfillRow_db, hsplit, hend, List.take_nil, List.append_nil]
    · rw [ih, foldl_backfillRow_db, hsplit, List.foldl_append]

theorem restoreRow_settled
    (hsettled : ∀ txHash, row.txHash = some txHash → row.restored ourAddr txHash now ≠ none →
      db.getSettlementByTxHash txHash ≠ none) : restoreRow ourAddr now db row = db := by
  unfold restoreRow insertIfMissing
  cases htx : row.txHash with
  | none => rfl
  | some txHash =>
    dsimp only
    split_ifs with hknown hours
    · rfl
    · rfl
    · have hrestored : row.restored ourAddr txHash now ≠ none := by
        rw [SharedSettlement.restored, if_pos (by tauto)]
        exact Option.some_ne_none _
      exact absurd (Option.isSome_iff_ne_none.mpr (hsettled txHash htx hrestored)) hknown

theorem foldl_restoreRow_settled {rows : List SharedSettlement}
    (hsettled : ∀ row ∈ rows, ∀ txHash, row.txHash = some txHash → row.restored ourAddr txHash now ≠ none →
      db.getSettlementByTxHash txHash ≠ none) : rows.foldl (restoreRow ourAddr now) db = db := by
  induction rows with
  | nil => rfl
  | cons row rows ih =>
    rw [List.foldl_cons, restoreRow_settled (hsettled row List.mem_cons_self)]
    exact ih fun other hother => hsettled other (List.mem_cons_of_mem _ hother)

/-- What a second pass over the same records could restore, the first restored. -/
theorem foldl_restoreRow_again {rows : List SharedSettlement} (now' : ℕ)
    (hdistinct : (rows.map SharedSettlement.txHash).Nodup) :
    rows.foldl (restoreRow ourAddr now') (rows.foldl (restoreRow ourAddr now) db) =
      rows.foldl (restoreRow ourAddr now) db := by
  apply foldl_restoreRow_settled
  intro row hrow txHash htx hours hmissing
  rw [foldl_restoreRow hdistinct hrow htx, Option.or_eq_none_iff] at hmissing
  unfold SharedSettlement.restored at hours hmissing
  split at hours
  · rename_i hsides
    rw [if_pos hsides] at hmissing
    cases hmissing.2
  · exact hours rfl

theorem restoreRow_keeps {known : SettlementHistoryRow × List FeeAccrualRow}
    (hknown : db.getSettlementByTxHash txHash = some known) :
    (restoreRow ourAddr now db row).getSettlementByTxHash txHash = some known := by
  by_cases htx : row.txHash = some txHash
  · rw [restoreRow_own htx, hknown, Option.some_or]
  · rw [restoreRow_other htx, hknown]

theorem backfillPages_keeps {fetch : ℕ → Except String (List SharedSettlement)}
    {known : SettlementHistoryRow × List FeeAccrualRow} (pagesLeft page : ℕ) (s : HistoryDB × BackfillResult)
    (hknown : s.1.getSettlementByTxHash txHash = some known) :
    (backfillPages fetch ourAddr now pagesLeft page s).1.getSettlementByTxHash txHash = some known := by
  have hrows : ∀ (rows : List SharedSettlement) (s : HistoryDB × BackfillResult),
      s.1.getSettlementByTxHash txHash = some known →
        (rows.foldl (backfillRow ourAddr now) s).1.getSettlementByTxHash txHash = some known := by
    intro rows
    induction rows with
    | nil => exact fun s hs => hs
    | cons row rows ih =>
      intro s hs
      rw [List.foldl_cons]
      apply ih
      rw [backfillRow_db]
      exact restoreRow_keeps hs
  induction pagesLeft generalizing page s with
  | zero => exact hknown
  | succ pagesLeft ih =>
    rw [backfillPages]
    split
    · exact hknown
    · dsimp only
      split
      · exact hrows _ _ hknown
      · exact ih _ _ (hrows _ _ hknown)

end Relayer

end ScatterDex
