import ScatterDex.SharedOrderbook.Orders
import Mathlib.Data.List.Find
import Mathlib.Data.List.Sort

/-!
# Settlement records

Relayers report settlements, and a record counts once a verify pass has found its event on chain. Hashes and nullifiers are values: the API takes them as hex and lowers their case before they are stored.

Transaction hashes are public, so anybody can report a settlement first. An unverified record gives way to a report with another attribution, until an event has attested whose settlement it is; from then on only the attested relayers can replace it.
-/

namespace ScatterDex

namespace SharedOrderbook

inductive SettlementType where
  | settleAuth
  | scatterDirectAuth
  deriving DecidableEq, Repr

/-- A report, as the API parses it. -/
structure SettlementInsert where
  txHash : ℕ
  chainId : Option ℕ
  blockNumber : ℕ
  blockTime : Option ℕ
  makerRelayer : Address
  takerRelayer : Option Address
  makerOrderId : Option String
  takerOrderId : Option String
  makerNullifier : ℕ
  takerNullifier : ℕ
  feeMaker : ℕ
  feeTaker : ℕ
  userMaxFeeMaker : ℕ
  userMaxFeeTaker : ℕ
  sellToken : Option Address
  buyToken : Option Address
  sellAmount : Option ℕ
  buyAmount : Option ℕ
  type : Option SettlementType
  deriving DecidableEq

/-- A row of `settlements`. -/
structure SettlementRow where
  txHash : ℕ
  chainId : ℕ
  blockNumber : ℕ
  blockTime : Option ℕ
  submitter : Address
  makerRelayer : Address
  takerRelayer : Option Address
  makerOrderId : Option String
  takerOrderId : Option String
  makerNullifier : ℕ
  takerNullifier : ℕ
  sellToken : Option Address
  buyToken : Option Address
  sellAmount : Option ℕ
  buyAmount : Option ℕ
  feeMaker : ℕ
  feeTaker : ℕ
  userMaxFeeMaker : ℕ
  userMaxFeeTaker : ℕ
  verified : Bool
  type : Option SettlementType
  createdAt : ℕ
  verifyAttempts : ℕ
  eventMakerRelayer : Option Address
  eventTakerRelayer : Option Address
  deriving DecidableEq

abbrev SettlementsTable := Table SettlementRow.txHash

/-! ### Reports -/

/-- What the reported maker order still in the table adds to a report: each of the four fields it left out. -/
def SettlementInsert.snapshot (getOrder : String → Option StoredOrder) (payload : SettlementInsert) : SettlementInsert :=
  match payload.makerOrderId.bind getOrder with
  | none => payload
  | some makerOrder =>
    { payload with
      sellToken := payload.sellToken.or (some makerOrder.order.sellToken)
      buyToken := payload.buyToken.or (some makerOrder.order.buyToken)
      sellAmount := payload.sellAmount.or (some makerOrder.order.sellAmount)
      buyAmount := payload.buyAmount.or (some makerOrder.order.buyAmount) }

/-- The row a report is stored as: unverified, with no attempts and no attestation. -/
def SettlementInsert.row (payload : SettlementInsert) (submitter : Address) (now : ℕ) : SettlementRow where
  txHash := payload.txHash
  chainId := payload.chainId.getD DEFAULT_CHAIN_ID
  blockNumber := payload.blockNumber
  blockTime := payload.blockTime
  submitter
  makerRelayer := payload.makerRelayer
  takerRelayer := payload.takerRelayer
  makerOrderId := payload.makerOrderId
  takerOrderId := payload.takerOrderId
  makerNullifier := payload.makerNullifier
  takerNullifier := payload.takerNullifier
  sellToken := payload.sellToken
  buyToken := payload.buyToken
  sellAmount := payload.sellAmount
  buyAmount := payload.buyAmount
  feeMaker := payload.feeMaker
  feeTaker := payload.feeTaker
  userMaxFeeMaker := payload.userMaxFeeMaker
  userMaxFeeTaker := payload.userMaxFeeTaker
  verified := false
  type := payload.type
  createdAt := now
  verifyAttempts := 0
  eventMakerRelayer := none
  eventTakerRelayer := none

/-- What a row says of a settlement that an event can confirm. -/
def SettlementRow.claimed (row : SettlementRow) : ℕ × ℕ × ℕ × Address × Option Address :=
  (row.txHash, row.makerNullifier, row.takerNullifier, row.makerRelayer, row.takerRelayer)

/-- A row an event attests to `maker` and `taker` accepts this report: a report that leaves the taker out never fails its check. -/
def SettlementRow.AttestedFor (row : SettlementRow) (payload : SettlementInsert) : Prop :=
  some payload.makerRelayer = row.eventMakerRelayer ∧
    (payload.takerRelayer = none ∨ payload.takerRelayer = row.eventTakerRelayer)

instance (row : SettlementRow) (payload : SettlementInsert) : Decidable (row.AttestedFor payload) :=
  inferInstanceAs (Decidable (_ ∧ _))

/-- `stmtEvictSquattedSettlement`: the row a report takes the place of. It is unverified and attributed otherwise, and an attestation of it names the reported relayers. -/
def SettlementRow.GivesWayTo (row : SettlementRow) (submitter : Address) (payload : SettlementInsert) : Prop :=
  row.txHash = payload.txHash ∧ row.verified = false ∧
    (row.submitter ≠ submitter ∨ row.makerRelayer ≠ payload.makerRelayer ∨ row.takerRelayer ≠ payload.takerRelayer) ∧
    (row.eventMakerRelayer = none ∨ row.AttestedFor payload)

instance (row : SettlementRow) (submitter : Address) (payload : SettlementInsert) :
    Decidable (row.GivesWayTo submitter payload) :=
  inferInstanceAs (Decidable (_ ∧ _ ∧ _ ∧ _))

/-- The relayers an event names for a transaction. -/
structure EventAttribution where
  txHash : ℕ
  eventMakerRelayer : Address
  eventTakerRelayer : Address
  deriving DecidableEq

/-- A row to flip, with what the chain says of its block and its fees. -/
structure VerifyDecision where
  txHash : ℕ
  blockTime : Option ℕ
  feeMaker : Option ℕ
  feeTaker : Option ℕ
  deriving DecidableEq

/-- The values of the chain replace those of the report. -/
def VerifyDecision.apply (e : VerifyDecision) (row : SettlementRow) : SettlementRow :=
  { row with
    verified := true
    blockTime := e.blockTime.or row.blockTime
    feeMaker := e.feeMaker.getD row.feeMaker
    feeTaker := e.feeTaker.getD row.feeTaker }

namespace SettlementsTable

/-- `stmtRecordEventAttribution`. -/
def stampAttribution (table : SettlementsTable) (maker : Address) (taker : Option Address) (txHash : ℕ) :
    SettlementsTable :=
  table.update (fun row => row.txHash = txHash ∧ row.verified = false)
    (fun row => { row with eventMakerRelayer := some maker, eventTakerRelayer := taker }) fun _ => rfl

/-- Store a report, evicting what gives way to it; the attestation of an evicted row passes to the new one. -/
def insertSettlement (table : SettlementsTable) (getOrder : String → Option StoredOrder) (submitter : Address)
    (payload : SettlementInsert) (now : ℕ) : SettlementsTable × Bool :=
  let evicted := table.rows.find? fun row => row.GivesWayTo submitter payload
  let remaining := table.delete fun row => row.GivesWayTo submitter payload
  let (stored, inserted) := remaining.insertOrIgnore ((payload.snapshot getOrder).row submitter now)
  match inserted, evicted.bind (·.eventMakerRelayer) with
  | true, some maker =>
    (stampAttribution stored maker (evicted.bind (·.eventTakerRelayer)) payload.txHash, true)
  | inserted, _ => (stored, inserted)

def recordEventAttribution (table : SettlementsTable) (rows : List EventAttribution) : SettlementsTable :=
  rows.foldl (fun table r => table.stampAttribution r.eventMakerRelayer (some r.eventTakerRelayer) r.txHash) table

def markSettlementsVerified (table : SettlementsTable) (entries : List VerifyDecision) : SettlementsTable :=
  entries.foldl (fun table e =>
    table.update (fun row => row.txHash = e.txHash ∧ row.verified = false) e.apply fun _ => rfl) table

def recordVerifyFailures (table : SettlementsTable) (txHashes : List ℕ) : SettlementsTable :=
  txHashes.foldl (fun table h =>
    table.update (fun row => row.txHash = h ∧ row.verified = false)
      (fun row => { row with verifyAttempts := row.verifyAttempts + 1 }) fun _ => rfl) table

/-- Rows of an impossible block are given up at once. -/
def quarantineFutureSettlements (table : SettlementsTable) (maxVerifyAttempts : ℕ) (chainId : Option ℕ)
    (aboveBlock : ℕ) : SettlementsTable :=
  table.update
    (fun row => row.verified = false ∧ row.verifyAttempts < maxVerifyAttempts ∧ aboveBlock < row.blockNumber ∧
      ∀ chain ∈ chainId, row.chainId = chain)
    (fun row => { row with verifyAttempts := maxVerifyAttempts }) fun _ => rfl

/-- The rows a pass looks at: unverified, within their budget of attempts, oldest block first. -/
def listUnverifiedSettlements (table : SettlementsTable) (maxVerifyAttempts : ℕ) (chainId maxBlock limit : Option ℕ) :
    List SettlementRow :=
  let selected := table.rows.filter fun row =>
    row.verified = false ∧ row.verifyAttempts < maxVerifyAttempts ∧ (∀ chain ∈ chainId, row.chainId = chain) ∧
      ∀ block ∈ maxBlock, row.blockNumber ≤ block
  let ordered := selected.insertionSort fun a b =>
    a.blockNumber < b.blockNumber ∨ (a.blockNumber = b.blockNumber ∧ a.txHash ≤ b.txHash)
  ordered.take (min (limit.getD 500) 5000)

/-- The rows over a cap, those reported first; the list of the rows is in the order of their rowids. -/
def oldest (table : SettlementsTable) (maxRows : ℕ) : List SettlementRow :=
  (table.rows.insertionSort fun a b => a.createdAt ≤ b.createdAt).take (table.rows.length - maxRows)

/-- The rows over the cap go; a cap below one is none. -/
def pruneSettlements (table : SettlementsTable) (maxRows : ℕ) : SettlementsTable :=
  if maxRows < 1 ∨ table.rows.length ≤ maxRows then table
  else table.delete fun row => (table.oldest maxRows).any fun old => old.txHash = row.txHash

/-! ### The rows an operation leaves -/

variable {table : SettlementsTable} {getOrder : String → Option StoredOrder} {submitter : Address}
  {payload : SettlementInsert} {now : ℕ}

/-- The attestation a report takes over from the row it replaces. -/
def attestation (table : SettlementsTable) (txHash : ℕ) : Option (Address × Option Address) :=
  (table.lookup txHash).bind fun row => row.eventMakerRelayer.map fun maker => (maker, row.eventTakerRelayer)

/-- The row a stored report becomes. -/
def storedRow (table : SettlementsTable) (getOrder : String → Option StoredOrder) (submitter : Address)
    (payload : SettlementInsert) (now : ℕ) : SettlementRow :=
  { (payload.snapshot getOrder).row submitter now with
    eventMakerRelayer := (table.attestation payload.txHash).map Prod.fst
    eventTakerRelayer := (table.attestation payload.txHash).bind Prod.snd }

theorem mem_of_oldest {row : SettlementRow} {maxRows : ℕ} (hrow : row ∈ table.oldest maxRows) : row ∈ table.rows :=
  (List.mem_insertionSort _).mp (List.mem_of_mem_take hrow)

/-- Pruning keeps rows as they are, and loses only the oldest. -/
theorem pruneSettlements_cases (table : SettlementsTable) (maxRows : ℕ) :
    table.pruneSettlements maxRows = table ∨ 1 ≤ maxRows ∧ maxRows < table.rows.length ∧
      ∀ row, row ∈ (table.pruneSettlements maxRows).rows ↔ row ∈ table.rows ∧ row ∉ table.oldest maxRows := by
  rw [pruneSettlements]
  split
  · exact Or.inl rfl
  · next hover =>
    obtain ⟨hcap, hlength⟩ := not_or.mp hover
    refine Or.inr ⟨Nat.le_of_not_lt hcap, Nat.lt_of_not_le hlength, fun row => ?_⟩
    rw [Table.mem_delete]
    refine and_congr_right fun hrow => ?_
    rw [List.any_eq_false]
    constructor
    · exact fun hnot hold => hnot row hold (decide_eq_true rfl)
    · intro hnot old hold heq
      rw [table.eq_of_key (mem_of_oldest hold) hrow (of_decide_eq_true heq)] at hold
      exact hnot hold

theorem mem_pruneSettlements {row : SettlementRow} {maxRows : ℕ} (hrow : row ∈ (table.pruneSettlements maxRows).rows) :
    row ∈ table.rows := by
  rcases pruneSettlements_cases table maxRows with hkept | ⟨-, -, hrows⟩
  · exact hkept ▸ hrow
  · exact ((hrows row).mp hrow).1

theorem snapshot_txHash : (payload.snapshot getOrder).txHash = payload.txHash := by
  unfold SettlementInsert.snapshot
  split <;> rfl

theorem snapshot_relayers (getOrder : String → Option StoredOrder) (payload : SettlementInsert) :
    ((payload.snapshot getOrder).makerRelayer, (payload.snapshot getOrder).takerRelayer) =
      (payload.makerRelayer, payload.takerRelayer) := by
  unfold SettlementInsert.snapshot
  split <;> rfl

theorem storedRow_claimed : (storedRow table getOrder submitter payload now).claimed =
    (payload.row submitter now).claimed := by
  unfold storedRow SettlementInsert.snapshot
  split <;> rfl

/-- Among rows told apart by their hash, the evicted one is the one under the hash of the report. -/
theorem find_givesWay (hgives : ∀ row ∈ table.rows, row.txHash = payload.txHash → row.GivesWayTo submitter payload) :
    table.rows.find? (fun row => decide (row.GivesWayTo submitter payload)) = table.lookup payload.txHash := by
  exact List.find?_congr fun row hrow => decide_eq_decide.mpr ⟨fun hway => hway.1, hgives row hrow⟩

/-- A report is either refused by a row that does not give way, or it is stored in the place of the row that did. -/
theorem insertSettlement_cases (table : SettlementsTable) (getOrder : String → Option StoredOrder)
    (submitter : Address) (payload : SettlementInsert) (now : ℕ) :
    (insertSettlement table getOrder submitter payload now = (table, false) ∧
        ∃ row ∈ table.rows, row.txHash = payload.txHash ∧ ¬row.GivesWayTo submitter payload) ∨
      ((insertSettlement table getOrder submitter payload now).2 = true ∧
        (∀ row ∈ table.rows, row.txHash = payload.txHash → row.GivesWayTo submitter payload) ∧
        ∀ row, row ∈ (insertSettlement table getOrder submitter payload now).1.rows ↔
          row ∈ table.rows ∧ row.txHash ≠ payload.txHash ∨ row = storedRow table getOrder submitter payload now) := by
  have hkey : ((payload.snapshot getOrder).row submitter now).txHash = payload.txHash := snapshot_txHash
  unfold insertSettlement Table.insertOrIgnore
  dsimp only
  cases hinsert : (table.delete fun row => decide (row.GivesWayTo submitter payload)).insert
      ((payload.snapshot getOrder).row submitter now) with
  | none =>
    left
    obtain ⟨row, hrow, htx⟩ := Table.insert_eq_none.mp hinsert
    obtain ⟨hmember, hstays⟩ := Table.mem_delete.mp hrow
    rw [hkey] at htx
    have hnot : ¬row.GivesWayTo submitter payload := of_decide_eq_false hstays
    refine ⟨?_, row, hmember, htx, hnot⟩
    have hsame : (table.delete fun row => decide (row.GivesWayTo submitter payload)) = table := by
      apply Table.ext
      refine List.filter_eq_self.mpr fun other hother => ?_
      rw [Bool.not_eq_true', decide_eq_false_iff_not]
      intro hway
      exact hnot (table.eq_of_key hother hmember (hway.1.trans htx.symm) ▸ hway)
    rw [hsame]
  | some stored =>
    right
    obtain ⟨hfree, hrows⟩ := Table.insert_eq_some.mp hinsert
    have hgives : ∀ row ∈ table.rows, row.txHash = payload.txHash → row.GivesWayTo submitter payload := by
      intro row hrow htx
      by_contra hnot
      exact hfree (hkey ▸ List.mem_map.mpr ⟨row, Table.mem_delete.mpr ⟨hrow, decide_eq_false hnot⟩, htx⟩)
    have hstored : ∀ row, row ∈ stored.rows ↔ row ∈ table.rows ∧ row.txHash ≠ payload.txHash ∨
        row = (payload.snapshot getOrder).row submitter now := by
      intro row
      rw [hrows, List.mem_append, List.mem_singleton, Table.mem_delete, decide_eq_false_iff_not]
      constructor
      · rintro (⟨hrow, hnot⟩ | heq)
        · exact Or.inl ⟨hrow, fun htx => hnot (hgives row hrow htx)⟩
        · exact Or.inr heq
      · rintro (⟨hrow, htx⟩ | heq)
        · exact Or.inl ⟨hrow, fun hway => htx hway.1⟩
        · exact Or.inr heq
    dsimp only
    rw [find_givesWay hgives]
    unfold storedRow attestation
    cases hlookup : table.lookup payload.txHash with
    | none => exact ⟨rfl, hgives, hstored⟩
    | some old =>
      cases hmaker : old.eventMakerRelayer with
      | none =>
        simp only [Option.bind_some, hmaker, Option.map_none]
        exact ⟨trivial, hgives, hstored⟩
      | some maker =>
        simp only [Option.bind_some, hmaker, Option.map_some]
        refine ⟨trivial, hgives, fun row => ?_⟩
        rw [stampAttribution, Table.mem_update]
        constructor
        · rintro ⟨other, hother, rfl⟩
          rcases (hstored other).mp hother with ⟨hmember, htx⟩ | rfl
          · rw [if_neg (by simp [htx])]
            exact Or.inl ⟨hmember, htx⟩
          · rw [if_pos (by simpa using ⟨hkey, rfl⟩)]
            exact Or.inr rfl
        · rintro (⟨hmember, htx⟩ | rfl)
          · exact ⟨row, (hstored row).mpr (Or.inl ⟨hmember, htx⟩), if_neg (by simp [htx])⟩
          · exact ⟨_, (hstored _).mpr (Or.inr rfl), if_pos (by simpa using ⟨hkey, rfl⟩)⟩

end SettlementsTable

/-- Marking leaves a row, or flips it with the values of its decision. -/
def SettlementRow.Verifies (entries : List VerifyDecision) (row row' : SettlementRow) : Prop :=
  row' = row ∨ row.verified = false ∧ ∃ e ∈ entries, e.txHash = row.txHash ∧ row' = e.apply row

theorem SettlementRow.Verifies.claimed {entries : List VerifyDecision} {row row' : SettlementRow}
    (hverifies : row.Verifies entries row') : row'.claimed = row.claimed := by
  rcases hverifies with rfl | ⟨-, e, -, -, rfl⟩ <;> rfl

/-- The other writes leave everything but the counter of attempts and the attestation. -/
def SettlementRow.SameReport (row row' : SettlementRow) : Prop :=
  row' = { row with
    verifyAttempts := row'.verifyAttempts
    eventMakerRelayer := row'.eventMakerRelayer
    eventTakerRelayer := row'.eventTakerRelayer }

theorem SettlementRow.SameReport.refl (row : SettlementRow) : row.SameReport row := rfl

theorem SettlementRow.SameReport.trans (a b c : SettlementRow) (hab : a.SameReport b) (hbc : b.SameReport c) :
    a.SameReport c := by
  unfold SameReport at hab hbc ⊢
  rw [hbc, hab]

theorem SettlementRow.SameReport.claimed {row row' : SettlementRow} (hsame : row.SameReport row') :
    row'.claimed = row.claimed := by
  rw [hsame]
  rfl

theorem SettlementRow.SameReport.verified {row row' : SettlementRow} (hsame : row.SameReport row') :
    row'.verified = row.verified := by
  rw [hsame]

theorem SettlementRow.SameReport.fees {row row' : SettlementRow} (hsame : row.SameReport row') :
    row'.feeMaker = row.feeMaker ∧ row'.feeTaker = row.feeTaker := by
  rw [hsame]
  exact ⟨rfl, rfl⟩

namespace SettlementsTable

theorem markSettlementsVerified_rewrites (table : SettlementsTable) (entries : List VerifyDecision) :
    Table.Rewrites (SettlementRow.Verifies entries) table (table.markSettlementsVerified entries) := by
  apply Table.rewrites_foldl
  · exact fun row => Or.inl rfl
  · -- a verified row is not written again
    rintro a b c (rfl | ⟨hunverified, e, he, htx, rfl⟩) hsecond
    · exact hsecond
    · rcases hsecond with rfl | ⟨hverified, -⟩
      · exact Or.inr ⟨hunverified, e, he, htx, rfl⟩
      · cases hverified
  · intro e he t
    refine Table.rewrites_update (fun row => Or.inl rfl) fun row hrow => ?_
    obtain ⟨htx, hunverified⟩ := of_decide_eq_true hrow
    exact Or.inr ⟨hunverified, e, he, htx.symm, rfl⟩

theorem recordVerifyFailures_rewrites (table : SettlementsTable) (txHashes : List ℕ) :
    Table.Rewrites SettlementRow.SameReport table (table.recordVerifyFailures txHashes) :=
  Table.rewrites_foldl .refl .trans fun _ _ _ => Table.rewrites_update .refl fun _ _ => rfl

theorem recordEventAttribution_rewrites (table : SettlementsTable) (rows : List EventAttribution) :
    Table.Rewrites SettlementRow.SameReport table (table.recordEventAttribution rows) :=
  Table.rewrites_foldl .refl .trans fun _ _ _ => Table.rewrites_update .refl fun _ _ => rfl

theorem quarantineFutureSettlements_rewrites (table : SettlementsTable) (maxVerifyAttempts : ℕ) (chainId : Option ℕ)
    (aboveBlock : ℕ) :
    Table.Rewrites SettlementRow.SameReport table
      (table.quarantineFutureSettlements maxVerifyAttempts chainId aboveBlock) :=
  Table.rewrites_update .refl fun _ _ => rfl

end SettlementsTable

end SharedOrderbook

end ScatterDex
