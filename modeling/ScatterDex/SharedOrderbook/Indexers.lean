import ScatterDex.Library.BlockScan
import ScatterDex.Library.Fallible

/-!
# The indexers of the shared orderbook

Two daemons copy events of the contracts into tables: the leaves of the commitment tree, and the claim nullifiers that were spent. They differ in the table only. A pass walks the blocks after the cursor in windows: it fetches a window, upserts its rows in one transaction, and then sets the cursor; an error ends the pass, and the process can die between any two of these. Every table is keyed by the chain.
-/

namespace ScatterDex

open BlockScan Fallible

namespace SharedOrderbook

/-- The rows that the events of each block become. A key comes with one row only. -/
structure EventRows (Key Row : Type) where
  rows : ℕ → List (Key × Row)
  unique : ∀ {block block' key row row'}, (key, row) ∈ rows block → (key, row') ∈ rows block' → row = row'

/-- A table with its cursor. -/
structure IndexTable (Key Row : Type) where
  rows : Key → Option Row
  cursor : Option ℕ

/-- Where a pass stands: it waits for a window, has its rows in hand, or has stored them. -/
inductive IndexStage (Key Row : Type)
  | fetch
  | upsert (rows : List (Key × Row))
  | setCursor

/-- A pass in the window that begins at `start`. -/
structure IndexPass (Key Row : Type) where
  start : ℕ
  toBlock : ℕ
  stage : IndexStage Key Row

structure Indexer (Key Row : Type) where
  table : IndexTable Key Row
  pass : Option (IndexPass Key Row)

/-- `chunkSize` is `none` when it is missing or not finite. -/
structure IndexerConfig where
  deployBlock : ℕ
  blockSafetyMargin : ℕ
  chunkSize : Option ℚ

def DEFAULT_INDEX_CHUNK_SIZE : ℕ := 50000

def IndexerConfig.window (config : IndexerConfig) : ℕ := windowSize DEFAULT_INDEX_CHUNK_SIZE config.chunkSize

section

variable {Key Row : Type}

def Indexer.start : Indexer Key Row := ⟨⟨fun _ => none, none⟩, none⟩

/-- The last block of the window. -/
def IndexerConfig.windowEnd (config : IndexerConfig) (start toBlock : ℕ) : ℕ := min (start + config.window - 1) toBlock

/-- `INSERT … ON CONFLICT DO UPDATE`, for a batch of rows. -/
def IndexTable.upsertAll [DecidableEq Key] (table : IndexTable Key Row) (rows : List (Key × Row)) : IndexTable Key Row :=
  { table with rows := rows.foldl (fun stored p => Function.update stored p.1 (some p.2)) table.rows }

inductive IndexStep
  /-- A pass begins with the head that the RPC reports. -/
  | begin (latest : ℕ)
  | fetched
  | upserted
  | cursorSet
  /-- The RPC or the database fails, or the process dies. -/
  | stop

variable [DecidableEq Key] (events : EventRows Key Row) (config : IndexerConfig)

/-- The next window of a pass, if there is one. -/
def IndexPass.next (start toBlock : ℕ) : Option (IndexPass Key Row) :=
  if start ≤ toBlock then some ⟨start, toBlock, .fetch⟩ else none

def Indexer.run (s : Indexer Key Row) : IndexStep → Except String (Indexer Key Row)
  | .begin latest => do
    require (s.pass.isNone = true) "a pass is under way"
    -- the difference of natural numbers is never below zero
    let toBlock := latest - config.blockSafetyMargin
    let fromBlock := match s.table.cursor with
      | none => config.deployBlock
      | some cursor => max config.deployBlock (cursor + 1)
    return { s with pass := IndexPass.next fromBlock toBlock }
  | .fetched =>
    match s.pass with
    | some ⟨start, toBlock, .fetch⟩ =>
      let rows := between events.rows start (config.windowEnd start toBlock + 1)
      .ok { s with pass := some ⟨start, toBlock, if rows = [] then .setCursor else .upsert rows⟩ }
    | _ => .error "no window is fetched"
  | .upserted =>
    match s.pass with
    | some ⟨start, toBlock, .upsert rows⟩ =>
      .ok { table := s.table.upsertAll rows, pass := some ⟨start, toBlock, .setCursor⟩ }
    | _ => .error "no rows to store"
  | .cursorSet =>
    match s.pass with
    | some ⟨start, toBlock, .setCursor⟩ =>
      .ok { table := { s.table with cursor := some (config.windowEnd start toBlock) }
            pass := IndexPass.next (start + config.window) toBlock }
    | _ => .error "no window is stored"
  | .stop => .ok { s with pass := none }

end

/-! ### The two tables -/

/-- The number of leaves inserted before a block. -/
def leavesBefore (inserted : ℕ → List ℕ) (block : ℕ) : ℕ := (between inserted 0 block).length

/-- `CommitmentInserted` carries the position of the leaf in the tree. A row is the commitment and its block. -/
def commitmentRows (inserted : ℕ → List ℕ) (block : ℕ) : List (ℕ × ℕ × ℕ) :=
  (inserted block).mapIdx fun i commitment => (leavesBefore inserted block + i, commitment, block)

theorem leavesBefore_succ (inserted : ℕ → List ℕ) (block : ℕ) :
    leavesBefore inserted (block + 1) = leavesBefore inserted block + (inserted block).length := by
  rw [leavesBefore, ← between_append (Nat.zero_le block) (Nat.le_succ block), List.length_append, leavesBefore]
  simp [between]

theorem leavesBefore_mono (inserted : ℕ → List ℕ) : Monotone (leavesBefore inserted) :=
  monotone_nat_of_le_succ fun block => by
    rw [leavesBefore_succ]
    exact Nat.le_add_right _ _

theorem mem_commitmentRows {inserted : ℕ → List ℕ} {block key : ℕ} {row : ℕ × ℕ}
    (hmem : (key, row) ∈ commitmentRows inserted block) :
    ∃ i commitment, (inserted block)[i]? = some commitment ∧ key = leavesBefore inserted block + i ∧
      row = (commitment, block) := by
  obtain ⟨i, hi, heq⟩ := List.mem_mapIdx.mp hmem
  obtain ⟨rfl, rfl⟩ := Prod.mk.inj heq
  exact ⟨i, _, List.getElem?_eq_getElem hi, rfl, rfl⟩

/-- A position lies in the block whose leaves surround it. -/
theorem key_lt {inserted : ℕ → List ℕ} {block key : ℕ} {row : ℕ × ℕ} (hmem : (key, row) ∈ commitmentRows inserted block) :
    leavesBefore inserted block ≤ key ∧ key < leavesBefore inserted (block + 1) := by
  obtain ⟨i, commitment, hi, rfl, -⟩ := mem_commitmentRows hmem
  obtain ⟨hlt, -⟩ := List.getElem?_eq_some_iff.mp hi
  rw [leavesBefore_succ]
  omega

/-- The leaves of the tree. -/
def commitmentEvents (inserted : ℕ → List ℕ) : EventRows ℕ (ℕ × ℕ) where
  rows := commitmentRows inserted
  unique {block block' key row row'} hmem hmem' := by
    obtain ⟨hle, hlt⟩ := key_lt hmem
    obtain ⟨hle', hlt'⟩ := key_lt hmem'
    obtain rfl : block = block' := by
      rcases lt_trichotomy block block' with hblock | hblock | hblock
      · have := leavesBefore_mono inserted (show block + 1 ≤ block' from hblock)
        omega
      · exact hblock
      · have := leavesBefore_mono inserted (show block' + 1 ≤ block from hblock)
        omega
    obtain ⟨i, commitment, hi, rfl, rfl⟩ := mem_commitmentRows hmem
    obtain ⟨i', commitment', hi', hkey, rfl⟩ := mem_commitmentRows hmem'
    obtain rfl : i = i' := by omega
    rw [Option.some.inj (hi.symm.trans hi')]

/-- The nullifiers of the claims in each block. The contract spends a nullifier once. -/
structure SpentNullifiers where
  spent : ℕ → List ℕ
  once : ∀ {block block' nullifier}, nullifier ∈ spent block → nullifier ∈ spent block' → block = block'

/-- A row is the block of the claim. -/
def claimEvents (log : SpentNullifiers) : EventRows ℕ ℕ where
  rows block := (log.spent block).map fun nullifier => (nullifier, block)
  unique {block block' key row row'} hmem hmem' := by
    obtain ⟨n, hn, heq⟩ := List.mem_map.mp hmem
    obtain ⟨n', hn', heq'⟩ := List.mem_map.mp hmem'
    obtain ⟨rfl, rfl⟩ := Prod.mk.inj heq
    obtain ⟨rfl, rfl⟩ := Prod.mk.inj heq'
    exact log.once hn hn'

/-- The two contracts of a chain, and how its indexers are configured. -/
structure IndexedChain where
  inserted : ℕ → List ℕ
  claimed : SpentNullifiers
  commitmentConfig : IndexerConfig
  claimConfig : IndexerConfig

/-- The indexers of a chain. -/
structure ChainIndex where
  commitments : Indexer ℕ (ℕ × ℕ)
  claims : Indexer ℕ ℕ

inductive IndexersStep
  | commitments (chainId : ℕ) (step : IndexStep)
  | claims (chainId : ℕ) (step : IndexStep)

/-- The indexers of all chains. -/
def runIndexers (chains : ℕ → IndexedChain) : IndexersStep → (ℕ → ChainIndex) → Except String (ℕ → ChainIndex)
  | .commitments chainId step, s => do
    let chain := chains chainId
    let commitments ← (s chainId).commitments.run (commitmentEvents chain.inserted) chain.commitmentConfig step
    return Function.update s chainId { s chainId with commitments }
  | .claims chainId step, s => do
    let chain := chains chainId
    let claims ← (s chainId).claims.run (claimEvents chain.claimed) chain.claimConfig step
    return Function.update s chainId { s chainId with claims }

end SharedOrderbook

end ScatterDex
