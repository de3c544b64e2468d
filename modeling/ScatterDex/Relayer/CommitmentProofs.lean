import ScatterDex.Library.BlockScan
import ScatterDex.Library.Fallible
import ScatterDex.Relayer.MerkleTree

/-!
# The Merkle-proof service

The relayer mirrors the leaves of the pool's tree in an array and proves leaves against it. A request first waits for an indexing pass, which all requests share, then for a tree of the array, which they share too and which is kept until the array has grown. The relayer runs on one thread: between two events from outside (a request, an answer of the RPC, the hash function coming out of its first load) every continuation that can run does run, in an order the model leaves open.

`buildMerkleTree` gets the array itself and copies it only after it has the hash function. A pass that starts before anything was indexed puts a new array in its place.
-/

namespace ScatterDex

open BlockScan Fallible

namespace Relayer

def COMMIT_TREE_DEPTH : ℕ := 20

/-- What an indexing pass waits for: the head of the chain, or the logs of a window. -/
inductive IndexingPass where
  | head (fromBlock : ℕ)
  | query (scan : Scan (ℕ × ℕ))

/-- How far a build of the tree has come: the hash function is not loaded, the tree is next, `then` is next, `finally` is next. -/
inductive BuildStage where
  | loading
  | ready
  | built (tree : SparseMerkleTree)
  | stored

/-- The array is that of the index, unless that was replaced: then it is the leaves from before. -/
structure TreeBuild where
  targetCount : ℕ
  replaced : Option (List ℕ)
  stage : BuildStage

/-- What a call returned, and the leaves of the index at that time. -/
structure ProofAnswer where
  root : Option ℕ
  pathElements : List ℕ
  pathIndices : List ℕ
  leaves : List ℕ
  deriving DecidableEq

/-- A call waits for the pass or for the build, or can go on after one of them, or is over. -/
inductive CallStage where
  | indexing
  | indexed
  | building
  | treeBuilt
  | answered (answer : ProofAnswer)
  | rejected
  deriving DecidableEq

/-- A call of `getCommitmentMerkleProof`, and the leaves of the index when it began. -/
structure ProofCall where
  leafIndex : ℕ
  known : List ℕ
  stage : CallStage
  deriving DecidableEq

structure PrivateSubmitter (P : Poseidon) where
  commitmentLeaves : List ℕ
  /-- `none` is -1 -/
  lastIndexedBlock : Option ℕ
  indexInflight : Option IndexingPass
  cachedTree : Option (ℕ × SparseMerkleTree)
  treeBuildInflight : Option TreeBuild
  poseidonLoaded : Bool
  zeroHashCache : Option (ZeroHashCache P)
  calls : List ProofCall

structure IndexConfig where
  /-- `Number(INDEX_FROM_BLOCK)`, where it is finite -/
  indexFromBlock : Option ℚ
  indexConfirmations : ℕ
  /-- `none` is not finite -/
  indexBlockRange : Option ℚ

/-- The block of the first pass. -/
def IndexConfig.firstBlock (config : IndexConfig) : ℕ :=
  match config.indexFromBlock with
  | some parsed => if 0 ≤ parsed then ⌊parsed⌋₊ else 0
  | none => 0

/-- A scan with its next window read. -/
def IndexConfig.read (config : IndexConfig) (events : ℕ → List (ℕ × ℕ)) (scan : Scan (ℕ × ℕ)) : Scan (ℕ × ℕ) :=
  let size := windowSize 1 config.indexBlockRange
  scan.push size (between events scan.cursor (scan.windowEnd size + 1))

/-- An event puts its commitment at its index, behind zeros where the array is too short. -/
def placeLeaf (leaves : List ℕ) (event : ℕ × ℕ) : List ℕ :=
  (leaves ++ List.replicate (event.1 + 1 - leaves.length) 0).set event.1 event.2

def placeLeaves (leaves : List ℕ) (events : List (ℕ × ℕ)) : List ℕ := events.foldl placeLeaf leaves

inductive ProofStep where
  | getCommitmentMerkleProof (leafIndex : ℕ)
  -- the periodic pass
  | indexCommitments
  | head (tip : ℕ)
  | logs
  | rpcError
  -- another user of the hash function has loaded it
  | poseidonReady
  -- the load a build waits for is over
  | loaded
  | loadError
  | resume (call : ℕ)
  | build
  | store
  | settle

/-- An event from outside finds no continuation left to run. -/
def ProofStep.external : ProofStep → Bool
  | .resume _ | .build | .store | .settle => false
  | _ => true

def CallStage.runnable : CallStage → Bool
  | .indexed | .treeBuilt => true
  | _ => false

def BuildStage.runnable : BuildStage → Bool
  | .loading => false
  | _ => true

def CallStage.isIndexing : CallStage → Bool
  | .indexing => true
  | _ => false

def CallStage.isBuilding : CallStage → Bool
  | .building => true
  | _ => false

/-- A build that has not copied the array keeps the one it has. -/
def TreeBuild.detach (leaves : List ℕ) (build : TreeBuild) : TreeBuild :=
  { build with replaced := build.replaced.or (some leaves) }

namespace PrivateSubmitter

variable {P : Poseidon}

def start (P : Poseidon) : PrivateSubmitter P := ⟨[], none, none, none, none, false, none, []⟩

/-- No continuation is left to run. -/
def quiet (s : PrivateSubmitter P) : Bool :=
  s.calls.all (fun call => !call.stage.runnable) && s.treeBuildInflight.all fun build => !build.stage.runnable

/-- The calls that wait for one thing go on to another. -/
def moveCalls (s : PrivateSubmitter P) (waits : CallStage → Bool) (next : CallStage) : List ProofCall :=
  s.calls.map fun call => if waits call.stage then { call with stage := next } else call

/-- `runIndexCommitments` up to its first `await`, unless a pass is under way. -/
def indexCommitments (config : IndexConfig) (s : PrivateSubmitter P) : PrivateSubmitter P :=
  match s.indexInflight, s.lastIndexedBlock with
  | some _, _ => s
  | none, some block => { s with indexInflight := some (.head (block + 1)) }
  | none, none =>
    { s with
      indexInflight := some (.head config.firstBlock)
      commitmentLeaves := []
      treeBuildInflight := s.treeBuildInflight.map (TreeBuild.detach s.commitmentLeaves) }

/-- The pass is over; the calls that wait for it can go on. -/
def passDone (s : PrivateSubmitter P) : PrivateSubmitter P :=
  { s with
    indexInflight := none
    calls := s.moveCalls CallStage.isIndexing .indexed }

/-- The loop over the events of a pass. -/
def index (s : PrivateSubmitter P) (scan : Scan (ℕ × ℕ)) : PrivateSubmitter P :=
  { s with
    commitmentLeaves := placeLeaves s.commitmentLeaves scan.out
    lastIndexedBlock := some scan.tip }

/-- The proof from the cached tree. -/
def answer (s : PrivateSubmitter P) (leafIndex : ℕ) : CallStage :=
  match s.cachedTree with
  | some (_, tree) =>
    let (pathElements, pathIndices) := getMerkleProof tree leafIndex
    .answered ⟨tree.root, pathElements, pathIndices, s.commitmentLeaves⟩
  | none => .rejected

/-- A call goes on: after the pass it answers from the cache, joins the build or starts one; after the build it answers. -/
def resume (s : PrivateSubmitter P) (i : ℕ) (call : ProofCall) : Except String (PrivateSubmitter P) :=
  let finish := { s with calls := s.calls.set i { call with stage := s.answer call.leafIndex } }
  let wait := s.calls.set i { call with stage := .building }
  match call.stage with
  | .indexed =>
    if s.cachedTree.any fun cached => cached.1 = s.commitmentLeaves.length then .ok finish
    else if s.treeBuildInflight.isSome then .ok { s with calls := wait }
    else .ok { s with
      calls := wait
      treeBuildInflight :=
        some ⟨s.commitmentLeaves.length, none, if s.poseidonLoaded then .ready else .loading⟩ }
  | .treeBuilt => .ok finish
  | _ => .error "the call waits"

end PrivateSubmitter

variable {P : Poseidon}

open PrivateSubmitter

/-- `events` is the chain: the leaf indices and commitments of the `CommitmentInserted` events of each block. -/
def ProofStep.run (config : IndexConfig) (events : ℕ → List (ℕ × ℕ)) (step : ProofStep) (s : PrivateSubmitter P) :
    Except String (PrivateSubmitter P) := do
  require (step.external = false ∨ s.quiet = true) "continuations are left to run"
  match step with
  | .getCommitmentMerkleProof leafIndex =>
    let begun := s.indexCommitments config
    return { begun with calls := begun.calls ++ [⟨leafIndex, s.commitmentLeaves, .indexing⟩] }
  | .indexCommitments => return s.indexCommitments config
  | .head tip =>
    match s.indexInflight with
    | some (.head fromBlock) =>
      let toBlock : ℤ := tip - config.indexConfirmations
      if toBlock < 0 ∨ fromBlock > toBlock then return s.passDone
      else return { s with indexInflight := some (.query (.begin fromBlock toBlock.toNat)) }
    | _ => .error "no pass waits for the head"
  | .logs =>
    match s.indexInflight with
    | some (.query scan) =>
      let read := config.read events scan
      if read.cursor ≤ read.tip then return { s with indexInflight := some (.query read) }
      else return (s.index read).passDone
    | _ => .error "no pass waits for logs"
  | .rpcError =>
    require (s.indexInflight.isSome = true) "no pass waits"
    return { s with
      indexInflight := none
      calls := s.moveCalls CallStage.isIndexing .rejected }
  | .poseidonReady => return { s with poseidonLoaded := true }
  | .loaded =>
    match s.treeBuildInflight with
    | some ⟨targetCount, replaced, .loading⟩ =>
      return { s with
        poseidonLoaded := true
        treeBuildInflight := some ⟨targetCount, replaced, .ready⟩ }
    | _ => .error "no build waits"
  | .loadError =>
    match s.treeBuildInflight with
    | some ⟨_, _, .loading⟩ =>
      return { s with
        treeBuildInflight := none
        calls := s.moveCalls CallStage.isBuilding .rejected }
    | _ => .error "no build waits"
  | .resume i =>
    match s.calls[i]? with
    | some call => s.resume i call
    | none => .error "no such call"
  | .build =>
    match s.treeBuildInflight with
    | some ⟨targetCount, replaced, .ready⟩ =>
      let (tree, zeroHashCache) ← buildMerkleTree P s.zeroHashCache (replaced.getD s.commitmentLeaves) COMMIT_TREE_DEPTH
      return { s with
        treeBuildInflight := some ⟨targetCount, replaced, .built tree⟩
        zeroHashCache }
    | _ => .error "no tree to build"
  | .store =>
    match s.treeBuildInflight with
    | some ⟨targetCount, replaced, .built tree⟩ =>
      return { s with
        cachedTree := some (targetCount, tree)
        treeBuildInflight := some ⟨targetCount, replaced, .stored⟩ }
    | _ => .error "no tree to store"
  | .settle =>
    match s.treeBuildInflight with
    | some ⟨_, _, .stored⟩ =>
      return { s with
        treeBuildInflight := none
        calls := s.moveCalls CallStage.isBuilding .treeBuilt }
    | _ => .error "no build to settle"

end Relayer

end ScatterDex
