import ScatterDex.Relayer.CommitmentProofs
import ScatterDex.SharedOrderbook.Indexers
import ScatterDex.Protocol.MerkleAgreement
import ScatterDex.Library.Transactions

/-!
# Proofs of indexed leaves

A call of the proof service ends with a proof from a tree that several calls may have shared, while passes append leaves. Between the copy of the array and the answers no leaf is appended, so the tree is that of all leaves indexed by then. The exception is a build that holds an array which a pass has replaced.
-/

namespace ScatterDex

open BlockScan Fallible Transactions

namespace Relayer

/-! ### Leaves of the chain -/

/-- The `CommitmentInserted` events of each block. -/
def commitmentInserted (inserted : ℕ → List ℕ) (block : ℕ) : List (ℕ × ℕ) :=
  (inserted block).mapIdx fun i commitment => (SharedOrderbook.leavesBefore inserted block + i, commitment)

/-- The leaf indices of events grow, from a bound on and up to another. -/
def Follows : ℕ → List (ℕ × ℕ) → ℕ → Prop
  | lo, [], hi => lo ≤ hi
  | lo, event :: events, hi => lo ≤ event.1 ∧ Follows (event.1 + 1) events hi

theorem Follows.mono {lo lo' hi : ℕ} (hle : lo' ≤ lo) {events : List (ℕ × ℕ)} (hfollows : Follows lo events hi) :
    Follows lo' events hi := by
  cases events with
  | nil => exact hle.trans hfollows
  | cons event events => exact ⟨hle.trans hfollows.1, hfollows.2⟩

theorem Follows.append {lo mid hi : ℕ} {events events' : List (ℕ × ℕ)} (hfollows : Follows lo events mid)
    (hfollows' : Follows mid events' hi) : Follows lo (events ++ events') hi := by
  induction events generalizing lo with
  | nil => exact hfollows'.mono hfollows
  | cons event events ih => exact ⟨hfollows.1, ih hfollows.2⟩

theorem follows_mapIdx (leaves : List ℕ) (lo : ℕ) :
    Follows lo (leaves.mapIdx fun i commitment => (lo + i, commitment)) (lo + leaves.length) := by
  induction leaves generalizing lo with
  | nil => exact le_rfl
  | cons leaf leaves ih =>
    rw [List.mapIdx_cons]
    refine ⟨le_rfl, ?_⟩
    have hrest := ih (lo + 1)
    simp only [List.length_cons, Nat.add_comm, Nat.add_left_comm] at hrest ⊢
    exact hrest

theorem follows_between (inserted : ℕ → List ℕ) {lo hi : ℕ} (hle : lo ≤ hi) :
    Follows (SharedOrderbook.leavesBefore inserted lo) (between (commitmentInserted inserted) lo hi)
      (SharedOrderbook.leavesBefore inserted hi) := by
  induction hi, hle using Nat.le_induction with
  | base =>
    rw [between_self]
    exact le_rfl
  | succ hi hle ih =>
    have hlast : between (commitmentInserted inserted) hi (hi + 1) = commitmentInserted inserted hi := by
      simp [between]
    rw [← between_append hle (Nat.le_succ hi), hlast, SharedOrderbook.leavesBefore_succ]
    exact ih.append (follows_mapIdx _ _)

/-! ### The array -/

theorem placeLeaf_append {leaves : List ℕ} {event : ℕ × ℕ} (hle : leaves.length ≤ event.1) :
    leaves <+: placeLeaf leaves event ∧ (placeLeaf leaves event).length = event.1 + 1 := by
  unfold placeLeaf
  constructor
  · rw [List.set_append_right _ _ hle]
    exact List.prefix_append _ _
  · rw [List.length_set, List.length_append, List.length_replicate]
    omega

theorem placeLeaves_append {leaves : List ℕ} {events : List (ℕ × ℕ)} {hi : ℕ} (hfollows : Follows leaves.length events hi) :
    leaves <+: placeLeaves leaves events ∧ (placeLeaves leaves events).length ≤ hi := by
  induction events generalizing leaves with
  | nil => exact ⟨List.prefix_rfl, hfollows⟩
  | cons event events ih =>
    obtain ⟨hleading, hlength⟩ := placeLeaf_append hfollows.1
    obtain ⟨hrest, hbound⟩ := ih (hlength ▸ hfollows.2)
    exact ⟨hleading.trans hrest, hbound⟩

/-! ### Answers -/

/-- The answer is a path for the leaf index of the call, it leads from the leaf that is indexed there to the root that comes with it, and the leaves it speaks of include all that were indexed when the call began. -/
structure ProofCall.Proves (P : Poseidon) (call : ProofCall) (answer : ProofAnswer) : Prop where
  known : call.known <+: answer.leaves
  indices : answer.pathIndices = MerkleTree.pathIndices call.leafIndex COMMIT_TREE_DEPTH
  recomputes : call.leafIndex < 2 ^ COMMIT_TREE_DEPTH → ∀ commitment, answer.leaves[call.leafIndex]? = some commitment →
    ∃ root, answer.root = some root ∧
      Recomputes P COMMIT_TREE_DEPTH commitment root answer.pathElements answer.pathIndices

variable {P : Poseidon}

/-- The proof from a tree of the indexed leaves. -/
theorem proves_of_represents {tree : SparseMerkleTree} {call : ProofCall} {leaves : List ℕ}
    (htree : Represents P tree COMMIT_TREE_DEPTH leaves) (hknown : call.known <+: leaves) :
    call.Proves P ⟨tree.root, (getMerkleProof tree call.leafIndex).1, (getMerkleProof tree call.leafIndex).2, leaves⟩ := by
  refine ⟨hknown, by rw [getMerkleProof_eq htree], fun hinside commitment hleaf => ⟨_, htree.root_eq, ?_⟩⟩
  rw [getMerkleProof_eq htree]
  apply recomputes_of_pathTo
  have hroot := MerkleTree.pathTo_root P.hashWords (MerkleTree.padded 0 leaves) hinside
  have hcommitment : MerkleTree.padded 0 leaves call.leafIndex = commitment := by
    rw [MerkleTree.padded, List.getD_eq_getElem?_getD, hleaf, Option.getD_some]
  rwa [hcommitment] at hroot

/-- The tree that is kept is that of the indexed leaves. -/
def UpToDate (P : Poseidon) (cachedTree : Option (ℕ × SparseMerkleTree)) (leaves : List ℕ) : Prop :=
  ∃ n tree, cachedTree = some (n, tree) ∧ Represents P tree COMMIT_TREE_DEPTH leaves

/-- What a build has reached. -/
def BuildStage.Sound (P : Poseidon) (cachedTree : Option (ℕ × SparseMerkleTree)) (leaves : List ℕ) : BuildStage → Prop
  | .built tree => Represents P tree COMMIT_TREE_DEPTH leaves
  | .stored => UpToDate P cachedTree leaves
  | _ => True

/-- What a call has reached. -/
def CallStage.Sound (P : Poseidon) (cachedTree : Option (ℕ × SparseMerkleTree)) (leaves : List ℕ) (call : ProofCall) :
    CallStage → Prop
  | .treeBuilt => UpToDate P cachedTree leaves
  | .answered answer => call.Proves P answer
  | _ => True

/-- The array, the tree that is kept, the build under way and the calls fit together. -/
structure PrivateSubmitter.Sound (inserted : ℕ → List ℕ) (s : PrivateSubmitter P) : Prop where
  empty : s.lastIndexedBlock = none → s.commitmentLeaves = []
  indexed : ∀ block, s.lastIndexedBlock = some block →
    s.commitmentLeaves.length ≤ SharedOrderbook.leavesBefore inserted (block + 1)
  head : ∀ fromBlock, s.indexInflight = some (.head fromBlock) → ∀ block, s.lastIndexedBlock = some block → block < fromBlock
  query : ∀ scan, s.indexInflight = some (.query scan) → scan.Sound (commitmentInserted inserted) ∧
    scan.cursor ≤ scan.tip ∧ ∀ block, s.lastIndexedBlock = some block → block < scan.start
  cached : ∀ n tree, s.cachedTree = some (n, tree) →
    ∃ leaves, Represents P tree COMMIT_TREE_DEPTH leaves ∧ leaves <+: s.commitmentLeaves ∧ n ≤ leaves.length
  target : ∀ build, s.treeBuildInflight = some build → build.targetCount ≤ s.commitmentLeaves.length
  replaced : ∀ build, s.treeBuildInflight = some build → ∀ leaves, build.replaced = some leaves →
    leaves = [] ∧ s.commitmentLeaves = []
  stage : ∀ build, s.treeBuildInflight = some build → build.stage.Sound P s.cachedTree s.commitmentLeaves
  known : ∀ call ∈ s.calls, call.known <+: s.commitmentLeaves
  calls : ∀ call ∈ s.calls, call.stage.Sound P s.cachedTree s.commitmentLeaves call

theorem start_sound (inserted : ℕ → List ℕ) : (PrivateSubmitter.start P).Sound inserted where
  empty _ := rfl
  indexed block hblock := by cases hblock
  head fromBlock hhead := by cases hhead
  query scan hquery := by cases hquery
  cached n tree hcached := by cases hcached
  target build hbuild := by cases hbuild
  replaced build hbuild := by cases hbuild
  stage build hbuild := by cases hbuild
  known call hcall := absurd hcall List.not_mem_nil
  calls call hcall := absurd hcall List.not_mem_nil

/-! ### Steps -/

namespace PrivateSubmitter

variable {inserted : ℕ → List ℕ} {config : IndexConfig} {s : PrivateSubmitter P}

theorem mem_moveCalls {waits : CallStage → Bool} {next : CallStage} {call : ProofCall}
    (hcall : call ∈ s.moveCalls waits next) : ∃ call' ∈ s.calls, call.leafIndex = call'.leafIndex ∧
      call.known = call'.known ∧ (call.stage = call'.stage ∨ waits call'.stage = true ∧ call.stage = next) := by
  obtain ⟨call', hcall', rfl⟩ := List.mem_map.mp hcall
  refine ⟨call', hcall', ?_⟩
  split
  · exact ⟨rfl, rfl, Or.inr ⟨by assumption, rfl⟩⟩
  · exact ⟨rfl, rfl, Or.inl rfl⟩

theorem quiet_calls (hquiet : s.quiet = true) : ∀ call ∈ s.calls, call.stage.runnable = false := by
  intro call hcall
  rw [quiet, Bool.and_eq_true, List.all_eq_true] at hquiet
  simpa using hquiet.1 call hcall

theorem quiet_build (hquiet : s.quiet = true) : ∀ build, s.treeBuildInflight = some build → build.stage.runnable = false := by
  intro build hbuild
  rw [quiet, Bool.and_eq_true, hbuild, Option.all_some] at hquiet
  simpa using hquiet.2

theorem Sound.move {cachedTree : Option (ℕ × SparseMerkleTree)} {leaves : List ℕ} {waits : CallStage → Bool}
    {next : CallStage} (hcalls : ∀ call ∈ s.calls, call.stage.Sound P cachedTree leaves call)
    (hnext : ∀ call : ProofCall, next.Sound P cachedTree leaves call) :
    ∀ call ∈ s.moveCalls waits next, call.stage.Sound P cachedTree leaves call := by
  intro call hcall
  obtain ⟨call', hcall', hindex, hknown, hstage⟩ := mem_moveCalls hcall
  rcases hstage with hstage | ⟨-, hstage⟩
  · have hbefore := hcalls call' hcall'
    rw [hstage]
    cases hstage' : call'.stage with
    | answered answer =>
      rw [hstage'] at hbefore
      obtain ⟨hk, hi, hr⟩ := hbefore
      exact ⟨hknown ▸ hk, hindex ▸ hi, hindex ▸ hr⟩
    | treeBuilt =>
      rw [hstage'] at hbefore
      exact hbefore
    | indexing => trivial
    | indexed => trivial
    | building => trivial
    | rejected => trivial
  · rw [hstage]
    exact hnext call

theorem known_move {leaves : List ℕ} {waits : CallStage → Bool} {next : CallStage}
    (hknown : ∀ call ∈ s.calls, call.known <+: leaves) : ∀ call ∈ s.moveCalls waits next, call.known <+: leaves := by
  intro call hcall
  obtain ⟨call', hcall', -, heq, -⟩ := mem_moveCalls hcall
  rw [heq]
  exact hknown call' hcall'

theorem indexCommitments_sound (hs : s.Sound inserted) : (s.indexCommitments config).Sound inserted := by
  unfold indexCommitments
  split
  · exact hs
  · next block hnone hblock =>
    exact { hs with
      head := fun fromBlock hhead block' hblock' => by
        obtain rfl := IndexingPass.head.inj (Option.some.inj hhead)
        rw [hblock] at hblock'
        obtain rfl := Option.some.inj hblock'
        exact Nat.lt_succ_self _
      query := fun scan hquery => by cases hquery }
  · next hnone hblock =>
    have hleaves := hs.empty hblock
    refine { empty := fun _ => rfl, indexed := ?_, head := ?_, query := ?_, cached := ?_, target := ?_, replaced := ?_,
             stage := ?_, known := ?_, calls := ?_ }
    · exact fun block hlast => by cases hblock.symm.trans hlast
    · exact fun fromBlock _ block hlast => by cases hblock.symm.trans hlast
    · exact fun scan hquery => by cases hquery
    · exact hleaves ▸ hs.cached
    · intro build hbuild
      obtain ⟨build', hbuild', rfl⟩ := Option.map_eq_some_iff.mp hbuild
      exact hleaves ▸ hs.target build' hbuild'
    · intro build hbuild leaves hreplaced
      obtain ⟨build', hbuild', rfl⟩ := Option.map_eq_some_iff.mp hbuild
      refine ⟨?_, rfl⟩
      change build'.replaced.or (some s.commitmentLeaves) = some leaves at hreplaced
      cases hbefore : build'.replaced with
      | none =>
        rw [hbefore, Option.none_or, hleaves] at hreplaced
        exact (Option.some.inj hreplaced).symm
      | some old =>
        rw [hbefore, Option.some_or] at hreplaced
        rw [← Option.some.inj hreplaced]
        exact (hs.replaced build' hbuild' old hbefore).1
    · intro build hbuild
      obtain ⟨build', hbuild', rfl⟩ := Option.map_eq_some_iff.mp hbuild
      exact hleaves ▸ hs.stage build' hbuild'
    · exact hleaves ▸ hs.known
    · exact hleaves ▸ hs.calls

/-- The array that a pass puts in place is as empty as the one it replaces. -/
theorem indexCommitments_leaves (hs : s.Sound inserted) :
    (s.indexCommitments config).commitmentLeaves = s.commitmentLeaves := by
  unfold indexCommitments
  split
  · rfl
  · rfl
  · next hblock => exact (hs.empty hblock).symm

theorem passDone_sound (hs : s.Sound inserted) : s.passDone.Sound inserted :=
  { hs with
    head := fun _ hhead => by cases hhead
    query := fun _ hquery => by cases hquery
    known := known_move hs.known
    calls := Sound.move hs.calls fun _ => trivial }

/-- Leaves arrive while no continuation can run, and no build holds an array that was replaced. -/
theorem index_sound (hs : s.Sound inserted) (hquiet : s.quiet = true) {scan : Scan (ℕ × ℕ)}
    (hscan : scan.Sound (commitmentInserted inserted)) (hdone : scan.tip < scan.cursor)
    (hstart : ∀ block, s.lastIndexedBlock = some block → block < scan.start) (hle : scan.start ≤ scan.tip)
    (hundisturbed : ∀ build, s.treeBuildInflight = some build → build.replaced ≠ none → scan.out = []) :
    (s.index scan).passDone.Sound inserted := by
  have hout := hscan.done hdone
  have hfollows : Follows s.commitmentLeaves.length scan.out (SharedOrderbook.leavesBefore inserted (scan.tip + 1)) := by
    rw [hout]
    refine (follows_between inserted (by omega)).mono ?_
    cases hlast : s.lastIndexedBlock with
    | none =>
      rw [hs.empty hlast]
      exact Nat.zero_le _
    | some block =>
      exact (hs.indexed block hlast).trans (SharedOrderbook.leavesBefore_mono inserted (hstart block hlast))
  obtain ⟨hleading, hlength⟩ := placeLeaves_append hfollows
  refine { empty := ?_, indexed := ?_, head := ?_, query := ?_, cached := ?_, target := ?_, replaced := ?_,
           stage := ?_, known := ?_, calls := ?_ }
  · exact fun hnone => by cases hnone
  · intro block hblock
    obtain rfl := Option.some.inj hblock
    exact hlength
  · exact fun _ hhead => by cases hhead
  · exact fun _ hquery => by cases hquery
  · intro n tree hcached
    obtain ⟨leaves, htree, hleaves, hn⟩ := hs.cached n tree hcached
    exact ⟨leaves, htree, hleaves.trans hleading, hn⟩
  · exact fun build hbuild => (hs.target build hbuild).trans hleading.length_le
  · intro build hbuild leaves hreplaced
    obtain ⟨hold, hnone⟩ := hs.replaced build hbuild leaves hreplaced
    refine ⟨hold, ?_⟩
    have hnothing := hundisturbed build hbuild (by rw [hreplaced]; exact Option.some_ne_none leaves)
    show placeLeaves s.commitmentLeaves scan.out = []
    rw [hnothing, hnone]
    rfl
  · intro build hbuild
    have hquiet' := quiet_build hquiet build hbuild
    cases hstage : build.stage with
    | loading => trivial
    | ready => trivial
    | built tree =>
      rw [hstage] at hquiet'
      cases hquiet'
    | stored =>
      rw [hstage] at hquiet'
      cases hquiet'
  · exact known_move fun call hcall => (hs.known call hcall).trans hleading
  · refine Sound.move (fun call hcall => ?_) fun _ => trivial
    have hquiet' := quiet_calls hquiet call hcall
    have hcalls := hs.calls call hcall
    cases hstage : call.stage with
    | treeBuilt =>
      rw [hstage] at hquiet'
      cases hquiet'
    | answered answer =>
      rw [hstage] at hcalls
      exact hcalls
    | indexing => trivial
    | indexed => trivial
    | building => trivial
    | rejected => trivial

theorem answer_sound {call : ProofCall} (hkept : UpToDate P s.cachedTree s.commitmentLeaves)
    (hknown : call.known <+: s.commitmentLeaves) :
    (s.answer call.leafIndex).Sound P s.cachedTree s.commitmentLeaves { call with stage := s.answer call.leafIndex } := by
  obtain ⟨n, tree, hcached, htree⟩ := hkept
  rw [answer, hcached]
  obtain ⟨hk, hi, hr⟩ := @proves_of_represents _ _ call _ htree hknown
  exact ⟨hk, hi, hr⟩

theorem Sound.set {cachedTree : Option (ℕ × SparseMerkleTree)} {leaves : List ℕ} {i : ℕ} {call : ProofCall}
    (hcalls : ∀ call ∈ s.calls, call.stage.Sound P cachedTree leaves call)
    (hcall : call.stage.Sound P cachedTree leaves call) :
    ∀ call' ∈ s.calls.set i call, call'.stage.Sound P cachedTree leaves call' := by
  intro call' hcall'
  rcases List.mem_or_eq_of_mem_set hcall' with hmem | rfl
  · exact hcalls call' hmem
  · exact hcall

theorem resume_sound (hs : s.Sound inserted) {s' : PrivateSubmitter P} {i : ℕ} {call : ProofCall}
    (hcall : s.calls[i]? = some call) (hresume : s.resume i call = .ok s') : s'.Sound inserted := by
  have hmem := List.mem_of_getElem? hcall
  have hknown : ∀ next : CallStage, ∀ call' ∈ s.calls.set i { call with stage := next }, call'.known <+: s.commitmentLeaves := by
    intro next call' hcall'
    rcases List.mem_or_eq_of_mem_set hcall' with hother | rfl
    · exact hs.known call' hother
    · exact hs.known call hmem
  have hfinish : UpToDate P s.cachedTree s.commitmentLeaves →
      PrivateSubmitter.Sound inserted { s with calls := s.calls.set i { call with stage := s.answer call.leafIndex } } :=
    fun hkept => { hs with
      known := hknown _
      calls := Sound.set hs.calls (answer_sound hkept (hs.known call hmem)) }
  unfold resume at hresume
  dsimp only at hresume
  split at hresume
  · split at hresume
    · next hcached =>
      cases hresume
      obtain ⟨⟨n, tree⟩, hkept, hn⟩ := Option.any_eq_true _ _ |>.mp hcached
      obtain ⟨leaves, htree, hleading, hle⟩ := hs.cached n tree hkept
      have hcount : n = s.commitmentLeaves.length := of_decide_eq_true hn
      obtain rfl := hleading.eq_of_length_le (hcount ▸ hle)
      exact hfinish ⟨n, tree, hkept, htree⟩
    · split at hresume
      · cases hresume
        exact { hs with
          known := hknown _
          calls := Sound.set hs.calls trivial }
      · cases hresume
        exact { hs with
          target := fun build hbuild => by
            obtain rfl := Option.some.inj hbuild
            exact le_rfl
          replaced := fun build hbuild leaves hreplaced => by
            obtain rfl := Option.some.inj hbuild
            cases hreplaced
          stage := fun build hbuild => by
            obtain rfl := Option.some.inj hbuild
            dsimp only
            split <;> trivial
          known := hknown _
          calls := Sound.set hs.calls trivial }
  · next hstage =>
    cases hresume
    have hcalls := hs.calls call hmem
    rw [hstage] at hcalls
    exact hfinish hcalls
  · cases hresume

theorem Sound.next (hs : s.Sound inserted) {targetCount : ℕ} {replaced : Option (List ℕ)} {stage : BuildStage}
    (hbuild : s.treeBuildInflight = some ⟨targetCount, replaced, stage⟩) (next : BuildStage)
    (hnext : next.Sound P s.cachedTree s.commitmentLeaves) :
    PrivateSubmitter.Sound inserted { s with treeBuildInflight := some ⟨targetCount, replaced, next⟩ } := by
  have htarget := hs.target _ hbuild
  have hreplaced := hs.replaced _ hbuild
  refine { hs with target := fun build hbuild' => ?_, replaced := fun build hbuild' => ?_, stage := fun build hbuild' => ?_ }
  · obtain rfl := Option.some.inj hbuild'
    exact htarget
  · obtain rfl := Option.some.inj hbuild'
    exact hreplaced
  · obtain rfl := Option.some.inj hbuild'
    exact hnext

theorem build_sound (hs : s.Sound inserted) {targetCount : ℕ} {replaced : Option (List ℕ)}
    (hbuild : s.treeBuildInflight = some ⟨targetCount, replaced, .ready⟩) {tree : SparseMerkleTree}
    {zeroHashCache : Option (ZeroHashCache P)}
    (htree : buildMerkleTree P s.zeroHashCache (replaced.getD s.commitmentLeaves) COMMIT_TREE_DEPTH = .ok (tree, zeroHashCache)) :
    PrivateSubmitter.Sound inserted
      { s with treeBuildInflight := some ⟨targetCount, replaced, .built tree⟩, zeroHashCache } := by
  have hleaves : replaced.getD s.commitmentLeaves = s.commitmentLeaves := by
    cases hreplaced : replaced with
    | none => rfl
    | some old =>
      obtain ⟨hold, hnone⟩ := hs.replaced _ hbuild old hreplaced
      rw [Option.getD_some, hold, hnone]
  obtain ⟨tree', cache', hbuilt, hrepresents⟩ :=
    buildMerkleTree_represents s.zeroHashCache s.commitmentLeaves (show 0 < COMMIT_TREE_DEPTH by decide)
  rw [hleaves, hbuilt] at htree
  obtain ⟨rfl, -⟩ := Prod.mk.inj (Except.ok.inj htree)
  exact { hs.next hbuild (.built tree') hrepresents with }

theorem store_sound (hs : s.Sound inserted) {targetCount : ℕ} {replaced : Option (List ℕ)} {tree : SparseMerkleTree}
    (hbuild : s.treeBuildInflight = some ⟨targetCount, replaced, .built tree⟩) :
    PrivateSubmitter.Sound inserted { s with
      cachedTree := some (targetCount, tree)
      treeBuildInflight := some ⟨targetCount, replaced, .stored⟩ } := by
  have htree : Represents P tree COMMIT_TREE_DEPTH s.commitmentLeaves := hs.stage _ hbuild
  have hkept : UpToDate P (some (targetCount, tree)) s.commitmentLeaves := ⟨targetCount, tree, rfl, htree⟩
  have htarget := hs.target _ hbuild
  have hreplaced := hs.replaced _ hbuild
  exact { hs with
    target := fun build hbuild' => by
      obtain rfl := Option.some.inj hbuild'
      exact htarget
    replaced := fun build hbuild' => by
      obtain rfl := Option.some.inj hbuild'
      exact hreplaced
    cached := fun n tree' hcached => by
      obtain ⟨rfl, rfl⟩ := Prod.mk.inj (Option.some.inj hcached)
      exact ⟨s.commitmentLeaves, htree, List.prefix_rfl, htarget⟩
    stage := fun build hbuild' => by
      obtain rfl := Option.some.inj hbuild'
      exact hkept
    calls := fun call hcall => by
      have hbefore := hs.calls call hcall
      cases hstage : call.stage with
      | answered answer =>
        rw [hstage] at hbefore
        exact hbefore
      | treeBuilt => exact hkept
      | indexing => trivial
      | indexed => trivial
      | building => trivial
      | rejected => trivial }

theorem unbuild_sound (hs : s.Sound inserted) {next : CallStage}
    (hnext : ∀ call : ProofCall, next.Sound P s.cachedTree s.commitmentLeaves call) :
    PrivateSubmitter.Sound inserted { s with
      treeBuildInflight := none
      calls := s.moveCalls CallStage.isBuilding next } :=
  { hs with
    target := fun _ hbuild => by cases hbuild
    replaced := fun _ hbuild => by cases hbuild
    stage := fun _ hbuild => by cases hbuild
    known := known_move hs.known
    calls := Sound.move hs.calls hnext }

end PrivateSubmitter

open PrivateSubmitter

/-- The window that ends a pass brings no leaves while the build under way holds an array that was replaced. -/
def ProofStep.Undisturbed (config : IndexConfig) (events : ℕ → List (ℕ × ℕ)) (s : PrivateSubmitter P) : ProofStep → Prop
  | .logs => ∀ scan, s.indexInflight = some (.query scan) → scan.tip < (config.read events scan).cursor →
      ∀ build, s.treeBuildInflight = some build → build.replaced ≠ none → (config.read events scan).out = []
  | _ => True

variable {inserted : ℕ → List ℕ} {config : IndexConfig} {s s' : PrivateSubmitter P}

theorem head_sound (hs : s.Sound inserted) {tip : ℕ}
    (hrun : (ProofStep.head tip).run config (commitmentInserted inserted) s = .ok s') : s'.Sound inserted := by
  simp only [ProofStep.run, bind_eq_ok] at hrun
  obtain ⟨-, -, hrun⟩ := hrun
  split at hrun
  · next fromBlock hpass =>
    split at hrun
    · cases hrun
      exact passDone_sound hs
    · next hlive =>
      cases hrun
      exact { hs with
        head := fun _ hhead => by cases hhead
        query := fun scan hquery => by
          obtain rfl := IndexingPass.query.inj (Option.some.inj hquery)
          refine ⟨Scan.begin_sound, ?_, fun block hblock => hs.head fromBlock hpass block hblock⟩
          show fromBlock ≤ ((tip : ℤ) - config.indexConfirmations).toNat
          omega }
  · cases hrun

theorem logs_sound (hs : s.Sound inserted)
    (hundisturbed : ProofStep.logs.Undisturbed config (commitmentInserted inserted) s)
    (hrun : ProofStep.logs.run config (commitmentInserted inserted) s = .ok s') : s'.Sound inserted := by
  simp only [ProofStep.run, bind_eq_ok, require_eq_ok] at hrun
  obtain ⟨-, hquiet, hrun⟩ := hrun
  have hquiet : s.quiet = true := hquiet.resolve_left (by decide)
  split at hrun
  · next scan hpass =>
    obtain ⟨hscan, hlive, hstart⟩ := hs.query scan hpass
    have hread : (config.read (commitmentInserted inserted) scan).Sound (commitmentInserted inserted) :=
      hscan.push (windowSize_pos (by decide) _) hlive
    split at hrun
    · next hmore =>
      cases hrun
      exact { hs with
        head := fun _ hhead => by cases hhead
        query := fun scan' hquery => by
          obtain rfl := IndexingPass.query.inj (Option.some.inj hquery)
          exact ⟨hread, hmore, hstart⟩ }
    · next hdone =>
      cases hrun
      exact index_sound hs hquiet hread (not_le.mp hdone) hstart (hscan.start_le.trans hlive)
        (hundisturbed scan hpass (not_le.mp hdone))
  · cases hrun

/-- A step keeps array, trees and calls together. -/
theorem ProofStep.run_sound (hs : s.Sound inserted) {step : ProofStep}
    (hundisturbed : step.Undisturbed config (commitmentInserted inserted) s)
    (hrun : step.run config (commitmentInserted inserted) s = .ok s') : s'.Sound inserted := by
  cases step with
  | head tip => exact head_sound hs hrun
  | logs => exact logs_sound hs hundisturbed hrun
  | getCommitmentMerkleProof leafIndex =>
    simp only [ProofStep.run, bind_eq_ok, pure_eq_ok] at hrun
    obtain ⟨-, -, rfl⟩ := hrun
    have hbegun : (s.indexCommitments config).Sound inserted := indexCommitments_sound hs
    exact { hbegun with
      known := fun call hcall => by
        rcases List.mem_append.mp hcall with hcall | hcall
        · exact hbegun.known call hcall
        · obtain rfl := List.mem_singleton.mp hcall
          show s.commitmentLeaves <+: (s.indexCommitments config).commitmentLeaves
          rw [indexCommitments_leaves hs]
      calls := fun call hcall => by
        rcases List.mem_append.mp hcall with hcall | hcall
        · exact hbegun.calls call hcall
        · obtain rfl := List.mem_singleton.mp hcall
          trivial }
  | indexCommitments =>
    simp only [ProofStep.run, bind_eq_ok, pure_eq_ok] at hrun
    obtain ⟨-, -, rfl⟩ := hrun
    exact indexCommitments_sound hs
  | rpcError =>
    simp only [ProofStep.run, bind_eq_ok, pure_eq_ok] at hrun
    obtain ⟨-, -, -, -, rfl⟩ := hrun
    exact { hs with
      head := fun _ hhead => by cases hhead
      query := fun _ hquery => by cases hquery
      known := known_move hs.known
      calls := Sound.move hs.calls fun _ => trivial }
  | poseidonReady =>
    simp only [ProofStep.run, bind_eq_ok, pure_eq_ok] at hrun
    obtain ⟨-, -, rfl⟩ := hrun
    exact { hs with }
  | loaded =>
    simp only [ProofStep.run, bind_eq_ok] at hrun
    obtain ⟨-, -, hrun⟩ := hrun
    split at hrun
    · next hbuild =>
      cases hrun
      exact { hs.next hbuild .ready trivial with }
    · cases hrun
  | loadError =>
    simp only [ProofStep.run, bind_eq_ok] at hrun
    obtain ⟨-, -, hrun⟩ := hrun
    split at hrun
    · cases hrun
      exact unbuild_sound hs fun _ => trivial
    · cases hrun
  | resume i =>
    simp only [ProofStep.run, bind_eq_ok] at hrun
    obtain ⟨-, -, hrun⟩ := hrun
    split at hrun
    · exact resume_sound hs (by assumption) hrun
    · cases hrun
  | build =>
    simp only [ProofStep.run, bind_eq_ok] at hrun
    obtain ⟨-, -, hrun⟩ := hrun
    split at hrun
    · next hbuild =>
      simp only [bind_eq_ok, pure_eq_ok] at hrun
      obtain ⟨⟨tree, cache⟩, htree, rfl⟩ := hrun
      exact build_sound hs hbuild htree
    · cases hrun
  | store =>
    simp only [ProofStep.run, bind_eq_ok] at hrun
    obtain ⟨-, -, hrun⟩ := hrun
    split at hrun
    · next hbuild =>
      cases hrun
      exact store_sound hs hbuild
    · cases hrun
  | settle =>
    simp only [ProofStep.run, bind_eq_ok] at hrun
    obtain ⟨-, -, hrun⟩ := hrun
    split at hrun
    · next hbuild =>
      cases hrun
      exact unbuild_sound hs fun _ => hs.stage _ hbuild
    · cases hrun

/-- **A leaf that is indexed is proved.** In every run, whatever the order of requests, answers of the RPC and continuations, an answer is a path for the leaf index of its call, leads from the leaf that is indexed there to the root it comes with, and speaks of all leaves that were indexed when the call began; as long as no leaves arrive while the build under way holds an array that was replaced. -/
theorem leaves_proved {steps : List ProofStep}
    (hundisturbed : Along (ProofStep.run config (commitmentInserted inserted))
      (ProofStep.Undisturbed config (commitmentInserted inserted)) (start P) steps) :
    ∀ call ∈ (after (ProofStep.run config (commitmentInserted inserted)) (start P) steps).calls,
      ∀ answer, call.stage = .answered answer → call.Proves P answer := by
  have hkeep : ∀ (s : PrivateSubmitter P) (step : ProofStep) (s' : PrivateSubmitter P), s.Sound inserted →
      step.Undisturbed config (commitmentInserted inserted) s →
      step.run config (commitmentInserted inserted) s = .ok s' → s'.Sound inserted :=
    fun s step s' hs hstep hrun => ProofStep.run_sound hs hstep hrun
  have hsound := invariant_along hkeep (start_sound inserted) hundisturbed
  intro call hcall answer hanswer
  have hstage := hsound.calls call hcall
  rw [hanswer] at hstage
  exact hstage

/-- A hash that adds, for runs on fixed inputs. -/
def addingHash : Poseidon := ⟨List.sum, ∅, Set.injOn_empty _, fun _ hasked => absurd hasked (Set.notMem_empty _)⟩

def lateConfig : IndexConfig := ⟨none, 5, none⟩

/-- A chain with one leaf, in its first block. -/
def oneLeaf : ℕ → List ℕ
  | 1 => [7]
  | _ => []

/-- The first request finds a leaf; the windows of the pass are one block wide. -/
def servedSteps : List ProofStep :=
  [.getCommitmentMerkleProof 0, .head 6, .logs, .logs, .resume 0, .loaded, .build, .store, .settle, .resume 0]

theorem leaves_proved_served :
    (∃ answer, (after (ProofStep.run lateConfig (commitmentInserted oneLeaf)) (start addingHash) servedSteps).calls =
        [⟨0, [], .answered answer⟩] ∧ answer.leaves = [7]) ∧
      ∀ call ∈ (after (ProofStep.run lateConfig (commitmentInserted oneLeaf)) (start addingHash) servedSteps).calls,
        ∀ answer, call.stage = .answered answer → call.Proves addingHash answer := by
  constructor
  · exact ⟨⟨some 7, List.replicate 20 0, List.replicate 20 0, [7]⟩, by decide +kernel, rfl⟩
  · apply leaves_proved
    refine ⟨trivial, trivial, ?_, ?_, trivial, trivial, trivial, trivial, trivial, trivial, trivial⟩
    · intro scan _ _ build hbuild
      cases hbuild
    · intro scan _ _ build hbuild
      cases hbuild

/-- The first request comes before there is anything to index and starts a build, which waits for the hash function. The second request replaces the array, and its pass finds the leaf. The third begins when the leaf is indexed. All three share the build. -/
def replacedSteps : List ProofStep :=
  [.getCommitmentMerkleProof 0, .head 3, .resume 0, .getCommitmentMerkleProof 0, .head 6, .logs, .logs, .resume 1,
    .getCommitmentMerkleProof 0, .head 6, .resume 2, .loaded, .build, .store, .settle, .resume 2]

theorem leaf_missing : ∃ call ∈ (after (ProofStep.run lateConfig (commitmentInserted oneLeaf)) (start addingHash) replacedSteps).calls,
    call.known = [7] ∧ ∃ answer, call.stage = .answered answer ∧ ¬call.Proves addingHash answer := by
  have hcall : ⟨0, [7], .answered ⟨some 0, List.replicate 20 0, List.replicate 20 0, [7]⟩⟩ ∈
      (after (ProofStep.run lateConfig (commitmentInserted oneLeaf)) (start addingHash) replacedSteps).calls := by
    decide +kernel
  refine ⟨_, hcall, rfl, _, rfl, fun hproves => ?_⟩
  obtain ⟨root, hroot, ⟨-, -, -, hclimbs⟩, -⟩ := hproves.recomputes (by decide) 7 rfl
  obtain rfl := Option.some.inj hroot
  -- with the hash that adds, the climb from the leaf ends in the leaf
  exact absurd (hclimbs 0) (by decide +kernel)

end Relayer

end ScatterDex
