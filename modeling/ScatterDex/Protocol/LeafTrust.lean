import ScatterDex.Protocol.MerkleAgreement
import ScatterDex.Protocol.PoolSolvency
import ScatterDex.Protocol.PoolTree
import ScatterDex.Sdk.CommitmentTree

/-!
# What a known root says about the rows

`buildVerified` takes rows from a server nobody trusts and checks one thing about them: the root. A zero leaf is invisible in a padded tree, and a leaf and its sum with the modulus hash alike, so the root binds the rows only when they are nonzero field elements. `Mirrors` says what the check is for; the theorem says when it holds.
-/

namespace ScatterDex

open Bn254 Fallible

namespace Sdk

variable {P : Poseidon}

/-- The index map of a list of leaves: it finds every leaf, and where it points the leaf is. -/
structure IndexOf (leaves : List ℤ) (idx : LeafIndex) : Prop where
  sound : ∀ c i, idx c = some i → leaves[i]? = some c
  complete : ∀ c ∈ leaves, ∃ i, idx c = some i

theorem IndexOf.append {leaves : List ℤ} {idx : LeafIndex} (hidx : IndexOf leaves idx) (leaf : ℤ) :
    IndexOf (leaves ++ [leaf]) (Function.update idx leaf (some leaves.length)) where
  sound := by
    intro c i hi
    by_cases hc : c = leaf
    · rw [hc, Function.update_self, Option.some.injEq] at hi
      rw [hc, ← hi, List.getElem?_concat_length]
    · rw [Function.update_of_ne hc] at hi
      have hget := hidx.sound c i hi
      rw [List.getElem?_append_left (List.getElem?_eq_some_iff.mp hget).1, hget]
  complete := by
    intro c hc
    by_cases hleaf : c = leaf
    · exact ⟨leaves.length, by rw [hleaf, Function.update_self]⟩
    · rw [Function.update_of_ne hleaf]
      rcases List.mem_append.mp hc with hc | hc
      · exact hidx.complete c hc
      · exact absurd (List.mem_singleton.mp hc) hleaf

/-- The client's tree stands for its leaves: representatives in the tree of `Sdk/MerkleTree`, and the index map. -/
structure Standing (P : Poseidon) (built : BigintTree × LeafIndex) : Prop where
  depth : built.1.depth = commitTreeDepth
  tree : ∃ s, built.1.Represents s ∧ IncrementalMerkleTree.Tracks P s ∧ built.1.root = s.root
  index : IndexOf built.1.leaves built.2

theorem standing_new (hzeros : P.ZeroTable zeros) : Standing P (BigintTree.new commitTreeDepth, fun _ => none) where
  depth := rfl
  tree := by
    obtain ⟨s, hnew, hrepresents, hroot⟩ := BigintTree.new_represents (show commitTreeDepth ≤ 20 from le_rfl)
    exact ⟨s, hrepresents, (IncrementalMerkleTree.new_tracks hzeros hnew).1, hroot⟩
  index := ⟨fun _ _ hnone => absurd hnone (Option.some_ne_none _).symm, fun _ hmem => absurd hmem List.not_mem_nil⟩

theorem Standing.insert (hzeros : P.ZeroTable zeros) {t t' : BigintTree} {idx : LeafIndex} (hstanding : Standing P (t, idx))
    {leaf : ℤ} {i : ℕ} (hinsert : t.insert P leaf = .ok (t', i)) :
    Standing P (t', Function.update idx leaf (some i)) ∧ t'.leaves = t.leaves ++ [leaf] ∧ i = t.leaves.length := by
  obtain ⟨s, hrepresents, htracks, -⟩ := hstanding.tree
  have hdepth : t.depth = commitTreeDepth := hstanding.depth
  have hpos : 0 < t.depth := by
    rw [hdepth]
    decide
  obtain ⟨s', hinsert', hrepresents', hroot, hleaves, rfl, hdepth'⟩ :=
    BigintTree.insert_represents hrepresents hpos hinsert
  refine ⟨⟨hdepth'.trans hdepth, ⟨s', hrepresents', ?_, hroot⟩, ?_⟩, hleaves, rfl⟩
  · exact (IncrementalMerkleTree.insert_tracks hzeros htracks hinsert').1
  · have hindex := hstanding.index.append leaf
    rwa [← hleaves] at hindex

theorem BigintTree.insert_ok {t : BigintTree} (hroom : t.leaves.length < 2 ^ t.depth) (leaf : ℤ) :
    ∃ r, t.insert P leaf = .ok r := by
  simp only [insert, bind_eq_ok, require_eq_ok, pure_eq_ok]
  exact ⟨_, (), by omega, rfl⟩

theorem replay_ok (hzeros : P.ZeroTable zeros) {rows : List CommitmentInsertedRow} {built built' : BigintTree × LeafIndex}
    (hstanding : Standing P built) (hreplay : replay P built rows = .ok built') :
    Standing P built' ∧ built'.1.leaves = built.1.leaves ++ rows.map (·.commitment) := by
  induction rows generalizing built with
  | nil =>
    rw [replay, Except.ok.injEq] at hreplay
    subst hreplay
    exact ⟨hstanding, (List.append_nil _).symm⟩
  | cons row rows ih =>
    obtain ⟨t, idx⟩ := built
    simp only [replay, bind_eq_ok, require_eq_ok] at hreplay
    obtain ⟨⟨t₁, i⟩, hinsert, -, -, hrest⟩ := hreplay
    obtain ⟨hstanding₁, hleaves, -⟩ := hstanding.insert hzeros hinsert
    obtain ⟨hstanding', hleaves'⟩ := ih hstanding₁ hrest
    refine ⟨hstanding', ?_⟩
    rw [hleaves', hleaves, List.append_assoc, List.singleton_append, List.map_cons]

/-- A server can make the client load any rows: in one page that is not full. -/
theorem fetchCommitmentLeaves_page {pageSize : ℕ} {rows : List CommitmentInsertedRow} (hshort : rows.length < pageSize) :
    fetchCommitmentLeaves pageSize [.page rows] 0 [] = .ok rows := by
  rw [fetchCommitmentLeaves]
  exact if_pos hshort

/-! ### The live events -/

/-- The events of a list of insertions, the first at a given index. -/
def insertions : ℕ → List ℕ → List CommitmentInsertedRow
  | _, [] => []
  | index, c :: cs => ⟨c, index⟩ :: insertions (index + 1) cs

/-- The client's copy after the events of a log from an index on. -/
def follow (P : Poseidon) (built : BigintTree × LeafIndex) (index : ℕ) (log : List ℕ) : BigintTree × LeafIndex :=
  (insertions index (log.drop index)).foldl (onInserted P) built

theorem insertions_skipped {built : BigintTree × LeafIndex} {index : ℕ} (hgap : built.1.leaves.length < index)
    (cs : List ℕ) : (insertions index cs).foldl (onInserted P) built = built := by
  induction cs generalizing index with
  | nil => rfl
  | cons c cs ih =>
    have hskip : onInserted P built ⟨c, index⟩ = built := by
      rw [onInserted]
      exact if_pos (by simp; omega)
    rw [insertions, List.foldl_cons, hskip]
    exact ih (by omega)

theorem insertions_appended (hzeros : P.ZeroTable zeros) {built : BigintTree × LeafIndex} {index : ℕ} (cs : List ℕ)
    (hstanding : Standing P built) (hle : index ≤ built.1.leaves.length)
    (hlength : built.1.leaves.length ≤ index + cs.length) (hroom : index + cs.length ≤ 2 ^ commitTreeDepth) :
    Standing P ((insertions index cs).foldl (onInserted P) built) ∧
      ((insertions index cs).foldl (onInserted P) built).1.leaves =
        built.1.leaves ++ (cs.drop (built.1.leaves.length - index)).map fun c : ℕ => (c : ℤ) := by
  induction cs generalizing built index with
  | nil => simpa [insertions] using hstanding
  | cons c cs ih =>
    rw [List.length_cons] at hlength hroom
    rw [insertions, List.foldl_cons]
    rcases Nat.lt_or_ge index built.1.leaves.length with hlt | hge
    · have hskip : onInserted P built ⟨c, index⟩ = built := by
        rw [onInserted]
        exact if_pos (by simp; omega)
      have hdrop : built.1.leaves.length - index = built.1.leaves.length - (index + 1) + 1 := by omega
      rw [hskip, hdrop, List.drop_succ_cons]
      exact ih hstanding hlt (by omega) (by omega)
    · obtain rfl : index = built.1.leaves.length := le_antisymm hle hge
      obtain ⟨⟨t, i⟩, hinsert⟩ := BigintTree.insert_ok (P := P) (t := built.1) (by rw [hstanding.depth]; omega) (c : ℤ)
      obtain ⟨hstanding', hleaves, rfl⟩ := Standing.insert hzeros (show Standing P (built.1, built.2) from hstanding) hinsert
      have happend : onInserted P built ⟨c, built.1.leaves.length⟩ =
          (t, Function.update built.2 (c : ℤ) (some built.1.leaves.length)) := by
        simp [onInserted, hinsert]
      have hlonger : t.leaves.length = built.1.leaves.length + 1 := by
        rw [hleaves, List.length_append, List.length_singleton]
      rw [happend]
      have hfits : t.leaves.length ≤ built.1.leaves.length + 1 + cs.length := by omega
      obtain ⟨hstanding'', hrest⟩ := ih hstanding' hlonger.ge hfits (by omega)
      refine ⟨hstanding'', ?_⟩
      rw [hrest]
      dsimp only
      rw [hlonger, hleaves, Nat.sub_self, Nat.sub_self, List.drop_zero, List.drop_zero, List.map_cons,
        List.append_assoc, List.singleton_append]

/-! ### The check -/

/-- The pool's leaves as the client holds them. -/
def clientLeaves (log : List ℕ) : List ℤ := log.map fun c : ℕ => (c : ℤ)

/-- What the check is for. The client's leaves are the first of the pool's, at least as many as the index it read, every one of them found where it is; and the events from the subscription on bring the copy up to any later log. -/
structure Mirrors (P : Poseidon) (log : List ℕ) (read subscribed : ℕ) (built : BigintTree × LeafIndex) : Prop where
  leaves : ∃ n ≤ log.length, read ≤ n ∧ built.1.leaves = clientLeaves (log.take n)
  index : IndexOf built.1.leaves built.2
  live : ∀ later, (log ++ later).length ≤ 2 ^ commitTreeDepth →
    (follow P built subscribed (log ++ later)).1.leaves = clientLeaves (log ++ later) ∧
      IndexOf (clientLeaves (log ++ later)) (follow P built subscribed (log ++ later)).2

theorem buildVerified_ok {isKnownPoolRoot : ℤ → Except String Bool} {read : Option ℕ}
    {rows : List CommitmentInsertedRow} {built : BigintTree × LeafIndex}
    (hbuilt : buildVerified P isKnownPoolRoot read (.ok rows) = .ok (some built)) :
    replay P (BigintTree.new commitTreeDepth, fun _ => none) rows = .ok built ∧
      isKnownPoolRoot built.1.root = .ok true ∧ read.getD 0 ≤ built.1.leaves.length := by
  simp only [buildVerified, bind_eq_ok, pure_eq_ok, Except.ok.injEq, exists_eq_left', Prod.exists] at hbuilt
  obtain ⟨t, idx, hreplay, known, hknown, haccepted⟩ := hbuilt
  split at haccepted
  · rename_i hgates
    cases haccepted
    obtain ⟨rfl, hcount⟩ := hgates
    exact ⟨hreplay, hknown, hcount⟩
  · cases haccepted

theorem word_of_canonical {c : ℤ} (hpos : 0 < c) (hlt : c < modulus) : (word c : ℤ) = c := by
  obtain ⟨n, rfl⟩ := Int.eq_ofNat_of_zero_le hpos.le
  rw [word_natCast (by exact_mod_cast hlt)]

/-- Under a root the pool knows, the client's leaves and a prefix of the pool's agree as field elements. -/
theorem Standing.leaves_agree {built : BigintTree × LeafIndex}
    (hstanding : Standing P built) {pool : CommitmentPool}
    (htracks : ScatterDex.IncrementalMerkleTree.Tracks P pool.tree pool.committed)
    (hlevels : pool.tree.levels = commitTreeDepth) (hasked : pool.TreesAsked P)
    (hclient : MerkleTree.PairsIn P.hashPair P.askedPairs (fun i => ((built.1.leaves.getD i 0 : ℤ) : Scalar))
      commitTreeDepth 0)
    (hknown : pool.tree.isKnownRoot built.1.root.toNat = true) :
    built.1.leaves.length ≤ 2 ^ commitTreeDepth ∧ ∃ k ≤ pool.committed.length, ∀ i < 2 ^ commitTreeDepth,
      ((built.1.leaves.getD i 0 : ℤ) : Scalar) = fieldLeaf (pool.committed.take k) i := by
  obtain ⟨s, hrepresents, hs, hroot⟩ := hstanding.tree
  have hdepth : s.depth = commitTreeDepth := hrepresents.depth.trans hstanding.depth
  have hlength : s.leaves.length = built.1.leaves.length := by rw [hrepresents.leaves, List.length_map]
  refine ⟨by rw [← hlength, ← hdepth]; exact hs.length_le, ?_⟩
  rw [hroot, Int.toNat_natCast] at hknown
  obtain ⟨k, hk, hleading⟩ := ScatterDex.IncrementalMerkleTree.root_of_isKnownRoot htracks hknown
  rw [hs.root_eq, hdepth, hlevels] at hleading
  have hcast := congrArg (fun n : ℕ => (n : Scalar)) hleading
  dsimp only [MerkleTree.root] at hcast
  rw [P.cast_node, P.cast_node] at hcast
  have hleaves : (fun i => ((MerkleTree.padded 0 s.leaves i : ℕ) : Scalar)) =
      fun i => ((built.1.leaves.getD i 0 : ℤ) : Scalar) := by
    funext i
    rw [MerkleTree.padded, hrepresents.leaves, getD_map_word, cast_word]
  rw [hleaves] at hcast
  have hpairs := hasked.pairsIn k hk
  rw [hlevels] at hpairs
  exact ⟨k, hk, fun i hi => MerkleTree.leaf_eq_of_root_eq P.hashPair_injOn hclient hpairs hcast hi⟩

theorem leaves_eq_of_agree {leaves : List ℤ} {log : List ℕ} (hleaves : ∀ c ∈ leaves, 0 < c ∧ c < modulus)
    (hlog : ∀ c ∈ log, c ≠ 0 ∧ c < modulus) {bound : ℕ} (hlength : leaves.length ≤ bound) (hlength' : log.length ≤ bound)
    (hagree : ∀ i < bound, ((leaves.getD i 0 : ℤ) : Scalar) = fieldLeaf log i) : leaves = clientLeaves log := by
  have hword : ∀ c ∈ leaves, (word c : ℤ) = c := fun c hc => word_of_canonical (hleaves c hc).1 (hleaves c hc).2
  have hval : ∀ c ∈ log, ((c : Scalar)).val = c := fun c hc => ZMod.val_natCast_of_lt (hlog c hc).2
  have hscalars : leaves.map (Int.cast : ℤ → Scalar) = log.map (Nat.cast : ℕ → Scalar) := by
    have hbound : (leaves.map (Int.cast : ℤ → Scalar)).length ≤ bound := by rwa [List.length_map]
    have hbound' : (log.map (Nat.cast : ℕ → Scalar)).length ≤ bound := by rwa [List.length_map]
    refine MerkleTree.eq_of_padded_eq (0 : Scalar) ?_ ?_ hbound hbound' ?_
    · intro x hx hzero
      obtain ⟨c, hc, rfl⟩ := List.mem_map.mp hx
      have hc' := hword c hc
      rw [word, hzero, ZMod.val_zero] at hc'
      exact (hleaves c hc).1.ne hc'
    · intro x hx hzero
      obtain ⟨c, hc, rfl⟩ := List.mem_map.mp hx
      have hc' := hval c hc
      rw [hzero, ZMod.val_zero] at hc'
      exact (hlog c hc).1 hc'.symm
    · intro i hi
      have hints := List.getD_map (l := leaves) (d := 0) (n := i) (Int.cast : ℤ → Scalar)
      have hnats := List.getD_map (l := log) (d := 0) (n := i) (Nat.cast : ℕ → Scalar)
      rw [Int.cast_zero] at hints
      rw [Nat.cast_zero] at hnats
      rw [MerkleTree.padded, MerkleTree.padded, hints, hnats]
      exact hagree i hi
  calc leaves = (leaves.map (Int.cast : ℤ → Scalar)).map fun x => (x.val : ℤ) := by
        rw [List.map_map]
        exact ((List.map_congr_left fun c hc => hword c hc).trans (List.map_id _)).symm
    _ = (log.map (Nat.cast : ℕ → Scalar)).map fun x => (x.val : ℤ) := by rw [hscalars]
    _ = clientLeaves log := by
        rw [List.map_map]
        exact List.map_congr_left fun c hc => congrArg Nat.cast (hval c hc)

/-- A copy of the first leaves follows any later log, if its events started early enough. -/
theorem follow_log (hzeros : P.ZeroTable zeros) {built : BigintTree × LeafIndex} (hstanding : Standing P built)
    {log : List ℕ} {n subscribed : ℕ} (hn : n ≤ log.length) (hleaves : built.1.leaves = clientLeaves (log.take n))
    (hsubscribed : subscribed ≤ n) {later : List ℕ} (hroom : (log ++ later).length ≤ 2 ^ commitTreeDepth) :
    Standing P (follow P built subscribed (log ++ later)) ∧
      (follow P built subscribed (log ++ later)).1.leaves = clientLeaves (log ++ later) := by
  have hlength : built.1.leaves.length = n := by
    rw [hleaves, clientLeaves, List.length_map, List.length_take, min_eq_left hn]
  rw [List.length_append] at hroom
  have hdrop : ((log ++ later).drop subscribed).length = log.length + later.length - subscribed := by
    rw [List.length_drop, List.length_append]
  obtain ⟨hstanding', hleaves'⟩ := insertions_appended hzeros ((log ++ later).drop subscribed) hstanding
    (hlength ▸ hsubscribed) (by omega) (by omega)
  refine ⟨hstanding', hleaves'.trans ?_⟩
  have htake : (log ++ later).take n = log.take n := List.take_append_of_le_length hn
  rw [hlength, hleaves, List.drop_drop, Nat.add_sub_cancel' hsubscribed, ← htake, clientLeaves, clientLeaves,
    ← List.map_append, List.take_append_drop]

variable {D : Deployment} {w : World}

/-- **When a known root can be trusted**: exactly when the rows are nonzero field elements, as long as the live events start no later than the rows end. -/
theorem mirrors_iff (hzeros : D.poseidon.ZeroTable zeros) (hdeployed : Deployed D w)
    (hlevels : w.pool.tree.levels = commitTreeDepth) {calls : List Call}
    (hfield : ∀ call ∈ calls, ∀ c ∈ call.commitments, c < modulus) {pool : CommitmentPool}
    (hpool : pool = (w.after D calls).pool) (hasked : pool.TreesAsked D.poseidon)
    {isKnownPoolRoot : ℤ → Except String Bool}
    (hnode : ∀ root known, isKnownPoolRoot root = .ok known → known = pool.tree.isKnownRoot root.toNat)
    {read : Option ℕ} {rows : List CommitmentInsertedRow} {built : BigintTree × LeafIndex}
    (hbuilt : buildVerified D.poseidon isKnownPoolRoot read (.ok rows) = .ok (some built))
    (hclient : MerkleTree.PairsIn D.poseidon.hashPair D.poseidon.askedPairs
      (fun i => (((rows.map (·.commitment)).getD i 0 : ℤ) : Scalar)) commitTreeDepth 0)
    {subscribed : ℕ} (hsubscribed : subscribed ≤ pool.committed.length) :
    Mirrors D.poseidon pool.committed (read.getD 0) subscribed built ↔
      (∀ row ∈ rows, 0 < row.commitment ∧ row.commitment < modulus) ∧ subscribed ≤ rows.length := by
  have htable := zeroTable_of_sdk hzeros
  have htracks := hdeployed.tracks htable calls
  have hgrows := CommitmentPool.grows_after htable w calls
  have hlog : pool.CanonicalLog := hpool ▸ hdeployed.canonicalLog hfield
  rw [← hpool] at htracks hgrows
  have hdepth : pool.tree.levels = commitTreeDepth := hgrows.levels.trans hlevels
  have hroom := htracks.length_le
  rw [hdepth] at hroom
  obtain ⟨hreplay, hknown, hcount⟩ := buildVerified_ok hbuilt
  obtain ⟨hstanding, hleaves⟩ := replay_ok hzeros (standing_new hzeros) hreplay
  have hrows : built.1.leaves = rows.map (·.commitment) := hleaves
  have hlength : built.1.leaves.length = rows.length := by rw [hrows, List.length_map]
  constructor
  · rintro ⟨⟨n, hn, -, htake⟩, -, hlive⟩
    refine ⟨fun row hrow => ?_, ?_⟩
    · have hmem : row.commitment ∈ built.1.leaves := by
        rw [hrows]
        exact List.mem_map_of_mem hrow
      rw [htake, clientLeaves] at hmem
      obtain ⟨c, hc, heq⟩ := List.mem_map.mp hmem
      obtain ⟨hne, hlt⟩ := hlog c (List.mem_of_mem_take hc)
      rw [← heq]
      exact ⟨by exact_mod_cast Nat.pos_of_ne_zero hne, by exact_mod_cast hlt⟩
    · by_contra hgap
      obtain ⟨hfollow, -⟩ := hlive [] (by rwa [List.append_nil])
      rw [List.append_nil, follow, insertions_skipped (by omega)] at hfollow
      have hall := congrArg List.length hfollow
      rw [hlength, clientLeaves, List.length_map] at hall
      omega
  · rintro ⟨hcanonical, hearly⟩
    obtain ⟨hfits, k, hk, hagree⟩ := hstanding.leaves_agree htracks hdepth hasked (hrows ▸ hclient)
      (hnode _ _ hknown).symm
    have hmembers : ∀ c ∈ built.1.leaves, 0 < c ∧ c < (modulus : ℤ) := by
      intro c hc
      rw [hrows] at hc
      obtain ⟨row, hrow, rfl⟩ := List.mem_map.mp hc
      exact hcanonical row hrow
    have hleading : built.1.leaves = clientLeaves (pool.committed.take k) :=
      leaves_eq_of_agree hmembers (fun c hc => hlog c (List.mem_of_mem_take hc)) hfits
        ((List.length_take_le _ _).trans (hk.trans hroom)) hagree
    have hsame : rows.length = k := by
      rw [← hlength, hleading, clientLeaves, List.length_map, List.length_take, min_eq_left hk]
    refine ⟨⟨k, hk, by omega, hleading⟩, hstanding.index, fun later hlater => ?_⟩
    obtain ⟨hstanding', hfollow⟩ := follow_log hzeros hstanding hk hleading (hsame ▸ hearly) hlater
    exact ⟨hfollow, hfollow ▸ hstanding'.index⟩

/-! ### A row too many -/

theorem tradePoseidon_sdkZeros : tradePoseidon.ZeroTable zeros := by
  have hrows : ∀ i < 20, tradePoseidon.hashWords (zeros.getD i 0) (zeros.getD i 0) = zeros.getD (i + 1) 0 := by
    decide +kernel
  have hlength : zeros.length = 21 := rfl
  exact fun i hi => hrows i (by omega)

theorem exists_of_join_isSome {ε β : Type} {x : Except ε (Option β)} (hsome : x.toOption.join.isSome = true) :
    ∃ b, x = .ok (some b) := by
  cases x with
  | error e => cases hsome
  | ok accepted =>
    obtain ⟨b, rfl⟩ := Option.isSome_iff_exists.mp hsome
    exact ⟨b, rfl⟩

/-- The pool with the maker's deposit, as a node reports it. -/
def depositedPool : CommitmentPool := (tradeWorld.after tradeDeployment tradeSetup).pool

def reportRoot (root : ℤ) : Except String Bool := .ok (depositedPool.tree.isKnownRoot root.toNat)

theorem depositedPool_committed : depositedPool.committed = [makerOrder.deposited] := by decide +kernel

/-- A server appends a zero to the one leaf there is. -/
def paddedRows : List CommitmentInsertedRow := [⟨makerOrder.deposited, 0⟩, ⟨0, 1⟩]

/-- The client accepts the rows, holds two leaves where the pool has one, and skips the next deposit. -/
theorem paddedRows_accepted :
    ∃ built, buildVerified tradePoseidon reportRoot (some 1) (fetchCommitmentLeaves 5000 [.page paddedRows] 0 []) =
        .ok (some built) ∧
      built.1.leaves = [(makerOrder.deposited : ℤ), 0] ∧
      (follow tradePoseidon built 1 (depositedPool.committed ++ [takerOrder.deposited])).1.leaves = built.1.leaves ∧
      ¬Mirrors tradePoseidon depositedPool.committed 1 1 built := by
  rw [fetchCommitmentLeaves_page (show paddedRows.length < 5000 by decide)]
  have haccepted : ∃ built, buildVerified tradePoseidon reportRoot (some 1) (.ok paddedRows) = .ok (some built) :=
    exists_of_join_isSome (by decide +kernel)
  obtain ⟨built, hbuilt⟩ := haccepted
  obtain ⟨hreplay, -, -⟩ := buildVerified_ok hbuilt
  obtain ⟨-, hleaves⟩ := replay_ok tradePoseidon_sdkZeros (standing_new tradePoseidon_sdkZeros) hreplay
  have hrows : built.1.leaves = [(makerOrder.deposited : ℤ), 0] := hleaves
  have hstuck : follow tradePoseidon built 1 (depositedPool.committed ++ [takerOrder.deposited]) = built := by
    rw [depositedPool_committed, follow]
    change onInserted tradePoseidon built ⟨takerOrder.deposited, 1⟩ = built
    rw [onInserted, hrows]
    exact if_pos (by decide)
  refine ⟨built, hbuilt, hrows, by rw [hstuck], fun hmirrors => ?_⟩
  obtain ⟨n, -, -, htake⟩ := hmirrors.leaves
  have hlength := congrArg List.length htake
  rw [hrows, clientLeaves, List.length_map, List.length_take, depositedPool_committed] at hlength
  simp only [List.length_cons, List.length_nil] at hlength
  omega

/-- The rows the pool announced. -/
def honestRows : List CommitmentInsertedRow := [⟨makerOrder.deposited, 0⟩]

theorem depositedPool_treesAsked : depositedPool.TreesAsked tradePoseidon :=
  treesAsked_trade depositedPool_committed (by decide +kernel) (by decide +kernel)

theorem honestRows_asked : MerkleTree.PairsIn tradePoseidon.hashPair tradePoseidon.askedPairs
    (fun i => (((honestRows.map (·.commitment)).getD i 0 : ℤ) : Scalar)) commitTreeDepth 0 := by
  have hpairs := depositedPool_treesAsked.pairsIn 1 (by rw [depositedPool_committed]; exact le_rfl)
  have hlevels : depositedPool.tree.levels = commitTreeDepth := by decide +kernel
  rw [depositedPool_committed, hlevels] at hpairs
  have hleaves : (fun i => (((honestRows.map (·.commitment)).getD i 0 : ℤ) : Scalar)) =
      fieldLeaf [makerOrder.deposited] := by
    funext i
    rw [fieldLeaf, MerkleTree.padded]
    cases i with
    | zero => exact Int.cast_natCast makerOrder.deposited
    | succ i => simp [honestRows]
  rwa [hleaves]

theorem mirrors_honestRows :
    ∃ built, buildVerified tradePoseidon reportRoot (some 1) (.ok honestRows) = .ok (some built) ∧
      (Mirrors tradePoseidon depositedPool.committed 1 1 built ↔
        (∀ row ∈ honestRows, 0 < row.commitment ∧ row.commitment < modulus) ∧ 1 ≤ honestRows.length) := by
  have haccepted : ∃ built, buildVerified tradePoseidon reportRoot (some 1) (.ok honestRows) = .ok (some built) :=
    exists_of_join_isSome (by decide +kernel)
  obtain ⟨built, hbuilt⟩ := haccepted
  have hfield : ∀ call ∈ tradeSetup, ∀ c ∈ call.commitments, c < modulus := by decide +kernel
  have hreported : ∀ root known, reportRoot root = .ok known → known = depositedPool.tree.isKnownRoot root.toNat :=
    fun _ _ hreport => (Except.ok.inj hreport).symm
  have hsubscribed : 1 ≤ depositedPool.committed.length := by rw [depositedPool_committed, List.length_singleton]
  have hpool : depositedPool = (tradeWorld.after tradeDeployment tradeSetup).pool := rfl
  exact ⟨built, hbuilt, mirrors_iff tradePoseidon_sdkZeros tradeWorld_deployed rfl hfield hpool
    depositedPool_treesAsked hreported hbuilt honestRows_asked hsubscribed⟩

end Sdk

end ScatterDex
