import ScatterDex.Sdk.Authorize

/-!
# The client's copy of the commitment tree

`commitmentTree.tsx` rebuilds the pool's tree from rows a server or a node returned, checks the root against the chain and then follows the live events. A row of a server holds any `bigint`, so the class of `incrementalTree.ts` appears here on integers; on representatives it is the tree of `Sdk/MerkleTree`.
-/

namespace ScatterDex

open Bn254 Fallible

namespace Sdk

variable (P : Poseidon)

/-- `poseidonHash` of two integers, which are reduced into the field. -/
def hashBigints (left right : ℤ) : ℤ := (P.hash [(left : Scalar), (right : Scalar)]).val

/-- The class `IncrementalMerkleTree` with leaves of either sign. -/
structure BigintTree where
  depth : ℕ
  filledSubtrees : List ℤ
  leaves : List ℤ
  root : ℤ

namespace BigintTree

/-- The constructor, at a depth the table covers. -/
def new (depth : ℕ) : BigintTree where
  depth
  filledSubtrees := (zeros.take depth).map fun value : ℕ => (value : ℤ)
  leaves := []
  root := (zeros.getD depth 0 : ℕ)

/-- The loop of `insert`, from level `i` with the running index and hash. -/
def insertLoop : ℕ → ℕ → ℕ → ℤ → List ℤ → List ℤ × ℤ
  | 0, _, _, currentHash, filledSubtrees => (filledSubtrees, currentHash)
  | remaining + 1, i, currentIndex, currentHash, filledSubtrees =>
    let (left, right) :=
      if currentIndex % 2 = 0 then (currentHash, (zeros.getD i 0 : ℤ))
      else (filledSubtrees.getD i 0, currentHash)
    let filledSubtrees :=
      if currentIndex % 2 = 0 then filledSubtrees.set i currentHash else filledSubtrees
    insertLoop remaining (i + 1) (currentIndex / 2) (hashBigints P left right) filledSubtrees

/-- `insert`: the tree with the leaf, and the index the leaf got. -/
def insert (t : BigintTree) (leaf : ℤ) : Except String (BigintTree × ℕ) := do
  require (¬t.leaves.length ≥ 2 ^ t.depth) "IncrementalMerkleTree: full"
  let (filledSubtrees, root) := insertLoop P t.depth 0 t.leaves.length leaf t.filledSubtrees
  return ({ t with
    filledSubtrees
    leaves := t.leaves ++ [leaf]
    root }, t.leaves.length)

end BigintTree

/-! ### Loading the rows -/

structure CommitmentInsertedRow where
  commitment : ℤ
  leafIndex : ℤ

/-- What the server replies to the request for a page. -/
inductive LeafReply
  | status (code : ℕ)
  | malformed
  | page (rows : List CommitmentInsertedRow)

/-- `fetchCommitmentLeaves`, on the replies of the server: pages until a short one, each starting behind the one before. A server that stops replying fails the request. -/
def fetchCommitmentLeaves (pageSize : ℕ) :
    List LeafReply → ℤ → List CommitmentInsertedRow → Except String (List CommitmentInsertedRow)
  | [], _, _ => .error "fetch failed"
  | .status code :: _, _, _ => .error s!"commitments endpoint returned {code}"
  | .malformed :: _, _, _ => .error "commitments endpoint: malformed payload"
  | .page page :: replies, fromLeaf, rows =>
    let rows := rows ++ page
    if page.length < pageSize then .ok rows
    else
      match rows.getLast? with
      | none => .error "rows is empty"
      | some last =>
        let next := last.leafIndex + 1
        if next ≤ fromLeaf then
          .error s!"commitments endpoint: leafIndex did not advance past {fromLeaf} (non-progressing server)"
        else fetchCommitmentLeaves pageSize replies next rows

/-! ### Building and checking -/

/-- The map from a commitment, as a decimal string, to its index. -/
abbrev LeafIndex := ℤ → Option ℕ

/-- The loop of `buildVerified` over the rows. -/
def replay : BigintTree × LeafIndex → List CommitmentInsertedRow → Except String (BigintTree × LeafIndex)
  | built, [] => .ok built
  | (t, idx), row :: rows => do
    let (t, i) ← t.insert P row.commitment
    require ((i : ℤ) = row.leafIndex)
      s!"[commitmentTree] hydrate mismatch at idx {row.leafIndex}: insert returned {i}. Source returned an incomplete/out-of-order leaf set."
    replay (t, Function.update idx row.commitment (some i)) rows

/-- `buildVerified`: the tree of the rows, if the chain knows its root and it is not shorter than the chain's. A count that could not be read is taken for zero. -/
def buildVerified (isKnownPoolRoot : ℤ → Except String Bool) (poolNextIndex : Option ℕ)
    (loadRows : Except String (List CommitmentInsertedRow)) : Except String (Option (BigintTree × LeafIndex)) := do
  let rows ← loadRows
  let (t, idx) ← replay P (BigintTree.new commitTreeDepth, fun _ => none) rows
  let known ← isKnownPoolRoot t.root
  return if known = true ∧ t.leaves.length ≥ poolNextIndex.getD 0 then some (t, idx) else none

/-! ### Following the chain -/

/-- The handler of `subscribeCommitmentInserted`. An event out of order is skipped, and so is one whose insertion throws. -/
def onInserted (built : BigintTree × LeafIndex) (row : CommitmentInsertedRow) : BigintTree × LeafIndex :=
  if row.leafIndex ≠ built.1.leaves.length then built
  else
    match built.1.insert P row.commitment with
    | .ok (t, idx) => (t, Function.update built.2 row.commitment (some idx))
    | .error _ => built

/-! ### Representatives -/

/-- The field element an integer stands for, as a number. -/
def word (x : ℤ) : ℕ := (x : Scalar).val

@[simp] theorem cast_word (x : ℤ) : (word x : Scalar) = (x : Scalar) := ZMod.natCast_zmod_val _

theorem word_natCast {n : ℕ} (hn : n < modulus) : word (n : ℤ) = n := by
  rw [word, Int.cast_natCast, ZMod.val_natCast_of_lt hn]

theorem word_zero : word 0 = 0 := word_natCast (by decide)

variable {P}

theorem hashWords_word (left right : ℤ) : (P.hashWords (word left) (word right) : ℤ) = hashBigints P left right := by
  rw [Poseidon.hashWords, cast_word, cast_word, hashBigints]

theorem word_hashBigints (left right : ℤ) : word (hashBigints P left right) = P.hashWords (word left) (word right) := by
  rw [← hashWords_word, word_natCast (P.hashWords_lt _ _)]

theorem zeros_lt : ∀ value ∈ zeros, value < modulus := by decide +kernel

theorem word_zeros (i : ℕ) : word (zeros.getD i 0 : ℕ) = zeros.getD i 0 := by
  apply word_natCast
  rcases Nat.lt_or_ge i zeros.length with hi | hi
  · rw [List.getD_eq_getElem _ _ hi]
    exact zeros_lt _ (List.getElem_mem _)
  · rw [List.getD_eq_default _ _ hi]
    decide

theorem getD_map_word (xs : List ℤ) (i : ℕ) : (xs.map word).getD i 0 = word (xs.getD i 0) := by
  rw [← word_zero, List.getD_map]

namespace BigintTree

/-- A tree on integers, and the tree of their representatives. -/
structure Represents (t : BigintTree) (s : IncrementalMerkleTree) : Prop where
  depth : s.depth = t.depth
  filledSubtrees : s.filledSubtrees = t.filledSubtrees.map word
  leaves : s.leaves = t.leaves.map word

theorem insertLoop_word (remaining i currentIndex : ℕ) (currentHash : ℤ) (filled : List ℤ) :
    IncrementalMerkleTree.insertLoop P remaining i currentIndex (word currentHash) (filled.map word) =
      ((insertLoop P remaining i currentIndex currentHash filled).1.map word,
        word (insertLoop P remaining i currentIndex currentHash filled).2) := by
  induction remaining generalizing i currentIndex currentHash filled with
  | zero => rfl
  | succ remaining ih =>
    rw [IncrementalMerkleTree.insertLoop, insertLoop]
    by_cases heven : currentIndex % 2 = 0
    · simp only [heven, if_true]
      rw [← ih, List.map_set, word_hashBigints, word_zeros]
    · simp only [heven, if_false]
      rw [← ih, getD_map_word, word_hashBigints]

theorem insertLoop_root {remaining : ℕ} (hpos : 0 < remaining) (i currentIndex : ℕ) (currentHash : ℤ) (filled : List ℤ) :
    (word (insertLoop P remaining i currentIndex currentHash filled).2 : ℤ) =
      (insertLoop P remaining i currentIndex currentHash filled).2 := by
  induction remaining generalizing i currentIndex currentHash filled with
  | zero => exact absurd hpos (lt_irrefl 0)
  | succ remaining ih =>
    rw [insertLoop]
    rcases Nat.eq_zero_or_pos remaining with rfl | hpos
    · simp only [insertLoop]
      rw [word_hashBigints, hashWords_word]
    · exact ih hpos _ _ _ _

theorem new_represents {depth : ℕ} (hdepth : depth ≤ 20) :
    ∃ s, IncrementalMerkleTree.new depth = .ok s ∧ Represents (new depth) s ∧ ((new depth).root = s.root) := by
  have htable : zeros.length = 21 := rfl
  have hwords : ((zeros.take depth).map fun value : ℕ => (value : ℤ)).map word = zeros.take depth := by
    rw [List.map_map]
    apply (List.map_congr_left _).trans (List.map_id _)
    exact fun value hvalue => word_natCast (zeros_lt value (List.mem_of_mem_take hvalue))
  simp only [IncrementalMerkleTree.new, bind_eq_ok, require_eq_ok, pure_eq_ok]
  exact ⟨_, ⟨(), by omega, rfl⟩, ⟨rfl, hwords.symm, rfl⟩, rfl⟩

theorem insert_represents {t t' : BigintTree} {s : IncrementalMerkleTree} {leaf : ℤ} {index : ℕ}
    (ht : Represents t s) (hpos : 0 < t.depth) (hinsert : t.insert P leaf = .ok (t', index)) :
    ∃ s', s.insert P (word leaf) = .ok (s', index) ∧ Represents t' s' ∧ t'.root = s'.root ∧
      t'.leaves = t.leaves ++ [leaf] ∧ index = t.leaves.length ∧ t'.depth = t.depth := by
  simp only [insert, bind_eq_ok, require_eq_ok, pure_eq_ok, Prod.mk.injEq] at hinsert
  obtain ⟨-, hroom, rfl, rfl⟩ := hinsert
  have hlength : s.leaves.length = t.leaves.length := by rw [ht.leaves, List.length_map]
  have hloop := insertLoop_word (P := P) t.depth 0 t.leaves.length leaf t.filledSubtrees
  have hroot := insertLoop_root (P := P) hpos 0 t.leaves.length leaf t.filledSubtrees
  simp only [IncrementalMerkleTree.insert, bind_eq_ok, require_eq_ok, pure_eq_ok, hlength, ht.depth, ht.filledSubtrees,
    hloop]
  refine ⟨_, ⟨(), hroom, rfl⟩, ⟨rfl, rfl, ?_⟩, hroot.symm, trivial, trivial, trivial⟩
  simp [ht.leaves]

end BigintTree

end Sdk

end ScatterDex
