import ScatterDex.Sdk.MerkleTree
import ScatterDex.Library.Transactions

/-!
# One tree, several calls

`insert` awaits the hash at every level, and `proof` awaits the hash module before its loop. Calls on one object interleave at these awaits and nowhere else. A call that waits is known by what its continuation reads.
-/

namespace ScatterDex

open Fallible

namespace Sdk

/-- An `insert` that awaits the hash of two nodes at level `i`. -/
structure Insertion where
  i : ℕ
  currentIndex : ℕ
  left : ℕ
  right : ℕ

/-- The object, with the calls under way and what the finished ones returned. -/
structure LiveTree where
  tree : IncrementalMerkleTree
  insertions : List Insertion
  inserted : List ℕ
  proving : List ℕ
  proofs : List (ℕ × MerkleProof)

variable (P : Poseidon)

/-- The leaf enters the array before the first await. -/
def IncrementalMerkleTree.push (t : IncrementalMerkleTree) (leaf : ℕ) : IncrementalMerkleTree :=
  { t with leaves := t.leaves ++ [leaf] }

/-- A turn of the loop of `insert`, up to the await. After the last level there is none, and the root is set. -/
def IncrementalMerkleTree.turn (t : IncrementalMerkleTree) (i currentIndex currentHash : ℕ) :
    IncrementalMerkleTree × Option Insertion :=
  if i < t.depth then
    if currentIndex % 2 = 0 then
      ({ t with filledSubtrees := t.filledSubtrees.set i currentHash },
        some { i, currentIndex, left := currentHash, right := zeros.getD i 0 })
    else (t, some { i, currentIndex, left := t.filledSubtrees.getD i 0, right := currentHash })
  else ({ t with root := currentHash }, none)

namespace LiveTree

/-- An object nobody called yet. -/
def start (tree : IncrementalMerkleTree) : LiveTree where
  tree
  insertions := []
  inserted := []
  proving := []
  proofs := []

/-- How many insertions are finished, if they finish in order. -/
def finished (s : LiveTree) : ℕ := s.tree.leaves.length - s.insertions.length

/-- An insertion leaves the loop. It returns the last index, which is its own if nobody inserted since. -/
def settle (s : LiveTree) (tree : IncrementalMerkleTree) : LiveTree :=
  { s with
    tree
    inserted := s.inserted ++ [tree.leaves.length - 1] }

inductive Step
  | insert (leaf : ℕ)
  /-- The hash that an insertion waited for is there. -/
  | resume (k : ℕ)
  | proof (leafIndex : ℤ)
  /-- The hash module that a proof waited for is there, and the loop runs to its end. -/
  | read (k : ℕ)

def run : Step → LiveTree → Except String LiveTree
  | .insert leaf, s => do
    require (¬s.tree.leaves.length ≥ 2 ^ s.tree.depth) "IncrementalMerkleTree: full"
    match (s.tree.push leaf).turn 0 s.tree.leaves.length leaf with
    | (tree, some waiting) => return { s with
        tree
        insertions := s.insertions ++ [waiting] }
    | (tree, none) => return s.settle tree
  | .resume k, s => do
    let p ← orError s.insertions[k]? "no such call"
    match s.tree.turn (p.i + 1) (p.currentIndex / 2) (P.hashWords p.left p.right) with
    | (tree, some waiting) => return { s with
        tree
        insertions := s.insertions.set k waiting }
    | (tree, none) => return { s.settle tree with insertions := s.insertions.eraseIdx k }
  | .proof leafIndex, s => do
    let last : ℤ := s.tree.leaves.length - 1
    require (¬(leafIndex < 0 ∨ leafIndex ≥ s.tree.leaves.length))
      s!"IncrementalMerkleTree.proof: leafIndex {leafIndex} out of range (0..{last})"
    return { s with proving := s.proving ++ [leafIndex.toNat] }
  | .read k, s => do
    let leafIndex ← orError s.proving[k]? "no such call"
    let (pathElements, pathIndices) := IncrementalMerkleTree.proofLoop P s.tree.depth 0 s.tree.leaves leafIndex
    return { s with
      proving := s.proving.eraseIdx k
      proofs := s.proofs ++ [(leafIndex, { root := s.tree.root, pathElements, pathIndices })] }

end LiveTree

end Sdk

end ScatterDex
