import ScatterDex.Library.Fallible
import ScatterDex.Poseidon

/-!
# The relayer's sparse Merkle tree

The tree of `zk-prover.ts` keeps only the non-empty prefix of each layer and reads every other node from the table of empty subtrees, which it hashes itself and caches. It builds from a leaf list of any length; the layers are the levels of the padded tree, and the last one starts with its root.
-/

namespace ScatterDex

open Bn254 Fallible

namespace Relayer

variable (P : Poseidon)

/-- The table `getZeroHashes` computes. -/
def zeroHashes : ℕ → List ℕ
  | 0 => [0]
  | i + 1 =>
    let zeros := zeroHashes i
    zeros ++ [P.hashWords (zeros.getD i 0) (zeros.getD i 0)]

/-- The module-level cache of the table. Only `getZeroHashes` writes it. -/
structure ZeroHashCache where
  depth : ℕ
  zeros : List ℕ
  zeros_eq : zeros = zeroHashes P depth

/-- `getZeroHashes`, with the cache before and after. -/
def getZeroHashes (cache : Option (ZeroHashCache P)) (depth : ℕ) : List ℕ × Option (ZeroHashCache P) :=
  match cache with
  | some cached =>
    if cached.depth ≥ depth then (cached.zeros, some cached)
    else (zeroHashes P depth, some ⟨depth, zeroHashes P depth, rfl⟩)
  | none => (zeroHashes P depth, some ⟨depth, zeroHashes P depth, rfl⟩)

/-- A tree with the non-empty prefixes of its layers. The root of an empty depth-0 tree is `undefined`. -/
structure SparseMerkleTree where
  root : Option ℕ
  layers : List (List ℕ)
  zeroHashes : List ℕ
  depth : ℕ

/-- The level loop of `buildMerkleTree`, leaving early when the layer is empty. -/
def buildLoop (zeros : List ℕ) : ℕ → ℕ → List (List ℕ) → List ℕ → List (List ℕ) × List ℕ
  | 0, _, layers, current => (layers, current)
  | remaining + 1, d, layers, current =>
    if current.length = 0 then
      let layers := layers ++ (List.range' d (remaining + 1)).map fun dd => [zeros.getD (dd + 1) 0]
      (layers, layers.getD (layers.length - 1) [])
    else
      let next := MerkleTree.pairUp P.hashWords (zeros.getD d 0) current
      buildLoop zeros remaining (d + 1) (layers ++ [next]) next

/-- `buildMerkleTree` of `zk-prover.ts`. It throws on no input. -/
def buildMerkleTree (cache : Option (ZeroHashCache P)) (leaves : List ℕ) (depth : ℕ) :
    Except String (SparseMerkleTree × Option (ZeroHashCache P)) :=
  let (zeros, cache) := getZeroHashes P cache depth
  let (layers, current) := buildLoop P zeros depth 0 [leaves] leaves
  .ok ({ root := current[0]?, layers, zeroHashes := zeros, depth }, cache)

/-- The loop of `getMerkleProof`. -/
def proofLoop (tree : SparseMerkleTree) : ℕ → ℕ → ℕ → List ℕ × List ℕ
  | 0, _, _ => ([], [])
  | remaining + 1, i, index =>
    let isRight := index % 2
    let siblingIndex := if isRight ≠ 0 then index - 1 else index + 1
    let sibling := ((tree.layers.getD i [])[siblingIndex]?).getD (tree.zeroHashes.getD i 0)
    let (pathElements, pathIndices) := proofLoop tree remaining (i + 1) (index / 2)
    (sibling :: pathElements, isRight :: pathIndices)

/-- `getMerkleProof` of `zk-prover.ts`. -/
def getMerkleProof (tree : SparseMerkleTree) (leafIndex : ℕ) : List ℕ × List ℕ :=
  proofLoop tree (tree.layers.length - 1) 0 leafIndex

variable {P}

theorem zeroHashes_spec (depth : ℕ) : (zeroHashes P depth).length = depth + 1 ∧
    ∀ i ≤ depth, (zeroHashes P depth).getD i 0 = MerkleTree.emptyRoot P.hashWords 0 i := by
  induction depth with
  | zero =>
    refine ⟨rfl, fun i hi => ?_⟩
    obtain rfl := Nat.le_zero.mp hi
    rfl
  | succ depth ih =>
    obtain ⟨hlength, hvalues⟩ := ih
    refine ⟨by rw [zeroHashes, List.length_append, hlength, List.length_singleton], fun i hi => ?_⟩
    rw [zeroHashes]
    rcases Nat.le_succ_iff.mp hi with hi | rfl
    · rw [List.getD_append _ _ _ _ (by omega)]
      exact hvalues i hi
    · rw [List.getD_append_right _ _ _ _ (by omega), hlength, Nat.sub_self, hvalues depth le_rfl]
      rfl

/-- The table is right whatever was cached. -/
theorem getZeroHashes_getD (cache : Option (ZeroHashCache P)) {depth i : ℕ} (hi : i ≤ depth) :
    (getZeroHashes P cache depth).1.getD i 0 = MerkleTree.emptyRoot P.hashWords 0 i := by
  rcases cache with _ | cached
  · exact (zeroHashes_spec depth).2 i hi
  · rw [getZeroHashes]
    split
    · rw [cached.zeros_eq]
      exact (zeroHashes_spec cached.depth).2 i (by omega)
    · exact (zeroHashes_spec depth).2 i hi

theorem isLayer_nil_add {leaf : ℕ → ℕ} {level : ℕ} (hlayer : MerkleTree.IsLayer P.hashWords 0 leaf level [])
    (k : ℕ) : MerkleTree.IsLayer P.hashWords 0 leaf (level + k) [] := by
  induction k with
  | zero => exact hlayer
  | succ k ih => exact ih.pairUp

/-- What the level loop has built: the layers below are levels of the tree, and from level one on the current layer is not empty. -/
structure Built (P : Poseidon) (leaf : ℕ → ℕ) (level : ℕ) (layers : List (List ℕ)) (current : List ℕ) : Prop where
  length_layers : layers.length = level + 1
  isLayer : ∀ i ≤ level, MerkleTree.IsLayer P.hashWords 0 leaf i (layers.getD i [])
  current_eq : current = layers.getD level []

theorem Built.append {leaf : ℕ → ℕ} {level : ℕ} {layers : List (List ℕ)} {current next : List ℕ}
    (hbuilt : Built P leaf level layers current)
    (hnext : MerkleTree.IsLayer P.hashWords 0 leaf (level + 1) next) :
    Built P leaf (level + 1) (layers ++ [next]) next := by
  have hlength := hbuilt.length_layers
  have hlast : (layers ++ [next]).getD (level + 1) [] = next := by
    rw [List.getD_append_right _ _ _ _ (by omega), hlength, Nat.sub_self]
    rfl
  refine ⟨by rw [List.length_append, hlength, List.length_singleton], fun i hi => ?_, hlast.symm⟩
  rcases Nat.le_succ_iff.mp hi with hi | rfl
  · rw [List.getD_append _ _ _ _ (by omega)]
    exact hbuilt.isLayer i hi
  · rwa [hlast]

theorem Built.fill {leaf : ℕ → ℕ} {zeros : List ℕ} (remaining : ℕ) {level : ℕ} {layers : List (List ℕ)}
    {current : List ℕ} (hbuilt : Built P leaf level layers current)
    (hempty : MerkleTree.IsLayer P.hashWords 0 leaf level [])
    (hzeros : ∀ i ≤ level + remaining, zeros.getD i 0 = MerkleTree.emptyRoot P.hashWords 0 i) :
    ∃ current', Built P leaf (level + remaining)
      (layers ++ (List.range' level remaining).map fun dd => [zeros.getD (dd + 1) 0]) current' := by
  induction remaining generalizing level layers current with
  | zero => exact ⟨current, by simpa using hbuilt⟩
  | succ remaining ih =>
    have hnext : MerkleTree.IsLayer P.hashWords 0 leaf (level + 1) [zeros.getD (level + 1) 0] := by
      intro index
      rw [hzeros (level + 1) (by omega), ← isLayer_nil_add hempty 1 index]
      cases index <;> rfl
    obtain ⟨current', hbuilt'⟩ := ih (hbuilt.append hnext) (isLayer_nil_add hempty 1)
      fun i hi => hzeros i (by omega)
    refine ⟨current', ?_⟩
    rw [List.range'_succ, List.map_cons, List.append_cons]
    rwa [Nat.add_right_comm, Nat.add_assoc] at hbuilt'

theorem buildLoop_spec {leaf : ℕ → ℕ} {zeros : List ℕ} (remaining : ℕ) {level : ℕ}
    {layers : List (List ℕ)} {current : List ℕ} (hbuilt : Built P leaf level layers current)
    (hne : current ≠ [] ∨ 0 < remaining)
    (hzeros : ∀ i ≤ level + remaining, zeros.getD i 0 = MerkleTree.emptyRoot P.hashWords 0 i) :
    Built P leaf (level + remaining) (buildLoop P zeros remaining level layers current).1
        (buildLoop P zeros remaining level layers current).2 ∧
      (buildLoop P zeros remaining level layers current).2 ≠ [] := by
  induction remaining generalizing level layers current with
  | zero => exact ⟨hbuilt, hne.resolve_right (lt_irrefl 0)⟩
  | succ remaining ih =>
    have hcurrent : MerkleTree.IsLayer P.hashWords 0 leaf level current := by
      rw [hbuilt.current_eq]
      exact hbuilt.isLayer level le_rfl
    rw [buildLoop]
    by_cases hempty : current.length = 0
    · rw [if_pos hempty]
      dsimp only
      rw [List.eq_nil_of_length_eq_zero hempty] at hcurrent
      obtain ⟨current', hbuilt'⟩ := hbuilt.fill (remaining + 1) hcurrent hzeros
      have hlast : layers.length + (remaining + 1) - 1 = level + (remaining + 1) := by
        rw [hbuilt.length_layers]
        omega
      refine ⟨⟨hbuilt'.length_layers, hbuilt'.isLayer, ?_⟩, ?_⟩
      · rw [List.length_append, List.length_map, List.length_range', hlast]
      · rw [List.length_append, List.length_map, List.length_range', hlast,
          List.getD_append_right _ _ _ _ (by rw [hbuilt.length_layers]; omega), hbuilt.length_layers]
        have hindex : level + (remaining + 1) - (level + 1) = remaining := by omega
        rw [hindex, List.getD_eq_getElem _ _ (by simp)]
        simp
    · rw [if_neg hempty]
      have hnext : MerkleTree.IsLayer P.hashWords 0 leaf (level + 1)
          (MerkleTree.pairUp P.hashWords (zeros.getD level 0) current) := by
        rw [hzeros level (by omega)]
        exact hcurrent.pairUp
      have hfull : current ≠ [] := fun hnil => hempty (hnil ▸ rfl)
      have hne' : MerkleTree.pairUp P.hashWords (zeros.getD level 0) current ≠ [] :=
        MerkleTree.pairUp_ne_nil P.hashWords hfull
      have hrest := ih (hbuilt.append hnext) (Or.inl hne') fun i hi => hzeros i (by omega)
      rwa [Nat.add_right_comm, Nat.add_assoc] at hrest

/-- A sparse tree stands for a leaf list: its layers and its table are the tree's, and it has the root. -/
structure Represents (P : Poseidon) (tree : SparseMerkleTree) (depth : ℕ) (leaves : List ℕ) : Prop where
  length_layers : tree.layers.length = depth + 1
  isLayer : ∀ i ≤ depth, MerkleTree.IsLayer P.hashWords 0 (MerkleTree.padded 0 leaves) i (tree.layers.getD i [])
  zeros : ∀ i ≤ depth, tree.zeroHashes.getD i 0 = MerkleTree.emptyRoot P.hashWords 0 i
  root_eq : tree.root = some (MerkleTree.root P.hashWords 0 depth leaves)

/-- **The builder accepts every leaf list** and returns a tree that stands for it. -/
theorem buildMerkleTree_represents (cache : Option (ZeroHashCache P)) (leaves : List ℕ) {depth : ℕ}
    (hpos : 0 < depth) :
    ∃ tree cache', buildMerkleTree P cache leaves depth = .ok (tree, cache') ∧ Represents P tree depth leaves := by
  have hzeros := fun i (hi : i ≤ 0 + depth) =>
    getZeroHashes_getD cache (show i ≤ depth by omega)
  have hstart : Built P (MerkleTree.padded 0 leaves) 0 [leaves] leaves := by
    refine ⟨rfl, fun i hi => ?_, rfl⟩
    obtain rfl := Nat.le_zero.mp hi
    exact MerkleTree.isLayer_padded leaves
  obtain ⟨hbuilt, hne⟩ := buildLoop_spec depth hstart (Or.inr hpos) hzeros
  rw [Nat.zero_add] at hbuilt
  refine ⟨_, _, rfl, hbuilt.length_layers, hbuilt.isLayer, fun i hi => hzeros i (by omega), ?_⟩
  have hlast := hbuilt.isLayer depth le_rfl
  rw [← hbuilt.current_eq] at hlast
  exact hlast.head hne

theorem proofLoop_eq {tree : SparseMerkleTree} {depth : ℕ} {leaves : List ℕ}
    (htree : Represents P tree depth leaves) (index remaining level : ℕ) (hlevel : level + remaining = depth) :
    proofLoop tree remaining level (index / 2 ^ level) =
      ((List.range' level remaining).map
          (MerkleTree.siblings P.hashWords (MerkleTree.padded 0 leaves) index),
        (List.range' level remaining).map fun level => index / 2 ^ level % 2) := by
  induction remaining generalizing level with
  | zero => rfl
  | succ remaining ih =>
    have hhalf : index / 2 ^ level / 2 = index / 2 ^ (level + 1) := by
      rw [Nat.div_div_eq_div_mul, pow_succ]
    have hread : ∀ i, ((tree.layers.getD level [])[i]?).getD (tree.zeroHashes.getD level 0) =
        MerkleTree.node P.hashWords (MerkleTree.padded 0 leaves) level i := by
      intro i
      rw [htree.zeros level (by omega), ← List.getD_eq_getElem?_getD]
      exact htree.isLayer level (by omega) i
    rw [proofLoop, hhalf, ih (level + 1) (by omega), List.range'_succ]
    simp only [List.map_cons, hread, Prod.mk.injEq, List.cons.injEq, and_true]
    rw [MerkleTree.siblings, MerkleTree.siblingIndex]
    congr 1
    rcases Nat.mod_two_eq_zero_or_one (index / 2 ^ level) with hbit | hbit <;> simp [hbit]

theorem getMerkleProof_eq {tree : SparseMerkleTree} {depth : ℕ} {leaves : List ℕ}
    (htree : Represents P tree depth leaves) (index : ℕ) :
    getMerkleProof tree index =
      (MerkleTree.pathElements P.hashWords (MerkleTree.padded 0 leaves) index depth,
        MerkleTree.pathIndices index depth) := by
  have hloop := proofLoop_eq htree index depth 0 (Nat.zero_add _)
  rw [pow_zero, Nat.div_one, ← List.range_eq_range'] at hloop
  rw [getMerkleProof, htree.length_layers, Nat.add_sub_cancel, hloop, MerkleTree.pathElements,
    MerkleTree.pathIndices]

end Relayer

end ScatterDex
