import ScatterDex.Contract.IncrementalMerkleTree

/-!
# The SDK's Merkle trees

The two trees of the SDK. `incrementalTree.ts` mirrors the contract's frontier, keeps the leaves as well and rebuilds the layers for a proof; `merkle.ts` builds every layer of the padded tree. Both are shown to hold the root of the padded tree and to return the path of `Library/MerkleTree`.
-/

namespace ScatterDex

open Bn254 Fallible

namespace Sdk

/-- The table `ZEROS` of `incrementalTree.ts`: the contract's constants and the root of the empty depth-20 tree. -/
def zeros : List ℕ :=
  [0,
    0x2098f5fb9e239eab3ceac3f27b81e481dc3124d55ffed523a839ee8446b64864,
    0x1069673dcdb12263df301a6ff584a7ec261a44cb9dc68df067a4774460b1f1e1,
    0x18f43331537ee2af2e3d758d50f72106467c6eea50371dd528d57eb2b856d238,
    0x07f9d837cb17b0d36320ffe93ba52345f1b728571a568265caac97559dbc952a,
    0x2b94cf5e8746b3f5c9631f4c5df32907a699c58c94b2ad4d7b5cec1639183f55,
    0x2dee93c5a666459646ea7d22cca9e1bcfed71e6951b953611d11dda32ea09d78,
    0x078295e5a22b84e982cf601eb639597b8b0515a88cb5ac7fa8a4aabe3c87349d,
    0x2fa5e5f18f6027a6501bec864564472a616b2e274a41211a444cbe3a99f3cc61,
    0x0e884376d0d8fd21ecb780389e941f66e45e7acce3e228ab3e2156a614fcd747,
    0x1b7201da72494f1e28717ad1a52eb469f95892f957713533de6175e5da190af2,
    0x1f8d8822725e36385200c0b201249819a6e6e1e4650808b5bebc6bface7d7636,
    0x2c5d82f66c914bafb9701589ba8cfcfb6162b0a12acf88a8d0879a0471b5f85a,
    0x14c54148a0940bb820957f5adf3fa1134ef5c4aaa113f4646458f270e0bfbfd0,
    0x190d33b12f986f961e10c0ee44d8b9af11be25588cad89d416118e4bf4ebe80c,
    0x22f98aa9ce704152ac17354914ad73ed1167ae6596af510aa5b3649325e06c92,
    0x2a7c7c9b6ce5880b9f6f228d72bf6a575a526f29c66ecceef8b753d38bba7323,
    0x2e8186e558698ec1c67af9c14d463ffc470043c9c2988b954d75dd643f36b992,
    0x0f57c5571e9a4eab49e2c8cf050dae948aef6ead647392273546249d1c1ff10f,
    0x1830ee67b5fb554ad5f63d4388800e1cfe78e310697d46e43c9ce36134f72cca,
    0x2134e76ac5d21aab186c2be1dd8f84ee880a1e46eaf712f9d371b6df22191f3e]

/-- An inclusion proof with the root it leads to. -/
structure MerkleProof where
  root : ℕ
  pathElements : List ℕ
  pathIndices : List ℕ
  deriving DecidableEq

/-- The object state of the class `IncrementalMerkleTree`. -/
structure IncrementalMerkleTree where
  depth : ℕ
  filledSubtrees : List ℕ
  leaves : List ℕ
  root : ℕ

variable (P : Poseidon)

namespace IncrementalMerkleTree

/-- The constructor. -/
def new (depth : ℕ) : Except String IncrementalMerkleTree := do
  require (¬depth > zeros.length - 1)
    s!"IncrementalMerkleTree: depth {depth} exceeds precomputed zeros (max {zeros.length - 1})"
  return { depth, filledSubtrees := zeros.take depth, leaves := [], root := zeros.getD depth 0 }

/-- The loop of `insert`, from level `i` with the running index and hash. -/
def insertLoop : ℕ → ℕ → ℕ → ℕ → List ℕ → List ℕ × ℕ
  | 0, _, _, currentHash, filledSubtrees => (filledSubtrees, currentHash)
  | remaining + 1, i, currentIndex, currentHash, filledSubtrees =>
    let (left, right) :=
      if currentIndex % 2 = 0 then (currentHash, zeros.getD i 0)
      else (filledSubtrees.getD i 0, currentHash)
    let filledSubtrees :=
      if currentIndex % 2 = 0 then filledSubtrees.set i currentHash else filledSubtrees
    insertLoop remaining (i + 1) (currentIndex / 2) (P.hashWords left right) filledSubtrees

/-- `insert`: the tree with the leaf, and the index the leaf got. -/
def insert (t : IncrementalMerkleTree) (leaf : ℕ) : Except String (IncrementalMerkleTree × ℕ) := do
  require (¬t.leaves.length ≥ 2 ^ t.depth) "IncrementalMerkleTree: full"
  let (filledSubtrees, root) := insertLoop P t.depth 0 t.leaves.length leaf t.filledSubtrees
  return ({ t with filledSubtrees, leaves := t.leaves ++ [leaf], root }, t.leaves.length)

/-- Insert a list of leaves one after another. -/
def insertAll : IncrementalMerkleTree → List ℕ → Except String IncrementalMerkleTree
  | t, [] => .ok t
  | t, leaf :: leaves => do
    let (t, _) ← t.insert P leaf
    t.insertAll leaves

/-- `fromLeaves`. -/
def fromLeaves (leaves : List ℕ) (depth : ℕ) : Except String IncrementalMerkleTree := do
  let tree ← new depth
  tree.insertAll P leaves

/-- The loop of `proof`: at each level the sibling is read from the layer, then the layer above is hashed from it. -/
def proofLoop : ℕ → ℕ → List ℕ → ℕ → List ℕ × List ℕ
  | 0, _, _, _ => ([], [])
  | remaining + 1, level, levelLeaves, idx =>
    let isRight := idx % 2
    let siblingIdx := if isRight ≠ 0 then idx - 1 else idx + 1
    let sibling :=
      if siblingIdx < levelLeaves.length then levelLeaves.getD siblingIdx 0 else zeros.getD level 0
    let (pathElements, pathIndices) :=
      proofLoop remaining (level + 1) (MerkleTree.pairUp P.hashWords (zeros.getD level 0) levelLeaves)
        (idx / 2)
    (sibling :: pathElements, isRight :: pathIndices)

/-- `proof`. -/
def proof (t : IncrementalMerkleTree) (leafIndex : ℤ) : Except String MerkleProof := do
  let last : ℤ := t.leaves.length - 1
  require (¬(leafIndex < 0 ∨ leafIndex ≥ t.leaves.length))
    s!"IncrementalMerkleTree.proof: leafIndex {leafIndex} out of range (0..{last})"
  let (pathElements, pathIndices) := proofLoop P t.depth 0 t.leaves leafIndex.toNat
  return { root := t.root, pathElements, pathIndices }

/-! ### The incremental tree is the frontier -/

variable {P}

/-- The object stands for the leaves it holds. -/
structure Tracks (P : Poseidon) (t : IncrementalMerkleTree) : Prop where
  depth_le : t.depth ≤ 20
  length_filled : t.filledSubtrees.length = t.depth
  length_le : t.leaves.length ≤ 2 ^ t.depth
  frontier : MerkleTree.FrontierAt P.hashWords 0 t.depth t.leaves (t.filledSubtrees.getD · 0)
  root_eq : t.root = MerkleTree.root P.hashWords 0 t.depth t.leaves

theorem set_getD (xs : List ℕ) {i : ℕ} (x : ℕ) (hi : i < xs.length) :
    ((xs.set i x).getD · 0) = Function.update (xs.getD · 0) i x := by
  funext j
  by_cases hj : j = i
  · subst hj
    simp [List.getD_eq_getElem?_getD, hi]
  · rw [Function.update_of_ne hj, List.getD_eq_getElem?_getD, List.getD_eq_getElem?_getD,
      List.getElem?_set_ne (Ne.symm hj)]

theorem insertLoop_eq (remaining i currentIndex currentHash : ℕ) (filled : List ℕ)
    (hi : i + remaining ≤ filled.length) :
    MerkleTree.frontierLoop P.hashWords (zeros.getD · 0) remaining i currentIndex currentHash
        (filled.getD · 0) =
      (((insertLoop P remaining i currentIndex currentHash filled).1.getD · 0),
        (insertLoop P remaining i currentIndex currentHash filled).2) ∧
    (insertLoop P remaining i currentIndex currentHash filled).1.length = filled.length := by
  induction remaining generalizing i currentIndex currentHash filled with
  | zero => exact ⟨rfl, rfl⟩
  | succ remaining ih =>
    rw [MerkleTree.frontierLoop, insertLoop]
    by_cases heven : currentIndex % 2 = 0
    · simp only [heven, if_true]
      rw [← set_getD filled currentHash (by omega)]
      obtain ⟨hloop, hlength⟩ := ih (i + 1) (currentIndex / 2)
        (P.hashWords currentHash (zeros.getD i 0)) (filled.set i currentHash)
        (by rw [List.length_set]; omega)
      exact ⟨hloop, hlength.trans (List.length_set ..)⟩
    · simp only [heven, if_false]
      exact ih _ _ _ _ (by omega)

theorem new_tracks (hzeros : P.ZeroTable zeros) {depth : ℕ} {t : IncrementalMerkleTree}
    (hnew : new depth = .ok t) : Tracks P t ∧ t.depth = depth ∧ t.leaves = [] := by
  simp only [new, bind_eq_ok, require_eq_ok, pure_eq_ok] at hnew
  obtain ⟨-, hdepth, rfl⟩ := hnew
  have hlength : zeros.length = 21 := rfl
  have hle : depth ≤ 20 := by omega
  refine ⟨⟨hle, ?_, Nat.zero_le _, MerkleTree.frontierAt_nil _ _ _ _, ?_⟩, rfl, rfl⟩
  · rw [List.length_take, hlength]
    exact min_eq_left (by omega)
  · rw [MerkleTree.root_nil]
    exact hzeros.getD rfl (by omega)

theorem insert_tracks (hzeros : P.ZeroTable zeros) {t t' : IncrementalMerkleTree} {leaf index : ℕ}
    (ht : Tracks P t) (hinsert : t.insert P leaf = .ok (t', index)) :
    Tracks P t' ∧ t'.leaves = t.leaves ++ [leaf] ∧ index = t.leaves.length ∧ t'.depth = t.depth := by
  simp only [insert, bind_eq_ok, require_eq_ok, pure_eq_ok, Prod.mk.injEq] at hinsert
  obtain ⟨-, hroom, rfl, rfl⟩ := hinsert
  have hdepth := ht.depth_le
  have htable : zeros.length = 21 := rfl
  obtain ⟨hloop, hlength⟩ := insertLoop_eq (P := P) t.depth 0 t.leaves.length leaf t.filledSubtrees
    (by rw [ht.length_filled, Nat.zero_add])
  obtain ⟨hroot, hfrontier⟩ := MerkleTree.frontierInsert_spec P.hashWords 0 leaf
    (fun i hi => hzeros.getD rfl (by omega)) (by omega) ht.frontier
  rw [MerkleTree.frontierInsert, hloop] at hroot hfrontier
  refine ⟨⟨hdepth, hlength.trans ht.length_filled, ?_, hfrontier, hroot⟩, rfl, rfl, rfl⟩
  rw [List.length_append, List.length_singleton]
  dsimp only
  omega

theorem insert_ok_iff (t : IncrementalMerkleTree) (leaf : ℕ) :
    (∃ r, t.insert P leaf = .ok r) ↔ t.leaves.length < 2 ^ t.depth := by
  simp only [insert, bind_eq_ok, require_eq_ok, pure_eq_ok]
  constructor
  · rintro ⟨r, -, hroom, -⟩
    omega
  · intro hroom
    exact ⟨_, (), by omega, rfl⟩

theorem insertAll_tracks (hzeros : P.ZeroTable zeros) {t t' : IncrementalMerkleTree} {leaves : List ℕ}
    (ht : Tracks P t) (hinsert : t.insertAll P leaves = .ok t') :
    Tracks P t' ∧ t'.leaves = t.leaves ++ leaves ∧ t'.depth = t.depth := by
  induction leaves generalizing t with
  | nil =>
    rw [insertAll, Except.ok.injEq] at hinsert
    subst hinsert
    exact ⟨ht, (List.append_nil _).symm, rfl⟩
  | cons leaf leaves ih =>
    rw [insertAll, bind_eq_ok] at hinsert
    obtain ⟨⟨t₁, index⟩, hleaf, hrest⟩ := hinsert
    obtain ⟨ht₁, hleaves, -, hdepth⟩ := insert_tracks hzeros ht hleaf
    obtain ⟨ht', hleaves', hdepth'⟩ := ih ht₁ hrest
    refine ⟨ht', ?_, hdepth'.trans hdepth⟩
    rw [hleaves', hleaves, List.append_assoc, List.singleton_append]

theorem insertAll_ok_iff (hzeros : P.ZeroTable zeros) {t : IncrementalMerkleTree} {leaves : List ℕ}
    (ht : Tracks P t) :
    (∃ t', t.insertAll P leaves = .ok t') ↔ t.leaves.length + leaves.length ≤ 2 ^ t.depth := by
  induction leaves generalizing t with
  | nil => simpa [insertAll] using ht.length_le
  | cons leaf leaves ih =>
    simp only [insertAll, bind_eq_ok, List.length_cons]
    constructor
    · rintro ⟨t', ⟨t₁, index⟩, hleaf, hrest⟩
      obtain ⟨ht₁, hleaves, -, hdepth⟩ := insert_tracks hzeros ht hleaf
      have hfits := (ih ht₁).mp ⟨t', hrest⟩
      rw [hdepth, hleaves, List.length_append, List.length_singleton] at hfits
      omega
    · intro hfits
      obtain ⟨⟨t₁, index⟩, hleaf⟩ := (insert_ok_iff t leaf).mpr (by omega)
      obtain ⟨ht₁, hleaves, -, hdepth⟩ := insert_tracks hzeros ht hleaf
      obtain ⟨t', hrest⟩ := (ih ht₁).mpr (by
        rw [hdepth, hleaves, List.length_append, List.length_singleton]
        omega)
      exact ⟨t', (t₁, index), hleaf, hrest⟩

theorem proofLoop_eq (hzeros : P.ZeroTable zeros) {leaf : ℕ → ℕ} (index : ℕ) (remaining level : ℕ)
    {layer : List ℕ} (hlevel : level + remaining ≤ 20)
    (hlayer : MerkleTree.IsLayer P.hashWords 0 leaf level layer) :
    proofLoop P remaining level layer (index / 2 ^ level) =
      ((List.range' level remaining).map (MerkleTree.siblings P.hashWords leaf index),
        (List.range' level remaining).map fun level => index / 2 ^ level % 2) := by
  induction remaining generalizing level layer with
  | zero => rfl
  | succ remaining ih =>
    have htable : zeros.length = 21 := rfl
    have hempty : zeros.getD level 0 = MerkleTree.emptyRoot P.hashWords 0 level :=
      hzeros.getD rfl (by omega)
    have hhalf : index / 2 ^ level / 2 = index / 2 ^ (level + 1) := by
      rw [Nat.div_div_eq_div_mul, pow_succ]
    have hsibling : ∀ i, (if i < layer.length then layer.getD i 0 else zeros.getD level 0) =
        MerkleTree.node P.hashWords leaf level i := by
      intro i
      rw [← hlayer i, hempty]
      by_cases hi : i < layer.length
      · rw [if_pos hi, List.getD_eq_getElem _ _ hi, List.getD_eq_getElem _ _ hi]
      · rw [if_neg hi, List.getD_eq_default _ _ (not_lt.mp hi)]
    have habove : MerkleTree.IsLayer P.hashWords 0 leaf (level + 1)
        (MerkleTree.pairUp P.hashWords (zeros.getD level 0) layer) := by
      rw [hempty]
      exact hlayer.pairUp
    rw [proofLoop, hhalf, ih (level + 1) (by omega) habove, List.range'_succ]
    simp only [List.map_cons, hsibling, Prod.mk.injEq, List.cons.injEq, and_true]
    rw [MerkleTree.siblings, MerkleTree.siblingIndex]
    congr 1
    rcases Nat.mod_two_eq_zero_or_one (index / 2 ^ level) with hbit | hbit <;> simp [hbit]

theorem proof_eq (hzeros : P.ZeroTable zeros) {t : IncrementalMerkleTree} (ht : Tracks P t) {index : ℕ}
    (hindex : index < t.leaves.length) :
    t.proof P index = .ok {
      root := MerkleTree.root P.hashWords 0 t.depth t.leaves
      pathElements := MerkleTree.pathElements P.hashWords (MerkleTree.padded 0 t.leaves) index t.depth
      pathIndices := MerkleTree.pathIndices index t.depth } := by
  have hloop := proofLoop_eq hzeros index t.depth 0 (by rw [Nat.zero_add]; exact ht.depth_le)
    (MerkleTree.isLayer_padded t.leaves)
  rw [pow_zero, Nat.div_one] at hloop
  simp only [proof, bind_eq_ok, require_eq_ok, pure_eq_ok]
  refine ⟨(), by omega, ?_⟩
  rw [Int.toNat_natCast, hloop, ht.root_eq, MerkleTree.pathElements, MerkleTree.pathIndices,
    List.range_eq_range']

end IncrementalMerkleTree

/-- A tree with all its layers, the leaf layer padded to full width. -/
structure BuiltTree where
  root : ℕ
  layers : List (List ℕ)

/-- One layer up. Every layer has an even number of nodes until the root, so no node is left over. -/
def hashLayer : List ℕ → List ℕ
  | left :: right :: rest => P.hashWords left right :: hashLayer rest
  | _ => []

/-- The level loop of `buildMerkleTree`. -/
def buildLoop : ℕ → List (List ℕ) → List ℕ → List (List ℕ) × List ℕ
  | 0, layers, current => (layers, current)
  | remaining + 1, layers, current =>
    let next := hashLayer P current
    buildLoop remaining (layers ++ [next]) next

/-- `buildMerkleTree` of `merkle.ts`. -/
def buildMerkleTree (leaves : List ℕ) (depth : ℕ) : Except String BuiltTree := do
  require (¬(depth < 1 ∨ depth > 30)) "buildMerkleTree: depth must be an integer in [1, 30]"
  let size := 2 ^ depth
  require (¬leaves.length > size)
    s!"buildMerkleTree: leaves.length ({leaves.length}) exceeds 2^{depth} ({size})"
  let padded := leaves ++ List.replicate (size - leaves.length) 0
  let (layers, current) := buildLoop P depth [padded] padded
  return { root := current.getD 0 0, layers }

/-- The loop of `getMerkleProof`, over the layers below the root. -/
def proofLoop : List (List ℕ) → ℕ → ℕ → Except String (List ℕ × List ℕ)
  | layer :: above :: layers, level, idx => do
    let isRight := idx % 2
    let siblingIdx := if isRight ≠ 0 then idx - 1 else idx + 1
    match layer[siblingIdx]? with
    | none =>
      throw s!"getMerkleProof: layer {level} missing sibling at index {siblingIdx} (malformed tree)"
    | some sibling =>
      let (pathElements, pathIndices) ← proofLoop (above :: layers) (level + 1) (idx / 2)
      return (sibling :: pathElements, isRight :: pathIndices)
  | _, _, _ => return ([], [])

/-- `getMerkleProof` of `merkle.ts`. -/
def getMerkleProof (layers : List (List ℕ)) (leafIndex : ℤ) : Except String (List ℕ × List ℕ) := do
  require (¬layers.length < 2) "getMerkleProof: tree must have at least one internal layer"
  require (¬(leafIndex < 0 ∨ leafIndex ≥ (layers.getD 0 []).length))
    s!"getMerkleProof: leafIndex {leafIndex} out of range"
  proofLoop layers 0 leafIndex.toNat

/-! ### The layers are the levels of the padded tree -/

variable {P}

theorem hashLayer_eq (empty : ℕ) : ∀ layer : List ℕ, layer.length % 2 = 0 →
    hashLayer P layer = MerkleTree.pairUp P.hashWords empty layer ∧
      (hashLayer P layer).length = layer.length / 2
  | [], _ => ⟨rfl, rfl⟩
  | [_], heven => absurd heven (by simp)
  | left :: right :: rest, heven => by
    have hrest : rest.length % 2 = 0 := by
      rw [List.length_cons, List.length_cons] at heven
      omega
    obtain ⟨hpair, hlength⟩ := hashLayer_eq empty rest hrest
    refine ⟨by rw [hashLayer, MerkleTree.pairUp, hpair], ?_⟩
    rw [hashLayer, List.length_cons, hlength, List.length_cons, List.length_cons]
    omega

/-- The leaf layer of a built tree. -/
def paddedLeaves (leaves : List ℕ) (depth : ℕ) : List ℕ :=
  leaves ++ List.replicate (2 ^ depth - leaves.length) 0

/-- Every layer up to the root is the level of the padded tree, at full width. -/
theorem layer_spec {leaves : List ℕ} {depth : ℕ} (hfits : leaves.length ≤ 2 ^ depth) {level : ℕ}
    (hlevel : level ≤ depth) :
    ((hashLayer P)^[level] (paddedLeaves leaves depth)).length = 2 ^ (depth - level) ∧
      MerkleTree.IsLayer P.hashWords 0 (MerkleTree.padded 0 leaves) level
        ((hashLayer P)^[level] (paddedLeaves leaves depth)) := by
  induction level with
  | zero =>
    refine ⟨?_, fun index => ?_⟩
    · rw [Function.iterate_zero_apply, paddedLeaves, List.length_append, List.length_replicate,
        Nat.sub_zero]
      omega
    · rw [Function.iterate_zero_apply, paddedLeaves, MerkleTree.node_zero, MerkleTree.padded,
        MerkleTree.emptyRoot, List.getD_eq_getElem?_getD, List.getD_eq_getElem?_getD]
      by_cases hindex : index < leaves.length
      · rw [List.getElem?_append_left hindex]
      · have hnone : leaves[index]? = none := List.getElem?_eq_none (by omega)
        rw [List.getElem?_append_right (by omega), hnone, List.getElem?_replicate]
        split <;> rfl
  | succ level ih =>
    obtain ⟨hlength, hlayer⟩ := ih (by omega)
    have hpow : 2 ^ (depth - level) = 2 * 2 ^ (depth - (level + 1)) := by
      rw [← pow_succ', show depth - (level + 1) + 1 = depth - level by omega]
    obtain ⟨hpair, hhalf⟩ := hashLayer_eq (P := P) (MerkleTree.emptyRoot P.hashWords 0 level)
      ((hashLayer P)^[level] (paddedLeaves leaves depth)) (by omega)
    rw [Function.iterate_succ_apply']
    refine ⟨by omega, ?_⟩
    rw [hpair]
    exact hlayer.pairUp

theorem buildLoop_eq (padded : List ℕ) (remaining level : ℕ) :
    buildLoop P remaining ((List.range (level + 1)).map fun i => (hashLayer P)^[i] padded)
        ((hashLayer P)^[level] padded) =
      ((List.range (level + remaining + 1)).map (fun i => (hashLayer P)^[i] padded),
        (hashLayer P)^[level + remaining] padded) := by
  induction remaining generalizing level with
  | zero => rfl
  | succ remaining ih =>
    have hnext := ih (level + 1)
    rw [List.range_succ, List.map_append, List.map_singleton, Function.iterate_succ_apply'] at hnext
    rw [buildLoop, ← Nat.add_assoc, Nat.add_right_comm level remaining 1]
    exact hnext

/-- **The built tree** has the levels of the padded tree as its layers and the root of the last one. -/
theorem buildMerkleTree_eq {leaves : List ℕ} {depth : ℕ} (hpos : 0 < depth) (hdepth : depth ≤ 30)
    (hfits : leaves.length ≤ 2 ^ depth) :
    buildMerkleTree P leaves depth = .ok {
      root := MerkleTree.root P.hashWords 0 depth leaves
      layers := (List.range (depth + 1)).map fun i => (hashLayer P)^[i] (paddedLeaves leaves depth) } := by
  have hloop := buildLoop_eq (P := P) (paddedLeaves leaves depth) depth 0
  simp only [Nat.zero_add] at hloop
  obtain ⟨hlength, hlayer⟩ := layer_spec (P := P) hfits (le_refl depth)
  have hroot : ((hashLayer P)^[depth] (paddedLeaves leaves depth)).getD 0 0 =
      MerkleTree.root P.hashWords 0 depth leaves := by
    have hne : (hashLayer P)^[depth] (paddedLeaves leaves depth) ≠ [] := by
      apply List.ne_nil_of_length_pos
      rw [hlength]
      exact Nat.two_pow_pos _
    rw [List.getD_eq_getElem?_getD, hlayer.head hne]
    rfl
  simp only [buildMerkleTree, bind_eq_ok, require_eq_ok, pure_eq_ok]
  refine ⟨(), by omega, (), by omega, ?_⟩
  rw [← hroot]
  change BuiltTree.mk ((buildLoop P depth [paddedLeaves leaves depth] (paddedLeaves leaves depth)).2.getD 0 0)
    (buildLoop P depth [paddedLeaves leaves depth] (paddedLeaves leaves depth)).1 = _
  rw [show buildLoop P depth [paddedLeaves leaves depth] (paddedLeaves leaves depth) = _ from hloop]

theorem buildMerkleTree_ok_iff {leaves : List ℕ} {depth : ℕ} (hpos : 0 < depth) (hdepth : depth ≤ 30) :
    (∃ tree, buildMerkleTree P leaves depth = .ok tree) ↔ leaves.length ≤ 2 ^ depth := by
  constructor
  · rintro ⟨tree, hbuild⟩
    simp only [buildMerkleTree, bind_eq_ok, require_eq_ok, pure_eq_ok] at hbuild
    obtain ⟨-, -, -, hfits, -⟩ := hbuild
    omega
  · exact fun hfits => ⟨_, buildMerkleTree_eq hpos hdepth hfits⟩

theorem proofLoop_eq {leaves : List ℕ} {depth index : ℕ} (hfits : leaves.length ≤ 2 ^ depth)
    (hindex : index < 2 ^ depth) (remaining level : ℕ) (hlevel : level + remaining = depth) :
    proofLoop ((List.range' level (remaining + 1)).map fun i => (hashLayer P)^[i] (paddedLeaves leaves depth))
        level (index / 2 ^ level) =
      .ok ((List.range' level remaining).map
          (MerkleTree.siblings P.hashWords (MerkleTree.padded 0 leaves) index),
        (List.range' level remaining).map fun level => index / 2 ^ level % 2) := by
  induction remaining generalizing level with
  | zero => rfl
  | succ remaining ih =>
    obtain ⟨hlength, hlayer⟩ := layer_spec (P := P) hfits (show level ≤ depth by omega)
    have hhalf : index / 2 ^ level / 2 = index / 2 ^ (level + 1) := by
      rw [Nat.div_div_eq_div_mul, pow_succ]
    have hpow : 2 ^ (depth - level) = 2 * 2 ^ (depth - (level + 1)) := by
      rw [← pow_succ', show depth - (level + 1) + 1 = depth - level by omega]
    have hbelow : index / 2 ^ level < 2 ^ (depth - level) := by
      rw [Nat.div_lt_iff_lt_mul (Nat.two_pow_pos _), ← pow_add, Nat.sub_add_cancel (by omega)]
      exact hindex
    have hsibling : MerkleTree.siblingIndex (index / 2 ^ level) < 2 ^ (depth - level) := by
      rw [hpow] at hbelow ⊢
      exact MerkleTree.siblingIndex_lt hbelow
    have hread : ((hashLayer P)^[level] (paddedLeaves leaves depth))[MerkleTree.siblingIndex (index / 2 ^ level)]? =
        some (MerkleTree.siblings P.hashWords (MerkleTree.padded 0 leaves) index level) := by
      rw [MerkleTree.siblings, ← hlayer, List.getD_eq_getElem _ _ (hlength ▸ hsibling)]
      exact List.getElem?_eq_getElem _
    have hside : (if index / 2 ^ level % 2 ≠ 0 then index / 2 ^ level - 1 else index / 2 ^ level + 1) =
        MerkleTree.siblingIndex (index / 2 ^ level) := by
      rw [MerkleTree.siblingIndex]
      rcases Nat.mod_two_eq_zero_or_one (index / 2 ^ level) with hbit | hbit <;> simp [hbit]
    have hrest := ih (level + 1) (by omega)
    simp only [List.range'_succ, List.map_cons] at hrest ⊢
    rw [proofLoop]
    dsimp only
    rw [hside, hread, hhalf]
    dsimp only
    rw [hrest]
    rfl

theorem getMerkleProof_eq {leaves : List ℕ} {depth index : ℕ} (hpos : 0 < depth)
    (hfits : leaves.length ≤ 2 ^ depth) (hindex : index < 2 ^ depth) :
    getMerkleProof ((List.range (depth + 1)).map fun i => (hashLayer P)^[i] (paddedLeaves leaves depth)) index =
      .ok (MerkleTree.pathElements P.hashWords (MerkleTree.padded 0 leaves) index depth,
        MerkleTree.pathIndices index depth) := by
  have hloop := proofLoop_eq (P := P) hfits hindex depth 0 (Nat.zero_add _)
  rw [pow_zero, Nat.div_one, ← List.range_eq_range', ← List.range_eq_range'] at hloop
  obtain ⟨hlength, -⟩ := layer_spec (P := P) hfits (Nat.zero_le depth)
  simp only [getMerkleProof, bind_eq_ok, require_eq_ok]
  refine ⟨(), by simp; omega, (), ?_, ?_⟩
  · have hleafLayer : (((List.range (depth + 1)).map fun i =>
        (hashLayer P)^[i] (paddedLeaves leaves depth)).getD 0 []).length = 2 ^ depth := by
      rw [List.range_succ_eq_map, List.map_cons, List.getD_cons_zero]
      exact hlength
    omega
  · rw [Int.toNat_natCast]
    exact hloop

end Sdk

end ScatterDex
