import ScatterDex.Circuit.Gadgets
import ScatterDex.Relayer.MerkleTree
import ScatterDex.Sdk.MerkleTree

/-!
# One tree, four implementations

The contract's frontier, the SDK's two trees and the relayer's sparse tree are compared with the zero-padded tree of the leaves, and their proofs with the membership template of the circuits. They agree on every leaf list that fits. Past the capacity the contract and the SDK refuse; the relayer's builder does not.
-/

namespace ScatterDex

open Bn254 Fallible

variable (P : Poseidon)

/-- The contract's tree after its leaves were inserted one after another. -/
def contractTree (rootHistorySize depth : ℕ) (leaves : List ℕ) : Except Error IncrementalMerkleTree := do
  let tree ← IncrementalMerkleTree.init P depth rootHistorySize
  tree.insertAll P leaves

/-- A path recomputes to a root, also as a witness of the circuits' membership template once its pairs are hashed. -/
def Recomputes (depth leaf root : ℕ) (elements indices : List ℕ) : Prop :=
  MerkleTree.PathTo P.hashWords depth leaf root elements indices ∧
    ∀ C : Circomlib,
      (∀ i < depth, MerkleTree.climbPair P.hashPair (fun i => indices.getD i 0 = 1)
        (fun i => ((elements.getD i 0 : ℕ) : Scalar)) leaf i ∈ P.askedPairs) →
      Circuit.MerkleProof C P depth leaf (fun i => ((elements.getD i 0 : ℕ) : Scalar))
        (fun i => ((indices.getD i 0 : ℕ) : Scalar)) root

/-- Every implementation accepts the leaves, holds the root of the padded tree, and proves every inserted leaf against it. -/
def AllAccept (cache : Option (Relayer.ZeroHashCache P)) (rootHistorySize depth : ℕ) (leaves : List ℕ) : Prop :=
  ∃ contract sdk built sparse cache',
    contractTree P rootHistorySize depth leaves = .ok contract ∧
    Sdk.IncrementalMerkleTree.fromLeaves P leaves depth = .ok sdk ∧
    Sdk.buildMerkleTree P leaves depth = .ok built ∧
    Relayer.buildMerkleTree P cache leaves depth = .ok (sparse, cache') ∧
    let root := MerkleTree.root P.hashWords 0 depth leaves
    contract.getLastRoot = root ∧ sdk.root = root ∧ built.root = root ∧ sparse.root = some root ∧
    ∀ index (hindex : index < leaves.length), ∃ proof path,
      sdk.proof P index = .ok proof ∧ proof.root = root ∧
      Sdk.getMerkleProof built.layers index = .ok path ∧
      Recomputes P depth leaves[index] root proof.pathElements proof.pathIndices ∧
      Recomputes P depth leaves[index] root path.1 path.2 ∧
      Recomputes P depth leaves[index] root (Relayer.getMerkleProof sparse index).1
        (Relayer.getMerkleProof sparse index).2

/-- Every implementation refuses the leaves. -/
def AllReject (cache : Option (Relayer.ZeroHashCache P)) (rootHistorySize depth : ℕ) (leaves : List ℕ) : Prop :=
  (¬∃ contract, contractTree P rootHistorySize depth leaves = .ok contract) ∧
  (¬∃ sdk, Sdk.IncrementalMerkleTree.fromLeaves P leaves depth = .ok sdk) ∧
  (¬∃ built, Sdk.buildMerkleTree P leaves depth = .ok built) ∧
  ¬∃ sparse, Relayer.buildMerkleTree P cache leaves depth = .ok sparse

/-- The implementations agree: on the tree of leaves that fit, and on refusing leaves that do not. -/
def MerkleAgreement (cache : Option (Relayer.ZeroHashCache P)) (rootHistorySize depth : ℕ) (leaves : List ℕ) :
    Prop :=
  (leaves.length ≤ 2 ^ depth → AllAccept P cache rootHistorySize depth leaves) ∧
    (2 ^ depth < leaves.length → AllReject P cache rootHistorySize depth leaves)

variable {P}

theorem zeroTable_of_sdk (hzeros : P.ZeroTable Sdk.zeros) : P.ZeroTable IncrementalMerkleTree.zeroTable := by
  intro i hi
  have htable : IncrementalMerkleTree.zeroTable = Sdk.zeros.take 20 := rfl
  have hlength : IncrementalMerkleTree.zeroTable.length = 20 := rfl
  have hlookup : ∀ j < 20, IncrementalMerkleTree.zeroTable.getD j 0 = Sdk.zeros.getD j 0 := by
    intro j hj
    rw [htable, List.getD_eq_getElem?_getD, List.getD_eq_getElem?_getD, List.getElem?_take_of_lt hj]
  rw [hlookup i (by omega), hlookup (i + 1) (by omega)]
  exact hzeros i (by have : Sdk.zeros.length = 21 := rfl; omega)

/-- The signals an array of numbers is read into. -/
def arraySignals (xs : List ℕ) (i : ℕ) : Scalar := (xs.getD i 0 : ℕ)

theorem pathTo_signals {depth leaf root : ℕ} {elements indices : List ℕ}
    (hpath : MerkleTree.PathTo P.hashWords depth leaf root elements indices) :
    (∀ i < depth, arraySignals indices i = 0 ∨ arraySignals indices i = 1) ∧
      (∀ i < depth, Circuit.direction (arraySignals indices) i = decide (indices.getD i 0 = 1)) ∧
      MerkleTree.climb P.hashPair (Circuit.direction (arraySignals indices)) (arraySignals elements) leaf depth =
        (root : Scalar) := by
  have hbit : ∀ i < depth, indices.getD i 0 = 0 ∨ indices.getD i 0 = 1 := by
    intro i hi
    rw [List.getD_eq_getElem _ _ (by rw [hpath.length_indices]; exact hi)]
    exact hpath.binary _ (List.getElem_mem _)
  have hdirection : ∀ i < depth, Circuit.direction (arraySignals indices) i = decide (indices.getD i 0 = 1) := by
    intro i hi
    change decide (((indices.getD i 0 : ℕ) : Scalar) = 1) = _
    rcases hbit i hi with h | h <;> rw [h] <;> simp
  refine ⟨fun i hi => ?_, hdirection, ?_⟩
  · rcases hbit i hi with h | h
    · exact Or.inl (by rw [arraySignals, h, Nat.cast_zero])
    · exact Or.inr (by rw [arraySignals, h, Nat.cast_one])
  · rw [← hpath.climbs 0, P.cast_climb]
    exact MerkleTree.climb_congr _ _ hdirection fun _ _ => rfl

theorem recomputes_of_pathTo {depth leaf root : ℕ} {elements indices : List ℕ}
    (hpath : MerkleTree.PathTo P.hashWords depth leaf root elements indices) :
    Recomputes P depth leaf root elements indices := by
  obtain ⟨hbits, hdirection, hclimbs⟩ := pathTo_signals hpath
  refine ⟨hpath, fun C hasked => Circuit.merkleProof_iff.mpr ⟨hbits, fun i hi => ?_, hclimbs⟩⟩
  have hclimb : MerkleTree.climb P.hashPair (Circuit.direction (arraySignals indices)) (arraySignals elements) leaf i =
      MerkleTree.climb P.hashPair (fun i => indices.getD i 0 = 1) (arraySignals elements) leaf i :=
    MerkleTree.climb_congr _ _ (fun j hj => hdirection j (by omega)) fun _ _ => rfl
  change MerkleTree.climbPair P.hashPair (Circuit.direction (arraySignals indices)) (arraySignals elements) leaf i ∈ _
  rw [MerkleTree.climbPair, hdirection i hi, hclimb]
  exact hasked i hi

variable {cache : Option (Relayer.ZeroHashCache P)} {rootHistorySize depth : ℕ} {leaves : List ℕ}

theorem contractTree_ok_iff (hzeros : P.ZeroTable Sdk.zeros) (hpos : 0 < depth) (hdepth : depth ≤ 20)
    (hsize : 0 < rootHistorySize) :
    (∃ tree, contractTree P rootHistorySize depth leaves = .ok tree) ↔ leaves.length ≤ 2 ^ depth := by
  obtain ⟨tree, hinit⟩ := IncrementalMerkleTree.init_ok (P := P) hpos hdepth hsize
  obtain ⟨htracks, hlevels, -⟩ := IncrementalMerkleTree.init_tracks hinit
  have hok : (∃ tree', tree.insertAll P leaves = .ok tree') ↔ _ :=
    IncrementalMerkleTree.insertAll_ok_iff (zeroTable_of_sdk hzeros) htracks
  rw [List.length_nil, Nat.zero_add, hlevels] at hok
  rw [← hok, contractTree, hinit]
  rfl

theorem contractTree_root (hzeros : P.ZeroTable Sdk.zeros) {tree : IncrementalMerkleTree}
    (htree : contractTree P rootHistorySize depth leaves = .ok tree) :
    tree.getLastRoot = MerkleTree.root P.hashWords 0 depth leaves := by
  rw [contractTree, bind_eq_ok] at htree
  obtain ⟨start, hinit, hinsert⟩ := htree
  obtain ⟨htracks, hlevels, -⟩ := IncrementalMerkleTree.init_tracks hinit
  obtain ⟨htracks', hlevels'⟩ := IncrementalMerkleTree.insertAll_tracks (zeroTable_of_sdk hzeros) htracks hinsert
  rw [htracks'.lastRoot, hlevels', hlevels, List.nil_append]

theorem fromLeaves_ok_iff (hzeros : P.ZeroTable Sdk.zeros) (hdepth : depth ≤ 20) :
    (∃ tree, Sdk.IncrementalMerkleTree.fromLeaves P leaves depth = .ok tree) ↔ leaves.length ≤ 2 ^ depth := by
  have hnew : ∃ tree, Sdk.IncrementalMerkleTree.new depth = .ok tree := by
    simp only [Sdk.IncrementalMerkleTree.new, bind_eq_ok, require_eq_ok, pure_eq_ok]
    exact ⟨_, (), by have : Sdk.zeros.length = 21 := rfl; omega, rfl⟩
  obtain ⟨tree, hnew⟩ := hnew
  obtain ⟨htracks, hdepth', hleaves⟩ := Sdk.IncrementalMerkleTree.new_tracks hzeros hnew
  have hok : (∃ tree', tree.insertAll P leaves = .ok tree') ↔ _ :=
    Sdk.IncrementalMerkleTree.insertAll_ok_iff hzeros htracks
  rw [hleaves, List.length_nil, Nat.zero_add, hdepth'] at hok
  rw [← hok, Sdk.IncrementalMerkleTree.fromLeaves, hnew]
  rfl

theorem fromLeaves_tracks (hzeros : P.ZeroTable Sdk.zeros) {tree : Sdk.IncrementalMerkleTree}
    (htree : Sdk.IncrementalMerkleTree.fromLeaves P leaves depth = .ok tree) :
    Sdk.IncrementalMerkleTree.Tracks P tree ∧ tree.leaves = leaves ∧ tree.depth = depth := by
  rw [Sdk.IncrementalMerkleTree.fromLeaves, bind_eq_ok] at htree
  obtain ⟨start, hnew, hinsert⟩ := htree
  obtain ⟨htracks, hdepth, hleaves⟩ := Sdk.IncrementalMerkleTree.new_tracks hzeros hnew
  obtain ⟨htracks', hleaves', hdepth'⟩ := Sdk.IncrementalMerkleTree.insertAll_tracks hzeros htracks hinsert
  exact ⟨htracks', by rw [hleaves', hleaves, List.nil_append], hdepth'.trans hdepth⟩

/-- **On leaves that fit the implementations agree.** -/
theorem allAccept_of_le (hzeros : P.ZeroTable Sdk.zeros) (hpos : 0 < depth) (hdepth : depth ≤ 20)
    (hsize : 0 < rootHistorySize) (hfits : leaves.length ≤ 2 ^ depth) :
    AllAccept P cache rootHistorySize depth leaves := by
  obtain ⟨contract, hcontract⟩ := (contractTree_ok_iff hzeros hpos hdepth hsize).mpr hfits
  obtain ⟨sdk, hsdk⟩ := (fromLeaves_ok_iff hzeros hdepth).mpr hfits
  obtain ⟨sparse, cache', hsparse, hrepresents⟩ := Relayer.buildMerkleTree_represents cache leaves hpos
  obtain ⟨htracks, hleaves, hsdkDepth⟩ := fromLeaves_tracks hzeros hsdk
  refine ⟨contract, sdk, _, sparse, cache', hcontract, hsdk,
    Sdk.buildMerkleTree_eq hpos (by omega) hfits, hsparse, contractTree_root hzeros hcontract,
    by rw [htracks.root_eq, hsdkDepth, hleaves], rfl, hrepresents.root_eq, fun index hindex => ?_⟩
  have hinside : index < 2 ^ depth := by omega
  have hproof := Sdk.IncrementalMerkleTree.proof_eq hzeros htracks (hleaves.symm ▸ hindex)
  rw [hsdkDepth, hleaves] at hproof
  have hpath : Recomputes P depth leaves[index] (MerkleTree.root P.hashWords 0 depth leaves)
      (MerkleTree.pathElements P.hashWords (MerkleTree.padded 0 leaves) index depth)
      (MerkleTree.pathIndices index depth) := by
    apply recomputes_of_pathTo
    have hroot := MerkleTree.pathTo_root P.hashWords (MerkleTree.padded 0 leaves) hinside
    rwa [MerkleTree.padded, List.getD_eq_getElem _ _ hindex] at hroot
  refine ⟨_, _, hproof, rfl, Sdk.getMerkleProof_eq hpos hfits hinside, hpath, hpath, ?_⟩
  rw [Relayer.getMerkleProof_eq hrepresents]
  exact hpath

/-- The relayer's builder accepts every leaf list, so the implementations never all refuse. -/
theorem not_allReject (hpos : 0 < depth) : ¬AllReject P cache rootHistorySize depth leaves := by
  rintro ⟨-, -, -, hrelayer⟩
  obtain ⟨sparse, cache', hsparse, -⟩ := Relayer.buildMerkleTree_represents cache leaves hpos
  exact hrelayer ⟨_, hsparse⟩

/-- **The implementations agree exactly on the leaf lists that fit the tree.** -/
theorem merkleAgreement_iff (hzeros : P.ZeroTable Sdk.zeros) (hpos : 0 < depth) (hdepth : depth ≤ 20)
    (hsize : 0 < rootHistorySize) :
    MerkleAgreement P cache rootHistorySize depth leaves ↔ leaves.length ≤ 2 ^ depth := by
  constructor
  · rintro ⟨-, hreject⟩
    by_contra hfull
    exact not_allReject hpos (hreject (not_le.mp hfull))
  · exact fun hfits => ⟨fun _ => allAccept_of_le hzeros hpos hdepth hsize hfits,
      fun hfull => absurd hfits (not_le.mpr hfull)⟩

/-! ### Three leaves in a tree of two -/

/-- The empty-subtree hashes, as known inputs of Poseidon. -/
def zeroHashTable : List (List Scalar × Scalar) :=
  (List.range 20).map fun i =>
    ([((Sdk.zeros.getD i 0 : ℕ) : Scalar), ((Sdk.zeros.getD i 0 : ℕ) : Scalar)],
      ((Sdk.zeros.getD (i + 1) 0 : ℕ) : Scalar))

/-- Poseidon on the inputs of a depth-one tree with leaves 5, 6 and 7. -/
def smallTreePoseidon : Poseidon :=
  Poseidon.ofTable
    (zeroHashTable ++
      [([5, 0], 0x2088d0e6cf788277daaf9df9c8c80e622b8f921317be7caa717fc976fc80cc68),
        ([5, 6], 0x427b43899bdfc36d3d4f26c018dd73f5437ea8e5f533fc122441881d5d0b737),
        ([7, 0], 0x16ff6f564773fa900f5c13ea4b55cd23b7c2e6756644553b115e15174a155a10)])
    (by decide +kernel) (by decide +kernel)

theorem smallTree_zeroTable : smallTreePoseidon.ZeroTable Sdk.zeros := by
  have hall : ∀ i < 20, smallTreePoseidon.hashWords (Sdk.zeros.getD i 0) (Sdk.zeros.getD i 0) =
      Sdk.zeros.getD (i + 1) 0 := by decide +kernel
  intro i hi
  have hlength : Sdk.zeros.length = 21 := rfl
  exact hall i (by omega)

theorem merkleAgreement_two_leaves :
    MerkleAgreement smallTreePoseidon none 30 1 [5, 6] ↔ [5, 6].length ≤ 2 ^ 1 :=
  merkleAgreement_iff smallTree_zeroTable (by decide) (by decide) (by decide)

/-- The relayer builds a tree of depth one from three leaves, and drops the third. -/
theorem not_merkleAgreement_three_leaves : ¬MerkleAgreement smallTreePoseidon none 30 1 [5, 6, 7] := by
  rintro ⟨-, hreject⟩
  obtain ⟨-, -, -, hrelayer⟩ := hreject (by decide)
  exact hrelayer ⟨_, rfl⟩

end ScatterDex
