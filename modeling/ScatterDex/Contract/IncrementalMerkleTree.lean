import ScatterDex.Contract.Basic
import ScatterDex.Library.MerkleTree
import ScatterDex.Poseidon

/-!
# The pool's Merkle tree

The append-only tree of `IncrementalMerkleTree.sol`: one filled left subtree a level, a table of empty-subtree hashes, and a ring of the latest roots. The invariant `Tracks` says which leaf list the storage stands for; initialisation establishes it, `insert` extends the list by one leaf, and a root the ring knows is the root of one of its prefixes.
-/

namespace ScatterDex

open Bn254 Fallible

/-- The storage of the tree. -/
structure IncrementalMerkleTree where
  levels : ℕ
  rootHistorySize : ℕ
  filledSubtrees : ℕ → ℕ
  roots : ℕ → ℕ
  currentRootIndex : ℕ
  nextIndex : ℕ

namespace IncrementalMerkleTree

variable (P : Poseidon)

/-- The constants behind `_zeros`, one a level. -/
def zeroTable : List ℕ :=
  [0,
    0x2098f5fb9e239eab3ceac3f27b81e481dc3124d55ffed523a839ee8446b64864,
    0x1069673dcdb12263df301a6ff584a7ec261a44cb9dc68df067a4774460b1f1e1,
    0x18f43331537ee2af2e3d758d50f72106467c6eea50371dd528d57eb2b856d238,
    0x07f9d837cb17b0d36320ffe93ba52345f1b728571a568265caac97559dbc952a,
    0x2b94cf5e8746b3f5c9631f4c5df32907a699c58c94b2ad4d7b5cec1639183f55,
    0x2dee93c5a666459646ea7d22cca9e1bcfed71e6951b953611d11dda32ea09d78,
    0x078295e5a22b84e982cf601eb639597b8b0515a88cb5ac7fa8a4aabe3c87349d,
    0x2fa5e5f18f6027a6501bec864564472a616b2e274a41211a444cbe3a99f3cc61,
    0x0e884376d0d8fd21ecb780389e941f66e45e7acce3e228ab3e2156a614fcd747,
    0x1b7201da72494f1e28717ad1a52eb469f95892f957713533de6175e5da190af2,
    0x1f8d8822725e36385200c0b201249819a6e6e1e4650808b5bebc6bface7d7636,
    0x2c5d82f66c914bafb9701589ba8cfcfb6162b0a12acf88a8d0879a0471b5f85a,
    0x14c54148a0940bb820957f5adf3fa1134ef5c4aaa113f4646458f270e0bfbfd0,
    0x190d33b12f986f961e10c0ee44d8b9af11be25588cad89d416118e4bf4ebe80c,
    0x22f98aa9ce704152ac17354914ad73ed1167ae6596af510aa5b3649325e06c92,
    0x2a7c7c9b6ce5880b9f6f228d72bf6a575a526f29c66ecceef8b753d38bba7323,
    0x2e8186e558698ec1c67af9c14d463ffc470043c9c2988b954d75dd643f36b992,
    0x0f57c5571e9a4eab49e2c8cf050dae948aef6ead647392273546249d1c1ff10f,
    0x1830ee67b5fb554ad5f63d4388800e1cfe78e310697d46e43c9ce36134f72cca]

/-- `_zeros`: the hash of an empty subtree. -/
def zeros (i : ℕ) : Except Error ℕ :=
  match zeroTable[i]? with
  | some value => .ok value
  | none => .error .levelOutOfRange

/-- The loop of the initialiser: the empty-subtree hash of each level is stored on the way up to the empty root. -/
def initLoop : ℕ → ℕ → ℕ → (ℕ → ℕ) → (ℕ → ℕ) × ℕ
  | 0, _, currentZero, filledSubtrees => (filledSubtrees, currentZero)
  | remaining + 1, i, currentZero, filledSubtrees =>
    initLoop remaining (i + 1) (P.hashWords currentZero currentZero)
      (Function.update filledSubtrees i currentZero)

/-- The empty tree that the initialiser leaves, its root in the first slot of the ring. -/
def fresh (levels rootHistorySize : ℕ) : IncrementalMerkleTree where
  levels
  rootHistorySize
  filledSubtrees := (initLoop P levels 0 0 fun _ => 0).1
  roots := Function.update (fun _ => 0) 0 (initLoop P levels 0 0 fun _ => 0).2
  currentRootIndex := 0
  nextIndex := 0

/-- `__IncrementalMerkleTree_init`. -/
def init (levels rootHistorySize : ℕ) : Except Error IncrementalMerkleTree := do
  require (¬(levels = 0 ∨ levels > 20)) .invalidLevels
  require (rootHistorySize ≠ 0) .invalidRootHistorySize
  return fresh P levels rootHistorySize

/-- The loop of `_insert`, from level `i` with the running index and hash. -/
def insertLoop : ℕ → ℕ → ℕ → ℕ → (ℕ → ℕ) → Except Error ((ℕ → ℕ) × ℕ)
  | 0, _, _, currentHash, filledSubtrees => .ok (filledSubtrees, currentHash)
  | remaining + 1, i, currentIndex, currentHash, filledSubtrees =>
    if currentIndex % 2 = 0 then do
      let right ← zeros i
      insertLoop remaining (i + 1) (currentIndex / 2) (P.hashWords currentHash right)
        (Function.update filledSubtrees i currentHash)
    else
      insertLoop remaining (i + 1) (currentIndex / 2) (P.hashWords (filledSubtrees i) currentHash)
        filledSubtrees

/-- `_insert`: the tree with the leaf, and the index the leaf got. The `uint32` sums cannot overflow: the cursor stays below the ring size and the index below `2 ^ 20`. -/
def insert (t : IncrementalMerkleTree) (leaf : ℕ) : Except Error (IncrementalMerkleTree × ℕ) := do
  require (¬t.nextIndex ≥ 2 ^ t.levels) .treeFull
  let (filledSubtrees, currentHash) ← insertLoop P t.levels 0 t.nextIndex leaf t.filledSubtrees
  let newRootIndex := (t.currentRootIndex + 1) % t.rootHistorySize
  return ({ t with
    filledSubtrees
    roots := Function.update t.roots newRootIndex currentHash
    currentRootIndex := newRootIndex
    nextIndex := t.nextIndex + 1 }, t.nextIndex)

/-- The do-while loop of `isKnownRoot`, walking the ring down from `i` until it is back at the cursor. -/
def knownRootLoop (t : IncrementalMerkleTree) (root : ℕ) : ℕ → ℕ → Bool
  | 0, _ => false
  | remaining + 1, i =>
    if t.roots i = root then true
    else
      let next := (if i = 0 then t.rootHistorySize else i) - 1
      if next ≠ t.currentRootIndex then knownRootLoop t root remaining next else false

/-- `isKnownRoot`. A turn of the ring takes `rootHistorySize` steps. -/
def isKnownRoot (t : IncrementalMerkleTree) (root : ℕ) : Bool :=
  if root = 0 then false else t.knownRootLoop root t.rootHistorySize t.currentRootIndex

/-- `getLastRoot`. -/
def getLastRoot (t : IncrementalMerkleTree) : ℕ := t.roots t.currentRootIndex

/-- Insert a list of leaves one after another. -/
def insertAll : IncrementalMerkleTree → List ℕ → Except Error IncrementalMerkleTree
  | t, [] => .ok t
  | t, leaf :: leaves => do
    let (t, _) ← t.insert P leaf
    t.insertAll leaves


variable {P}

theorem zeros_of_lt {i : ℕ} (hi : i < 20) : zeros i = .ok (zeroTable.getD i 0) := by
  have hlength : i < zeroTable.length := hi
  rw [zeros, List.getElem?_eq_getElem hlength, List.getD_eq_getElem _ _ hlength]

theorem insertLoop_eq (remaining i currentIndex currentHash : ℕ) (filled : ℕ → ℕ)
    (hi : i + remaining ≤ 20) :
    insertLoop P remaining i currentIndex currentHash filled =
      .ok (MerkleTree.frontierLoop P.hashWords (zeroTable.getD · 0) remaining i currentIndex
        currentHash filled) := by
  induction remaining generalizing i currentIndex currentHash filled with
  | zero => rfl
  | succ remaining ih =>
    rw [insertLoop, MerkleTree.frontierLoop]
    split
    · rw [zeros_of_lt (by omega)]
      exact ih _ _ _ _ (by omega)
    · exact ih _ _ _ _ (by omega)

/-! ### What the storage stands for -/

/-- The storage stands for a leaf list: the frontier of the list is stored, the cursor is at its root, and every root of the ring is the root of one of its prefixes. -/
structure Tracks (P : Poseidon) (t : IncrementalMerkleTree) (leaves : List ℕ) : Prop where
  levels_pos : 0 < t.levels
  levels_le : t.levels ≤ 20
  history_pos : 0 < t.rootHistorySize
  cursor_lt : t.currentRootIndex < t.rootHistorySize
  nextIndex_eq : t.nextIndex = leaves.length
  length_le : leaves.length ≤ 2 ^ t.levels
  frontier : MerkleTree.FrontierAt P.hashWords 0 t.levels leaves t.filledSubtrees
  lastRoot : t.getLastRoot = MerkleTree.root P.hashWords 0 t.levels leaves
  known : ∀ i < t.rootHistorySize, t.roots i = 0 ∨
    ∃ k ≤ leaves.length, t.roots i = MerkleTree.root P.hashWords 0 t.levels (leaves.take k)

theorem initLoop_snd (remaining i : ℕ) (filled : ℕ → ℕ) :
    (initLoop P remaining i (MerkleTree.emptyRoot P.hashWords 0 i) filled).2 =
      MerkleTree.emptyRoot P.hashWords 0 (i + remaining) := by
  induction remaining generalizing i filled with
  | zero => rfl
  | succ remaining ih =>
    rw [initLoop, ← MerkleTree.emptyRoot_succ P.hashWords 0 i, ih, Nat.add_right_comm, Nat.add_assoc]

theorem init_tracks {levels rootHistorySize : ℕ} {t : IncrementalMerkleTree}
    (hinit : init P levels rootHistorySize = .ok t) :
    Tracks P t [] ∧ t.levels = levels ∧ t.rootHistorySize = rootHistorySize := by
  simp only [init, bind_eq_ok, require_eq_ok, pure_eq_ok] at hinit
  obtain ⟨-, hlevels, -, hhistory, rfl⟩ := hinit
  have hroot : (initLoop P levels 0 0 (fun _ => 0)).2 =
      MerkleTree.root P.hashWords 0 levels [] := by
    have hloop := initLoop_snd (P := P) levels 0 (fun _ => 0)
    rw [Nat.zero_add] at hloop
    rw [MerkleTree.root_nil]
    exact hloop
  have hpos : 0 < levels := by omega
  have hle : levels ≤ 20 := by omega
  have hring : 0 < rootHistorySize := by omega
  refine ⟨⟨hpos, hle, hring, hring, rfl, Nat.zero_le _,
    MerkleTree.frontierAt_nil _ _ _ _, ?_, ?_⟩, rfl, rfl⟩
  · simpa [getLastRoot, fresh] using hroot
  · intro i _
    by_cases hi : i = 0
    · exact Or.inr ⟨0, le_rfl, by simpa [hi, fresh] using hroot⟩
    · exact Or.inl (by simp [hi, fresh])

theorem init_ok {levels rootHistorySize : ℕ} (hpos : 0 < levels) (hlevels : levels ≤ 20)
    (hhistory : 0 < rootHistorySize) : ∃ t, init P levels rootHistorySize = .ok t := by
  simp only [init, bind_eq_ok, require_eq_ok, pure_eq_ok]
  exact ⟨_, (), by omega, (), by omega, rfl⟩

theorem insert_levels {t t' : IncrementalMerkleTree} {leaf index : ℕ} (hinsert : t.insert P leaf = .ok (t', index)) :
    t'.levels = t.levels := by
  simp only [insert, bind_eq_ok, pure_eq_ok, Prod.mk.injEq] at hinsert
  obtain ⟨-, -, -, -, rfl, -⟩ := hinsert
  rfl

/-- **Insertion appends its leaf.** The tree it returns stands for the longer list, in the same shape. -/
theorem insert_tracks (hzeros : P.ZeroTable zeroTable) {t t' : IncrementalMerkleTree} {leaves : List ℕ}
    {leaf index : ℕ} (ht : Tracks P t leaves) (hinsert : t.insert P leaf = .ok (t', index)) :
    Tracks P t' (leaves ++ [leaf]) ∧ index = leaves.length ∧ t'.levels = t.levels ∧
      t'.rootHistorySize = t.rootHistorySize := by
  simp only [insert, bind_eq_ok, require_eq_ok, pure_eq_ok, Prod.mk.injEq,
    insertLoop_eq _ _ _ _ _ (show 0 + t.levels ≤ 20 by rw [Nat.zero_add]; exact ht.levels_le),
    Except.ok.injEq, exists_eq_left'] at hinsert
  obtain ⟨-, hroom, rfl, rfl⟩ := hinsert
  rw [ht.nextIndex_eq] at hroom ⊢
  have hspec := MerkleTree.frontierInsert_spec P.hashWords 0 leaf
    (fun i hi => hzeros.getD rfl (lt_of_lt_of_le hi ht.levels_le)) (by omega) ht.frontier
  obtain ⟨hroot, hfrontier⟩ := hspec
  have hlength : (leaves ++ [leaf]).length = leaves.length + 1 := by simp
  refine ⟨⟨ht.levels_pos, ht.levels_le, ht.history_pos, Nat.mod_lt _ ht.history_pos, hlength.symm,
    ?_, hfrontier, ?_, ?_⟩, rfl, rfl, rfl⟩
  · rw [hlength]
    dsimp only
    omega
  · rw [getLastRoot]
    exact (Function.update_self _ _ _).trans hroot
  · intro i hi
    dsimp only at hi ⊢
    by_cases hcursor : i = (t.currentRootIndex + 1) % t.rootHistorySize
    · rw [hcursor, Function.update_self]
      exact Or.inr ⟨(leaves ++ [leaf]).length, le_rfl, by rw [List.take_length]; exact hroot⟩
    · rw [Function.update_of_ne hcursor]
      rcases ht.known i hi with hzero | ⟨k, hk, hknown⟩
      · exact Or.inl hzero
      · refine Or.inr ⟨k, by omega, ?_⟩
        rw [hknown, List.take_append_of_le_length hk]

theorem insert_ok_iff {t : IncrementalMerkleTree} {leaves : List ℕ} (ht : Tracks P t leaves) (leaf : ℕ) :
    (∃ r, t.insert P leaf = .ok r) ↔ leaves.length < 2 ^ t.levels := by
  simp only [insert, bind_eq_ok, require_eq_ok, pure_eq_ok, ht.nextIndex_eq,
    insertLoop_eq _ _ _ _ _ (show 0 + t.levels ≤ 20 by rw [Nat.zero_add]; exact ht.levels_le),
    Except.ok.injEq, exists_eq_left']
  constructor
  · rintro ⟨r, -, hroom, -⟩
    omega
  · intro hroom
    exact ⟨_, (), by omega, rfl⟩

theorem insertAll_tracks (hzeros : P.ZeroTable zeroTable) {t t' : IncrementalMerkleTree} {before leaves : List ℕ}
    (ht : Tracks P t before) (hinsert : t.insertAll P leaves = .ok t') :
    Tracks P t' (before ++ leaves) ∧ t'.levels = t.levels := by
  induction leaves generalizing t before with
  | nil =>
    rw [insertAll, Except.ok.injEq] at hinsert
    subst hinsert
    exact ⟨by rwa [List.append_nil], rfl⟩
  | cons leaf leaves ih =>
    rw [insertAll, bind_eq_ok] at hinsert
    obtain ⟨⟨t₁, index⟩, hleaf, hrest⟩ := hinsert
    obtain ⟨ht₁, -, hlevels, -⟩ := insert_tracks hzeros ht hleaf
    obtain ⟨ht', hlevels'⟩ := ih ht₁ hrest
    refine ⟨?_, hlevels'.trans hlevels⟩
    rwa [List.append_assoc, List.singleton_append] at ht'

/-- A run of insertions succeeds exactly while the leaves fit. -/
theorem insertAll_ok_iff (hzeros : P.ZeroTable zeroTable) {t : IncrementalMerkleTree} {before leaves : List ℕ}
    (ht : Tracks P t before) :
    (∃ t', t.insertAll P leaves = .ok t') ↔ before.length + leaves.length ≤ 2 ^ t.levels := by
  induction leaves generalizing t before with
  | nil => simpa [insertAll] using ht.length_le
  | cons leaf leaves ih =>
    simp only [insertAll, bind_eq_ok, List.length_cons]
    constructor
    · rintro ⟨t', ⟨t₁, index⟩, hleaf, hrest⟩
      obtain ⟨ht₁, -, hlevels, -⟩ := insert_tracks hzeros ht hleaf
      have hfits := (ih ht₁).mp ⟨t', hrest⟩
      rw [hlevels, List.length_append, List.length_singleton] at hfits
      omega
    · intro hfits
      obtain ⟨⟨t₁, index⟩, hleaf⟩ := (insert_ok_iff ht leaf).mpr (by omega)
      obtain ⟨ht₁, -, hlevels, -⟩ := insert_tracks hzeros ht hleaf
      obtain ⟨t', hrest⟩ := (ih ht₁).mpr (by
        rw [hlevels, List.length_append, List.length_singleton]
        omega)
      exact ⟨t', (t₁, index), hleaf, hrest⟩

/-! ### The ring of roots -/

theorem roots_of_knownRootLoop {t : IncrementalMerkleTree} {root : ℕ} (remaining i : ℕ)
    (hi : i < t.rootHistorySize) (hknown : t.knownRootLoop root remaining i = true) :
    ∃ j < t.rootHistorySize, t.roots j = root := by
  induction remaining generalizing i with
  | zero => simp [knownRootLoop] at hknown
  | succ remaining ih =>
    rw [knownRootLoop] at hknown
    by_cases hroot : t.roots i = root
    · exact ⟨i, hi, hroot⟩
    · rw [if_neg hroot] at hknown
      have hnext : (if i = 0 then t.rootHistorySize else i) - 1 < t.rootHistorySize := by
        split <;> omega
      by_cases hback : (if i = 0 then t.rootHistorySize else i) - 1 ≠ t.currentRootIndex
      · rw [if_pos hback] at hknown
        exact ih _ hnext hknown
      · rw [if_neg hback] at hknown
        exact absurd hknown Bool.false_ne_true

/-- **A known root is the root of a prefix.** -/
theorem root_of_isKnownRoot {t : IncrementalMerkleTree} {leaves : List ℕ} {root : ℕ}
    (ht : Tracks P t leaves) (hknown : t.isKnownRoot root = true) :
    ∃ k ≤ leaves.length, root = MerkleTree.root P.hashWords 0 t.levels (leaves.take k) := by
  rw [isKnownRoot] at hknown
  split at hknown
  · simp at hknown
  · rename_i hroot
    obtain ⟨j, hj, rfl⟩ := roots_of_knownRootLoop _ _ ht.cursor_lt hknown
    rcases ht.known j hj with hzero | htaken
    · exact absurd hzero hroot
    · exact htaken

end IncrementalMerkleTree

end ScatterDex
