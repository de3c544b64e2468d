import ScatterDex.Sdk.LiveTree
import ScatterDex.Protocol.LeafTrust

/-!
# Proofs from a tree under insertion

Insertions that do not overtake each other may overlap: each level stores what the insertions that passed it have left there, and the root is that of the finished ones. A proof takes its siblings from all leaves and its root from the finished insertions, so the two agree only if no leaf waits between them.
-/

namespace ScatterDex

open Fallible Transactions

namespace Sdk

variable {P : Poseidon}

/-! ### Levels -/

/-- The last `m` leaves are under way, and the one at offset `k` has passed `passed k` levels. Level `i` was passed by the first `reached i` leaves, and stores what they left. -/
structure Levels (P : Poseidon) (t : IncrementalMerkleTree) (m : ℕ) (passed reached : ℕ → ℕ) : Prop where
  depth_le : t.depth ≤ 20
  length_filled : t.filledSubtrees.length = t.depth
  length_le : t.leaves.length ≤ 2 ^ t.depth
  waiting_le : m ≤ t.leaves.length
  bounds : ∀ i < t.depth, t.leaves.length - m ≤ reached i ∧ reached i ≤ t.leaves.length
  passed_iff : ∀ k < m, ∀ i < t.depth, (i < passed k ↔ t.leaves.length - m + k < reached i)
  stored : ∀ i < t.depth, MerkleTree.StoredAt P.hashWords 0 (t.leaves.take (reached i)) i (t.filledSubtrees.getD i 0)

/-- The node above leaf `j` at a level, when the leaves up to it are there. -/
def nodeAbove (P : Poseidon) (leaves : List ℕ) (j i : ℕ) : ℕ :=
  MerkleTree.node P.hashWords (MerkleTree.padded 0 (leaves.take (j + 1))) i (j / 2 ^ i)

/-- An insertion that awaits a node above its leaf, the one with index `j`. -/
structure Insertion.At (P : Poseidon) (leaves : List ℕ) (j : ℕ) (p : Insertion) : Prop where
  index : p.currentIndex = j / 2 ^ p.i
  awaited : P.hashWords p.left p.right = nodeAbove P leaves j (p.i + 1)

section

variable {t : IncrementalMerkleTree} {m : ℕ} {passed reached : ℕ → ℕ}

theorem levels_new {depth : ℕ} (hzeros : P.ZeroTable zeros) (hnew : IncrementalMerkleTree.new depth = .ok t) :
    Levels P t 0 (fun _ => 0) (fun _ => 0) := by
  obtain ⟨htracks, -, hleaves⟩ := IncrementalMerkleTree.new_tracks hzeros hnew
  constructor
  · exact htracks.depth_le
  · exact htracks.length_filled
  · exact htracks.length_le
  · exact Nat.zero_le _
  · intro i _
    rw [hleaves]
    exact ⟨le_rfl, le_rfl⟩
  · intro k hk
    exact absurd hk (Nat.not_lt_zero k)
  · intro i _ hodd
    rw [List.take_zero] at hodd
    simp at hodd

theorem Levels.push (ht : Levels P t m passed reached) (hroom : t.leaves.length < 2 ^ t.depth) (leaf : ℕ) :
    Levels P (t.push leaf) (m + 1) (Function.update passed m 0) reached := by
  have hlength : (t.push leaf).leaves.length = t.leaves.length + 1 := List.length_append
  have hwaiting := ht.waiting_le
  constructor
  · exact ht.depth_le
  · exact ht.length_filled
  · exact hlength ▸ hroom
  · omega
  · intro i hi
    have hbounds := ht.bounds i hi
    omega
  · intro k hk i hi
    have hbounds := ht.bounds i hi
    rcases Nat.lt_succ_iff_lt_or_eq.mp hk with hk | rfl
    · rw [Function.update_of_ne hk.ne, ht.passed_iff k hk i hi, hlength]
      omega
    · rw [Function.update_self]
      omega
  · intro i hi
    have htake : (t.push leaf).leaves.take (reached i) = t.leaves.take (reached i) :=
      List.take_append_of_le_length (ht.bounds i hi).2
    rw [htake]
    exact ht.stored i hi

/-- The first at a level finds there what all leaves before it left. -/
theorem Levels.reached_eq (ht : Levels P t m passed reached) {k : ℕ} (hk : k < m) (hi : passed k < t.depth)
    (hahead : ∀ k' < k, passed k < passed k') : reached (passed k) = t.leaves.length - m + k := by
  have hbound := (ht.bounds _ hi).1
  have hbehind := mt (ht.passed_iff k hk _ hi).mpr (lt_irrefl _)
  cases k with
  | zero => omega
  | succ k =>
    have hpassed := (ht.passed_iff k (by omega) _ hi).mp (hahead k (Nat.lt_succ_self k))
    omega

/-- A turn below the root: the insertion asks for the next node above its leaf, and the level it passes stores what the leaves up to its own need. -/
theorem Levels.turn (hzeros : P.ZeroTable zeros) (ht : Levels P t m passed reached) {k j : ℕ} (hk : k < m)
    (hj : j = t.leaves.length - m + k) (hi : passed k < t.depth) (hahead : ∀ k' < k, passed k < passed k') :
    ∃ p filledSubtrees, t.turn (passed k) (j / 2 ^ passed k) (nodeAbove P t.leaves j (passed k)) =
        ({ t with filledSubtrees }, some p) ∧ p.i = passed k ∧ p.At P t.leaves j ∧
      Levels P { t with filledSubtrees } m (Function.update passed k (passed k + 1))
        (Function.update reached (passed k) (j + 1)) := by
  have hwaiting := ht.waiting_le
  have hlt : j < t.leaves.length := by omega
  have hnext : reached (passed k) = j := by rw [ht.reached_eq hk hi hahead, hj]
  have hstored := ht.stored _ hi
  have hsucc : t.leaves.take (j + 1) = t.leaves.take j ++ [t.leaves[j]] := List.take_succ_eq_append_getElem hlt
  have hlength : (t.leaves.take j).length = j := by rw [List.length_take, min_eq_left hlt.le]
  have hempty : zeros.getD (passed k) 0 = MerkleTree.emptyRoot P.hashWords 0 (passed k) := by
    have htable : zeros.length = 21 := rfl
    have hdepth := ht.depth_le
    exact hzeros.getD rfl (by omega)
  rw [hnext] at hstored
  have happend := hstored.append _ _ (t.leaves[j])
  rw [hlength, ← hsucc] at happend
  -- the other levels are as they were
  have hlevels : ∀ filledSubtrees : List ℕ, filledSubtrees.length = t.depth →
      MerkleTree.StoredAt P.hashWords 0 (t.leaves.take (j + 1)) (passed k) (filledSubtrees.getD (passed k) 0) →
      (∀ i ≠ passed k, filledSubtrees.getD i 0 = t.filledSubtrees.getD i 0) →
      Levels P { t with filledSubtrees } m (Function.update passed k (passed k + 1))
        (Function.update reached (passed k) (j + 1)) := by
    intro filledSubtrees hfilled hhere hother
    constructor
    · exact ht.depth_le
    · exact hfilled
    · exact ht.length_le
    · exact ht.waiting_le
    · intro i hi'
      have hbounds := ht.bounds i hi'
      rw [Function.update_apply]
      split
      · show t.leaves.length - m ≤ j + 1 ∧ j + 1 ≤ t.leaves.length
        omega
      · exact hbounds
    · intro k' hk' i hi'
      have hold := ht.passed_iff k' hk' i hi'
      have hold' := ht.passed_iff k hk i hi'
      show _ ↔ t.leaves.length - m + k' < _
      by_cases hsame : i = passed k
      · subst hsame
        rw [Function.update_self, Function.update_apply]
        split
        · omega
        · rcases Nat.lt_or_gt_of_ne (by assumption : k' ≠ k) with hbefore | hafter
          · have := hahead k' hbefore
            omega
          · omega
      · rw [Function.update_of_ne hsame, Function.update_apply]
        split
        · subst k'
          omega
        · exact hold
    · intro i hi'
      by_cases hsame : i = passed k
      · rw [hsame, Function.update_self]
        exact hhere
      · rw [Function.update_of_ne hsame]
        show MerkleTree.StoredAt P.hashWords 0 _ i (filledSubtrees.getD i 0)
        rw [hother i hsame]
        exact ht.stored i hi'
  have hnode : nodeAbove P t.leaves j (passed k) =
      MerkleTree.node P.hashWords (MerkleTree.padded 0 (t.leaves.take (j + 1))) (passed k) (j / 2 ^ passed k) := rfl
  have habove : nodeAbove P t.leaves j (passed k + 1) =
      MerkleTree.node P.hashWords (MerkleTree.padded 0 (t.leaves.take (j + 1))) (passed k + 1) (j / 2 ^ passed k / 2) := by
    rw [nodeAbove, Nat.div_div_eq_div_mul, ← pow_succ]
  rw [IncrementalMerkleTree.turn, if_pos hi]
  rcases Nat.mod_two_eq_zero_or_one (j / 2 ^ passed k) with heven | hodd
  · have hpair := MerkleTree.node_of_left P.hashWords 0 (t.leaves[j]) (i := passed k) (by rwa [hlength])
    rw [hlength, ← hsucc, ← hnode, ← habove, ← hempty] at hpair
    refine ⟨_, _, if_pos heven, rfl, ⟨rfl, hpair⟩, hlevels _ (by rw [List.length_set, ht.length_filled]) ?_ fun i hne => ?_⟩
    · rw [if_pos heven] at happend
      rwa [List.getD_eq_getElem _ _ (by rw [List.length_set, ht.length_filled]; exact hi), List.getElem_set_self]
    · rw [List.getD_eq_getElem?_getD, List.getElem?_set_ne hne.symm, ← List.getD_eq_getElem?_getD]
  · have hpair := MerkleTree.node_of_right P.hashWords 0 (t.leaves[j]) (i := passed k) (by rwa [hlength]) hstored
    rw [hlength, ← hsucc, ← hnode, ← habove] at hpair
    refine ⟨_, t.filledSubtrees, if_neg (by omega), rfl, ⟨rfl, hpair⟩, hlevels _ ht.length_filled ?_ fun _ _ => rfl⟩
    rwa [if_neg (by omega)] at happend

theorem turn_last {i : ℕ} (hi : ¬i < t.depth) (currentIndex currentHash : ℕ) :
    t.turn i currentIndex currentHash = ({ t with root := currentHash }, none) :=
  if_neg hi

theorem Levels.settle (ht : Levels P t (m + 1) passed reached) (hpassed : ¬passed 0 < t.depth) (root : ℕ) :
    Levels P { t with root } m (fun k => passed (k + 1)) reached := by
  have hwaiting := ht.waiting_le
  constructor
  · exact ht.depth_le
  · exact ht.length_filled
  · exact ht.length_le
  · show m ≤ t.leaves.length
    omega
  · intro i hi
    have hbounds := ht.bounds i hi
    have hfirst := (ht.passed_iff 0 (Nat.succ_pos m) i hi).mp (lt_of_lt_of_le hi (not_lt.mp hpassed))
    show t.leaves.length - m ≤ _ ∧ _ ≤ t.leaves.length
    omega
  · intro k hk i hi
    have hnext := ht.passed_iff (k + 1) (by omega) i hi
    show _ ↔ t.leaves.length - m + k < _
    rw [hnext]
    omega
  · exact ht.stored

end

/-! ### States -/

theorem Insertion.At.push {t : IncrementalMerkleTree} {j : ℕ} {p : Insertion} (hp : p.At P t.leaves j)
    (hj : j < t.leaves.length) (leaf : ℕ) : p.At P (t.push leaf).leaves j where
  index := hp.index
  awaited := by rw [hp.awaited, nodeAbove, nodeAbove, IncrementalMerkleTree.push, List.take_append_of_le_length hj]

namespace LiveTree

/-- A proof leads from the leaf to its root, which is that of the leaves up to some point behind it. -/
structure Proves (P : Poseidon) (depth : ℕ) (leaves : List ℕ) (leafIndex : ℕ) (answer : MerkleProof) : Prop where
  root : ∃ n, leafIndex < n ∧ n ≤ leaves.length ∧ answer.root = MerkleTree.root P.hashWords 0 depth (leaves.take n)
  path : ∃ leaf, leaves[leafIndex]? = some leaf ∧
    MerkleTree.PathTo P.hashWords depth leaf answer.root answer.pathElements answer.pathIndices

/-- No insertion overtakes an earlier one, and a proof is read when only empty leaves wait. -/
def Calm (s : LiveTree) : Step → Prop
  | .resume k => ∀ p : Insertion, s.insertions[k]? = some p → ∀ q ∈ s.insertions.take k, p.i < q.i
  | .read _ => ∀ leaf ∈ s.tree.leaves.drop s.finished, leaf = 0
  | _ => True

instance (s : LiveTree) (a : Step) : Decidable (s.Calm a) :=
  match a with
  | .insert _ => .isTrue trivial
  | .proof _ => .isTrue trivial
  | .read _ => inferInstanceAs (Decidable (∀ leaf ∈ s.tree.leaves.drop s.finished, leaf = 0))
  | .resume k =>
    decidable_of_iff ((s.insertions[k]?.all fun p => (s.insertions.take k).all fun q => decide (p.i < q.i)) = true) (by
      simp [Calm, Option.all_eq_true])

/-- What holds while the insertions stay in order. -/
structure Ordered (P : Poseidon) (s : LiveTree) (passed reached : ℕ → ℕ) : Prop where
  levels : Levels P s.tree s.insertions.length passed reached
  waits : ∀ (k : ℕ) (p : Insertion), s.insertions[k]? = some p →
    p.i < s.tree.depth ∧ passed k = p.i + 1 ∧ p.At P s.tree.leaves (s.finished + k)
  root_eq : s.tree.root = MerkleTree.root P.hashWords 0 s.tree.depth (s.tree.leaves.take s.finished)
  proving : ∀ leafIndex ∈ s.proving, leafIndex < s.tree.leaves.length
  proofs : ∀ r ∈ s.proofs, Proves P s.tree.depth s.tree.leaves r.1 r.2

variable {s s' : LiveTree} {passed reached : ℕ → ℕ}

theorem Proves.append {depth leafIndex : ℕ} {leaves : List ℕ} {answer : MerkleProof}
    (hproof : Proves P depth leaves leafIndex answer) (leaf : ℕ) : Proves P depth (leaves ++ [leaf]) leafIndex answer where
  root := by
    obtain ⟨n, hlt, hle, hroot⟩ := hproof.root
    refine ⟨n, hlt, hle.trans (by simp), ?_⟩
    rw [hroot, List.take_append_of_le_length hle]
  path := by
    obtain ⟨found, hfound, hpath⟩ := hproof.path
    exact ⟨found, by rw [List.getElem?_append_left (List.getElem?_eq_some_iff.mp hfound).1, hfound], hpath⟩

theorem ordered_start {depth : ℕ} {tree : IncrementalMerkleTree} (hzeros : P.ZeroTable zeros)
    (hnew : IncrementalMerkleTree.new depth = .ok tree) : (start tree).Ordered P (fun _ => 0) (fun _ => 0) where
  levels := levels_new hzeros hnew
  waits k p hp := by cases hp
  root_eq := by
    obtain ⟨htracks, -, hleaves⟩ := IncrementalMerkleTree.new_tracks hzeros hnew
    show tree.root = _
    rw [htracks.root_eq, finished, start, hleaves]
    rfl
  proving leafIndex hmem := by cases hmem
  proofs r hr := by cases hr

theorem Ordered.finished_add (hs : s.Ordered P passed reached) : s.finished + s.insertions.length = s.tree.leaves.length := by
  have hwaiting := hs.levels.waiting_le
  unfold finished
  omega

/-- A leaf is pushed: what waits and what was answered speaks of the leaves before it. -/
theorem Ordered.pushed (hs : s.Ordered P passed reached) (leaf : ℕ) :
    (∀ (k : ℕ) (p : Insertion), s.insertions[k]? = some p →
      p.i < s.tree.depth ∧ passed k = p.i + 1 ∧ p.At P (s.tree.push leaf).leaves (s.finished + k)) ∧
    (∀ leafIndex ∈ s.proving, leafIndex < (s.tree.push leaf).leaves.length) ∧
    ∀ r ∈ s.proofs, Proves P s.tree.depth (s.tree.push leaf).leaves r.1 r.2 := by
  have hlength : (s.tree.push leaf).leaves.length = s.tree.leaves.length + 1 := List.length_append
  refine ⟨fun k p hp => ?_, fun leafIndex hmem => ?_, fun r hr => (hs.proofs r hr).append leaf⟩
  · obtain ⟨hi, hpassed, hat⟩ := hs.waits k p hp
    have hk := (List.getElem?_eq_some_iff.mp hp).1
    have hadd := hs.finished_add
    exact ⟨hi, hpassed, hat.push (by omega) leaf⟩
  · have hlt := hs.proving leafIndex hmem
    omega

theorem Ordered.insert (hzeros : P.ZeroTable zeros) {leaf : ℕ} (hs : s.Ordered P passed reached)
    (hstep : run P (.insert leaf) s = .ok s') : ∃ passed' reached', s'.Ordered P passed' reached' := by
  simp only [run, bind_eq_ok, require_eq_ok] at hstep
  obtain ⟨-, hroom, hstep⟩ := hstep
  have hlength : (s.tree.push leaf).leaves.length = s.tree.leaves.length + 1 := List.length_append
  have hadd := hs.finished_add
  have hpush := hs.levels.push (not_le.mp hroom) leaf
  obtain ⟨hwaits, hproving, hproofs⟩ := hs.pushed leaf
  have hleaf : leaf = nodeAbove P (s.tree.push leaf).leaves s.tree.leaves.length 0 := by
    rw [nodeAbove, ← hlength, List.take_length, pow_zero, Nat.div_one]
    exact (MerkleTree.padded_append_length 0 s.tree.leaves leaf).symm
  by_cases hdepth : 0 < (s.tree.push leaf).depth
  · obtain ⟨p, filledSubtrees, hturn, hi, hat, hlevels⟩ := hpush.turn hzeros (Nat.lt_succ_self _)
      (show s.tree.leaves.length = _ by omega) (by rw [Function.update_self]; exact hdepth) (by
        intro k' hk'
        rw [Function.update_self, Function.update_of_ne hk'.ne]
        have hq := List.getElem?_eq_getElem hk'
        rw [(hs.waits k' _ hq).2.1]
        exact Nat.succ_pos _)
    rw [Function.update_self, pow_zero, Nat.div_one, ← hleaf] at hturn
    rw [Function.update_self] at hi hlevels
    rw [hturn, pure_eq_ok] at hstep
    subst hstep
    have hfinished : (s.tree.push leaf).leaves.length - (s.insertions ++ [p]).length = s.finished := by
      rw [List.length_append, List.length_singleton]
      omega
    refine ⟨Function.update (Function.update passed s.insertions.length 0) s.insertions.length 1,
      Function.update reached 0 (s.tree.leaves.length + 1), ?_, ?_, ?_, hproving, hproofs⟩
    · rw [List.length_append]
      exact hlevels
    · intro k q hq
      show q.i < s.tree.depth ∧ _ ∧ q.At P (s.tree.push leaf).leaves ((s.tree.push leaf).leaves.length - (s.insertions ++ [p]).length + k)
      rw [hfinished]
      rw [List.getElem?_append] at hq
      split at hq
      · rename_i hk
        rw [Function.update_of_ne hk.ne, Function.update_of_ne hk.ne]
        exact hwaits k q hq
      · rename_i hk
        rw [List.getElem?_singleton] at hq
        split at hq
        · obtain rfl := Option.some.inj hq
          obtain rfl : k = s.insertions.length := by omega
          rw [Function.update_self, hi, hadd]
          exact ⟨hdepth, rfl, hat⟩
        · cases hq
    · show s.tree.root = MerkleTree.root P.hashWords 0 s.tree.depth
        ((s.tree.push leaf).leaves.take ((s.tree.push leaf).leaves.length - (s.insertions ++ [p]).length))
      rw [hfinished, hs.root_eq, IncrementalMerkleTree.push, List.take_append_of_le_length (by omega)]
  · rw [turn_last hdepth, pure_eq_ok] at hstep
    subst hstep
    have hnone : s.insertions = [] := by
      rw [List.eq_nil_iff_forall_not_mem]
      intro q hq
      obtain ⟨k, hk⟩ := List.mem_iff_getElem?.mp hq
      exact hdepth (Nat.zero_lt_of_lt (hs.waits k q hk).1)
    have hdepth : s.tree.depth = 0 := Nat.eq_zero_of_not_pos hdepth
    rw [hnone, List.length_nil] at hpush
    refine ⟨fun k => Function.update passed 0 0 (k + 1), reached, ?_, ?_, ?_, hproving, hproofs⟩
    · show Levels P _ s.insertions.length _ _
      rw [hnone]
      exact hpush.settle (by rw [Function.update_self]; omega) leaf
    · intro k q hq
      have hq : s.insertions[k]? = some q := hq
      rw [hnone] at hq
      cases hq
    · show leaf = MerkleTree.root P.hashWords 0 s.tree.depth
        ((s.tree.push leaf).leaves.take ((s.tree.push leaf).leaves.length - s.insertions.length))
      have hempty : s.tree.leaves = [] := by
        rw [hdepth, pow_zero] at hroom
        exact List.length_eq_zero_iff.mp (by omega)
      rw [hnone, hdepth, IncrementalMerkleTree.push, hempty]
      rfl

theorem Ordered.resume (hzeros : P.ZeroTable zeros) {k : ℕ} (hs : s.Ordered P passed reached) (hcalm : s.Calm (.resume k))
    (hstep : run P (.resume k) s = .ok s') : ∃ passed' reached', s'.Ordered P passed' reached' := by
  simp only [run, bind_eq_ok, orError_eq_ok] at hstep
  obtain ⟨p, hp, hstep⟩ := hstep
  have hadd := hs.finished_add
  have hk := (List.getElem?_eq_some_iff.mp hp).1
  obtain ⟨hi, hpassed, hat⟩ := hs.waits k p hp
  have hahead : ∀ k' < k, passed k < passed k' := by
    intro k' hk'
    have hq := List.getElem?_eq_getElem (hk'.trans hk)
    have hmem : s.insertions[k'] ∈ s.insertions.take k := by
      rw [List.mem_take_iff_getElem]
      exact ⟨k', by omega, rfl⟩
    rw [hpassed, (hs.waits k' _ hq).2.1]
    have := hcalm p hp _ hmem
    omega
  rw [hat.index, hat.awaited, Nat.div_div_eq_div_mul, ← pow_succ, ← hpassed] at hstep
  by_cases hdepth : passed k < s.tree.depth
  · obtain ⟨q, filledSubtrees, hturn, hqi, hqat, hlevels⟩ := hs.levels.turn hzeros hk
      (show s.finished + k = _ from rfl) hdepth hahead
    rw [hturn, pure_eq_ok] at hstep
    subst hstep
    have hfinished : s.tree.leaves.length - (s.insertions.set k q).length = s.finished := by
      rw [List.length_set]
      rfl
    refine ⟨Function.update passed k (passed k + 1), Function.update reached (passed k) (s.finished + k + 1), ?_, ?_, ?_,
      hs.proving, hs.proofs⟩
    · rw [List.length_set]
      exact hlevels
    · intro k' r hr
      show r.i < s.tree.depth ∧ _ ∧ r.At P s.tree.leaves (s.tree.leaves.length - (s.insertions.set k q).length + k')
      rw [hfinished]
      by_cases hsame : k' = k
      · subst hsame
        obtain rfl := Option.some.inj ((List.getElem?_set_self hk).symm.trans hr)
        rw [Function.update_self, hqi]
        exact ⟨hdepth, rfl, hqat⟩
      · rw [Function.update_of_ne hsame]
        exact hs.waits k' r ((List.getElem?_set_ne (Ne.symm hsame)).symm.trans hr)
    · show s.tree.root = MerkleTree.root P.hashWords 0 s.tree.depth
        (s.tree.leaves.take (s.tree.leaves.length - (s.insertions.set k q).length))
      rw [hfinished]
      exact hs.root_eq
  · rw [turn_last hdepth, pure_eq_ok] at hstep
    subst hstep
    -- all earlier insertions are past the last level, so there are none
    have hfirst : k = 0 := by
      rcases Nat.eq_zero_or_pos k with hzero | hpos
      · exact hzero
      · have hq := List.getElem?_eq_getElem (hpos.trans hk)
        have hlevel := (hs.waits 0 _ hq).1
        have hmore := hahead 0 hpos
        rw [(hs.waits 0 _ hq).2.1] at hmore
        omega
    subst hfirst
    obtain ⟨rest, hrest⟩ : ∃ rest, s.insertions = p :: rest := by
      cases hlist : s.insertions with
      | nil => rw [hlist] at hk; cases hk
      | cons q rest =>
        rw [hlist] at hp
        exact ⟨rest, congrArg (· :: rest) (Option.some.inj hp)⟩
    have hlength : s.insertions.length = rest.length + 1 := by rw [hrest, List.length_cons]
    have herase : s.insertions.eraseIdx 0 = rest := by rw [hrest]; rfl
    have hfinished : s.tree.leaves.length - rest.length = s.finished + 1 := by omega
    have hlevels := hs.levels
    rw [hlength] at hlevels
    refine ⟨fun k => passed (k + 1), reached, ?_, ?_, ?_, hs.proving, hs.proofs⟩
    · show Levels P _ (s.insertions.eraseIdx 0).length _ _
      rw [herase]
      exact hlevels.settle hdepth _
    · intro k' r hr
      show r.i < s.tree.depth ∧ _ ∧ r.At P s.tree.leaves (s.tree.leaves.length - (s.insertions.eraseIdx 0).length + k')
      have hr : (s.insertions.eraseIdx 0)[k']? = some r := hr
      rw [herase] at hr ⊢
      rw [hfinished, Nat.add_assoc, Nat.add_comm 1]
      exact hs.waits (k' + 1) r (by rw [hrest]; exact hr)
    · show nodeAbove P s.tree.leaves (s.finished + 0) (passed 0) = MerkleTree.root P.hashWords 0 s.tree.depth
        (s.tree.leaves.take (s.tree.leaves.length - (s.insertions.eraseIdx 0).length))
      have htop : passed 0 = s.tree.depth := by omega
      have hroom := hs.levels.length_le
      rw [herase, hfinished, htop, nodeAbove, Nat.div_eq_of_lt (by omega)]
      rfl

/-- Siblings and root agree when only empty leaves wait. -/
theorem Ordered.read (hzeros : P.ZeroTable zeros) {k : ℕ} (hs : s.Ordered P passed reached) (hcalm : s.Calm (.read k))
    (hstep : run P (.read k) s = .ok s') : s'.Ordered P passed reached := by
  simp only [run, bind_eq_ok, orError_eq_ok, pure_eq_ok] at hstep
  obtain ⟨leafIndex, hmem, rfl⟩ := hstep
  have hlt := hs.proving leafIndex (List.mem_of_getElem? hmem)
  refine ⟨hs.levels, hs.waits, hs.root_eq, fun i hi => hs.proving i (List.mem_of_mem_eraseIdx hi), fun r hr => ?_⟩
  rcases List.mem_append.mp hr with hold | hnew
  · exact hs.proofs r hold
  obtain rfl := List.mem_singleton.mp hnew
  have hpadded : MerkleTree.padded 0 (s.tree.leaves.take s.finished) = MerkleTree.padded 0 s.tree.leaves := by
    funext i
    rw [MerkleTree.padded, MerkleTree.padded, List.getD_eq_getElem?_getD, List.getD_eq_getElem?_getD, List.getElem?_take]
    split
    · rfl
    · rename_i hi
      cases hleaf : s.tree.leaves[i]? with
      | none => rfl
      | some leaf =>
        have hwaiting : (s.tree.leaves.drop s.finished)[i - s.finished]? = some leaf := by
          rw [List.getElem?_drop, Nat.add_sub_cancel' (not_lt.mp hi), hleaf]
        exact (hcalm leaf (List.mem_of_getElem? hwaiting)).symm
  have hroot : s.tree.root = MerkleTree.root P.hashWords 0 s.tree.depth s.tree.leaves := by
    rw [hs.root_eq, MerkleTree.root, hpadded]
    rfl
  have hloop := IncrementalMerkleTree.proofLoop_eq hzeros leafIndex s.tree.depth 0 (by rw [Nat.zero_add]; exact hs.levels.depth_le)
    (MerkleTree.isLayer_padded s.tree.leaves)
  rw [pow_zero, Nat.div_one] at hloop
  constructor
  · exact ⟨s.tree.leaves.length, hlt, le_rfl, by rw [List.take_length]; exact hroot⟩
  · refine ⟨s.tree.leaves[leafIndex], List.getElem?_eq_getElem hlt, ?_⟩
    show MerkleTree.PathTo P.hashWords s.tree.depth _ s.tree.root _ _
    rw [hloop, hroot, ← List.range_eq_range']
    have hpath := MerkleTree.pathTo_root P.hashWords (MerkleTree.padded 0 s.tree.leaves) (hlt.trans_le hs.levels.length_le)
    rwa [MerkleTree.padded, List.getD_eq_getElem _ _ hlt] at hpath

theorem Ordered.step (hzeros : P.ZeroTable zeros) {a : Step} (hs : s.Ordered P passed reached) (hcalm : s.Calm a)
    (hstep : run P a s = .ok s') : ∃ passed' reached', s'.Ordered P passed' reached' := by
  cases a with
  | insert leaf => exact hs.insert hzeros hstep
  | resume k => exact hs.resume hzeros hcalm hstep
  | read k => exact ⟨passed, reached, hs.read hzeros hcalm hstep⟩
  | proof leafIndex =>
    simp only [run, bind_eq_ok, require_eq_ok, pure_eq_ok] at hstep
    obtain ⟨-, hrange, rfl⟩ := hstep
    refine ⟨passed, reached, hs.levels, hs.waits, hs.root_eq, fun i hi => ?_, hs.proofs⟩
    rcases List.mem_append.mp hi with hold | hnew
    · exact hs.proving i hold
    · obtain rfl := List.mem_singleton.mp hnew
      show leafIndex.toNat < s.tree.leaves.length
      omega

/-- In a calm run every proof leads from its leaf to a root that covers the leaf. -/
theorem proofs_lead (hzeros : P.ZeroTable zeros) {depth : ℕ} {tree : IncrementalMerkleTree}
    (hnew : IncrementalMerkleTree.new depth = .ok tree) (as : List Step) (halong : Along (run P) Calm (start tree) as) :
    ∀ r ∈ (after (run P) (start tree) as).proofs,
      Proves P (after (run P) (start tree) as).tree.depth (after (run P) (start tree) as).tree.leaves r.1 r.2 := by
  obtain ⟨passed, reached, hs⟩ := invariant_along (I := fun s => ∃ passed reached, Ordered P s passed reached)
    (fun s a s' hs ha hstep => by
      obtain ⟨passed, reached, hs⟩ := hs
      exact hs.step hzeros ha hstep) ⟨_, _, ordered_start hzeros hnew⟩ halong
  exact hs.proofs

def smallTree (depth : ℕ) : IncrementalMerkleTree := ⟨depth, zeros.take depth, [], zeros.getD depth 0⟩

/-- Two insertions overlap, and the second leaf is proved. -/
def overlapping : List Step := [.insert 5, .insert 6, .resume 0, .resume 1, .resume 0, .resume 0, .proof 1, .read 0]

theorem proofs_lead_overlapping : ∃ r ∈ (after (run tradePoseidon) (start (smallTree 2)) overlapping).proofs,
    Proves tradePoseidon (after (run tradePoseidon) (start (smallTree 2)) overlapping).tree.depth
      (after (run tradePoseidon) (start (smallTree 2)) overlapping).tree.leaves r.1 r.2 := by
  have hthere : (after (run tradePoseidon) (start (smallTree 2)) overlapping).proofs ≠ [] := by decide +kernel
  obtain ⟨r, hr⟩ := List.exists_mem_of_ne_nil _ hthere
  exact ⟨r, hr, proofs_lead tradePoseidon_sdkZeros (show IncrementalMerkleTree.new 2 = .ok (smallTree 2) from rfl) overlapping
    ⟨by decide +kernel, by decide +kernel, by decide +kernel, by decide +kernel, by decide +kernel, by decide +kernel,
      by decide +kernel, by decide +kernel, trivial⟩ r hr⟩

/-- The first leaf is proved while the second waits for its hash. -/
def torn : List Step :=
  [.insert makerOrder.deposited, .resume 0, .insert takerOrder.deposited, .proof 0, .read 0]

/-- The sibling is the new leaf, and the root is the old one. -/
theorem torn_proof : ¬∀ P : Poseidon, P.ZeroTable zeros → ∀ depth tree, IncrementalMerkleTree.new depth = .ok tree →
    ∀ as, ∀ r ∈ (after (run P) (start tree) as).proofs,
      Proves P (after (run P) (start tree) as).tree.depth (after (run P) (start tree) as).tree.leaves r.1 r.2 := by
  intro h
  have hproofs : (after (run tradePoseidon) (start (smallTree 1)) torn).proofs =
      [(0, ⟨tradePoseidon.hashWords makerOrder.deposited 0, [takerOrder.deposited], [0]⟩)] := by decide +kernel
  have hleaves : (after (run tradePoseidon) (start (smallTree 1)) torn).tree.leaves =
      [makerOrder.deposited, takerOrder.deposited] := by decide +kernel
  have hdepth : (after (run tradePoseidon) (start (smallTree 1)) torn).tree.depth = 1 := by decide +kernel
  obtain ⟨leaf, hleaf, hpath⟩ := (h tradePoseidon tradePoseidon_sdkZeros 1 (smallTree 1) rfl torn _ (by
    rw [hproofs]
    exact List.mem_singleton_self _)).path
  rw [hleaves] at hleaf
  rw [hdepth] at hpath
  obtain rfl := Option.some.inj hleaf
  have hdistinct : tradePoseidon.hashWords makerOrder.deposited takerOrder.deposited ≠
      tradePoseidon.hashWords makerOrder.deposited 0 := by decide +kernel
  exact hdistinct (hpath.climbs 0)

end LiveTree

end Sdk

end ScatterDex
