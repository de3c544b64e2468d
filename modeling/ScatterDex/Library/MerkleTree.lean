import Mathlib.Data.List.GetD
import Mathlib.Data.Set.Function
import Mathlib.Logic.Function.Basic
import Mathlib.Tactic.Ring

/-!
# Binary Merkle trees

The tree over an arbitrary two-to-one hash: its nodes as a function of the leaves, the climb a membership proof makes, and the two facts a protocol needs of them. An honest climb reaches the node above its leaf (`climb_siblings`), and a climb that reaches a node of the tree started at the leaf its direction bits name, as long as the hash separates the pairs involved (`leaf_of_climb`).

The last section is the append-only frontier, which keeps one left subtree a level and still computes the root of the whole zero-padded tree.
-/

namespace MerkleTree

variable {α : Type*} (h : α → α → α) (zero : α)

/-- The root of an empty subtree of a given height. -/
def emptyRoot : ℕ → α
  | 0 => zero
  | level + 1 => h (emptyRoot level) (emptyRoot level)

/-- The node at a level and index above a leaf assignment. -/
def node (leaf : ℕ → α) : ℕ → ℕ → α
  | 0, index => leaf index
  | level + 1, index => h (node leaf level (2 * index)) (node leaf level (2 * index + 1))

/-- A leaf list continued by the zero leaf. -/
def padded (leaves : List α) (index : ℕ) : α := leaves.getD index zero

/-- The root of the zero-padded tree of a given depth. -/
def root (depth : ℕ) (leaves : List α) : α := node h (padded zero leaves) depth 0

theorem emptyRoot_succ (level : ℕ) :
    emptyRoot h zero (level + 1) = h (emptyRoot h zero level) (emptyRoot h zero level) := rfl

@[simp] theorem node_zero (leaf : ℕ → α) (index : ℕ) : node h leaf 0 index = leaf index := rfl

theorem node_succ (leaf : ℕ → α) (level index : ℕ) :
    node h leaf (level + 1) index =
      h (node h leaf level (2 * index)) (node h leaf level (2 * index + 1)) := rfl

theorem node_congr {left right : ℕ → α} (level index : ℕ)
    (hagree : ∀ i, index * 2 ^ level ≤ i → i < (index + 1) * 2 ^ level → left i = right i) :
    node h left level index = node h right level index := by
  induction level generalizing index with
  | zero => exact hagree index (by simp) (by simp)
  | succ level ih =>
    rw [node_succ, node_succ, ih (2 * index), ih (2 * index + 1)]
    · intro i hlow hhigh
      rw [Nat.add_mul] at hlow hhigh
      refine hagree i ?_ ?_ <;> rw [pow_succ] <;> grind
    · intro i hlow hhigh
      rw [Nat.add_mul] at hhigh
      refine hagree i ?_ ?_ <;> rw [pow_succ] <;> grind

theorem node_const (level index : ℕ) : node h (fun _ => zero) level index = emptyRoot h zero level := by
  induction level generalizing index with
  | zero => rfl
  | succ level ih => rw [node_succ, ih, ih, emptyRoot]

theorem padded_of_length_le {leaves : List α} {index : ℕ} (hindex : leaves.length ≤ index) :
    padded zero leaves index = zero :=
  List.getD_eq_default _ _ hindex

/-- Lists without the padding value are told apart by their padded versions. -/
theorem eq_of_padded_eq {xs ys : List α} (hxs : ∀ x ∈ xs, x ≠ zero) (hys : ∀ y ∈ ys, y ≠ zero) {bound : ℕ}
    (hx : xs.length ≤ bound) (hy : ys.length ≤ bound) (heq : ∀ i < bound, padded zero xs i = padded zero ys i) :
    xs = ys := by
  have hle : ∀ {as bs : List α}, (∀ b ∈ bs, b ≠ zero) → bs.length ≤ bound →
      (∀ i < bound, padded zero as i = padded zero bs i) → bs.length ≤ as.length := by
    intro as bs hbs hbound hpadded
    by_contra hlt
    have hvalue := hpadded as.length (by omega)
    rw [padded_of_length_le zero le_rfl, padded, List.getD_eq_getElem _ _ (by omega)] at hvalue
    exact hbs _ (List.getElem_mem _) hvalue.symm
  have hlength : xs.length = ys.length :=
    le_antisymm (hle hxs hx fun i hi => (heq i hi).symm) (hle hys hy heq)
  apply List.ext_getElem hlength
  intro i hi hi'
  have hvalue := heq i (by omega)
  rwa [padded, padded, List.getD_eq_getElem _ _ hi, List.getD_eq_getElem _ _ hi'] at hvalue

/-- Past the last leaf every subtree is empty. -/
theorem node_padded_of_length_le {leaves : List α} {level index : ℕ}
    (hindex : leaves.length ≤ index * 2 ^ level) :
    node h (padded zero leaves) level index = emptyRoot h zero level := by
  rw [← node_const h zero level index]
  exact node_congr h level index fun i hlow _ => padded_of_length_le zero (hindex.trans hlow)

theorem root_nil (depth : ℕ) : root h zero depth [] = emptyRoot h zero depth :=
  node_padded_of_length_le h zero (Nat.zero_le _)

/-! ### Climbing from a leaf -/

/-- The running hash of a membership proof after a number of levels: a `true` direction puts the running hash on the right of its sibling. -/
def climb (right : ℕ → Bool) (sibling : ℕ → α) (leaf : α) : ℕ → α
  | 0 => leaf
  | level + 1 =>
    if right level then h (sibling level) (climb right sibling leaf level)
    else h (climb right sibling leaf level) (sibling level)

/-- The leaf index that a sequence of directions spells, lowest level first. -/
def position (right : ℕ → Bool) : ℕ → ℕ
  | 0 => 0
  | level + 1 => position right level + (right level).toNat * 2 ^ level

theorem position_lt (right : ℕ → Bool) (level : ℕ) : position right level < 2 ^ level := by
  induction level with
  | zero => exact Nat.one_pos
  | succ level ih =>
    have hbit : (right level).toNat * 2 ^ level ≤ 2 ^ level := by
      cases right level <;> simp
    rw [position, pow_succ]
    omega

theorem position_testBit (index level : ℕ) : position index.testBit level = index % 2 ^ level := by
  induction level with
  | zero => simp [position, Nat.mod_one]
  | succ level ih =>
    rw [position, ih, Nat.mod_pow_succ, Nat.testBit_eq_decide_div_mod_eq]
    rcases Nat.mod_two_eq_zero_or_one (index / 2 ^ level) with hbit | hbit <;> simp [hbit]

theorem climb_congr {left right : ℕ → Bool} {sib sib' : ℕ → α} (leaf : α) {depth : ℕ}
    (hdir : ∀ i < depth, left i = right i) (hsib : ∀ i < depth, sib i = sib' i) :
    climb h left sib leaf depth = climb h right sib' leaf depth := by
  induction depth with
  | zero => rfl
  | succ depth ih =>
    rw [climb, climb, ih (fun i hi => hdir i (by omega)) (fun i hi => hsib i (by omega)),
      hdir depth (by omega), hsib depth (by omega)]

/-- The index of the node beside a node. -/
def siblingIndex (index : ℕ) : ℕ := if index % 2 = 1 then index - 1 else index + 1

theorem siblingIndex_lt {index half : ℕ} (hindex : index < 2 * half) : siblingIndex index < 2 * half := by
  rw [siblingIndex]
  split <;> omega

/-- The siblings met on the way up from a leaf index. -/
def siblings (leaf : ℕ → α) (index level : ℕ) : α :=
  node h leaf level (siblingIndex (index / 2 ^ level))

/-- **An honest climb follows the tree.** -/
theorem climb_siblings (leaf : ℕ → α) (index depth : ℕ) :
    climb h index.testBit (siblings h leaf index) (leaf index) depth =
      node h leaf depth (index / 2 ^ depth) := by
  induction depth with
  | zero => simp [climb]
  | succ depth ih =>
    have hdiv : index / 2 ^ (depth + 1) = index / 2 ^ depth / 2 := by
      rw [Nat.div_div_eq_div_mul, pow_succ]
    rw [climb, ih, node_succ, hdiv, siblings, siblingIndex, Nat.testBit_eq_decide_div_mod_eq]
    rcases Nat.mod_two_eq_zero_or_one (index / 2 ^ depth) with hbit | hbit
    · have heven : 2 * (index / 2 ^ depth / 2) = index / 2 ^ depth := by omega
      simp [hbit, heven]
    · have hodd : 2 * (index / 2 ^ depth / 2) = index / 2 ^ depth - 1 := by omega
      have hodd' : index / 2 ^ depth - 1 + 1 = index / 2 ^ depth := by omega
      simp [hbit, hodd, hodd']

/-! ### Binding -/

/-- Every pair hashed below a node belongs to a set. -/
def PairsIn (asked : Set (α × α)) (leaf : ℕ → α) : ℕ → ℕ → Prop
  | 0, _ => True
  | level + 1, index =>
    (node h leaf level (2 * index), node h leaf level (2 * index + 1)) ∈ asked ∧
      PairsIn asked leaf level (2 * index) ∧ PairsIn asked leaf level (2 * index + 1)

/-- The pair a climb hashes at a level. -/
def climbPair (right : ℕ → Bool) (sibling : ℕ → α) (leaf : α) (level : ℕ) : α × α :=
  if right level then (sibling level, climb h right sibling leaf level)
  else (climb h right sibling leaf level, sibling level)

theorem climb_succ (right : ℕ → Bool) (sibling : ℕ → α) (leaf : α) (level : ℕ) :
    climb h right sibling leaf (level + 1) =
      h (climbPair h right sibling leaf level).1 (climbPair h right sibling leaf level).2 := by
  rw [climb, climbPair]
  split <;> rfl

variable {h}

/-- **A climb that reaches a node started below it.** The climb may begin `start` levels under the leaves of the tree; it then passes through the leaf its remaining directions name. -/
theorem climb_start_of_node {asked : Set (α × α)} (hinj : Set.InjOn (fun p : α × α => h p.1 p.2) asked)
    {leaf : ℕ → α} {right : ℕ → Bool} {sibling : ℕ → α} {x : α} {start : ℕ} :
    ∀ {depth index : ℕ}, (∀ i < start + depth, climbPair h right sibling x i ∈ asked) →
      PairsIn h asked leaf depth index →
      climb h right sibling x (start + depth) = node h leaf depth index →
      climb h right sibling x start =
        leaf (index * 2 ^ depth + position (fun i => right (start + i)) depth) := by
  intro depth
  induction depth with
  | zero =>
    intro index _ _ heq
    simpa [position] using heq
  | succ depth ih =>
    intro index hclimb hpairs heq
    obtain ⟨htop, hleft, hright⟩ := hpairs
    rw [← Nat.add_assoc, climb_succ, node_succ] at heq
    have hpair := hinj (hclimb (start + depth) (by omega)) htop heq
    have hbelow : ∀ i < start + depth, climbPair h right sibling x i ∈ asked :=
      fun i hi => hclimb i (by omega)
    rw [climbPair] at hpair
    cases hdir : right (start + depth) with
    | false =>
      rw [hdir] at hpair
      rw [ih hbelow hleft (congrArg Prod.fst hpair), position, hdir]
      congr 1
      simp only [Bool.toNat_false]
      ring
    | true =>
      rw [hdir] at hpair
      rw [ih hbelow hright (congrArg Prod.snd hpair), position, hdir]
      congr 1
      simp only [Bool.toNat_true]
      ring

/-- **Membership proofs bind.** A climb from `x` to the root of a tree starts at the leaf its directions name. -/
theorem leaf_of_climb {asked : Set (α × α)} (hinj : Set.InjOn (fun p : α × α => h p.1 p.2) asked)
    {leaf : ℕ → α} {right : ℕ → Bool} {sibling : ℕ → α} {x : α} {depth : ℕ}
    (hclimb : ∀ i < depth, climbPair h right sibling x i ∈ asked)
    (hpairs : PairsIn h asked leaf depth 0)
    (heq : climb h right sibling x depth = node h leaf depth 0) :
    x = leaf (position right depth) := by
  have hzero : climb h right sibling x 0 =
      leaf (0 * 2 ^ depth + position (fun i => right (0 + i)) depth) :=
    climb_start_of_node hinj (by simpa using hclimb) hpairs (by simpa using heq)
  simpa [climb] using hzero

variable (h) in
theorem node_node (leaf : ℕ → α) (above level index : ℕ) :
    node h (node h leaf above) level index = node h leaf (above + level) index := by
  induction level generalizing index with
  | zero => rfl
  | succ level ih => rw [← Nat.add_assoc, node_succ, node_succ, ih, ih]

theorem PairsIn.above {asked : Set (α × α)} {leaf : ℕ → α} {above level index : ℕ}
    (hpairs : PairsIn h asked leaf (above + level) index) : PairsIn h asked (node h leaf above) level index := by
  induction level generalizing index with
  | zero => trivial
  | succ level ih =>
    obtain ⟨htop, hleft, hright⟩ := hpairs
    refine ⟨?_, ih hleft, ih hright⟩
    rw [node_node, node_node]
    exact htop

/-- Every node under an index has its own pairs in the set. -/
theorem PairsIn.below {asked : Set (α × α)} {leaf : ℕ → α} {above level index : ℕ}
    (hpairs : PairsIn h asked leaf (above + level) index) {offset : ℕ} (hoffset : offset < 2 ^ level) :
    PairsIn h asked leaf above (index * 2 ^ level + offset) := by
  induction level generalizing index offset with
  | zero =>
    obtain rfl : offset = 0 := by omega
    rw [pow_zero, mul_one, Nat.add_zero]
    exact hpairs
  | succ level ih =>
    obtain ⟨-, hleft, hright⟩ := hpairs
    rw [pow_succ] at hoffset ⊢
    rcases Nat.lt_or_ge offset (2 ^ level) with hlt | hge
    · have hindex : index * (2 ^ level * 2) + offset = 2 * index * 2 ^ level + offset := by ring
      rw [hindex]
      exact ih hleft hlt
    · have hindex : index * (2 ^ level * 2) + offset = (2 * index + 1) * 2 ^ level + (offset - 2 ^ level) := by
        rw [Nat.add_mul, one_mul, Nat.add_assoc, Nat.add_sub_cancel' hge]
        ring
      rw [hindex]
      exact ih hright (by omega)

theorem climbPair_siblings_mem {asked : Set (α × α)} {leaf : ℕ → α} {depth index : ℕ}
    (hpairs : PairsIn h asked leaf depth 0) (hindex : index < 2 ^ depth) :
    ∀ level < depth, climbPair h index.testBit (siblings h leaf index) (leaf index) level ∈ asked := by
  intro level hlevel
  obtain ⟨above, rfl⟩ : ∃ above, depth = level + 1 + above := ⟨depth - level - 1, by omega⟩
  have hparent : index / 2 ^ (level + 1) < 2 ^ above := by
    rw [Nat.div_lt_iff_lt_mul (Nat.two_pow_pos _), ← pow_add, Nat.add_comm above]
    exact hindex
  have hbelow := (hpairs.below hparent).1
  have hdiv : index / 2 ^ (level + 1) = index / 2 ^ level / 2 := by rw [Nat.div_div_eq_div_mul, pow_succ]
  rw [Nat.zero_mul, Nat.zero_add, hdiv] at hbelow
  rw [climbPair, climb_siblings, siblings, siblingIndex, Nat.testBit_eq_decide_div_mod_eq]
  rcases Nat.mod_two_eq_zero_or_one (index / 2 ^ level) with hbit | hbit
  · have heven : 2 * (index / 2 ^ level / 2) = index / 2 ^ level := by omega
    rw [heven] at hbelow
    simpa [hbit] using hbelow
  · have hodd : 2 * (index / 2 ^ level / 2) = index / 2 ^ level - 1 := by omega
    have hodd' : index / 2 ^ level - 1 + 1 = index / 2 ^ level := by omega
    rw [hodd, hodd'] at hbelow
    simpa [hbit] using hbelow

/-- **Roots bind.** Trees of one root, all of whose pairs were asked, have the same leaves. -/
theorem leaf_eq_of_root_eq {asked : Set (α × α)} (hinj : Set.InjOn (fun p : α × α => h p.1 p.2) asked)
    {left right : ℕ → α} {depth : ℕ} (hleft : PairsIn h asked left depth 0) (hright : PairsIn h asked right depth 0)
    (heq : node h left depth 0 = node h right depth 0) {index : ℕ} (hindex : index < 2 ^ depth) :
    left index = right index := by
  have hclimb := climb_siblings h left index depth
  rw [Nat.div_eq_of_lt hindex, heq] at hclimb
  have hleaf := leaf_of_climb hinj (climbPair_siblings_mem hleft hindex) hright hclimb
  rwa [position_testBit, Nat.mod_eq_of_lt hindex] at hleaf

/-- **A climb that is too short starts at a pair.** If it reaches the root of a tree that is higher than it is long, then it started at an inner node, and both halves of that node were asked. -/
theorem pair_of_short_climb {asked : Set (α × α)} (hinj : Set.InjOn (fun p : α × α => h p.1 p.2) asked)
    {leaf : ℕ → α} {right : ℕ → Bool} {sibling : ℕ → α} {x : α} {depth above : ℕ}
    (hclimb : ∀ i < depth, climbPair h right sibling x i ∈ asked)
    (hpairs : PairsIn h asked leaf (above + 1 + depth) 0)
    (heq : climb h right sibling x depth = node h leaf (above + 1 + depth) 0) :
    ∃ left right, (left, right) ∈ asked ∧ x = h left right := by
  rw [← node_node] at heq
  have hstart := leaf_of_climb hinj hclimb hpairs.above heq
  have hbelow := hpairs.below (position_lt right depth)
  rw [Nat.zero_mul, Nat.zero_add] at hbelow
  exact ⟨_, _, hbelow.1, hstart⟩

variable (h)

/-! ### The append-only frontier -/

/-- Walk one new leaf up the tree: a left node is stored and paired with an empty subtree, a right node is paired with the stored left one. Returns the stored left nodes and the root. -/
def frontierLoop (zeros : ℕ → α) : ℕ → ℕ → ℕ → α → (ℕ → α) → (ℕ → α) × α
  | 0, _, _, current, filled => (filled, current)
  | levels + 1, i, index, current, filled =>
    if index % 2 = 0 then
      frontierLoop zeros levels (i + 1) (index / 2) (h current (zeros i)) (Function.update filled i current)
    else frontierLoop zeros levels (i + 1) (index / 2) (h (filled i) current) filled

/-- What the frontier stores for a leaf list: wherever the next leaf falls under a right node, the finished left node beside it. -/
def FrontierAt (levels : ℕ) (leaves : List α) (filled : ℕ → α) : Prop :=
  ∀ i < levels, (leaves.length / 2 ^ i) % 2 = 1 →
    filled i = node h (padded zero leaves) i (leaves.length / 2 ^ i - 1)

theorem frontierAt_nil (levels : ℕ) (filled : ℕ → α) : FrontierAt h zero levels [] filled := by
  intro i _ hodd
  simp at hodd

theorem padded_append_of_lt (leaves : List α) (x : α) {i : ℕ} (hi : i < leaves.length) :
    padded zero (leaves ++ [x]) i = padded zero leaves i := by
  rw [padded, padded, List.getD_append _ _ _ _ hi]

@[simp] theorem padded_append_length (leaves : List α) (x : α) :
    padded zero (leaves ++ [x]) leaves.length = x := by
  rw [padded, List.getD_append_right _ _ _ _ le_rfl, Nat.sub_self]
  rfl

theorem node_append_of_le (leaves : List α) (x : α) {level index : ℕ}
    (hindex : (index + 1) * 2 ^ level ≤ leaves.length) :
    node h (padded zero (leaves ++ [x])) level index = node h (padded zero leaves) level index :=
  node_congr h level index fun _ _ hhigh => padded_append_of_lt zero leaves x (lt_of_lt_of_le hhigh hindex)

theorem succ_div_eq_or (n d : ℕ) : (n + 1) / d = n / d ∨ (n + 1) / d = n / d + 1 := by
  rw [Nat.succ_div]
  split
  · exact Or.inr rfl
  · exact Or.inl rfl

theorem one_le_of_odd {n : ℕ} (hodd : n % 2 = 1) : 1 ≤ n := by omega

/-- What the frontier stores at one level. -/
def StoredAt (leaves : List α) (i : ℕ) (value : α) : Prop :=
  (leaves.length / 2 ^ i) % 2 = 1 → value = node h (padded zero leaves) i (leaves.length / 2 ^ i - 1)

/-- A left node: the right subtree holds no leaf yet. -/
theorem node_of_left {leaves : List α} (x : α) {i : ℕ} (heven : (leaves.length / 2 ^ i) % 2 = 0) :
    h (node h (padded zero (leaves ++ [x])) i (leaves.length / 2 ^ i)) (emptyRoot h zero i) =
      node h (padded zero (leaves ++ [x])) (i + 1) (leaves.length / 2 ^ i / 2) := by
  have habove := Nat.lt_div_mul_add (a := leaves.length) (Nat.two_pow_pos i)
  have hdouble : 2 * (leaves.length / 2 ^ i / 2) = leaves.length / 2 ^ i := by omega
  rw [node_succ, hdouble]
  congr 1
  rw [node_padded_of_length_le]
  rw [List.length_append, List.length_singleton, Nat.add_mul]
  omega

/-- A right node: its finished left sibling was stored when it was reached. -/
theorem node_of_right {leaves : List α} (x : α) {i : ℕ} {value : α} (hodd : (leaves.length / 2 ^ i) % 2 = 1)
    (hstored : StoredAt h zero leaves i value) :
    h value (node h (padded zero (leaves ++ [x])) i (leaves.length / 2 ^ i)) =
      node h (padded zero (leaves ++ [x])) (i + 1) (leaves.length / 2 ^ i / 2) := by
  have hbelow := Nat.div_mul_le_self leaves.length (2 ^ i)
  have hpos : 1 ≤ leaves.length / 2 ^ i := one_le_of_odd hodd
  have hdouble : 2 * (leaves.length / 2 ^ i / 2) = leaves.length / 2 ^ i - 1 := by omega
  have hnext : 2 * (leaves.length / 2 ^ i / 2) + 1 = leaves.length / 2 ^ i := by omega
  have hleft : node h (padded zero (leaves ++ [x])) i (leaves.length / 2 ^ i - 1) = value := by
    rw [hstored hodd]
    apply node_append_of_le
    rwa [Nat.sub_add_cancel hpos]
  rw [node_succ, hnext, hdouble, hleft]

/-- A level that a new leaf has passed stores what it has to. -/
theorem StoredAt.append {leaves : List α} (x : α) {i : ℕ} {value : α} (hstored : StoredAt h zero leaves i value) :
    StoredAt h zero (leaves ++ [x]) i
      (if (leaves.length / 2 ^ i) % 2 = 0 then node h (padded zero (leaves ++ [x])) i (leaves.length / 2 ^ i) else value) := by
  intro hodd
  rw [List.length_append, List.length_singleton] at hodd ⊢
  rcases succ_div_eq_or leaves.length (2 ^ i) with hsame | hnext
  · have hbelow := Nat.div_mul_le_self leaves.length (2 ^ i)
    rw [hsame] at hodd ⊢
    have hpos : 1 ≤ leaves.length / 2 ^ i := one_le_of_odd hodd
    rw [if_neg (by omega), hstored hodd, node_append_of_le]
    rwa [Nat.sub_add_cancel hpos]
  · rw [hnext] at hodd ⊢
    rw [if_pos (by omega), Nat.add_sub_cancel]

/-- One turn of the loop: the running hash is the node above the new leaf, and the level it leaves keeps the frontier's invariant. -/
theorem frontierLoop_spec {zeros : ℕ → α} {leaves : List α} (x : α) {depth : ℕ}
    (hzeros : ∀ i < depth, zeros i = emptyRoot h zero i) :
    ∀ (levels i : ℕ) (current : α) (filled : ℕ → α), i + levels = depth →
      current = node h (padded zero (leaves ++ [x])) i (leaves.length / 2 ^ i) →
      (∀ j, i ≤ j → j < depth → (leaves.length / 2 ^ j) % 2 = 1 →
        filled j = node h (padded zero leaves) j (leaves.length / 2 ^ j - 1)) →
      (frontierLoop h zeros levels i (leaves.length / 2 ^ i) current filled).2 =
          node h (padded zero (leaves ++ [x])) depth (leaves.length / 2 ^ depth) ∧
        ∀ j, (frontierLoop h zeros levels i (leaves.length / 2 ^ i) current filled).1 j =
          if i ≤ j ∧ j < depth ∧ (leaves.length / 2 ^ j) % 2 = 0 then
            node h (padded zero (leaves ++ [x])) j (leaves.length / 2 ^ j)
          else filled j := by
  intro levels
  induction levels with
  | zero =>
    intro i current filled hlevels hcurrent hfilled
    obtain rfl : i = depth := by omega
    refine ⟨hcurrent, fun j => ?_⟩
    rw [if_neg (by omega)]
    rfl
  | succ levels ih =>
    intro i current filled hlevels hcurrent hfilled
    have hhalf : leaves.length / 2 ^ i / 2 = leaves.length / 2 ^ (i + 1) := by
      rw [Nat.div_div_eq_div_mul, pow_succ]
    rcases Nat.mod_two_eq_zero_or_one (leaves.length / 2 ^ i) with heven | hodd
    · have hpair : h current (zeros i) =
          node h (padded zero (leaves ++ [x])) (i + 1) (leaves.length / 2 ^ (i + 1)) := by
        rw [hcurrent, hzeros i (by omega), node_of_left h zero x heven, hhalf]
      have hkeep : ∀ j, i + 1 ≤ j → j < depth → (leaves.length / 2 ^ j) % 2 = 1 →
          Function.update filled i current j =
            node h (padded zero leaves) j (leaves.length / 2 ^ j - 1) := by
        intro j hj hdepth hodd
        rw [Function.update_of_ne (by omega)]
        exact hfilled j (by omega) hdepth hodd
      obtain ⟨hroot, hstored⟩ := ih (i + 1) (h current (zeros i)) (Function.update filled i current)
        (by omega) hpair hkeep
      rw [frontierLoop, if_pos heven, hhalf]
      refine ⟨hroot, fun j => ?_⟩
      rw [hstored j]
      by_cases hj : j = i
      · subst hj
        rw [if_neg (by omega), if_pos ⟨le_rfl, by omega, heven⟩, Function.update_self, hcurrent]
      · rw [Function.update_of_ne hj]
        by_cases hrange : i ≤ j ∧ j < depth ∧ (leaves.length / 2 ^ j) % 2 = 0
        · rw [if_pos hrange, if_pos ⟨by omega, hrange.2⟩]
        · rw [if_neg hrange, if_neg (by omega)]
    · have hpair : h (filled i) current =
          node h (padded zero (leaves ++ [x])) (i + 1) (leaves.length / 2 ^ (i + 1)) := by
        rw [hcurrent, node_of_right h zero x hodd (hfilled i le_rfl (by omega)), hhalf]
      obtain ⟨hroot, hstored⟩ := ih (i + 1) (h (filled i) current) filled (by omega) hpair
        fun j hj => hfilled j (by omega)
      rw [frontierLoop, if_neg (by omega), hhalf]
      refine ⟨hroot, fun j => ?_⟩
      rw [hstored j]
      by_cases hrange : i ≤ j ∧ j < depth ∧ (leaves.length / 2 ^ j) % 2 = 0
      · rw [if_pos hrange, if_pos ⟨by grind, hrange.2⟩]
      · rw [if_neg hrange, if_neg (by omega)]

/-- Inserting one leaf: the new frontier and the new root. -/
def frontierInsert (zeros : ℕ → α) (levels count : ℕ) (x : α) (filled : ℕ → α) : (ℕ → α) × α :=
  frontierLoop h zeros levels 0 count x filled

theorem frontierInsert_spec {zeros : ℕ → α} {levels : ℕ} {leaves : List α} {filled : ℕ → α} (x : α)
    (hzeros : ∀ i < levels, zeros i = emptyRoot h zero i) (hroom : leaves.length < 2 ^ levels)
    (hfilled : FrontierAt h zero levels leaves filled) :
    (frontierInsert h zeros levels leaves.length x filled).2 = root h zero levels (leaves ++ [x]) ∧
      FrontierAt h zero levels (leaves ++ [x])
        (frontierInsert h zeros levels leaves.length x filled).1 := by
  obtain ⟨hroot, hstored⟩ := frontierLoop_spec h zero x hzeros levels 0 x filled
    (by omega) (by simp) (fun j _ => hfilled j)
  simp only [pow_zero, Nat.div_one] at hroot hstored
  refine ⟨?_, fun i hi hodd => ?_⟩
  · rw [frontierInsert, hroot, Nat.div_eq_of_lt hroom, root]
  · rw [frontierInsert, hstored i]
    have happend := StoredAt.append h zero x (hfilled i hi)
    simp only [Nat.zero_le, hi, true_and]
    exact happend hodd

/-! ### Layers and paths -/

/-- A list holds the nodes of a level, up to the point from which they are empty. -/
def IsLayer (leaf : ℕ → α) (level : ℕ) (layer : List α) : Prop :=
  ∀ index, layer.getD index (emptyRoot h zero level) = node h leaf level index

/-- The layer above: neighbours are hashed together, and a last node without one is paired with an empty subtree. -/
def pairUp (empty : α) : List α → List α
  | [] => []
  | [left] => [h left empty]
  | left :: right :: rest => h left right :: pairUp empty rest

theorem getD_pairUp (empty : α) (layer : List α) (index : ℕ) :
    (pairUp h empty layer).getD index (h empty empty) =
      h (layer.getD (2 * index) empty) (layer.getD (2 * index + 1) empty) := by
  fun_induction pairUp h empty layer generalizing index with
  | case1 => rfl
  | case2 left => cases index <;> rfl
  | case3 left right rest ih =>
    cases index with
    | zero => rfl
    | succ index => exact ih index

theorem pairUp_ne_nil {empty : α} {layer : List α} (hne : layer ≠ []) : pairUp h empty layer ≠ [] := by
  fun_cases pairUp h empty layer with
  | case1 => exact absurd rfl hne
  | case2 left => exact List.cons_ne_nil _ _
  | case3 left right rest => exact List.cons_ne_nil _ _

variable {h zero}

theorem IsLayer.pairUp {leaf : ℕ → α} {level : ℕ} {layer : List α} (hlayer : IsLayer h zero leaf level layer) :
    IsLayer h zero leaf (level + 1) (pairUp h (emptyRoot h zero level) layer) := by
  intro index
  rw [emptyRoot_succ, getD_pairUp, hlayer, hlayer, node_succ]

theorem IsLayer.head {leaf : ℕ → α} {level : ℕ} {layer : List α} (hlayer : IsLayer h zero leaf level layer)
    (hne : layer ≠ []) : layer[0]? = some (node h leaf level 0) := by
  obtain ⟨top, rest, rfl⟩ := List.exists_cons_of_ne_nil hne
  exact congrArg some (hlayer 0)

theorem isLayer_padded (leaves : List α) : IsLayer h zero (padded zero leaves) 0 leaves := fun _ => rfl

/-- The pairs a layer is hashed in. -/
def layerPairs (empty : α) : List α → List (α × α)
  | [] => []
  | [left] => [(left, empty)]
  | left :: right :: rest => (left, right) :: layerPairs empty rest

theorem mem_layerPairs (empty : α) (layer : List α) (index : ℕ) :
    (layer.getD (2 * index) empty, layer.getD (2 * index + 1) empty) = (empty, empty) ∨
      (layer.getD (2 * index) empty, layer.getD (2 * index + 1) empty) ∈ layerPairs empty layer := by
  fun_induction layerPairs empty layer generalizing index with
  | case1 => exact Or.inl rfl
  | case2 left =>
    cases index with
    | zero => exact Or.inr List.mem_cons_self
    | succ index => exact Or.inl rfl
  | case3 left right rest ih =>
    cases index with
    | zero => exact Or.inr List.mem_cons_self
    | succ index => exact (ih index).imp id (List.mem_cons_of_mem _)

theorem pairsIn_of_forall {asked : Set (α × α)} {leaf : ℕ → α} {depth : ℕ}
    (hpairs : ∀ level < depth, ∀ index, (node h leaf level (2 * index), node h leaf level (2 * index + 1)) ∈ asked)
    (index : ℕ) : PairsIn h asked leaf depth index := by
  induction depth generalizing index with
  | zero => trivial
  | succ depth ih =>
    have hbelow := ih fun level hlevel => hpairs level (Nat.lt_succ_of_lt hlevel)
    exact ⟨hpairs depth (Nat.lt_succ_self depth) index, hbelow _, hbelow _⟩

variable (h) in
/-- Whether all pairs hashed from a layer up belong to a set, those of empty subtrees included. -/
def layersIn (member : α → α → Bool) (zeros : ℕ → α) : ℕ → ℕ → List α → Bool
  | _, 0, _ => true
  | level, levels + 1, layer =>
    member (zeros level) (zeros level) && (layerPairs (zeros level) layer).all (fun p => member p.1 p.2) &&
      layersIn member zeros (level + 1) levels (pairUp h (zeros level) layer)

/-- **A tree can be checked layer by layer**, since all but its first nodes are empty. -/
theorem pairsIn_of_layersIn {asked : Set (α × α)} {member : α → α → Bool} {zeros : ℕ → α} {leaf : ℕ → α} {depth : ℕ}
    {layer : List α} (hmember : ∀ left right, member left right = true → (left, right) ∈ asked)
    (hzeros : ∀ level < depth, zeros level = emptyRoot h zero level) (hlayer : IsLayer h zero leaf 0 layer)
    (hlayers : layersIn h member zeros 0 depth layer = true) (index : ℕ) : PairsIn h asked leaf depth index := by
  have habove : ∀ levels level layer, level + levels = depth → IsLayer h zero leaf level layer →
      layersIn h member zeros level levels layer = true → ∀ above, level ≤ above → above < depth →
        ∀ index, (node h leaf above (2 * index), node h leaf above (2 * index + 1)) ∈ asked := by
    intro levels
    induction levels with
    | zero => intros; omega
    | succ levels ih =>
      intro level layer hlevel hlayer hlayers above hle hlt index
      simp only [layersIn, Bool.and_eq_true, List.all_eq_true] at hlayers
      obtain ⟨⟨hempty, hpairs⟩, hrest⟩ := hlayers
      rw [hzeros level (by omega)] at hempty hpairs hrest
      rcases Nat.eq_or_lt_of_le hle with rfl | habove
      · rw [← hlayer, ← hlayer]
        rcases mem_layerPairs (emptyRoot h zero level) layer index with heq | hmem
        · rw [heq]
          exact hmember _ _ hempty
        · exact hmember _ _ (hpairs _ hmem)
      · exact ih (level + 1) _ (by omega) hlayer.pairUp hrest above habove hlt index
  exact pairsIn_of_forall (fun level hlevel => habove depth 0 layer (Nat.zero_add depth) hlayer hlayers level
    (Nat.zero_le level) hlevel) index

variable (h)

/-- The siblings of a leaf, lowest level first. -/
def pathElements (leaf : ℕ → α) (index depth : ℕ) : List α :=
  (List.range depth).map (siblings h leaf index)

/-- The directions to a leaf, lowest level first: `1` where the path is on the right. -/
def pathIndices (index depth : ℕ) : List ℕ :=
  (List.range depth).map fun level => index / 2 ^ level % 2

/-- A path leads from a leaf to a root: one sibling and one binary direction a level, and the climb ends at the root. -/
structure PathTo (depth : ℕ) (leaf root : α) (elements : List α) (indices : List ℕ) : Prop where
  length_elements : elements.length = depth
  length_indices : indices.length = depth
  binary : ∀ index ∈ indices, index = 0 ∨ index = 1
  climbs : ∀ empty, climb h (fun level => indices.getD level 0 = 1) (fun level => elements.getD level empty)
    leaf depth = root

/-- **The path of a leaf leads to the root.** -/
theorem pathTo_root (leaf : ℕ → α) {index depth : ℕ} (hindex : index < 2 ^ depth) :
    PathTo h depth (leaf index) (node h leaf depth 0) (pathElements h leaf index depth)
      (pathIndices index depth) where
  length_elements := by simp [pathElements]
  length_indices := by simp [pathIndices]
  binary := by
    intro direction hmem
    obtain ⟨level, -, rfl⟩ := List.mem_map.mp hmem
    exact Nat.mod_two_eq_zero_or_one _
  climbs := by
    intro empty
    have hclimb := climb_siblings h leaf index depth
    rw [Nat.div_eq_of_lt hindex] at hclimb
    rw [← hclimb]
    refine climb_congr h _ (fun level hlevel => ?_) (fun level hlevel => ?_)
    · rw [pathIndices, Nat.testBit_eq_decide_div_mod_eq]
      simp [List.getD_eq_getElem?_getD, hlevel]
    · simp [pathElements, List.getD_eq_getElem?_getD, hlevel]

end MerkleTree
