import ScatterDex.Poseidon
import ScatterDex.Library.MerkleTree

/-!
# Gadgets

The circuits are relations between their signals. They are assembled from circomlib templates, which are a parameter here: a `Circomlib` carries one relation a template with the behaviour circomlib documents for it. The comparators are only specified on operands within their width, which is why the circuits range-check first.

The Merkle membership template, which the repository repeats in each of its circuits, is defined once; a satisfying assignment is a climb whose directions are bits (`merkleProof_iff`).
-/

namespace ScatterDex

open Bn254

/-- The circomlib templates, as relations between their input and output signals. -/
structure Circomlib where
  num2Bits : ℕ → Scalar → Prop
  lessThan : ℕ → Scalar → Scalar → Scalar → Prop
  lessEqThan : ℕ → Scalar → Scalar → Scalar → Prop
  isZero : Scalar → Scalar → Prop
  mux1 : Scalar → Scalar → Scalar → Scalar → Prop
  babyCheck : Scalar → Scalar → Prop
  babyDbl : Scalar → Scalar → Scalar → Scalar → Prop
  eddsaPoseidonVerifier : (enabled Ax Ay S R8x R8y M : Scalar) → Prop
  num2Bits_iff : ∀ n < 254, ∀ x, num2Bits n x ↔ x.val < 2 ^ n
  lessThan_iff : ∀ n ≤ 252, ∀ a b out, a.val < 2 ^ n → b.val < 2 ^ n →
    (lessThan n a b out ↔ out = if a.val < b.val then 1 else 0)
  lessEqThan_iff : ∀ n ≤ 252, ∀ a b out, a.val < 2 ^ n → b.val < 2 ^ n →
    (lessEqThan n a b out ↔ out = if a.val ≤ b.val then 1 else 0)
  isZero_iff : ∀ x out, isZero x out ↔ out = if x = 0 then 1 else 0
  mux1_iff : ∀ c₀ c₁ s out, mux1 c₀ c₁ s out ↔ out = (c₁ - c₀) * s + c₀

/-- The templates with a fixed list of valid signatures `(Ax, Ay, S, R8x, R8y, M)`. -/
def Circomlib.withSignatures (signatures : List (List Scalar)) : Circomlib where
  num2Bits n x := x.val < 2 ^ n
  lessThan _ a b out := out = if a.val < b.val then 1 else 0
  lessEqThan _ a b out := out = if a.val ≤ b.val then 1 else 0
  isZero x out := out = if x = 0 then 1 else 0
  mux1 c₀ c₁ s out := out = (c₁ - c₀) * s + c₀
  babyCheck x y := 168700 * x * x + y * y = 1 + 168696 * x * x * y * y
  babyDbl x y xout yout :=
    (1 + 168696 * x * x * y * y) * xout = 2 * x * y ∧
      (1 - 168696 * x * x * y * y) * yout = y * y - 168700 * x * x
  eddsaPoseidonVerifier enabled Ax Ay S R8x R8y M := enabled = 0 ∨ [Ax, Ay, S, R8x, R8y, M] ∈ signatures
  num2Bits_iff _ _ _ := Iff.rfl
  lessThan_iff _ _ _ _ _ _ _ := Iff.rfl
  lessEqThan_iff _ _ _ _ _ _ _ := Iff.rfl
  isZero_iff _ _ := Iff.rfl
  mux1_iff _ _ _ _ := Iff.rfl

instance (signatures : List (List Scalar)) (x y : Scalar) :
    Decidable ((Circomlib.withSignatures signatures).babyCheck x y) :=
  inferInstanceAs (Decidable (168700 * x * x + y * y = 1 + 168696 * x * x * y * y))

instance (signatures : List (List Scalar)) (x y xout yout : Scalar) :
    Decidable ((Circomlib.withSignatures signatures).babyDbl x y xout yout) :=
  inferInstanceAs (Decidable (_ ∧ _))

instance (signatures : List (List Scalar)) (x out : Scalar) :
    Decidable ((Circomlib.withSignatures signatures).isZero x out) :=
  inferInstanceAs (Decidable (out = if x = 0 then 1 else 0))

instance (signatures : List (List Scalar)) (enabled Ax Ay S R8x R8y M : Scalar) :
    Decidable ((Circomlib.withSignatures signatures).eddsaPoseidonVerifier enabled Ax Ay S R8x R8y M) :=
  inferInstanceAs (Decidable (enabled = 0 ∨ [Ax, Ay, S, R8x, R8y, M] ∈ signatures))

/-! ### The tags of `tags.circom` -/

def tagEscrowNull : Scalar := 0
def tagNonceNull : Scalar := 1
def tagClaimNull : Scalar := 2
def tagCommitmentV2 : Scalar := 3

namespace Circuit

variable (C : Circomlib) (P : Poseidon)

/-! ### Merkle membership -/

/-- The membership template: each level selects the two inputs of its hash by the direction bit. -/
def MerkleProof (levels : ℕ) (leaf : Scalar) (pathElements pathIndices : ℕ → Scalar) (root : Scalar) : Prop :=
  ∃ hashes : ℕ → Scalar, hashes 0 = leaf ∧
    (∀ i < levels, pathIndices i * (1 - pathIndices i) = 0 ∧
      ∃ left right, C.mux1 (hashes i) (pathElements i) (pathIndices i) left ∧
        C.mux1 (pathElements i) (hashes i) (pathIndices i) right ∧
        P.Digest [left, right] (hashes (i + 1))) ∧
    root = hashes levels

/-- The direction a path signal stands for. -/
def direction (pathIndices : ℕ → Scalar) (i : ℕ) : Bool := pathIndices i = 1

variable {P}

theorem bit_iff (s : Scalar) : s * (1 - s) = 0 ↔ s = 0 ∨ s = 1 := by
  rw [mul_eq_zero, sub_eq_zero, eq_comm (a := (1 : Scalar))]

variable {C}

/-- One level: the two multiplexers order the running hash and its sibling by the direction. -/
theorem level_iff {pathIndices pathElements : ℕ → Scalar} {i : ℕ} (running : Scalar) {left right : Scalar}
    (hbit : pathIndices i = 0 ∨ pathIndices i = 1) :
    C.mux1 running (pathElements i) (pathIndices i) left ∧
        C.mux1 (pathElements i) running (pathIndices i) right ↔
      (left, right) =
        if direction pathIndices i then (pathElements i, running) else (running, pathElements i) := by
  rw [C.mux1_iff, C.mux1_iff, direction]
  rcases hbit with hbit | hbit <;> simp [hbit]

/-- **A membership proof is a climb** over pairs that were hashed, with bits for directions. -/
theorem merkleProof_iff {levels : ℕ} {leaf root : Scalar} {pathElements pathIndices : ℕ → Scalar} :
    MerkleProof C P levels leaf pathElements pathIndices root ↔
      (∀ i < levels, pathIndices i = 0 ∨ pathIndices i = 1) ∧
      (∀ i < levels, MerkleTree.climbPair P.hashPair (direction pathIndices) pathElements leaf i ∈
        P.askedPairs) ∧
      MerkleTree.climb P.hashPair (direction pathIndices) pathElements leaf levels = root := by
  constructor
  · rintro ⟨hashes, hleaf, hlevels, rfl⟩
    have hbits : ∀ i < levels, pathIndices i = 0 ∨ pathIndices i = 1 :=
      fun i hi => (bit_iff _).mp (hlevels i hi).1
    have hclimb : ∀ i ≤ levels,
        MerkleTree.climb P.hashPair (direction pathIndices) pathElements leaf i = hashes i := by
      intro i
      induction i with
      | zero => exact fun _ => hleaf.symm
      | succ i ih =>
        intro hi
        obtain ⟨-, left, right, hleft, hright, -, hhash⟩ := hlevels i hi
        have hpair := (level_iff (hashes i) (hbits i hi)).mp ⟨hleft, hright⟩
        rw [MerkleTree.climb_succ, MerkleTree.climbPair, ih (by omega), ← hpair]
        exact hhash
    refine ⟨hbits, fun i hi => ?_, hclimb levels le_rfl⟩
    obtain ⟨-, left, right, hleft, hright, hasked, -⟩ := hlevels i hi
    have hpair := (level_iff (hashes i) (hbits i hi)).mp ⟨hleft, hright⟩
    rw [MerkleTree.climbPair, hclimb i hi.le, ← hpair]
    exact hasked
  · rintro ⟨hbits, hasked, hroot⟩
    refine ⟨MerkleTree.climb P.hashPair (direction pathIndices) pathElements leaf, rfl,
      fun i hi => ⟨(bit_iff _).mpr (hbits i hi), ?_⟩, hroot.symm⟩
    let pair := MerkleTree.climbPair P.hashPair (direction pathIndices) pathElements leaf i
    have hpair : (pair.1, pair.2) = if direction pathIndices i then
        (pathElements i, MerkleTree.climb P.hashPair (direction pathIndices) pathElements leaf i)
        else (MerkleTree.climb P.hashPair (direction pathIndices) pathElements leaf i, pathElements i) := rfl
    obtain ⟨hleft, hright⟩ := (level_iff (C := C) _ (hbits i hi)).mpr hpair
    have hhash := MerkleTree.climb_succ P.hashPair (direction pathIndices) pathElements leaf i
    exact ⟨pair.1, pair.2, hleft, hright, hasked i hi, hhash.symm⟩

end Circuit

end ScatterDex
