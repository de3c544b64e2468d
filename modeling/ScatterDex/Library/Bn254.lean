import Mathlib.NumberTheory.LucasPrimality
import Mathlib.Tactic.NormNum.Prime
import Mathlib.Tactic.ReduceModChar

/-!
# The BN254 scalar field

The field every signal of a circom circuit over BN254 ranges over, as `ZMod` of its modulus. Its primality is a Pratt certificate: `prime_of_factors` turns a generator and the prime factors of the predecessor into a primality proof, and the chain of certificates below ends in primes small enough for trial division.
-/

namespace Bn254

/-- Lucas's test against a list of prime factors that covers every prime divisor of `p - 1`. -/
theorem prime_of_factors (p : ℕ) (a : ZMod p) (fs : List ℕ) (k : ℕ) (hfs : ∀ f ∈ fs, f.Prime)
    (hprod : p - 1 ∣ fs.prod ^ k) (hone : a ^ (p - 1) = 1)
    (hne : ∀ f ∈ fs, a ^ ((p - 1) / f) ≠ 1) : p.Prime := by
  refine lucas_primality p a hone fun q hq hdvd => ?_
  obtain ⟨f, hf, hqf⟩ := (Prime.dvd_prod_iff hq.prime).mp (hq.dvd_of_dvd_pow (hdvd.trans hprod))
  rw [(Nat.prime_dvd_prime_iff_eq hq (hfs f hf)).mp hqf]
  exact hne f hf

private theorem prime_405928799 : Nat.Prime 405928799 := by
  refine prime_of_factors _ 22 [2, 11, 3691, 4999] 5 ?_ (by decide +kernel) (by reduce_mod_char) ?_
  · simp only [List.forall_mem_cons, List.not_mem_nil, false_imp_iff, implies_true, and_true]
    norm_num
  · simp only [List.forall_mem_cons, List.not_mem_nil, false_imp_iff, implies_true, and_true]
    norm_num
    reduce_mod_char
    decide +kernel

private theorem prime_639533339 : Nat.Prime 639533339 := by
  refine prime_of_factors _ 2 [2, 229, 853, 1637] 5 ?_ (by decide +kernel) (by reduce_mod_char) ?_
  · simp only [List.forall_mem_cons, List.not_mem_nil, false_imp_iff, implies_true, and_true]
    norm_num
  · simp only [List.forall_mem_cons, List.not_mem_nil, false_imp_iff, implies_true, and_true]
    norm_num
    reduce_mod_char
    decide +kernel

private theorem prime_12048837557 : Nat.Prime 12048837557 := by
  refine prime_of_factors _ 2 [2, 7, 661, 93001] 5 ?_ (by decide +kernel) (by reduce_mod_char) ?_
  · simp only [List.forall_mem_cons, List.not_mem_nil, false_imp_iff, implies_true, and_true]
    norm_num
  · simp only [List.forall_mem_cons, List.not_mem_nil, false_imp_iff, implies_true, and_true]
    norm_num
    reduce_mod_char
    decide +kernel

private theorem prime_5156902474397 : Nat.Prime 5156902474397 := by
  refine prime_of_factors _ 2 [2, 107, 12048837557] 5 ?_ (by decide +kernel) (by reduce_mod_char) ?_
  · simp only [List.forall_mem_cons, List.not_mem_nil, false_imp_iff, implies_true, and_true]
    exact ⟨by norm_num, by norm_num, prime_12048837557⟩
  · simp only [List.forall_mem_cons, List.not_mem_nil, false_imp_iff, implies_true, and_true]
    norm_num
    reduce_mod_char
    decide +kernel

private theorem prime_1670836401704629 : Nat.Prime 1670836401704629 := by
  refine prime_of_factors _ 2 [2, 3, 5156902474397] 5 ?_ (by decide +kernel) (by reduce_mod_char) ?_
  · simp only [List.forall_mem_cons, List.not_mem_nil, false_imp_iff, implies_true, and_true]
    exact ⟨by norm_num, by norm_num, prime_5156902474397⟩
  · simp only [List.forall_mem_cons, List.not_mem_nil, false_imp_iff, implies_true, and_true]
    norm_num
    reduce_mod_char
    decide +kernel

private theorem prime_65865678001877903 : Nat.Prime 65865678001877903 := by
  refine prime_of_factors _ 5 [2, 83, 379, 1637, 639533339] 5 ?_ (by decide +kernel)
    (by reduce_mod_char) ?_
  · simp only [List.forall_mem_cons, List.not_mem_nil, false_imp_iff, implies_true, and_true]
    exact ⟨by norm_num, by norm_num, by norm_num, by norm_num, prime_639533339⟩
  · simp only [List.forall_mem_cons, List.not_mem_nil, false_imp_iff, implies_true, and_true]
    norm_num
    reduce_mod_char
    decide +kernel

private theorem prime_13818364434197438864469338081 :
    Nat.Prime 13818364434197438864469338081 := by
  refine prime_of_factors _ 3 [2, 5, 823, 1593227, 65865678001877903] 5 ?_ (by decide +kernel)
    (by reduce_mod_char) ?_
  · simp only [List.forall_mem_cons, List.not_mem_nil, false_imp_iff, implies_true, and_true]
    exact ⟨by norm_num, by norm_num, by norm_num, by norm_num, prime_65865678001877903⟩
  · simp only [List.forall_mem_cons, List.not_mem_nil, false_imp_iff, implies_true, and_true]
    norm_num
    reduce_mod_char
    decide +kernel

/-- The order of the BN254 groups, which is the modulus of the scalar field. -/
def modulus : ℕ :=
  21888242871839275222246405745257275088548364400416034343698204186575808495617

theorem modulus_prime : modulus.Prime := by
  refine prime_of_factors _ 5 [2, 3, 13, 29, 983, 11003, 237073, 405928799, 1670836401704629,
    13818364434197438864469338081] 28 ?_ (by decide +kernel) (by rw [modulus]; reduce_mod_char) ?_
  · simp only [List.forall_mem_cons, List.not_mem_nil, false_imp_iff, implies_true, and_true]
    exact ⟨by norm_num, by norm_num, by norm_num, by norm_num, by norm_num, by norm_num,
      by norm_num, prime_405928799, prime_1670836401704629, prime_13818364434197438864469338081⟩
  · rw [modulus]
    simp only [List.forall_mem_cons, List.not_mem_nil, false_imp_iff, implies_true, and_true]
    norm_num
    reduce_mod_char
    decide +kernel

instance : Fact modulus.Prime := ⟨modulus_prime⟩

/-- The scalar field. -/
abbrev Scalar := ZMod modulus

/-- Numerals of the field carry no proof about their size. -/
instance (n : ℕ) : OfNat Scalar (n + 2) := instOfNatAtLeastTwo

end Bn254
