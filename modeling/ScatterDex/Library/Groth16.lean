import Mathlib.Algebra.Module.LinearMap.Basic
import Mathlib.Algebra.Field.Basic
import Mathlib.Algebra.BigOperators.Group.List.Basic
import Mathlib.Tactic.Abel
import Mathlib.Tactic.Module

/-!
# Groth16 and its batched check

The verification equation over a bilinear pairing, written additively: a proof is valid when its defect vanishes. Two proofs under one key are checked at once by a random linear combination, which is the first defect plus the challenge times the second. A combination of zeros is zero, and a combination that is not of zeros vanishes for one challenge at most.
-/

namespace Groth16

variable {F G₁ G₂ G : Type*} [Field F] [AddCommGroup G₁] [Module F G₁] [AddCommGroup G₂] [Module F G₂]
  [AddCommGroup G] [Module F G]

structure VerifyingKey (G₁ G₂ : Type*) where
  alpha : G₁
  beta : G₂
  gamma : G₂
  delta : G₂
  constant : G₁
  ic : List G₁

structure Proof (G₁ G₂ : Type*) where
  a : G₁
  b : G₂
  c : G₁

/-- The points of the key, weighted with the public inputs. -/
def VerifyingKey.combine (vk : VerifyingKey G₁ G₂) (inputs : List F) : G₁ :=
  vk.constant + (List.zipWith (fun (x : F) point => x • point) inputs vk.ic).sum

variable (e : G₁ →ₗ[F] G₂ →ₗ[F] G) (vk : VerifyingKey G₁ G₂)

/-- By how much a proof misses the verification equation. -/
def defect (π : Proof G₁ G₂) (inputs : List F) : G :=
  e vk.alpha vk.beta + e (vk.combine inputs) vk.gamma + e π.c vk.delta - e π.a π.b

/-- The verification equation. -/
def Valid (π : Proof G₁ G₂) (inputs : List F) : Prop :=
  e π.a π.b = e vk.alpha vk.beta + e (vk.combine inputs) vk.gamma + e π.c vk.delta

theorem valid_iff {π : Proof G₁ G₂} {inputs : List F} : Valid e vk π inputs ↔ defect e vk π inputs = 0 := by
  rw [Valid, defect, sub_eq_zero, eq_comm]

/-- The five pairings of the batched check. -/
def batched (r : F) (π₁ π₂ : Proof G₁ G₂) (inputs₁ inputs₂ : List F) : G :=
  e (-π₁.a) π₁.b + e (-(r • π₂.a)) π₂.b + e (vk.combine inputs₁ + r • vk.combine inputs₂) vk.gamma +
    e (π₁.c + r • π₂.c) vk.delta + e ((1 + r) • vk.alpha) vk.beta

variable {e vk} {r r' : F} {π₁ π₂ : Proof G₁ G₂} {inputs₁ inputs₂ : List F}

theorem batched_eq : batched e vk r π₁ π₂ inputs₁ inputs₂ =
    defect e vk π₁ inputs₁ + r • defect e vk π₂ inputs₂ := by
  simp only [batched, defect, map_neg, map_add, map_smul, LinearMap.neg_apply, LinearMap.add_apply,
    LinearMap.smul_apply]
  module

theorem batched_of_valid (h₁ : Valid e vk π₁ inputs₁) (h₂ : Valid e vk π₂ inputs₂) :
    batched e vk r π₁ π₂ inputs₁ inputs₂ = 0 := by
  rw [batched_eq, (valid_iff e vk).mp h₁, (valid_iff e vk).mp h₂, smul_zero, add_zero]

/-- Two proofs that are not both valid pass under one challenge at most. -/
theorem challenge_unique (hinvalid : ¬(Valid e vk π₁ inputs₁ ∧ Valid e vk π₂ inputs₂))
    (hr : batched e vk r π₁ π₂ inputs₁ inputs₂ = 0) (hr' : batched e vk r' π₁ π₂ inputs₁ inputs₂ = 0) : r = r' := by
  rw [batched_eq] at hr hr'
  have hsecond : defect e vk π₂ inputs₂ ≠ 0 := by
    intro hzero
    rw [hzero, smul_zero, add_zero] at hr
    exact hinvalid ⟨(valid_iff e vk).mpr hr, (valid_iff e vk).mpr hzero⟩
  have hsame : r • defect e vk π₂ inputs₂ = r' • defect e vk π₂ inputs₂ := add_left_cancel (hr.trans hr'.symm)
  exact smul_left_injective F hsecond hsame

end Groth16
