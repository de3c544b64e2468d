import Mathlib.Data.List.Basic

/-!
# Sequences of steps

A labelled step relation, and the states a list of labels leads to. What a step keeps, a list of steps keeps; what each step adds up to, the list adds up to.
-/

variable {σ τ α : Type*}

/-- Take the steps of a list one after another. -/
def Steps (step : α → σ → σ → Prop) : List α → σ → σ → Prop
  | [], s, s' => s' = s
  | a :: as, s, s' => ∃ t, step a s t ∧ Steps step as t s'

namespace Steps

variable {step : α → σ → σ → Prop} {a : α} {as bs : List α} {s s' : σ}

@[simp] theorem nil_iff : Steps step [] s s' ↔ s' = s := Iff.rfl

@[simp] theorem cons_iff : Steps step (a :: as) s s' ↔ ∃ t, step a s t ∧ Steps step as t s' := Iff.rfl

theorem single (hstep : step a s s') : Steps step [a] s s' := ⟨s', hstep, rfl⟩

theorem mono {step' : α → σ → σ → Prop} (himp : ∀ a s s', step a s s' → step' a s s') (hsteps : Steps step as s s') :
    Steps step' as s s' := by
  induction as generalizing s with
  | nil => exact hsteps
  | cons a as ih =>
    obtain ⟨t, ha, has⟩ := hsteps
    exact ⟨t, himp a s t ha, ih has⟩

theorem append {t : σ} (hfirst : Steps step as s t) (hthen : Steps step bs t s') : Steps step (as ++ bs) s s' := by
  induction as generalizing s with
  | nil => exact hfirst ▸ hthen
  | cons a as ih =>
    obtain ⟨u, ha, has⟩ := hfirst
    exact ⟨u, ha, ih has⟩

theorem exists_of_mem (hsteps : Steps step as s s') (ha : a ∈ as) : ∃ t t', step a t t' := by
  induction as generalizing s with
  | nil => cases ha
  | cons b as ih =>
    obtain ⟨t, hb, has⟩ := hsteps
    rcases List.mem_cons.mp ha with rfl | ha
    · exact ⟨s, t, hb⟩
    · exact ih has ha

theorem invariant {I : σ → Prop} (hkeep : ∀ a ∈ as, ∀ s s', I s → step a s s' → I s') (hs : I s)
    (hsteps : Steps step as s s') : I s' := by
  induction as generalizing s with
  | nil =>
    obtain rfl := hsteps
    exact hs
  | cons a as ih =>
    obtain ⟨t, ha, has⟩ := hsteps
    have ht : I t := hkeep a List.mem_cons_self s t hs ha
    exact ih (fun b hb => hkeep b (List.mem_cons_of_mem a hb)) ht has

theorem unchanged {f : σ → τ} (hkeep : ∀ a s s', step a s s' → f s' = f s) (hsteps : Steps step as s s') :
    f s' = f s :=
  hsteps.invariant (I := fun t => f t = f s) (fun a _ t t' ht hstep => (hkeep a t t' hstep).trans ht) rfl

end Steps
