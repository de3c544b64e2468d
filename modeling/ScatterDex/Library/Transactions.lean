import Mathlib.Init

/-!
# Transactions

A machine whose steps can fail takes a list of them one after another, and a step that fails leaves no trace. `Along` states a condition of every step of such a run in the state the step meets; what the steps keep under the condition, the run keeps.
-/

namespace Transactions

variable {σ α ε : Type*} (run : α → σ → Except ε σ)

/-- The state after a step. -/
def transact (s : σ) (a : α) : σ :=
  match run a s with
  | .ok s' => s'
  | .error _ => s

/-- The state after a list of steps. -/
def after (s : σ) (as : List α) : σ := as.foldl (transact run) s

/-- A condition holds of every step of a run. -/
def Along (P : σ → α → Prop) : σ → List α → Prop
  | _, [] => True
  | s, a :: as => P s a ∧ Along P (transact run s a) as

variable {run} {s s' : σ} {a : α} {as bs : List α}

theorem transact_ok (hstep : run a s = .ok s') : transact run s a = s' := by
  rw [transact, hstep]

theorem after_cons : after run s (a :: as) = after run (transact run s a) as := rfl

theorem after_append : after run s (as ++ bs) = after run (after run s as) bs := List.foldl_append

/-- The invariant rule, for steps that meet a condition. -/
theorem invariant_along {I : σ → Prop} {P : σ → α → Prop} (hkeep : ∀ s a s', I s → P s a → run a s = .ok s' → I s')
    (hs : I s) (halong : Along run P s as) : I (after run s as) := by
  induction as generalizing s with
  | nil => exact hs
  | cons a as ih =>
    obtain ⟨ha, has⟩ := halong
    apply ih _ has
    rw [transact]
    cases hstep : run a s with
    | ok s' => exact hkeep s a s' hs ha hstep
    | error e => exact hs

/-- A condition that the steps meet in every state holds along any run of them. -/
theorem along_of_forall {P : σ → α → Prop} (has : ∀ a ∈ as, ∀ s, P s a) : Along run P s as := by
  induction as generalizing s with
  | nil => trivial
  | cons a as ih => exact ⟨has a List.mem_cons_self s, ih fun b hb => has b (List.mem_cons_of_mem a hb)⟩

theorem Along.of_append {P : σ → α → Prop} (halong : Along run P s (as ++ bs)) :
    Along run P s as ∧ Along run P (after run s as) bs := by
  induction as generalizing s with
  | nil => exact ⟨trivial, halong⟩
  | cons a as ih => exact ⟨⟨halong.1, (ih halong.2).1⟩, (ih halong.2).2⟩

theorem Along.and {P Q : σ → α → Prop} (hP : Along run P s as) (hQ : Along run Q s as) :
    Along run (fun s a => P s a ∧ Q s a) s as := by
  induction as generalizing s with
  | nil => trivial
  | cons a as ih => exact ⟨⟨hP.1, hQ.1⟩, ih hP.2 hQ.2⟩

/-- What an invariant and the condition of a step give of the step holds along the run. -/
theorem along_of_invariant {I : σ → Prop} {P Q : σ → α → Prop}
    (hkeep : ∀ s a s', I s → P s a → run a s = .ok s' → I s') (hgives : ∀ s a, I s → P s a → Q s a) (hs : I s)
    (halong : Along run P s as) : Along run Q s as := by
  induction as generalizing s with
  | nil => trivial
  | cons a as ih =>
    obtain ⟨ha, has⟩ := halong
    refine ⟨hgives s a hs ha, ih ?_ has⟩
    rw [transact]
    cases hstep : run a s with
    | ok s' => exact hkeep s a s' hs ha hstep
    | error e => exact hs

theorem invariant {I : σ → Prop} (hkeep : ∀ a ∈ as, ∀ s s', I s → run a s = .ok s' → I s') (hs : I s) :
    I (after run s as) :=
  invariant_along (P := fun _ a => a ∈ as) (fun s a s' hs ha => hkeep a ha s s' hs) hs
    (along_of_forall fun _ ha _ => ha)

end Transactions
