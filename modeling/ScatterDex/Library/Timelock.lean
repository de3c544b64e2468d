import Mathlib.Data.List.Basic

/-!
# Timelocked values

A value behind a timelock changes in two steps: a new value is scheduled with a delay, and applied once the delay is over. In between it may be cancelled, or replaced by another. A history lists what happened to the value, newest first; in a sound one, each application follows the scheduling of its value immediately, and not before its delay is over.
-/

namespace Timelock

variable {α : Type*}

inductive Event (α : Type*) where
  | scheduled (value : α) (time delay : ℕ)
  | cancelled
  | applied (value : α) (time : ℕ)

/-- The schedule that was neither applied, cancelled nor replaced. -/
def pending : List (Event α) → Option (α × ℕ × ℕ)
  | .scheduled value time delay :: _ => some (value, time, delay)
  | _ => none

/-- The value after a history. -/
def current (initial : α) : List (Event α) → α
  | [] => initial
  | .applied value _ :: _ => value
  | _ :: older => current initial older

/-- Every value that was applied was pending, for as long as its schedule asked. -/
def Sound : List (Event α) → Prop
  | [] => True
  | .applied value time :: older =>
    (∃ scheduledAt delay, pending older = some (value, scheduledAt, delay) ∧ scheduledAt + delay ≤ time) ∧ Sound older
  | _ :: older => Sound older

variable {history older newer : List (Event α)} {value : α} {time scheduledAt delay : ℕ}

theorem pending_eq_some_iff :
    pending history = some (value, scheduledAt, delay) ↔ ∃ older, history = .scheduled value scheduledAt delay :: older := by
  constructor
  · intro hpending
    cases history with
    | nil => cases hpending
    | cons event older =>
      cases event with
      | scheduled v t d =>
        simp only [pending, Option.some.injEq, Prod.mk.injEq] at hpending
        obtain ⟨rfl, rfl, rfl⟩ := hpending
        exact ⟨older, rfl⟩
      | cancelled => cases hpending
      | applied v t => cases hpending
  · rintro ⟨older, rfl⟩
    rfl

/-- In a sound history, what was applied had been scheduled by the event before. -/
theorem Sound.scheduled (hsound : Sound history) (hhistory : history = newer ++ .applied value time :: older) :
    ∃ scheduledAt delay oldest, older = .scheduled value scheduledAt delay :: oldest ∧ scheduledAt + delay ≤ time := by
  subst hhistory
  induction newer with
  | nil =>
    obtain ⟨⟨scheduledAt, delay, hpending, hwaited⟩, -⟩ := hsound
    obtain ⟨oldest, holder⟩ := pending_eq_some_iff.mp hpending
    exact ⟨scheduledAt, delay, oldest, holder, hwaited⟩
  | cons event newer ih =>
    cases event with
    | scheduled v t d => exact ih hsound
    | cancelled => exact ih hsound
    | applied v t => exact ih hsound.2

end Timelock
