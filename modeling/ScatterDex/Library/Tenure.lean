import Mathlib.Data.List.Basic

/-!
# Tenures

Members enter, are put on notice, and leave when the notice is over. A history lists what happened to all of them, newest first. In a sound one nobody enters twice without leaving in between, a notice goes to members only, and whoever leaves was on notice for long enough; a second notice does not prolong the first.
-/

namespace Tenure

inductive Event (α : Type*) where
  | entered (member : α)
  | notified (member : α) (time : ℕ)
  | left (member : α) (time notice : ℕ)

inductive Standing where
  | out
  | seated
  | leaving (since : ℕ)

variable {α : Type*} [DecidableEq α]

/-- Where a history leaves somebody. -/
def standing (a : α) : List (Event α) → Standing
  | [] => .out
  | .entered b :: older => if b = a then .seated else standing a older
  | .notified b time :: older =>
    if b = a then
      match standing a older with
      | .leaving since => .leaving since
      | _ => .leaving time
    else standing a older
  | .left b _ _ :: older => if b = a then .out else standing a older

def Sound : List (Event α) → Prop
  | [] => True
  | .entered b :: older => standing b older = .out ∧ Sound older
  | .notified b _ :: older => standing b older ≠ .out ∧ Sound older
  | .left b time notice :: older => (∃ since, standing b older = .leaving since ∧ since + notice ≤ time) ∧ Sound older

/-- Somebody left and entered again afterwards. -/
def Returned (a : α) (history : List (Event α)) : Prop :=
  ∃ newer older time notice, history = newer ++ .entered a :: older ∧ .left a time notice ∈ older

variable {a : α} {newer older history : List (Event α)} {time notice since : ℕ}

theorem Sound.of_append (hsound : Sound (newer ++ older)) : Sound older := by
  induction newer with
  | nil => exact hsound
  | cons event newer ih => cases event <;> exact ih hsound.2

/-! ### What it takes to change standing -/

theorem standing_notified : ∃ since, standing a (.notified a time :: older) = .leaving since := by
  rw [standing, if_pos rfl]
  cases standing a older with
  | out => exact ⟨time, rfl⟩
  | seated => exact ⟨time, rfl⟩
  | leaving since => exact ⟨since, rfl⟩

theorem entered_of_seated (hseated : standing a (newer ++ older) = .seated) (hbefore : standing a older ≠ .seated) :
    ∃ newest middle, newer = newest ++ .entered a :: middle := by
  induction newer with
  | nil => exact absurd hseated hbefore
  | cons event newer ih =>
    have hlater : standing a (newer ++ older) = .seated → ∃ newest middle,
        event :: newer = newest ++ .entered a :: middle := by
      intro hseated
      obtain ⟨newest, middle, hsplit⟩ := ih hseated
      exact ⟨event :: newest, middle, by rw [hsplit, List.cons_append]⟩
    rw [List.cons_append] at hseated
    cases event with
    | entered b =>
      rw [standing] at hseated
      split at hseated
      · rename_i hb
        exact ⟨[], newer, by rw [hb, List.nil_append]⟩
      · exact hlater hseated
    | notified b t =>
      by_cases hb : b = a
      · obtain ⟨since, hleaving⟩ : ∃ since, standing a (.notified a t :: (newer ++ older)) = .leaving since := standing_notified
        rw [hb, hleaving] at hseated
        cases hseated
      · rw [standing, if_neg hb] at hseated
        exact hlater hseated
    | left b t n =>
      rw [standing] at hseated
      split at hseated
      · cases hseated
      · exact hlater hseated

theorem left_of_out (hout : standing a (newer ++ older) = .out) (hbefore : standing a older ≠ .out) :
    ∃ time notice, .left a time notice ∈ newer := by
  induction newer with
  | nil => exact absurd hout hbefore
  | cons event newer ih =>
    have hlater : standing a (newer ++ older) = .out → ∃ time notice, .left a time notice ∈ event :: newer := by
      intro hout
      obtain ⟨t, n, hmem⟩ := ih hout
      exact ⟨t, n, List.mem_cons_of_mem _ hmem⟩
    rw [List.cons_append] at hout
    cases event with
    | entered b =>
      rw [standing] at hout
      split at hout
      · cases hout
      · exact hlater hout
    | notified b t =>
      by_cases hb : b = a
      · obtain ⟨since, hleaving⟩ : ∃ since, standing a (.notified a t :: (newer ++ older)) = .leaving since := standing_notified
        rw [hb, hleaving] at hout
        cases hout
      · rw [standing, if_neg hb] at hout
        exact hlater hout
    | left b t n =>
      by_cases hb : b = a
      · exact ⟨t, n, by rw [hb]; exact List.mem_cons_self⟩
      · rw [standing, if_neg hb] at hout
        exact hlater hout

theorem notified_of_leaving (hleaving : standing a history = .leaving since) :
    ∃ newer older, history = newer ++ .notified a since :: older ∧ .entered a ∉ newer := by
  induction history with
  | nil => cases hleaving
  | cons event history ih =>
    have hlater : standing a history = .leaving since → event ≠ .entered a →
        ∃ newer older, event :: history = newer ++ .notified a since :: older ∧ .entered a ∉ newer := by
      intro hleaving hentered
      obtain ⟨newer, older, hsplit, hnew⟩ := ih hleaving
      refine ⟨event :: newer, older, by rw [hsplit, List.cons_append], ?_⟩
      simpa only [List.mem_cons, not_or] using ⟨hentered.symm, hnew⟩
    cases event with
    | entered b =>
      rw [standing] at hleaving
      split at hleaving
      · cases hleaving
      · rename_i hb
        exact hlater hleaving fun h => hb (Event.entered.inj h)
    | notified b t =>
      by_cases hb : b = a
      · rw [standing, if_pos hb] at hleaving
        cases hstanding : standing a history with
        | leaving s =>
          rw [hstanding] at hleaving
          exact hlater (hstanding.trans hleaving) fun h => by cases h
        | out | seated =>
          rw [hstanding] at hleaving
          obtain rfl := Standing.leaving.inj hleaving
          exact ⟨[], history, by rw [hb, List.nil_append], List.not_mem_nil⟩
      · rw [standing, if_neg hb] at hleaving
        exact hlater hleaving fun h => by cases h
    | left b t n =>
      rw [standing] at hleaving
      split at hleaving
      · cases hleaving
      · exact hlater hleaving fun h => by cases h

/-! ### Sound histories -/

theorem entered_of_in (hsound : Sound (newer ++ older)) (hin : standing a (newer ++ older) ≠ .out)
    (hbefore : standing a older = .out) : .entered a ∈ newer := by
  induction newer with
  | nil => exact absurd hbefore hin
  | cons event newer ih =>
    rw [List.cons_append] at hin hsound
    cases event with
    | entered b =>
      by_cases hb : b = a
      · rw [hb]
        exact List.mem_cons_self
      · rw [standing, if_neg hb] at hin
        exact List.mem_cons_of_mem _ (ih hsound.2 hin)
    | notified b t =>
      by_cases hb : b = a
      · exact List.mem_cons_of_mem _ (ih hsound.2 (hb ▸ hsound.1))
      · rw [standing, if_neg hb] at hin
        exact List.mem_cons_of_mem _ (ih hsound.2 hin)
    | left b t n =>
      by_cases hb : b = a
      · rw [standing, if_pos hb] at hin
        exact absurd rfl hin
      · rw [standing, if_neg hb] at hin
        exact List.mem_cons_of_mem _ (ih hsound.2 hin)

/-- A notice unseats for good, unless its member leaves and comes back. -/
theorem Sound.not_seated (hsound : Sound history) (hhistory : history = newer ++ .notified a time :: older)
    (hreturned : ¬Returned a newer) : standing a history ≠ .seated := by
  subst hhistory
  intro hseated
  obtain ⟨since, hleaving⟩ : ∃ since, standing a (.notified a time :: older) = .leaving since := standing_notified
  obtain ⟨newest, middle, rfl⟩ := entered_of_seated hseated (by rw [hleaving]; exact fun h => by cases h)
  rw [List.append_assoc, List.cons_append] at hsound
  have hout := hsound.of_append.1
  obtain ⟨t, n, hleft⟩ := left_of_out hout (by rw [hleaving]; exact fun h => by cases h)
  exact hreturned ⟨newest, middle, t, n, rfl, hleft⟩

/-- Nobody leaves twice without having entered in between. -/
theorem Sound.left_once {newest : List (Event α)} {time' notice' : ℕ} (hsound : Sound history)
    (hhistory : history = newest ++ .left a time' notice' :: (newer ++ .left a time notice :: older)) :
    .entered a ∈ newer := by
  subst hhistory
  obtain ⟨⟨since, hleaving, -⟩, hsound⟩ := hsound.of_append
  apply entered_of_in hsound
  · rw [hleaving]
    exact fun h => by cases h
  · rw [standing, if_pos rfl]

/-- Whoever leaves was put on notice in this tenure, and long enough ago. -/
theorem Sound.left_noticed (hsound : Sound history) (hhistory : history = newer ++ .left a time notice :: older) :
    ∃ since middle oldest, older = middle ++ .notified a since :: oldest ∧ .entered a ∉ middle ∧
      since + notice ≤ time := by
  subst hhistory
  obtain ⟨since, hleaving, hwaited⟩ := hsound.of_append.1
  obtain ⟨middle, oldest, hsplit, hentered⟩ := notified_of_leaving hleaving
  exact ⟨since, middle, oldest, hsplit, hentered, hwaited⟩

end Tenure
