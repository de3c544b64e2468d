import Mathlib.Algebra.BigOperators.Group.List.Basic
import Mathlib.Algebra.GroupWithZero.Nat
import Mathlib.Logic.Function.Basic

/-!
# Notes and the keys that spend them

A pool of notes in the manner of unspent outputs: every note has a value and a key, and is spent once its key is in the spent set. Two notes may share a key; then they are spent together. Spending a key takes at least the value of each note that has it off the unspent total.
-/

namespace Notes

variable {Note Key : Type*} (key : Note → Key) (value : Note → ℕ)

def total (notes : List Note) : ℕ := (notes.map value).sum

/-- The total value of the notes whose key is not spent. -/
def unspent (spent : Key → Bool) (notes : List Note) : ℕ :=
  (notes.map fun n => if spent (key n) then 0 else value n).sum

variable {key value}

@[simp] theorem total_nil : total value [] = 0 := rfl

@[simp] theorem total_cons (n : Note) (notes : List Note) : total value (n :: notes) = value n + total value notes :=
  rfl

theorem total_append (left right : List Note) : total value (left ++ right) = total value left + total value right := by
  simp [total]

@[simp] theorem unspent_nil (spent : Key → Bool) : unspent key value spent [] = 0 := rfl

@[simp] theorem unspent_cons (spent : Key → Bool) (n : Note) (notes : List Note) :
    unspent key value spent (n :: notes) =
      (if spent (key n) then 0 else value n) + unspent key value spent notes := rfl

theorem unspent_append (spent : Key → Bool) (left right : List Note) :
    unspent key value spent (left ++ right) = unspent key value spent left + unspent key value spent right := by
  simp [unspent]

variable (key value) in
theorem unspent_append_le (spent : Key → Bool) (notes created : List Note) :
    unspent key value spent (notes ++ created) ≤ unspent key value spent notes + total value created := by
  rw [unspent_append, Nat.add_le_add_iff_left]
  induction created with
  | nil => exact Nat.le_refl _
  | cons n created ih =>
    rw [unspent_cons, total_cons]
    split <;> omega

theorem unspent_mono {spent spent' : Key → Bool} (hmono : ∀ k, spent k = true → spent' k = true) (notes : List Note) :
    unspent key value spent' notes ≤ unspent key value spent notes := by
  induction notes with
  | nil => exact Nat.le_refl _
  | cons n notes ih =>
    rw [unspent_cons, unspent_cons]
    cases hspent : spent (key n) with
    | true =>
      rw [hmono _ hspent]
      simpa using ih
    | false =>
      simp only [Bool.false_eq_true, if_false]
      split <;> omega

variable [DecidableEq Key]

variable (value) in
/-- **Spending a note takes its value off the unspent total.** -/
theorem unspent_spend {spent : Key → Bool} {notes : List Note} {n : Note} (hmem : n ∈ notes)
    (hfresh : spent (key n) = false) :
    unspent key value (Function.update spent (key n) true) notes + value n ≤ unspent key value spent notes := by
  have hmono : ∀ k, spent k = true → Function.update spent (key n) true k = true := by
    intro k hk
    by_cases heq : k = key n
    · rw [heq, Function.update_self]
    · rwa [Function.update_of_ne heq]
  induction notes with
  | nil => exact absurd hmem List.not_mem_nil
  | cons m notes ih =>
    rw [unspent_cons, unspent_cons]
    rcases List.mem_cons.mp hmem with rfl | hmem
    · have hrest : unspent key value (Function.update spent (key n) true) notes ≤ unspent key value spent notes :=
        unspent_mono hmono notes
      simp only [Function.update_self, if_true, hfresh, Bool.false_eq_true, if_false]
      omega
    · have hrest := ih hmem
      by_cases heq : key m = key n
      · simp only [heq, Function.update_self, if_true, hfresh, Bool.false_eq_true, if_false]
        omega
      · rw [Function.update_of_ne heq]
        omega

end Notes
