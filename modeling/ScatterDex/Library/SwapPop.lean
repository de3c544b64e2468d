import Mathlib.Data.List.Induction
import Mathlib.Data.List.Perm.Basic

/-!
# Removal by swap and pop

A set in an array without order: the last element takes the place of the one that leaves, and the array gets shorter by one.
-/

namespace SwapPop

variable {α : Type*} {xs : List α} {i : ℕ} {a b : α}

/-- The elements without the one at a position. -/
def removeAt (xs : List α) (i : ℕ) : List α :=
  match xs.getLast? with
  | some last => (xs.set i last).dropLast
  | none => []

theorem perm_removeAt (hi : xs[i]? = some a) : xs.Perm (a :: removeAt xs i) := by
  induction xs using List.reverseRecOn with
  | nil => cases hi
  | append_singleton ys last =>
    have hremove : removeAt (ys ++ [last]) i = ((ys ++ [last]).set i last).dropLast := by
      rw [removeAt, List.getLast?_concat]
    rw [hremove]
    obtain ⟨hlt, hget⟩ := List.getElem?_eq_some_iff.mp hi
    rw [List.length_append, List.length_singleton] at hlt
    by_cases hlast : i = ys.length
    · have ha : last = a := by
        rw [hlast, List.getElem?_append_right (Nat.le_refl _), Nat.sub_self] at hi
        exact Option.some.inj hi
      have hset : (ys ++ [last]).set i last = ys ++ [last] := by
        rw [hlast, List.set_append_right _ _ (Nat.le_refl _), Nat.sub_self]
        rfl
      rw [hset, List.dropLast_concat, ← ha]
      exact List.perm_append_singleton last ys
    · have hi' : i < ys.length := by omega
      rw [List.getElem?_append_left hi'] at hi
      have hys : ys.take i ++ a :: ys.drop (i + 1) = ys := by
        obtain ⟨_, hget⟩ := List.getElem?_eq_some_iff.mp hi
        rw [← hget, ← List.drop_eq_getElem_cons hi', List.take_append_drop]
      rw [List.set_append_left _ _ hi', List.dropLast_concat, List.set_eq_take_append_cons_drop, if_pos hi']
      nth_rewrite 1 [← hys]
      rw [List.append_assoc]
      refine List.perm_middle.trans (List.Perm.cons a ?_)
      exact (List.perm_append_singleton last _).append_left _

theorem length_removeAt (hi : xs[i]? = some a) : (removeAt xs i).length + 1 = xs.length := (perm_removeAt hi).length_eq.symm

theorem nodup_removeAt (hi : xs[i]? = some a) (hnodup : xs.Nodup) : (removeAt xs i).Nodup :=
  (List.nodup_cons.mp ((perm_removeAt hi).nodup_iff.mp hnodup)).2

theorem mem_removeAt (hi : xs[i]? = some a) (hnodup : xs.Nodup) : b ∈ removeAt xs i ↔ b ∈ xs ∧ b ≠ a := by
  have hperm := perm_removeAt hi
  have hnot : a ∉ removeAt xs i := (List.nodup_cons.mp (hperm.nodup_iff.mp hnodup)).1
  rw [hperm.mem_iff, List.mem_cons]
  constructor
  · intro hb
    exact ⟨Or.inr hb, fun heq => hnot (heq ▸ hb)⟩
  · rintro ⟨heq | hb, hne⟩
    · exact absurd heq hne
    · exact hb

end SwapPop
