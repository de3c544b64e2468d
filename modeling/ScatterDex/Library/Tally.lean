import Mathlib.Data.Set.Card
import Mathlib.Data.List.Count

/-!
# Counting what is occupied

Places are occupied by keys, finitely many of them. The tally of a key is the number of its places; it changes by one when one place is given or freed.
-/

variable {ι κ : Type*}

/-- The number of places a key occupies. -/
noncomputable def tally (occupant : ι → Option κ) (k : κ) : ℕ := Set.ncard {i | occupant i = some k}

namespace Tally

variable {occupant occupant' : ι → Option κ} {i : ι} {k : κ}

theorem finite_of_finite (hfinite : {i | occupant i ≠ none}.Finite) (k : κ) : {i | occupant i = some k}.Finite := by
  apply hfinite.subset
  intro j hj hnone
  cases hnone.symm.trans hj

theorem freed [DecidableEq κ] (hfinite : {i | occupant i ≠ none}.Finite) (hi : occupant i = some k) (hfree : occupant' i = none)
    (hother : ∀ j, j ≠ i → occupant' j = occupant j) (k' : κ) :
    tally occupant k' = tally occupant' k' + if k' = k then 1 else 0 := by
  by_cases hk : k' = k
  · subst hk
    have hmem : i ∈ {j | occupant j = some k'} := hi
    have hset : {j | occupant' j = some k'} = {j | occupant j = some k'} \ {i} := by
      ext j
      by_cases hj : j = i
      · subst hj
        simp [hfree]
      · simp [hother j hj, hj]
    rw [if_pos rfl, tally, tally, hset, Set.ncard_sdiff_singleton_add_one hmem (finite_of_finite hfinite k')]
  · have hset : {j | occupant' j = some k'} = {j | occupant j = some k'} := by
      ext j
      by_cases hj : j = i
      · subst hj
        simp [hfree, hi, Ne.symm hk]
      · simp [hother j hj]
    rw [if_neg hk, Nat.add_zero, tally, tally, hset]

theorem taken [DecidableEq κ] (hfinite : {i | occupant i ≠ none}.Finite) (hi : occupant i = none) (htaken : occupant' i = some k)
    (hother : ∀ j, j ≠ i → occupant' j = occupant j) (k' : κ) :
    tally occupant' k' = tally occupant k' + if k' = k then 1 else 0 := by
  have hfinite' : {j | occupant' j ≠ none}.Finite := by
    apply (hfinite.insert i).subset
    intro j hj
    by_cases hji : j = i
    · exact Set.mem_insert_iff.mpr (Or.inl hji)
    · apply Set.mem_insert_of_mem
      rwa [Set.mem_ofPred_eq, hother j hji] at hj
  exact freed hfinite' htaken hi (fun j hj => (hother j hj).symm) k'

theorem eq_countP [DecidableEq κ] {places : List ι} (hnodup : places.Nodup) (hplaces : ∀ j, occupant j ≠ none → j ∈ places) (k : κ) :
    tally occupant k = places.countP fun j => decide (occupant j = some k) := by
  classical
  have hset : {j | occupant j = some k} = ↑(places.filter fun j => decide (occupant j = some k)).toFinset := by
    ext j
    simp only [Set.mem_ofPred_eq, List.coe_toFinset, List.mem_filter, decide_eq_true_eq]
    refine ⟨fun h => ⟨hplaces j ?_, h⟩, And.right⟩
    rw [h]
    exact Option.some_ne_none k
  rw [tally, hset, Set.ncard_coe_finset, List.toFinset_card_of_nodup (hnodup.filter _), List.countP_eq_length_filter]

/-! ### Counters -/

/-- A counter of each key holds its places, and some extra ones that are not places yet. -/
def Balances (count : κ → ℕ) (occupant : ι → Option κ) (extra : κ → ℕ) : Prop := ∀ k, count k = tally occupant k + extra k

section

variable [DecidableEq κ] {count extra extra' : κ → ℕ}

theorem Balances.reserve (hbalances : Balances count occupant extra) (hextra : ∀ k', extra' k' = extra k' + if k' = k then 1 else 0) :
    Balances (Function.update count k (count k + 1)) occupant extra' := by
  intro k'
  have hcount := hbalances k'
  have hmore := hextra k'
  by_cases hk : k' = k
  · subst hk
    rw [if_pos rfl] at hmore
    rw [Function.update_self]
    omega
  · rw [if_neg hk] at hmore
    rw [Function.update_of_ne hk]
    omega

theorem Balances.give_up (hbalances : Balances count occupant extra) (hextra : ∀ k', extra k' = extra' k' + if k' = k then 1 else 0) :
    Balances (Function.update count k (count k - 1)) occupant extra' := by
  intro k'
  have hcount := hbalances k'
  have hfewer := hextra k'
  by_cases hk : k' = k
  · subst hk
    rw [if_pos rfl] at hfewer
    rw [Function.update_self]
    omega
  · rw [if_neg hk] at hfewer
    rw [Function.update_of_ne hk]
    omega

variable [DecidableEq ι]

theorem Balances.free (hbalances : Balances count occupant extra) (hfinite : {i | occupant i ≠ none}.Finite)
    (hi : occupant i = some k) :
    Balances (Function.update count k (count k - 1)) (Function.update occupant i none) extra := by
  intro k'
  have hfreed := freed hfinite hi (Function.update_self i none occupant) (fun j hj => Function.update_of_ne hj _ _) k'
  have hcount := hbalances k'
  by_cases hk : k' = k
  · subst hk
    rw [if_pos rfl] at hfreed
    rw [Function.update_self]
    omega
  · rw [if_neg hk] at hfreed
    rw [Function.update_of_ne hk]
    omega

theorem Balances.take (hbalances : Balances count occupant extra) (hfinite : {i | occupant i ≠ none}.Finite)
    (hi : occupant i = none) (hextra : ∀ k', extra k' = extra' k' + if k' = k then 1 else 0) :
    Balances count (Function.update occupant i (some k)) extra' := by
  intro k'
  have htaken := taken hfinite hi (Function.update_self i (some k) occupant) (fun j hj => Function.update_of_ne hj _ _) k'
  have hcount := hbalances k'
  have hfewer := hextra k'
  omega

end

end Tally
