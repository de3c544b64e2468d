import Mathlib.Data.List.Nodup
import Mathlib.Data.List.Perm.Subperm
import Mathlib.Order.Lattice

/-!
# Pairing in descending order

Needs and supplies, each in descending order, are paired one with one. If any assignment of distinct supplies covers every need, then this pairing does: a need that its partner did not cover would, with all the needs before it, be assigned supplies from among the partners before it, which are too few.
-/

namespace Matching

variable {ι γ α : Type} [LinearOrder α] {need : ι → α} {size : γ → α}

/-- Distinct supplies for the needs of a list, each large enough. -/
structure Covers (need : ι → α) (size : γ → α) (needs : List ι) (supplies : List γ) (assign : ι → γ) : Prop where
  inj : ∀ a ∈ needs, ∀ b ∈ needs, assign a = assign b → a = b
  mem : ∀ a ∈ needs, assign a ∈ supplies
  le : ∀ a ∈ needs, need a ≤ size (assign a)

variable {needs : List ι} {supplies : List γ} {assign : ι → γ}

theorem Covers.nodup_map (hcovers : Covers need size needs supplies assign) (hneeds : needs.Nodup) {part : List ι}
    (hpart : part.Sublist needs) : (part.map assign).Nodup := by
  apply List.Nodup.map_on _ (hneeds.sublist hpart)
  intro a ha b hb heq
  exact hcovers.inj a (hpart.subset ha) b (hpart.subset hb) heq

theorem Covers.length_le (hcovers : Covers need size needs supplies assign) (hneeds : needs.Nodup) :
    needs.length ≤ supplies.length := by
  have hsubset : needs.map assign ⊆ supplies := by
    intro s hs
    obtain ⟨a, ha, rfl⟩ := List.mem_map.mp hs
    exact hcovers.mem a ha
  have hle := (List.subperm_of_subset (hcovers.nodup_map hneeds (List.Sublist.refl needs)) hsubset).length_le
  rwa [List.length_map] at hle

/-- **The descending pairing covers whatever can be covered.** -/
theorem Covers.descending (hcovers : Covers need size needs supplies assign) (hneeds : needs.Nodup)
    (hdesc : needs.Pairwise fun a b => need b ≤ need a) (hsupplies : supplies.Pairwise fun a b => size b ≤ size a)
    {k : ℕ} {a : ι} {s : γ} (ha : needs[k]? = some a) (hs : supplies[k]? = some s) : need a ≤ size s := by
  by_contra hlt
  rw [not_le] at hlt
  obtain ⟨hk, rfl⟩ := List.getElem?_eq_some_iff.mp ha
  obtain ⟨hk', rfl⟩ := List.getElem?_eq_some_iff.mp hs
  have hearly : (needs.take (k + 1)).map assign ⊆ supplies.take k := by
    intro t ht
    obtain ⟨b, hb, rfl⟩ := List.mem_map.mp ht
    obtain ⟨i, hi, rfl⟩ := List.mem_take_iff_getElem.mp hb
    have hmem := List.getElem_mem (l := needs) (n := i) (by omega)
    -- a need no later than `k` is at least as large, so its supply is larger than the one at `k`
    have hlarge : need needs[k] ≤ need needs[i] := by
      rcases Nat.eq_or_lt_of_le (show i ≤ k by omega) with rfl | hbefore
      · exact le_rfl
      · exact List.pairwise_iff_getElem.mp hdesc i k _ hk hbefore
    have hsize := lt_of_lt_of_le hlt (le_trans hlarge (hcovers.le _ hmem))
    obtain ⟨j, hj, hassign⟩ := List.getElem_of_mem (hcovers.mem _ hmem)
    have hbefore : j < k := by
      by_contra hge
      rcases Nat.eq_or_lt_of_le (Nat.le_of_not_lt hge) with rfl | hafter
      · rw [← hassign] at hsize
        exact lt_irrefl _ hsize
      · have hle := List.pairwise_iff_getElem.mp hsupplies k j hk' hj hafter
        rw [hassign] at hle
        exact absurd hsize (not_lt.mpr hle)
    rw [← hassign, List.mem_take_iff_getElem]
    exact ⟨j, by omega, rfl⟩
  have hcount := (List.subperm_of_subset (hcovers.nodup_map hneeds (List.take_sublist _ _)) hearly).length_le
  rw [List.length_map, List.length_take, List.length_take] at hcount
  omega

end Matching
