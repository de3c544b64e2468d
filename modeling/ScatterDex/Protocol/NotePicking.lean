import Mathlib.Algebra.BigOperators.Fin
import ScatterDex.Library.Matching
import ScatterDex.Pay.SourceNotes

/-!
# Picked notes

The pre-flight of a payout pairs the batches with notes in descending order, which finds a pairing whenever there is one. It compares the notes with the totals of the batches; the settlements sell the totals and their fees. So its answer is the right one exactly for payouts without fees, and for those that not even the totals of can be covered.
-/

namespace ScatterDex

open Fallible Sdk

namespace Pay

/-! ### The sorted lists -/

theorem pairwise_mergeSort_descending {α : Type} (size : α → ℕ) (xs : List α) :
    (xs.mergeSort fun a b => size b ≤ size a).Pairwise fun a b => size b ≤ size a := by
  have hsorted : (xs.mergeSort fun a b => size b ≤ size a).Pairwise fun a b => decide (size b ≤ size a) = true := by
    apply List.pairwise_mergeSort
    · intro a b c
      simp only [decide_eq_true_eq]
      omega
    · intro a b
      simp only [Bool.or_eq_true, decide_eq_true_eq]
      omega
  exact hsorted.imp of_decide_eq_true

variable {batches : List PayoutBatch}

theorem mem_sortBatches {b : SortedBatch} :
    b ∈ sortBatches batches ↔ ∃ i : Fin batches.length, b = ⟨batches[i].totalAmount, i⟩ := by
  rw [sortBatches, List.mem_mergeSort, List.mem_mapIdx]
  constructor
  · intro hb
    obtain ⟨i, hi, heq⟩ := hb
    exact ⟨⟨i, hi⟩, heq.symm⟩
  · intro hb
    obtain ⟨i, heq⟩ := hb
    exact ⟨i, i.isLt, heq.symm⟩

theorem sortBatches_length : (sortBatches batches).length = batches.length := by
  rw [sortBatches, List.length_mergeSort, List.length_mapIdx]

theorem sortBatches_indices : ((sortBatches batches).map SortedBatch.originalIndex).Perm (List.range batches.length) := by
  have hperm := (List.mergeSort_perm (batches.mapIdx fun originalIndex b => (⟨b.totalAmount, originalIndex⟩ : SortedBatch))
    fun a b => b.totalAmount ≤ a.totalAmount).map SortedBatch.originalIndex
  have hindices : (batches.mapIdx fun originalIndex b => (⟨b.totalAmount, originalIndex⟩ : SortedBatch)).map
      SortedBatch.originalIndex = List.range batches.length := by
    apply List.ext_getElem
    · simp
    · intro i hi hi'
      simp
  rwa [hindices] at hperm

/-! ### The pairing loop -/

/-- A note for each place of the array. -/
def place (byBatch : List (Option BatchPick)) (p : SortedBatch × VaultNote) : List (Option BatchPick) :=
  byBatch.set p.1.originalIndex (some { note := p.2, spend := p.1.totalAmount })

theorem pairLoop_eq (pairs : List (SortedBatch × VaultNote)) (byBatch : List (Option BatchPick)) (changeRaw : ℕ) :
    pairLoop pairs byBatch changeRaw =
      if ∀ p ∈ pairs, p.1.totalAmount ≤ p.2.note.amount then {
        byBatch := pairs.foldl place byBatch
        changeRaw := changeRaw + (pairs.map fun p => p.2.note.amount - p.1.totalAmount).sum
        covered := true
        reason := none }
      else .uncovered .smallestBatchUncovered := by
  induction pairs generalizing byBatch changeRaw with
  | nil => rw [pairLoop, if_pos (by simp)]; rfl
  | cons p pairs ih =>
    obtain ⟨b, note⟩ := p
    rw [pairLoop]
    by_cases hsmall : note.note.amount < b.totalAmount
    · rw [if_pos hsmall, if_neg]
      intro hall
      exact absurd (hall _ List.mem_cons_self) (not_le.mpr hsmall)
    · rw [if_neg hsmall, ih]
      have hall : (∀ p ∈ (b, note) :: pairs, p.1.totalAmount ≤ p.2.note.amount) ↔
          ∀ p ∈ pairs, p.1.totalAmount ≤ p.2.note.amount := by
        rw [List.forall_mem_cons]
        exact and_iff_right (not_lt.mp hsmall)
      simp only [hall, List.map_cons, List.sum_cons, Nat.add_assoc, List.foldl_cons]
      rfl

theorem foldl_place {pairs : List (SortedBatch × VaultNote)} (hnodup : (pairs.map fun p => p.1.originalIndex).Nodup)
    (byBatch : List (Option BatchPick)) {p : SortedBatch × VaultNote} (hp : p ∈ pairs)
    (hlength : p.1.originalIndex < byBatch.length) :
    (pairs.foldl place byBatch)[p.1.originalIndex]? = some (some ⟨p.2, p.1.totalAmount⟩) := by
  have hkeep : ∀ (pairs : List (SortedBatch × VaultNote)) (byBatch : List (Option BatchPick)) (i : ℕ),
      (∀ p ∈ pairs, p.1.originalIndex ≠ i) → (pairs.foldl place byBatch)[i]? = byBatch[i]? := by
    intro pairs
    induction pairs with
    | nil => intros; rfl
    | cons q pairs ih =>
      intro byBatch i hne
      obtain ⟨hq, hrest⟩ := List.forall_mem_cons.mp hne
      rw [List.foldl_cons, ih _ _ hrest, place, List.getElem?_set_ne hq]
  induction pairs generalizing byBatch with
  | nil => exact absurd hp List.not_mem_nil
  | cons q pairs ih =>
    rw [List.map_cons, List.nodup_cons] at hnodup
    rw [List.foldl_cons]
    rcases List.mem_cons.mp hp with rfl | hp
    · rw [hkeep, place, List.getElem?_set_self hlength]
      intro r hr heq
      exact hnodup.1 (List.mem_map.mpr ⟨r, hr, heq⟩)
    · apply ih hnodup.2 _ hp
      rw [place, List.length_set]
      exact hlength

theorem sum_pairs {pairs : List (SortedBatch × VaultNote)} {n : ℕ} {f : ℕ → ℤ}
    (hperm : (pairs.map fun p => p.1.originalIndex).Perm (List.range n))
    (hterm : ∀ p ∈ pairs, ((p.2.note.amount - p.1.totalAmount : ℕ) : ℤ) = f p.1.originalIndex) :
    ((pairs.map fun p => p.2.note.amount - p.1.totalAmount).sum : ℕ) = ∑ i : Fin n, f i := by
  calc (((pairs.map fun p => p.2.note.amount - p.1.totalAmount).sum : ℕ) : ℤ)
      = (pairs.map fun p => f p.1.originalIndex).sum := by
        rw [Nat.cast_list_sum, List.map_map]
        exact congrArg List.sum (List.map_congr_left hterm)
    _ = ((pairs.map fun p => p.1.originalIndex).map f).sum := by rw [List.map_map]; rfl
    _ = ((List.range n).map f).sum := (hperm.map f).sum_eq
    _ = ∑ i ∈ Finset.range n, f i := rfl
    _ = ∑ i : Fin n, f i := Finset.sum_range f

/-! ### The pre-flight -/

namespace Wizard

variable (w : Wizard)

/-- The notes a batch may be settled from. -/
def Eligible (n : VaultNote) : Prop :=
  tokenBigIntToAddress n.note.token = toLowerCase w.tokenAddress ∧ 0 ≤ n.leafIndex ∧
    (w.restrictTo.getD [] ≠ [] → n.id ∈ w.restrictTo.getD [])

/-- The fee that is added to the total of a batch. -/
def feeRaw (b : PayoutBatch) : ℕ :=
  match w.batchFee b with
  | .ok fee => fee.feeRaw
  | .error _ => 0

/-- What the settlement of a batch sells. -/
def sellAmount (b : PayoutBatch) : ℕ := b.totalAmount + w.feeRaw b

/-- Different notes for the batches, each large enough for what its batch demands. -/
def Assigned (demand : PayoutBatch → ℕ) (assign : Fin w.batches.length → VaultNote) : Prop :=
  Function.Injective (fun i => (assign i).id) ∧
    ∀ i, assign i ∈ w.notes ∧ w.Eligible (assign i) ∧ demand w.batches[i] ≤ (assign i).note.amount

/-- The pre-flight is right: it reports the payouts whose settlements can be covered, and the notes it then picks are different, leave the change it states and pass the balance check. -/
structure FitSound : Prop where
  covered_iff : w.reportsCovered = true ↔ ∃ assign, w.Assigned w.sellAmount assign
  paired : ∀ pick, w.multiBatchFit = some pick → pick.covered = true → ∃ picks : Fin w.batches.length → BatchPick,
    (∀ i : Fin w.batches.length, pick.byBatch[(i : ℕ)]? = some (some (picks i))) ∧ Function.Injective (fun i => (picks i).note.id) ∧
    (pick.changeRaw : ℤ) = ∑ i, (((picks i).note.note.amount : ℤ) - w.sellAmount w.batches[i]) ∧
    ∀ i base args, w.settleArgs base w.batches[i] (picks i) = .ok args → args.Covered

variable {w}

theorem batchFee_ok (b : PayoutBatch) : ∃ fee, w.batchFee b = .ok fee ∧ w.feeRaw b = fee.feeRaw := by
  have hbps : ¬(safeMaxFeeBps w.maxFeeBps < 0 ∨ safeMaxFeeBps w.maxFeeBps > 10000) := by
    rw [safeMaxFeeBps]
    omega
  have hfee : ∃ fee, w.batchFee b = .ok fee := by
    simp only [batchFee, computeBatchFee, bind_eq_ok, require_eq_ok, pure_eq_ok]
    exact ⟨_, (), by omega, (), hbps, (), by omega, rfl⟩
  obtain ⟨fee, hfee⟩ := hfee
  exact ⟨fee, hfee, by rw [feeRaw, hfee]⟩

theorem settleArgs_spec {base args : RealSettleArgs} {b : PayoutBatch} {source : BatchPick}
    (hargs : w.settleArgs base b source = .ok args) :
    args.sellAmount = w.sellAmount b ∧ args.source = source.note.toStoredNote := by
  obtain ⟨fee, hfee, hraw⟩ := batchFee_ok (w := w) b
  simp only [settleArgs, bind_eq_ok, pure_eq_ok, hfee, Except.ok.injEq, exists_eq_left'] at hargs
  subst hargs
  exact ⟨by rw [RealSettleArgs.sellAmount, sellAmount, hraw, Int.toNat_natCast], rfl⟩

/-- The notes of the pairing. -/
def eligible (w : Wizard) : List VaultNote := sortNotes (w.notes.filter (isEligible w.tokenAddress w.restrictTo))

theorem mem_eligible {n : VaultNote} : n ∈ w.eligible ↔ n ∈ w.notes ∧ w.Eligible n := by
  rw [eligible, sortNotes, List.mem_mergeSort, List.mem_filter]
  simp only [isEligible, Eligible, decide_eq_true_eq, ge_iff_le]

theorem tokenAddress_ne_empty {n : VaultNote} (hn : w.Eligible n) : w.tokenAddress ≠ "" := by
  intro hempty
  have htoken := hn.1
  rw [hempty] at htoken
  exact absurd htoken (List.cons_ne_nil _ _)

theorem Assigned.covers {assign : Fin w.batches.length → VaultNote} (hassigned : w.Assigned PayoutBatch.totalAmount assign)
    (hne : w.batches ≠ []) :
    ∃ assign', Matching.Covers SortedBatch.totalAmount (fun n : VaultNote => n.note.amount) (sortBatches w.batches) w.eligible
      assign' := by
  obtain ⟨hinj, hall⟩ := hassigned
  have hpos := List.length_pos_iff.mpr hne
  have hplace : ∀ b ∈ sortBatches w.batches, ∃ i : Fin w.batches.length, b = ⟨w.batches[i].totalAmount, i⟩ ∧
      (if h : b.originalIndex < w.batches.length then assign ⟨b.originalIndex, h⟩ else assign ⟨0, hpos⟩) = assign i := by
    intro b hb
    obtain ⟨i, rfl⟩ := mem_sortBatches.mp hb
    exact ⟨i, rfl, by rw [dif_pos i.isLt]⟩
  refine ⟨fun b => if h : b.originalIndex < w.batches.length then assign ⟨b.originalIndex, h⟩ else assign ⟨0, hpos⟩, ?_, ?_, ?_⟩
  · intro a ha b hb heq
    obtain ⟨i, rfl, hi⟩ := hplace a ha
    obtain ⟨j, rfl, hj⟩ := hplace b hb
    obtain rfl : i = j := hinj (congrArg VaultNote.id (hi.symm.trans (heq.trans hj)))
    rfl
  · intro b hb
    obtain ⟨i, rfl, hi⟩ := hplace b hb
    rw [hi]
    exact mem_eligible.mpr ⟨(hall i).1, (hall i).2.1⟩
  · intro b hb
    obtain ⟨i, rfl, hi⟩ := hplace b hb
    dsimp only at hi ⊢
    rw [hi]
    exact (hall i).2.2

/-- The batches with the notes they are paired with. -/
def pairs (w : Wizard) : List (SortedBatch × VaultNote) := (sortBatches w.batches).zip w.eligible

/-- The answer of a covered pre-flight. -/
def coveredPick (w : Wizard) : PerBatchPick where
  byBatch := w.pairs.foldl place (List.replicate w.batches.length none)
  changeRaw := (w.pairs.map fun p => p.2.note.amount - p.1.totalAmount).sum
  covered := true
  reason := none

/-- A pre-flight is covered when every batch has a partner that is large enough. -/
theorem multiBatchFit_covered {pick : PerBatchPick} : w.multiBatchFit = some pick ∧ pick.covered = true ↔
    w.tokenAddress ≠ "" ∧ w.batches ≠ [] ∧ w.batches.length ≤ w.eligible.length ∧
      (∀ p ∈ w.pairs, p.1.totalAmount ≤ p.2.note.amount) ∧ pick = w.coveredPick := by
  have heligible : sortNotes (w.notes.filter (isEligible w.tokenAddress w.restrictTo)) = w.eligible := rfl
  have hpairs : (sortBatches w.batches).zip w.eligible = w.pairs := rfl
  have hnil : w.batches.length = 0 ↔ w.batches = [] := List.length_eq_zero_iff
  rw [multiBatchFit]
  by_cases hnone : w.tokenAddress = "" ∨ w.batches.length = 0
  · rw [if_pos hnone]
    grind
  · rw [if_neg hnone, Option.some.injEq, pickPerBatchNotes, if_neg (by omega), heligible]
    dsimp only
    rw [hpairs]
    by_cases hcount : w.eligible.length < w.batches.length
    · have huncovered : (if w.eligible.length = 0 then PerBatchPick.uncovered .noEligibleNotes
          else if w.eligible.length < w.batches.length then .uncovered .insufficientNoteCount
          else pairLoop w.pairs (List.replicate w.batches.length none) 0).covered = false := by
        rw [if_pos hcount]
        split <;> rfl
      grind
    · rw [if_neg (by omega), if_neg hcount, pairLoop_eq, Nat.zero_add]
      by_cases hfits : ∀ p ∈ w.pairs, p.1.totalAmount ≤ p.2.note.amount
      · rw [if_pos hfits]
        simp only [not_or] at hnone
        constructor
        · intro hpick
          exact ⟨hnone.1, by rw [ne_eq, ← hnil]; exact hnone.2, by omega, hfits, hpick.1.symm⟩
        · intro hpick
          exact ⟨hpick.2.2.2.2.symm, by rw [hpick.2.2.2.2]; rfl⟩
      · rw [if_neg hfits]
        constructor
        · intro hpick
          rw [← hpick.1] at hpick
          exact absurd hpick.2 (by simp [PerBatchPick.uncovered])
        · intro hpick
          exact absurd hpick.2.2.2.1 hfits

/-- **The pairing is complete**: an assignment of the totals makes the pre-flight report the payout. -/
theorem Assigned.reportsCovered {assign : Fin w.batches.length → VaultNote}
    (hassigned : w.Assigned PayoutBatch.totalAmount assign) (hne : w.batches ≠ []) : w.reportsCovered = true := by
  obtain ⟨assign', hcovers⟩ := hassigned.covers hne
  have haddress := tokenAddress_ne_empty (hassigned.2 ⟨0, List.length_pos_iff.mpr hne⟩).2.1
  have hnodup : (sortBatches w.batches).Nodup := List.Nodup.of_map _ (sortBatches_indices.nodup_iff.mpr List.nodup_range)
  have hlength := hcovers.length_le hnodup
  rw [sortBatches_length] at hlength
  have hfits : ∀ p ∈ w.pairs, p.1.totalAmount ≤ p.2.note.amount := by
    intro p hp
    obtain ⟨k, hk⟩ := List.mem_iff_getElem?.mp hp
    obtain ⟨hbatch, hnote⟩ := List.getElem?_zip_eq_some.mp hk
    exact hcovers.descending hnodup (pairwise_mergeSort_descending _ _) (pairwise_mergeSort_descending _ _) hbatch hnote
  obtain ⟨hfit, hcovered⟩ := multiBatchFit_covered.mpr ⟨haddress, hne, hlength, hfits, rfl⟩
  rw [Wizard.reportsCovered, hfit]
  exact hcovered

/-- **The pairing is sound**: what a covered pre-flight picks is an assignment of the totals, with their change. -/
theorem picks_of_covered (hids : (w.notes.map VaultNote.id).Nodup) {pick : PerBatchPick} (hfit : w.multiBatchFit = some pick)
    (hcovered : pick.covered = true) : ∃ picks : Fin w.batches.length → BatchPick,
      (∀ i : Fin w.batches.length, pick.byBatch[(i : ℕ)]? = some (some (picks i))) ∧
      w.Assigned PayoutBatch.totalAmount (fun i => (picks i).note) ∧
      (pick.changeRaw : ℤ) = ∑ i, (((picks i).note.note.amount : ℤ) - w.batches[i].totalAmount) := by
  obtain ⟨-, -, hlength, hfits, rfl⟩ := multiBatchFit_covered.mp ⟨hfit, hcovered⟩
  have hfirsts : w.pairs.map Prod.fst = sortBatches w.batches :=
    List.map_fst_zip (by rw [sortBatches_length]; exact hlength)
  have hindices : w.pairs.map (fun p => p.1.originalIndex) = (sortBatches w.batches).map SortedBatch.originalIndex := by
    rw [← hfirsts, List.map_map]
    rfl
  have hnodup : (w.pairs.map fun p => p.1.originalIndex).Nodup := by
    rw [hindices]
    exact sortBatches_indices.nodup_iff.mpr List.nodup_range
  have heligible : (w.eligible.map VaultNote.id).Nodup := by
    have hperm : (w.eligible.map VaultNote.id).Perm ((w.notes.filter (isEligible w.tokenAddress w.restrictTo)).map VaultNote.id) :=
      (List.mergeSort_perm _ _).map _
    exact hperm.nodup_iff.mpr (hids.sublist (List.filter_sublist.map _))
  -- where a batch and its partner stand
  have hpartner : ∀ i : Fin w.batches.length, ∃ (k : ℕ) (note : VaultNote), (sortBatches w.batches)[k]? = some ⟨w.batches[i].totalAmount, i⟩ ∧
      w.eligible[k]? = some note := by
    intro i
    obtain ⟨k, hk⟩ := List.mem_iff_getElem?.mp (mem_sortBatches.mpr ⟨i, rfl⟩)
    have hlt := (List.getElem?_eq_some_iff.mp hk).1
    rw [sortBatches_length] at hlt
    exact ⟨k, _, hk, List.getElem?_eq_getElem (by omega)⟩
  choose position note hbatch hnote using hpartner
  have hpair : ∀ i, (⟨w.batches[i].totalAmount, i⟩, note i) ∈ w.pairs := fun i =>
    List.mem_of_getElem? (List.getElem?_zip_eq_some.mpr ⟨hbatch i, hnote i⟩)
  have hplaced : ∀ p ∈ w.pairs, ∀ hlt : p.1.originalIndex < w.batches.length,
      w.coveredPick.byBatch[p.1.originalIndex]? = some (some ⟨p.2, p.1.totalAmount⟩) := fun p hp hlt =>
    foldl_place hnodup _ hp (by rwa [List.length_replicate])
  refine ⟨fun i => ⟨note i, w.batches[i].totalAmount⟩, fun i => hplaced _ (hpair i) i.isLt, ⟨?_, ?_⟩, ?_⟩
  · intro i j heq
    have hsame : position i = position j := by
      have hlt := (List.getElem?_eq_some_iff.mp (hnote i)).1
      apply (List.getElem?_inj (by rwa [List.length_map]) heligible).mp
      rw [List.getElem?_map, List.getElem?_map, hnote, hnote]
      exact congrArg some heq
    have hbatches := (hbatch i).symm.trans ((congrArg ((sortBatches w.batches)[·]?) hsame).trans (hbatch j))
    exact Fin.ext (SortedBatch.mk.inj (Option.some.inj hbatches)).2
  · intro i
    obtain ⟨hmem, hready⟩ := mem_eligible.mp (List.mem_of_getElem? (hnote i))
    exact ⟨hmem, hready, hfits _ (hpair i)⟩
  · -- each term of the sum is the change of the batch at its place
    have hchange := sum_pairs (f := fun i => if h : i < w.batches.length then
      ((note ⟨i, h⟩).note.amount : ℤ) - w.batches[i].totalAmount else 0) (hindices ▸ sortBatches_indices) (by
        intro p hp
        obtain ⟨i, hi⟩ := mem_sortBatches.mp (List.of_mem_zip (show (p.1, p.2) ∈ w.pairs from hp)).1
        have hidx : p.1.originalIndex = i := by rw [hi]
        have htotal : p.1.totalAmount = w.batches[i].totalAmount := by rw [hi]
        have hfound := hplaced p hp (by rw [hidx]; exact i.isLt)
        rw [hidx, hplaced _ (hpair i) i.isLt] at hfound
        have hnotes := (BatchPick.mk.inj (Option.some.inj (Option.some.inj hfound))).1
        rw [Nat.cast_sub (hfits p hp), ← hnotes, htotal, hidx, dif_pos i.isLt]
        rfl)
    refine Eq.trans hchange (Finset.sum_congr rfl ?_)
    intro i _
    rw [dif_pos i.isLt]
    rfl

theorem exists_of_reportsCovered (hreports : w.reportsCovered = true) :
    ∃ pick, w.multiBatchFit = some pick ∧ pick.covered = true := by
  rw [reportsCovered, Option.any_eq_true] at hreports
  exact hreports

/-- An assignment for larger demands is one for smaller ones. -/
theorem Assigned.mono {demand demand' : PayoutBatch → ℕ} {assign : Fin w.batches.length → VaultNote}
    (hassigned : w.Assigned demand assign) (hle : ∀ b ∈ w.batches, demand' b ≤ demand b) : w.Assigned demand' assign := by
  refine ⟨hassigned.1, ?_⟩
  intro i
  obtain ⟨hmem, hready, hcovers⟩ := hassigned.2 i
  exact ⟨hmem, hready, le_trans (hle _ (List.getElem_mem i.isLt)) hcovers⟩

theorem totalAmount_le_sellAmount (b : PayoutBatch) : b.totalAmount ≤ w.sellAmount b := Nat.le_add_right _ _

/-- Without fees the pre-flight is right, since its pairing is. -/
theorem fitSound_of_free (hids : (w.notes.map VaultNote.id).Nodup) (hne : w.batches ≠ [])
    (hfree : ∀ b ∈ w.batches, w.feeRaw b = 0) : w.FitSound := by
  have hsell : ∀ b ∈ w.batches, w.sellAmount b = b.totalAmount := fun b hb => by rw [sellAmount, hfree b hb, Nat.add_zero]
  constructor
  · constructor
    · intro hreports
      obtain ⟨pick, hfit, hcovered⟩ := exists_of_reportsCovered hreports
      obtain ⟨picks, -, hassigned, -⟩ := picks_of_covered hids hfit hcovered
      exact ⟨_, hassigned.mono fun b hb => (hsell b hb).le⟩
    · intro hassigned
      obtain ⟨assign, hassigned⟩ := hassigned
      exact (hassigned.mono fun b _ => totalAmount_le_sellAmount b).reportsCovered hne
  · intro pick hfit hcovered
    obtain ⟨picks, hbatches, hassigned, hchange⟩ := picks_of_covered hids hfit hcovered
    refine ⟨picks, hbatches, hassigned.1, ?_, ?_⟩
    · rw [hchange]
      apply Finset.sum_congr rfl
      intro i _
      rw [hsell w.batches[i] (List.getElem_mem i.isLt)]
    · intro i base args hargs
      obtain ⟨hsells, hsource⟩ := settleArgs_spec hargs
      rw [RealSettleArgs.Covered, hsells, hsource, hsell w.batches[i] (List.getElem_mem i.isLt)]
      exact (hassigned.2 i).2.2

theorem fitSound_of_unassigned (hids : (w.notes.map VaultNote.id).Nodup)
    (hnone : ¬∃ assign, w.Assigned PayoutBatch.totalAmount assign) : w.FitSound := by
  have huncovered : ∀ pick, w.multiBatchFit = some pick → pick.covered = true → False := by
    intro pick hfit hcovered
    obtain ⟨picks, -, hassigned, -⟩ := picks_of_covered hids hfit hcovered
    exact hnone ⟨_, hassigned⟩
  constructor
  · constructor
    · intro hreports
      obtain ⟨pick, hfit, hcovered⟩ := exists_of_reportsCovered hreports
      exact (huncovered pick hfit hcovered).elim
    · intro hassigned
      obtain ⟨assign, hassigned⟩ := hassigned
      exact absurd ⟨assign, hassigned.mono fun b _ => totalAmount_le_sellAmount b⟩ hnone
  · intro pick hfit hcovered
    exact (huncovered pick hfit hcovered).elim

/-- A sound pre-flight that covers the totals has no fee to leave out: the change it states is the one without fees. -/
theorem FitSound.free (hids : (w.notes.map VaultNote.id).Nodup) (hsound : w.FitSound) (hne : w.batches ≠ [])
    (hassigned : ∃ assign, w.Assigned PayoutBatch.totalAmount assign) : ∀ b ∈ w.batches, w.feeRaw b = 0 := by
  obtain ⟨assign, hassigned⟩ := hassigned
  obtain ⟨pick, hfit, hcovered⟩ := exists_of_reportsCovered (hassigned.reportsCovered hne)
  obtain ⟨picks, hbatches, -, hchange, -⟩ := hsound.paired pick hfit hcovered
  obtain ⟨picks', hbatches', -, hchange'⟩ := picks_of_covered hids hfit hcovered
  obtain rfl : picks = picks' := by
    funext i
    exact Option.some.inj (Option.some.inj ((hbatches i).symm.trans (hbatches' i)))
  have hsum : ∑ i : Fin w.batches.length, w.feeRaw w.batches[i] = 0 := by
    have hdiff := hchange.symm.trans hchange'
    simp only [sellAmount, Finset.sum_sub_distrib, Nat.cast_add, Finset.sum_add_distrib] at hdiff
    have hcast : ((∑ i : Fin w.batches.length, w.feeRaw w.batches[i] : ℕ) : ℤ) = 0 := by
      rw [Nat.cast_sum]
      omega
    exact_mod_cast hcast
  intro b hb
  obtain ⟨i, hi, rfl⟩ := List.getElem_of_mem hb
  exact Finset.sum_eq_zero_iff.mp hsum ⟨i, hi⟩ (Finset.mem_univ _)

variable (w)

/-- **Note picking.** The pre-flight is right exactly when there is a batch, and no batch has a fee or no notes cover even the totals. -/
theorem fitSound_iff (hids : (w.notes.map VaultNote.id).Nodup) : w.FitSound ↔
    w.batches ≠ [] ∧
      ((∀ b ∈ w.batches, w.feeRaw b = 0) ∨ ¬∃ assign, w.Assigned PayoutBatch.totalAmount assign) := by
  constructor
  · intro hsound
    have hne : w.batches ≠ [] := by
      intro hnil
      have hreports : w.reportsCovered = false := by
        rw [reportsCovered, multiBatchFit, if_pos (Or.inr (by rw [hnil]; rfl))]
        rfl
      have hempty : IsEmpty (Fin w.batches.length) := by
        rw [hnil]
        exact Fin.isEmpty
      have hcovered := hsound.covered_iff.mpr ⟨fun i => isEmptyElim i, fun i => isEmptyElim i, fun i => isEmptyElim i⟩
      rw [hreports] at hcovered
      exact Bool.false_ne_true hcovered
    refine ⟨hne, ?_⟩
    by_cases hassigned : ∃ assign, w.Assigned PayoutBatch.totalAmount assign
    · exact Or.inl (hsound.free hids hne hassigned)
    · exact Or.inr hassigned
  · intro hcases
    obtain ⟨hne, hfree | hnone⟩ := hcases
    · exact fitSound_of_free hids hne hfree
    · exact fitSound_of_unassigned hids hnone

/-! ### A payout with a fee -/

/-- One batch of 100 with a service fee of 1%, and one note of 100. -/
def tight : Wizard where
  notes := [⟨⟨⟨1, 0, 100, 0, 0, 0⟩, 7, 0⟩, "note"⟩]
  batches := [⟨100, [], tier16⟩]
  tokenAddress := "0x0000000000000000000000000000000000000000"
  selectedNoteIds := []
  manualPick := false
  maxFeeBps := 100
  claimFeePerRecipientRaw := 0

theorem fitSound_tight : tight.FitSound ↔ tight.batches ≠ [] ∧
    ((∀ b ∈ tight.batches, tight.feeRaw b = 0) ∨ ¬∃ assign, tight.Assigned PayoutBatch.totalAmount assign) :=
  fitSound_iff tight (by decide)

/-- The note covers the batch but not its fee, and the pre-flight reports the payout as covered. -/
theorem not_fitSound_tight : ¬∀ w : Wizard, (w.notes.map VaultNote.id).Nodup → w.FitSound := by
  intro hall
  have hreports : tight.reportsCovered = true := by decide +kernel
  obtain ⟨assign, -, hassigned⟩ := (hall tight (by decide)).covered_iff.mp hreports
  obtain ⟨hmem, -, hcovers⟩ := hassigned ⟨0, by decide⟩
  have hamount : (assign ⟨0, by decide⟩).note.amount = 100 := by rw [List.mem_singleton.mp hmem]
  have hsell : tight.sellAmount ⟨100, [], tier16⟩ = 101 := by decide +kernel
  have hdemand : tight.sellAmount ⟨100, [], tier16⟩ ≤ (assign ⟨0, by decide⟩).note.amount := hcovers
  omega

end Wizard

end Pay

end ScatterDex
