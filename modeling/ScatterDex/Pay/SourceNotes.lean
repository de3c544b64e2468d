import Mathlib.Data.List.Sort
import ScatterDex.Pay.PayoutFees

/-!
# Source notes of Pay

`pickPerBatchNotes` pairs every batch of a payout with a note of the vault, and the wizard's pre-flight asks it whether a payout is covered. `settleArgs` is what the submission then hands to `prepareRealSettle`.
-/

namespace ScatterDex

open Fallible Sdk

namespace Pay

/-- A note of the vault under its id. -/
structure VaultNote extends StoredNote where
  id : String

structure BatchPick where
  note : VaultNote
  spend : ℕ

inductive FitReason
  | noEligibleNotes
  | insufficientNoteCount
  | smallestBatchUncovered
  deriving DecidableEq

/-- `byBatch` is an array filled in the order of the pairing, so it has holes until the loop ends. -/
structure PerBatchPick where
  byBatch : List (Option BatchPick)
  changeRaw : ℕ
  covered : Bool
  reason : Option FitReason

def PerBatchPick.uncovered (reason : FitReason) : PerBatchPick :=
  { byBatch := [], changeRaw := 0, covered := false, reason := some reason }

/-- `tokenBigIntToAddress` -/
def tokenBigIntToAddress (token : ℕ) : List Char := '0' :: 'x' :: (Nat.toDigits 16 token).leftpad 40 '0'

/-- A batch under its place in the payout. -/
structure SortedBatch where
  totalAmount : ℕ
  originalIndex : ℕ

/-- The notes of the token that are on chain, inside the selection when there is one. -/
def isEligible (tokenAddress : String) (selectedIds : Option (List String)) (n : VaultNote) : Bool :=
  let ids := selectedIds.getD []
  tokenBigIntToAddress n.note.token = toLowerCase tokenAddress ∧ n.leafIndex ≥ 0 ∧ (ids ≠ [] → n.id ∈ ids)

/-- The sort with the larger amount first. -/
def sortNotes (notes : List VaultNote) : List VaultNote :=
  notes.mergeSort fun a b => b.note.amount ≤ a.note.amount

def sortBatches (batches : List PayoutBatch) : List SortedBatch :=
  (batches.mapIdx fun originalIndex b => ⟨b.totalAmount, originalIndex⟩).mergeSort fun a b => b.totalAmount ≤ a.totalAmount

/-- The pairing loop, over the sorted batches and the notes at the same places. -/
def pairLoop : List (SortedBatch × VaultNote) → List (Option BatchPick) → ℕ → PerBatchPick
  | [], byBatch, changeRaw => { byBatch, changeRaw, covered := true, reason := none }
  | (b, note) :: pairs, byBatch, changeRaw =>
    if note.note.amount < b.totalAmount then .uncovered .smallestBatchUncovered
    else pairLoop pairs (byBatch.set b.originalIndex (some { note, spend := b.totalAmount }))
      (changeRaw + (note.note.amount - b.totalAmount))

def pickPerBatchNotes (notes : List VaultNote) (batches : List PayoutBatch) (tokenAddress : String)
    (selectedIds : Option (List String)) : PerBatchPick :=
  if batches.length = 0 then { byBatch := [], changeRaw := 0, covered := true, reason := none }
  else
    let eligible := sortNotes (notes.filter (isEligible tokenAddress selectedIds))
    if eligible.length = 0 then .uncovered .noEligibleNotes
    else if eligible.length < batches.length then .uncovered .insufficientNoteCount
    else pairLoop ((sortBatches batches).zip eligible) (List.replicate batches.length none) 0

/-! ### The wizard -/

/-- What the wizard knows of a payout. `tokenAddress` is empty where the token is not deployed. -/
structure Wizard where
  notes : List VaultNote
  batches : List PayoutBatch
  tokenAddress : String
  selectedNoteIds : List String
  manualPick : Bool
  maxFeeBps : ℤ
  claimFeePerRecipientRaw : ℕ

namespace Wizard

variable (w : Wizard)

def restrictTo : Option (List String) := if w.manualPick then some w.selectedNoteIds else none

def multiBatchFit : Option PerBatchPick :=
  if w.tokenAddress = "" ∨ w.batches.length = 0 then none
  else some (pickPerBatchNotes w.notes w.batches w.tokenAddress w.restrictTo)

/-- `multiBatchFit?.covered`, which the submission asks for. -/
def reportsCovered : Bool := w.multiBatchFit.any PerBatchPick.covered

/-- The fee of a batch. -/
def batchFee (b : PayoutBatch) : Except String BatchFeeBreakdown :=
  computeBatchFee {
    lockedAmount := b.totalAmount
    recipientCount := b.claims.length
    maxFeeBps := safeMaxFeeBps w.maxFeeBps
    claimFeePerRecipientRaw := w.claimFeePerRecipientRaw }

/-- The arguments of the settlement of a batch from the note picked for it; `base` has what all batches share. -/
def settleArgs (base : RealSettleArgs) (b : PayoutBatch) (source : BatchPick) : Except String RealSettleArgs := do
  let batchFee ← w.batchFee b
  return { base with
    batch := b
    tokenAddress := w.tokenAddress
    source := source.note.toStoredNote
    maxFeeBps := batchFee.effectiveMaxFeeBps
    feeRaw := batchFee.feeRaw }

end Wizard

end Pay

end ScatterDex
