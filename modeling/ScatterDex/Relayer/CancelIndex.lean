import ScatterDex.Library.BlockScan
import ScatterDex.Library.Fallible

/-!
# The index of cancellations

`indexCancels` hands the `PrivateCancel` events of new blocks to the listeners. Callers share the pass that is under way. A pass asks for the head, reads the blocks up to the confirmed tip in windows, and only then calls the listeners and moves `lastCancelBlock`; an error of the RPC ends it before. The events of a block that is deep enough never change.
-/

namespace ScatterDex

open BlockScan Fallible

namespace Relayer

/-- What a pass waits for: the head, or a window of logs. -/
inductive CancelPass (α : Type)
  | head (startBlock : ℕ)
  | query (scan : Scan α)

/-- The index, with what the listeners were handed. -/
structure CancelIndex (α : Type) where
  lastCancelBlock : ℤ
  cancelScanInflight : Option (CancelPass α)
  delivered : List α

variable {α : Type}

def CancelIndex.start : CancelIndex α := ⟨-1, none, []⟩

inductive CancelStep
  | indexCancels (fromBlock : ℕ)
  | head (number : ℕ)
  | logs
  | rpcError

/-- The listeners are called for each log, and the pass is over. -/
def CancelIndex.deliver (scan : Scan α) (s : CancelIndex α) : CancelIndex α where
  lastCancelBlock := scan.tip
  cancelScanInflight := none
  delivered := s.delivered ++ scan.out

/-- `events` is the chain, and `indexBlockRange` is `none` when it is not finite. -/
def CancelIndex.run (events : ℕ → List α) (cancelConfirmations : ℕ) (indexBlockRange : Option ℚ) :
    CancelStep → CancelIndex α → Except String (CancelIndex α)
  | .indexCancels fromBlock, s => do
    require (s.cancelScanInflight.isNone = true) "the pass under way is shared"
    let startBlock := if s.lastCancelBlock ≥ 0 then (s.lastCancelBlock + 1).toNat else fromBlock
    return { s with cancelScanInflight := some (.head startBlock) }
  | .head number, s =>
    match s.cancelScanInflight with
    | some (.head startBlock) =>
      let tip : ℤ := number - cancelConfirmations
      if tip < 0 ∨ startBlock > tip then .ok { s with cancelScanInflight := none }
      else .ok { s with cancelScanInflight := some (.query (.begin startBlock tip.toNat)) }
    | _ => .error "no pass waits for the head"
  | .logs, s =>
    match s.cancelScanInflight with
    | some (.query scan) =>
      let size := windowSize 1 indexBlockRange
      let read := scan.push size (between events scan.cursor (scan.windowEnd size + 1))
      if read.cursor ≤ read.tip then .ok { s with cancelScanInflight := some (.query read) }
      else .ok (s.deliver read)
    | _ => .error "no pass waits for logs"
  | .rpcError, s => .ok { s with cancelScanInflight := none }

end Relayer

end ScatterDex
