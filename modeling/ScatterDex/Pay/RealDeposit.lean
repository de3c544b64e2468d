import ScatterDex.Sdk.ClientFlow

/-!
# Deposits of Pay

`realDeposit` sends the wrap, the approvals and the deposit in one batch where the wallet can, and one after another where it cannot. Either way the note is saved as soon as the wallet has taken the deposit, before the receipt and without a check for an abort in between.
-/

namespace ScatterDex

open Sdk Client

namespace Pay

/-- What a deposit finds out on its way, and the note it makes: whether the wallet can batch, whether the native token must be wrapped, and the approvals the token needs. -/
structure RealDeposit where
  canBatch : Bool
  wrapShortfall : Bool
  approvals : Option ℕ
  note : CommitmentNote
  commitment : ℕ

namespace RealDeposit

/-- Balances, key, note, proof, capabilities and allowance; a probe of the capabilities that fails is no failure. -/
def prepare : Flow Unit := do
  Flow.work
  Flow.work
  Flow.checkAbort
  Flow.work
  Flow.checkAbort
  Flow.work
  Flow.checkAbort
  Flow.work
  Flow.checkAbort
  let _ ← Flow.probe
  Flow.checkAbort
  Flow.work
  Flow.checkAbort

/-- Every approval is waited for, with a check for an abort behind it. -/
def approve : ℕ → Flow Unit
  | 0 => pure ()
  | n + 1 => do
    Flow.work
    Flow.checkAbort
    approve n

/-- The note is saved, and then the receipt is waited for. -/
def save (d : RealDeposit) : Flow Unit := do
  if ← Flow.write (.addNote ⟨d.commitment, d.note⟩) then Flow.work else .fail "vault"

/-- The vault has the note. -/
def Kept (d : RealDeposit) (store : LocalStore) : Prop := ∃ entry ∈ store.notes, entry.note = d.note

variable {d : RealDeposit} {outcomes rest : List Outcome} {store : LocalStore} {w w' : FlowWorld}

end RealDeposit

end Pay

end ScatterDex
