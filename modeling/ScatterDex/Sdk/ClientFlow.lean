import ScatterDex.Library.Interrupted
import ScatterDex.Sdk.Commitment

/-!
# Flows of the clients

A deposit, an order or a cancel is a chain of awaits in a page: work that touches nothing, checks whether the user has cancelled, one request that cannot be taken back, and writes to the local storage. Every await can fail, the answer of a request can be lost after it took effect, and the page can be closed at any time.
-/

namespace ScatterDex

open Sdk

namespace Client

/-- A note in the local vault. -/
structure VaultEntry where
  commitment : ℕ
  note : CommitmentNote
  deriving DecidableEq

structure ClaimSecret where
  secret : ℕ
  recipient : ℕ
  token : ℕ
  amount : ℕ
  releaseTime : ℕ
  leafIndex : ℕ
  deriving DecidableEq

/-- An order in the local storage. -/
structure SavedOrder where
  id : ℕ
  claims : List ClaimSecret
  cancelled : Bool
  deriving DecidableEq

/-- What the page persists. The vault is keyed by commitment. -/
inductive StoreWrite where
  | addNote (entry : VaultEntry)
  | removeNote (commitment : ℕ)
  | addOrder (order : SavedOrder)
  | markCancelled (id : ℕ)
  | saveClaimsBundle (claims : List ClaimSecret)

structure LocalStore where
  notes : List VaultEntry
  orders : List SavedOrder
  bundles : List (List ClaimSecret)

def LocalStore.write (store : LocalStore) : StoreWrite → LocalStore
  | .addNote entry => { store with notes := entry :: store.notes.filter fun e => e.commitment ≠ entry.commitment }
  | .removeNote commitment => { store with notes := store.notes.filter fun e => e.commitment ≠ commitment }
  | .addOrder order => { store with orders := order :: store.orders }
  | .markCancelled id =>
    { store with orders := store.orders.map fun o => if o.id = id then { o with cancelled := true } else o }
  | .saveClaimsBundle claims => { store with bundles := claims :: store.bundles }

/-- What an await of a flow is for. -/
inductive FlowOp where
  -- deriving, proving, reading, wrapping, approving
  | work
  -- `signal.aborted`
  | signal
  -- broadcasting the transaction, or the POST of the order
  | send
  -- waiting for the receipt
  | receipt
  | write (w : StoreWrite)

inductive SendAnswer where
  | ok
  | unsupported
  | failed
  deriving DecidableEq

/-- What the page gets back: whether the work resolved, whether the user has cancelled, the answer, the status of the receipt, whether the write resolved. -/
abbrev FlowOp.Ans : FlowOp → Type
  | .work => Bool
  | .signal => Bool
  | .send => SendAnswer
  | .receipt => Option Bool
  | .write _ => Bool

/-- What happens at an await: the answer, and what the page may never learn, whether the request landed (the transaction is mined, the relayer accepts) and whether the write was stored. -/
inductive Outcome where
  | worked (ok : Bool)
  | signalled (aborted : Bool)
  | sent (landed : Bool) (answer : SendAnswer)
  | received (status : Option Bool)
  | wrote (stored : Bool) (ok : Bool)

structure FlowWorld where
  landed : Bool
  store : LocalStore

/-- An outcome of an await. A wallet without a method has done nothing, a receipt of success is of a transaction that landed, and a write that resolves is stored. -/
def FlowOp.act : (o : FlowOp) → Outcome → FlowWorld → Option (o.Ans × FlowWorld)
  | .work, .worked ok, w => some (ok, w)
  | .signal, .signalled aborted, w => some (aborted, w)
  | .send, .sent landed answer, w =>
    if landed = true ∧ answer = .unsupported then none else some (answer, { w with landed := w.landed || landed })
  | .receipt, .received status, w => if status = some true ∧ w.landed = false then none else some (status, w)
  | .write op, .wrote stored ok, w =>
    if ok = true ∧ stored = false then none
    else some (ok, if stored then { w with store := w.store.write op } else w)
  | _, _, _ => none

abbrev Flow := Program FlowOp FlowOp.Ans String

namespace Flow

def work : Flow Unit := do
  if ¬(← Program.call .work) then .fail "rejected"

/-- Work that may fail without ending the flow. -/
def probe : Flow Bool := Program.call FlowOp.work

def works : ℕ → Flow Unit
  | 0 => pure ()
  | n + 1 => do
    work
    works n

def checkAbort : Flow Unit := do
  if ← Program.call .signal then .fail "AbortError"

def send : Flow SendAnswer := Program.call FlowOp.send

/-- The status of the receipt, or nothing where waiting for it fails. -/
def receipt : Flow (Option Bool) := Program.call FlowOp.receipt

def write (w : StoreWrite) : Flow Bool := Program.call (FlowOp.write w)

/-- A write whose end the flow does not depend on. -/
def detached (w : StoreWrite) : Flow Unit := do
  let _ ← write w

/-- The world after a flow was cut, having met these outcomes. -/
def run (flow : Flow Unit) (outcomes : List Outcome) (store : LocalStore) : Option FlowWorld :=
  flow.meet FlowOp.act outcomes ⟨false, store⟩

end Flow

/-! ### The request that cannot be taken back -/

/-- An await of work or of the signal: it touches neither the chain nor the storage. -/
def FlowOp.Quiet (o : FlowOp) : Prop := o = .work ∨ o = .signal

/-- An await of anything but the request. -/
def FlowOp.NotSend (o : FlowOp) : Prop := o ≠ .send

/-- The outcome is not that of a request that landed. -/
def Outcome.Unsent (t : Outcome) : Prop := ∀ answer, t ≠ .sent true answer

variable {after : SendAnswer → List Outcome → Prop}

theorem FlowOp.Quiet.act {o : FlowOp} (ho : o.Quiet) {t : Outcome} {w : FlowWorld} {r : o.Ans × FlowWorld}
    (hact : o.act t w = some r) : r.2 = w ∧ t.Unsent := by
  rcases ho with rfl | rfl
  · cases t <;> cases hact
    exact ⟨rfl, fun _ => by simp⟩
  · cases t <;> cases hact
    exact ⟨rfl, fun _ => by simp⟩

theorem FlowOp.NotSend.act {o : FlowOp} (ho : o.NotSend) {t : Outcome} {w : FlowWorld} {r : o.Ans × FlowWorld}
    (hact : o.act t w = some r) : r.2.landed = w.landed ∧ t.Unsent := by
  cases o with
  | work => exact (FlowOp.Quiet.act (Or.inl rfl) hact).imp_left (congrArg FlowWorld.landed)
  | signal => exact (FlowOp.Quiet.act (Or.inr rfl) hact).imp_left (congrArg FlowWorld.landed)
  | send => exact absurd rfl ho
  | receipt =>
    cases t with
    | received status =>
      simp only [FlowOp.act] at hact
      split at hact
      · cases hact
      · cases hact
        exact ⟨rfl, fun _ => by simp⟩
    | _ => cases hact
  | write op =>
    cases t with
    | wrote stored ok =>
      simp only [FlowOp.act] at hact
      split at hact
      · cases hact
      · cases hact
        refine ⟨?_, fun _ => by simp⟩
        dsimp only
        split <;> rfl
    | _ => cases hact

variable {α : Type} {outcomes : List Outcome} {w w' : FlowWorld}

namespace Flow

variable {P : FlowOp → Prop} {f : Unit → Flow α} {w w' : FlowWorld} {rest : List Outcome}

end Flow

end Client

end ScatterDex
