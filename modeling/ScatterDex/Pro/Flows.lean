import ScatterDex.Sdk.ClientFlow

/-!
# The flows of Pro

`launch` of the deposit modal, and `submit` of the order modal and of the cancel modal, from the first await to the last write. What the modals compute in between without an await is part of what a flow is given.
-/

namespace ScatterDex

open Sdk Client

namespace Pro

/-! ### Deposit -/

/-- What the deposit modal starts from: whether a native token is to be wrapped, whether pool, token and signer are there, the approvals the token needs, and the note it makes. -/
structure DepositFlow where
  isNative : Bool
  configured : Bool
  approvals : ℕ
  note : CommitmentNote
  commitment : ℕ

namespace DepositFlow

/-- Derive the key, make the note, prove, and wrap a native token. -/
def prepare (d : DepositFlow) : Flow Unit := do
  Flow.work
  Flow.checkAbort
  Flow.checkAbort
  Flow.work
  Flow.work
  if d.isNative then
    Flow.work
    Flow.work
    Flow.checkAbort

/-- The part of `dispatchDeposit` before the deposit: the chain of the wallet, and the approvals. -/
def approve (d : DepositFlow) : Flow Unit := do
  Flow.work
  Flow.work
  Flow.works d.approvals

/-- What follows the dispatch. The abort is checked before the note is saved; a note that cannot be saved is reported. -/
def save (d : DepositFlow) : Flow Unit := do
  Flow.checkAbort
  Flow.detached (.addNote ⟨d.commitment, d.note⟩)

/-- The vault has the note. -/
def Kept (d : DepositFlow) (store : LocalStore) : Prop := ∃ entry ∈ store.notes, entry.note = d.note

variable {d : DepositFlow} {outcomes : List Outcome} {store : LocalStore} {w : FlowWorld}

end DepositFlow

/-! ### Order -/

/-- What the order modal starts from: whether a relayer is picked and the settlement configured, the material of every claim, and the change of the note that is spent. -/
structure OrderFlow where
  configured : Bool
  note : CommitmentNote
  claims : List ClaimSecret
  claims_ne : claims ≠ []
  change : ℕ
  newSalt : ℕ
  newCommitment : ℕ
  orderId : ℕ

namespace OrderFlow

def prepare : Flow Unit := do
  Flow.work
  Flow.checkAbort
  Flow.work
  Flow.work
  Flow.checkAbort
  Flow.work
  Flow.work

def changeNote (o : OrderFlow) : CommitmentNote := { o.note with salt := o.newSalt, amount := o.change }

/-- What follows the dispatch: the root of the claims, then the order, the change note and the bundle of the claims, none of which is waited for. -/
def save (o : OrderFlow) : Flow Unit := do
  Flow.checkAbort
  Flow.work
  Flow.checkAbort
  Flow.detached (.addOrder ⟨o.orderId, o.claims, false⟩)
  if 0 < o.change then
    Flow.detached (.addNote ⟨o.newCommitment, o.changeNote⟩)
  Flow.detached (.saveClaimsBundle o.claims)

def submit (o : OrderFlow) : Flow Unit :=
  if o.configured then
    prepare >>= fun _ => Flow.send >>= fun answer => if answer = .ok then o.save else .fail "Order failed."
  else prepare >>= fun _ => o.save

/-- The order or the bundle has the secrets of every claim, and the vault has the change note where there is change. -/
def Kept (o : OrderFlow) (store : LocalStore) : Prop :=
  (∀ claim ∈ o.claims, (∃ order ∈ store.orders, claim ∈ order.claims) ∨ ∃ bundle ∈ store.bundles, claim ∈ bundle) ∧
    (0 < o.change → ∃ entry ∈ store.notes, entry.note = o.changeNote)

/-- One of the writes of the page is stored. -/
def StoredAt (writes : List Outcome) (i : ℕ) : Prop := ∃ ok, writes[i]? = some (.wrote true ok)

/-- The storage once some of the three writes are stored. -/
def saved (o : OrderFlow) (store : LocalStore) (order note bundle : Bool) : LocalStore :=
  let withOrder := if order then store.write (.addOrder ⟨o.orderId, o.claims, false⟩) else store
  let withNote := if note then withOrder.write (.addNote ⟨o.newCommitment, o.changeNote⟩) else withOrder
  if bundle then withNote.write (.saveClaimsBundle o.claims) else withNote

variable {o : OrderFlow} {outcomes : List Outcome} {store : LocalStore} {w : FlowWorld}

end OrderFlow

/-! ### Cancel -/

/-- What the cancel modal starts from. The proof rotates the note to a fresh salt, which is zero where the worker left it out; the new commitment is neither that of the note nor that of the change note. -/
structure CancelFlow where
  configured : Bool
  provider : Bool
  orderId : ℕ
  note : CommitmentNote
  noteCommitment : ℕ
  freshSalt : ℕ
  newCommitment : ℕ
  changeCommitment : Option ℕ
  fresh : newCommitment ≠ noteCommitment ∧ changeCommitment ≠ some newCommitment

namespace CancelFlow

def prepare : Flow Unit := do
  Flow.work
  Flow.work
  Flow.checkAbort
  Flow.work
  Flow.work
  Flow.checkAbort
  Flow.work
  Flow.work
  Flow.checkAbort

def rotatedNote (c : CancelFlow) : CommitmentNote := { c.note with salt := c.freshSalt }

/-- The receipt, where there is a provider to ask for it. -/
def confirm (c : CancelFlow) : Flow Unit := do
  if c.provider then
    match ← Flow.receipt with
    | none => .fail "rejected"
    | some status =>
      Flow.checkAbort
      if ¬status then .fail "cancelPrivate reverted"

/-- The old note leaves the vault once the rotated one is in it. -/
def rotate (c : CancelFlow) : Flow Unit := do
  if c.freshSalt ≠ 0 then
    if ← Flow.write (.addNote ⟨c.newCommitment, c.rotatedNote⟩) then
      Flow.detached (.removeNote c.noteCommitment)

def removeChange (c : CancelFlow) : Flow Unit :=
  match c.changeCommitment with
  | none => pure ()
  | some change => Flow.detached (.removeNote change)

def finish (c : CancelFlow) : Flow Unit := do
  Flow.detached (.markCancelled c.orderId)
  c.rotate
  c.removeChange

def submit (c : CancelFlow) : Flow Unit :=
  if c.configured then
    -- the chain of the wallet is checked before the transaction is sent
    (prepare >>= fun _ => Flow.work) >>= fun _ => Flow.send >>= fun answer =>
      if answer = .ok then do
        Flow.checkAbort
        c.confirm
        c.finish
      else .fail "Cancel failed."
  else do
    prepare
    Flow.checkAbort
    Flow.work
    c.finish

/-- The vault has the rotated note. -/
def Kept (c : CancelFlow) (store : LocalStore) : Prop := ∃ entry ∈ store.notes, entry.note = c.rotatedNote

/-- The outcomes of a confirmed transaction. -/
def confirmed (c : CancelFlow) : List Outcome := if c.provider then [.received (some true), .signalled false] else []

/-- The removals of a flow, none of which is of the new commitment. -/
def Removes (c : CancelFlow) (op : FlowOp) : Prop := ∃ commitment ≠ c.newCommitment, op = .write (.removeNote commitment)

variable {c : CancelFlow} {outcomes rest : List Outcome} {store : LocalStore} {w w' : FlowWorld}

theorem Removes.act {op : FlowOp} (hop : c.Removes op) {t : Outcome} {r : op.Ans × FlowWorld} (hact : op.act t w = some r) :
    r.2.store = w.store ∨
      ∃ commitment ≠ c.newCommitment, r.2.store = w.store.write (.removeNote commitment) := by
  obtain ⟨commitment, hne, rfl⟩ := hop
  cases t with
  | wrote stored ok =>
    simp only [FlowOp.act] at hact
    split at hact
    · cases hact
    · cases hact
      cases stored with
      | true => exact Or.inr ⟨commitment, hne, rfl⟩
      | false => exact Or.inl rfl
  | _ => cases hact

end CancelFlow

end Pro

end ScatterDex
