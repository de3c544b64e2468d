import ScatterDex.Relayer.AuthorizeOrder

/-!
# The order endpoints of the relayer

`routes/authorize-orders.ts` on a row of the `authorize_orders` table: the answers to a submission and to a poll. A nullifier has one row, whatever order it came with first.
-/

namespace ScatterDex

namespace Relayer

/-- A row of `authorize_orders`. Its key is the nullifier of its order. -/
structure AuthorizeOrderRow where
  order : AuthorizeOrderFile
  status : AuthorizeOrderStatus
  attempt : ℕ
  nextRetryAt : Option ℕ
  lastError : Option String
  settleTx : Option ℕ
  deriving DecidableEq

def AuthorizeOrderRow.nullifier (row : AuthorizeOrderRow) : ℕ := row.order.publicSignals.nullifier

/-- `insertAcceptedOrder` -/
def acceptedRow (order : AuthorizeOrderFile) : AuthorizeOrderRow where
  order
  status := .accepted
  attempt := 0
  nextRetryAt := none
  lastError := none
  settleTx := none

structure StatusReply where
  status : AuthorizeOrderStatus
  attempt : ℕ
  settleTxHash : Option ℕ
  error : Option String
  expiresAt : ℕ
  deriving DecidableEq

def buildStatusReply (row : AuthorizeOrderRow) : StatusReply where
  status := row.status
  attempt := row.attempt
  settleTxHash := row.settleTx
  error := row.lastError
  expiresAt := row.order.publicSignals.expiry

/-- An HTTP status with a reply or the text of an error. -/
structure Response where
  code : ℕ
  body : StatusReply ⊕ String

/-- The reply that `RelayerClient` reads: that of a response which is `ok`. -/
def Response.reply (res : Response) : Option StatusReply :=
  if 200 ≤ res.code ∧ res.code < 300 then res.body.getLeft? else none

def idempotencyHttpCode (status : AuthorizeOrderStatus) : ℕ :=
  if status = .dead_letter then 409
  else if status.isTerminalStatus then 200
  else 202

/-- `POST /api/authorize-orders` on the row of the order's nullifier. `admission` is what the checks after the idempotency answer: the size of the store, the expiry, the public key, the rate limit and the proof. -/
def postAuthorizeOrder (relayerAddress : Address) (nowSeconds : ℕ) (admission : Except (ℕ × String) Unit)
    (existing : Option AuthorizeOrderRow) (order : AuthorizeOrderFile) : Option AuthorizeOrderRow × Response :=
  match validateAuthorizeOrder order relayerAddress nowSeconds with
  | .error reason => (existing, ⟨400, .inr reason⟩)
  | .ok () =>
    -- a failed row is deleted, any other one answers
    match existing.filter fun row => row.status ≠ .failed with
    | some row => (existing, ⟨idempotencyHttpCode row.status, .inl (buildStatusReply row)⟩)
    | none =>
      match admission with
      | .error (code, reason) => (none, ⟨code, .inr reason⟩)
      | .ok () => (some (acceptedRow order), ⟨202, .inl (buildStatusReply (acceptedRow order))⟩)

/-- `GET /api/authorize-orders/:nullifier` -/
def getAuthorizeOrder (existing : Option AuthorizeOrderRow) : Response :=
  match existing with
  | some row => ⟨200, .inl (buildStatusReply row)⟩
  | none => ⟨404, .inr "Order not found"⟩

/-- What a submission does: it leaves the row or inserts the order, and a reply is about the row that is there then. -/
theorem postAuthorizeOrder_spec {relayerAddress : Address} {nowSeconds : ℕ} {admission : Except (ℕ × String) Unit}
    {existing row' : Option AuthorizeOrderRow} {order : AuthorizeOrderFile} {res : Response}
    (hpost : postAuthorizeOrder relayerAddress nowSeconds admission existing order = (row', res)) :
    (∀ row, row' = some row → existing = some row ∨ row = acceptedRow order) ∧
      ∀ reply, res.reply = some reply → ∃ row, row' = some row ∧ reply = buildStatusReply row ∧
        (row.status = .failed → row = acceptedRow order) := by
  unfold postAuthorizeOrder at hpost
  split at hpost
  · obtain ⟨rfl, rfl⟩ := Prod.mk.inj hpost
    exact ⟨fun row hrow => Or.inl hrow, fun reply hreply => by simp [Response.reply] at hreply⟩
  · split at hpost
    · rename_i row hrow
      obtain ⟨hexisting, hstatus⟩ := Option.filter_eq_some_iff.mp hrow
      obtain ⟨rfl, rfl⟩ := Prod.mk.inj hpost
      refine ⟨fun row hrow => Or.inl hrow, fun reply hreply => ⟨row, hexisting, ?_, ?_⟩⟩
      · simp only [Response.reply, Sum.getLeft?_inl] at hreply
        split at hreply
        · exact (Option.some.inj hreply).symm
        · cases hreply
      · exact fun hfailed => absurd hfailed (of_decide_eq_true hstatus)
    · split at hpost
      · obtain ⟨rfl, rfl⟩ := Prod.mk.inj hpost
        exact ⟨fun row hrow => (by cases hrow), fun reply hreply => by simp [Response.reply] at hreply⟩
      · obtain ⟨rfl, rfl⟩ := Prod.mk.inj hpost
        refine ⟨fun row hrow => Or.inr (Option.some.inj hrow).symm, fun reply hreply => ⟨_, rfl, ?_, fun _ => rfl⟩⟩
        exact (Option.some.inj hreply).symm

end Relayer

end ScatterDex
