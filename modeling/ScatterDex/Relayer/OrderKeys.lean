import ScatterDex.Library.Steps
import ScatterDex.Library.Table
import ScatterDex.Relayer.AuthorizeRoutes
import ScatterDex.Relayer.OrderText

/-!
# The keys of submitted orders

`routes/authorize-orders.ts` with the nullifier as the text it was submitted as: the table and the map are keyed by the text, a cancellation looks for the decimal digits of its field element, and a boot keeps only the keys that are digits.
-/

namespace ScatterDex

open Sdk

namespace Relayer

/-- An order under its key: a row of `authorize_orders`, or an entry of the map. -/
structure KeyedOrder where
  nullifier : String
  body : AuthorizeOrderBody
  status : AuthorizeOrderStatus
  pubKey : ℤ × ℤ

def KeyedOrder.setStatus (o : KeyedOrder) (status : AuthorizeOrderStatus) : KeyedOrder := { o with status }

theorem KeyedOrder.setStatus_nullifier (o : KeyedOrder) (status : AuthorizeOrderStatus) : (o.setStatus status).nullifier = o.nullifier := rfl

abbrev KeyedOrders := Table KeyedOrder.nullifier

/-- A new status for the order of a key -/
def KeyedOrders.setStatus (t : KeyedOrders) (nullifier : String) (status : AuthorizeOrderStatus) : KeyedOrders :=
  t.update (fun o => o.nullifier = nullifier) (fun o => o.setStatus status) fun o => o.setStatus_nullifier status

structure OrderSubmission where
  body : AuthorizeOrderBody
  pubKeyAx : String
  pubKeyAy : String
  nowSeconds : ℕ

/-- A submission between two turns of the handler: it waits for the hash, or, with its slot taken, for the verifier. -/
structure PendingPost where
  body : AuthorizeOrderBody
  pubKeyAx : String
  pubKeyAy : String
  slot : Option (ℤ × ℤ)

structure OrderStore where
  rows : KeyedOrders
  authorizeOrders : KeyedOrders
  pendingCountByPubKey : ℤ × ℤ → ℕ
  posts : List PendingPost

/-- What the handlers take from their surroundings. -/
structure OrderRoutes where
  relayerAddress : String
  poseidonHash : List ℤ → ℤ
  isSanctionedById : ℤ × ℤ → Bool
  verifyOrderProofs : Bool

/-- The answer to a POST: an error, or the status of an order. -/
inductive PostAnswer where
  | error (code : ℕ) (text : String)
  | order (code : ℕ) (status : AuthorizeOrderStatus)
  deriving DecidableEq

def MAX_AUTHORIZE_ORDERS : ℕ := 10000

def MAX_PENDING_PER_PUBKEY : ℕ := 50

def MAX_EXPIRY_DURATION_SECS : ℕ := 24 * 60 * 60

def MAX_PUBKEY_LEN : ℕ := 80

/-- `BigInt(ax)` and `BigInt(ay)`, of texts that are not too long -/
def pubKeyId (ax ay : String) : Option (ℤ × ℤ) :=
  if MAX_PUBKEY_LEN < ax.length ∨ MAX_PUBKEY_LEN < ay.length then none
  else do
    let x ← (toBigInt ax).toOption
    let y ← (toBigInt ay).toOption
    pure (x, y)

/-- `v.toString()` -/
def decimalText (v : ℤ) : String := String.ofList (bigIntToString 10 v)

namespace OrderStore

variable (s : OrderStore)

def start : OrderStore where
  rows := .empty
  authorizeOrders := .empty
  pendingCountByPubKey _ := 0
  posts := []

def incPubKeyCount (id : ℤ × ℤ) : OrderStore :=
  { s with pendingCountByPubKey := Function.update s.pendingCountByPubKey id (s.pendingCountByPubKey id + 1) }

def decPubKeyCount (id : ℤ × ℤ) : OrderStore :=
  { s with pendingCountByPubKey := Function.update s.pendingCountByPubKey id (s.pendingCountByPubKey id - 1) }

def dropPost (i : ℕ) : OrderStore := { s with posts := s.posts.eraseIdx i }

/-! ### POST -/

/-- The answer of the idempotency check, if the nullifier is known and its order did not fail. -/
def replay (nullifier : String) : Option PostAnswer :=
  match s.rows.lookup nullifier with
  | some row => if row.status = .failed then none else some (.order (idempotencyHttpCode row.status) row.status)
  | none =>
    match s.authorizeOrders.lookup nullifier with
    | some cached => if cached.status = .failed then none else some (.order 202 cached.status)
    | none => none

/-- A failed row is deleted, with its entry. -/
def forgetFailed (nullifier : String) : OrderStore :=
  if (s.rows.lookup nullifier).isSome then
    { s with
      rows := s.rows.delete fun o => o.nullifier = nullifier
      authorizeOrders := s.authorizeOrders.delete fun o => o.nullifier = nullifier }
  else s

/-- The handler up to its first await -/
def receivePost (routes : OrderRoutes) (sub : OrderSubmission) : OrderStore × Option PostAnswer :=
  match sub.body.validateAuthorizeOrder routes.relayerAddress sub.nowSeconds with
  | .error text => (s, some (.error 400 text))
  | .ok () =>
    match s.replay (sub.body.text .nullifier) with
    | some answer => (s, some answer)
    | none =>
      let s := s.forgetFailed (sub.body.text .nullifier)
      if s.authorizeOrders.rows.length ≥ MAX_AUTHORIZE_ORDERS then
        (s, some (.error 503 "Authorize order store full. Try again later."))
      else if sub.body.value .expiry - sub.nowSeconds > MAX_EXPIRY_DURATION_SECS then
        (s, some (.error 400 s!"Expiry too far in future (max {MAX_EXPIRY_DURATION_SECS}s)"))
      else if sub.pubKeyAx = "" ∨ sub.pubKeyAy = "" then
        (s, some (.error 400 "pubKeyAx and pubKeyAy are required for compliance"))
      else ({ s with posts := s.posts ++ [⟨sub.body, sub.pubKeyAx, sub.pubKeyAy, none⟩] }, none)

/-- `insertAcceptedOrder`: a key that is taken gives the slot back and is answered like a replay. -/
def insertAccepted (body : AuthorizeOrderBody) (id : ℤ × ℤ) : OrderStore × Option PostAnswer :=
  let stored : KeyedOrder := ⟨body.text .nullifier, body, .accepted, id⟩
  match s.rows.insert stored with
  | some rows =>
    ({ s with
        rows
        authorizeOrders := s.authorizeOrders.put stored }, some (.order 202 .accepted))
  | none =>
    (s.decPubKeyCount id, (s.rows.lookup (body.text .nullifier)).map fun row => .order (idempotencyHttpCode row.status) row.status)

/-- The handler from the hash to the verifier, for the submission `i` -/
def hashedPost (routes : OrderRoutes) (i : ℕ) (post : PendingPost) : OrderStore × Option PostAnswer :=
  match toBigInt post.pubKeyAx, toBigInt post.pubKeyAy with
  | .ok ax, .ok ay =>
    if decimalText (routes.poseidonHash [ax, ay, post.body.value .nullifier]) ≠ post.body.text .pubKeyBind then
      (s.dropPost i, some (.error 400 "pubKey does not match pubKeyBind in proof"))
    else
      match pubKeyId post.pubKeyAx post.pubKeyAy with
      | none => (s.dropPost i, some (.error 500 "Internal server error"))
      | some id =>
        if routes.isSanctionedById id then (s.dropPost i, some (.error 403 "Order rejected: pubKey is on sanctions list"))
        else if s.pendingCountByPubKey id ≥ MAX_PENDING_PER_PUBKEY then
          (s.dropPost i, some (.error 429 s!"Too many pending orders for this pubKey (max {MAX_PENDING_PER_PUBKEY})"))
        else if routes.verifyOrderProofs then
          let s := s.incPubKeyCount id
          ({ s with posts := s.posts.set i { post with slot := some id } }, none)
        else ((s.dropPost i).incPubKeyCount id).insertAccepted post.body id
  | _, _ => (s.dropPost i, some (.error 500 "Internal server error"))

/-- The handler after the verifier, which found the proof valid, found it invalid, or failed -/
def verifiedPost (i : ℕ) (post : PendingPost) (id : ℤ × ℤ) (proofValid : Option Bool) : OrderStore × Option PostAnswer :=
  match proofValid with
  | some true => (s.dropPost i).insertAccepted post.body id
  | some false => ((s.dropPost i).decPubKeyCount id, some (.error 400 "Invalid authorize proof"))
  | none => ((s.dropPost i).decPubKeyCount id, some (.error 503 "Proof verification unavailable. Try again later."))

/-! ### Failure, cancellation, restart -/

def setStatus (nullifier : String) (status : AuthorizeOrderStatus) : OrderStore :=
  { s with
    rows := KeyedOrders.setStatus s.rows nullifier status
    authorizeOrders := KeyedOrders.setStatus s.authorizeOrders nullifier status }

/-- The worker gives up an order of its queue. -/
def settleFailed (o : KeyedOrder) : OrderStore := (s.setStatus o.nullifier .failed).decPubKeyCount o.pubKey

/-- The event of a cancellation, and whether the order of its nullifier was found -/
def applyOnChainAuthorizeCancel (nullifier : ℕ) : OrderStore × Bool :=
  match s.authorizeOrders.lookup (decimalText nullifier) with
  | none => (s, false)
  | some stored =>
    let released := if stored.status.isLiveStatus then s.decPubKeyCount stored.pubKey else s
    let cancelled := released.setStatus (decimalText nullifier) .cancelled
    ({ cancelled with authorizeOrders := cancelled.authorizeOrders.delete fun o => o.nullifier = decimalText nullifier }, true)

/-- `/^[0-9]+$/` -/
def isDigits (nullifier : String) : Bool := nullifier.toList ≠ [] ∧ nullifier.toList.all isDigit

/-- A boot: the orders of the queue are read back, and a row whose key is not of digits is deleted. -/
def restart : OrderStore :=
  let loaded := s.rows.delete fun o => !(o.status.isLiveStatus ∧ isDigits o.nullifier)
  { rows := s.rows.delete fun o => o.status.isLiveStatus ∧ !isDigits o.nullifier
    authorizeOrders := loaded
    pendingCountByPubKey := fun id => loaded.rows.countP fun o => o.pubKey = id
    posts := [] }

end OrderStore

inductive OrderStep where
  | post (sub : OrderSubmission)
  | hashed (i : ℕ)
  | verified (i : ℕ) (proofValid : Option Bool)
  | settleFailed (nullifier : String)
  | cancelled (nullifier : ℕ)
  | restart

def OrderStep.run (routes : OrderRoutes) (step : OrderStep) (s s' : OrderStore) : Prop :=
  match step with
  | .post sub => s' = (s.receivePost routes sub).1
  | .hashed i => ∃ post, s.posts[i]? = some post ∧ post.slot = none ∧ s' = (s.hashedPost routes i post).1
  | .verified i proofValid => ∃ post id, s.posts[i]? = some post ∧ post.slot = some id ∧ s' = (s.verifiedPost i post id proofValid).1
  | .settleFailed nullifier => ∃ o, s.rows.lookup nullifier = some o ∧ o.status.isLiveStatus = true ∧ s' = s.settleFailed o
  | .cancelled nullifier => s' = (s.applyOnChainAuthorizeCancel nullifier).1
  | .restart => s' = s.restart

end Relayer

end ScatterDex
