import ScatterDex.Pro.ClaimStatus
import ScatterDex.Pro.FolderOrders
import ScatterDex.Relayer.OrderText
import ScatterDex.Sdk.OrderLocks

/-!
# The state of a note

`noteStatus.ts`, and the order files as `orders.tsx` writes them: `serialize`, `deserialize` and the names of the files. The JSON text of an order is the `WireOrder` in it.
-/

namespace ScatterDex

open Sdk Relayer

namespace Pro

/-! ### orders.tsx -/

/-- `OrderClaim` -/
structure ClaimFields where
  secret : ℤ
  recipient : String
  token : String
  amount : ℤ
  releaseTime : ℤ
  leafIndex : ℤ
  claimsRoot : Option String
  deriving DecidableEq

structure OrderRelayer where
  name : Option String
  address : String
  url : Option String
  feeBps : ℤ
  maxFeeBps : ℤ
  deriving DecidableEq

/-- `OrderRecord`, with all its fields. -/
structure OrderFields where
  id : String
  label : String
  sell : Bool
  pair : String
  price : String
  size : String
  status : OrderStatus
  claim : Option ClaimFields
  claims : Option (List ClaimFields)
  claimedLeafIndexes : Option (List ℤ)
  nonce : Option ℤ
  noteId : Option String
  changeCommitment : Option ℤ
  expiry : Option ℤ
  relayer : Option OrderRelayer
  createdAt : ℤ
  settleTxHash : Option String
  signedSellWei : Option ℤ
  signedBuyWei : Option ℤ
  deriving DecidableEq

structure WireClaim where
  secretHex : String
  recipient : String
  token : String
  amountHex : String
  releaseTimeHex : String
  leafIndex : ℤ
  claimsRoot : Option String

structure WireOrder where
  id : String
  label : String
  sell : Bool
  pair : String
  price : String
  size : String
  status : OrderStatus
  claim : Option WireClaim
  claims : Option (List WireClaim)
  claimedLeafIndexes : Option (List ℤ)
  nonceHex : Option String
  noteId : Option String
  changeCommitmentHex : Option String
  expiryHex : Option String
  relayer : Option OrderRelayer
  createdAt : ℤ
  settleTxHash : Option String
  signedSellWeiHex : Option String
  signedBuyWeiHex : Option String

def bigintToHex (v : ℤ) : Except String String :=
  if v < 0 then .error "bigintToHex: negative bigints are not supported" else .ok ("0x" ++ String.ofList (bigIntToString 16 v))

def serializeClaim (c : ClaimFields) : Except String WireClaim := do
  return {
    secretHex := ← bigintToHex c.secret
    recipient := c.recipient
    token := c.token
    amountHex := ← bigintToHex c.amount
    releaseTimeHex := ← bigintToHex c.releaseTime
    leafIndex := c.leafIndex
    claimsRoot := c.claimsRoot }

def deserializeClaim (w : WireClaim) : Except String ClaimFields := do
  return {
    secret := ← toBigInt w.secretHex
    recipient := w.recipient
    token := w.token
    amount := ← toBigInt w.amountHex
    releaseTime := ← toBigInt w.releaseTimeHex
    leafIndex := w.leafIndex
    claimsRoot := w.claimsRoot }

def serialize (o : OrderFields) : Except String WireOrder := do
  return {
    id := o.id
    label := o.label
    sell := o.sell
    pair := o.pair
    price := o.price
    size := o.size
    status := o.status
    claim := ← o.claim.mapM serializeClaim
    claims := ← o.claims.mapM fun claims => claims.mapM serializeClaim
    claimedLeafIndexes := o.claimedLeafIndexes
    nonceHex := ← o.nonce.mapM bigintToHex
    noteId := o.noteId
    changeCommitmentHex := ← o.changeCommitment.mapM bigintToHex
    expiryHex := ← o.expiry.mapM bigintToHex
    relayer := o.relayer
    createdAt := o.createdAt
    settleTxHash := o.settleTxHash
    signedSellWeiHex := ← o.signedSellWei.mapM bigintToHex
    signedBuyWeiHex := ← o.signedBuyWei.mapM bigintToHex }

/-- `claimsList` -/
def WireOrder.claimsList (w : WireOrder) : Except String (Option (List ClaimFields)) :=
  match w.claims, w.claim with
  | some (c :: claims), _ => some <$> (c :: claims).mapM deserializeClaim
  | _, some claim => (fun c => some [c]) <$> deserializeClaim claim
  | _, none => .ok none

/-- The `claim` of the record. -/
def WireOrder.singleClaim (w : WireOrder) (claimsList : Option (List ClaimFields)) : Except String (Option ClaimFields) :=
  match w.claim with
  | some claim => some <$> deserializeClaim claim
  | none => .ok (claimsList.bind List.head?)

def deserialize (w : WireOrder) : Except String OrderFields := do
  let claimsList ← w.claimsList
  return {
    id := w.id
    label := w.label
    sell := w.sell
    pair := w.pair
    price := w.price
    size := w.size
    status := w.status
    claim := ← w.singleClaim claimsList
    claims := claimsList
    claimedLeafIndexes := w.claimedLeafIndexes
    nonce := ← w.nonceHex.mapM toBigInt
    noteId := w.noteId
    changeCommitment := ← w.changeCommitmentHex.mapM toBigInt
    expiry := ← w.expiryHex.mapM toBigInt
    relayer := w.relayer
    createdAt := w.createdAt
    settleTxHash := w.settleTxHash
    signedSellWei := ← w.signedSellWeiHex.mapM toBigInt
    signedBuyWei := ← w.signedBuyWeiHex.mapM toBigInt }

def OrderStatus.text : OrderStatus → String
  | .matching => "matching"
  | .claimable => "claimable"
  | .claimed => "claimed"
  | .cancelled => "cancelled"

/-- What the other apps read of an order file. -/
def WireOrder.row (w : WireOrder) : OrderLockRow where
  status := some w.status.text
  noteId := w.noteId
  expiryHex := w.expiryHex
  changeCommitmentHex := w.changeCommitmentHex

/-- The name of an order's file in the adapter of a chain and an account. -/
def orderFileName (chainId : ℕ) (accountKey id : String) : String :=
  fileFor ("zkscatter-pro-order-" ++ toString chainId ++ "-" ++ String.ofList (toLowerCase accountKey) ++ "-") id

/-- `put`: an order that cannot be serialised is not written. -/
def putOrder (chainId : ℕ) (accountKey : String) (folder : List FolderRow) (o : OrderFields) : List FolderRow :=
  match serialize o with
  | .error _ => folder
  | .ok w =>
    let name := orderFileName chainId accountKey o.id
    (folder.filter fun file => file.1 ≠ name) ++ [(name, some w.row)]

/-! ### noteStatus.ts -/

inductive NoteStatus
  | available
  | locked
  | pending
  | discarded
  deriving DecidableEq

structure VaultNote where
  id : String
  commitment : ℕ
  leafIndex : ℤ

structure NoteStatusInfo where
  status : NoteStatus
  lockedByOrder : Option OrderFields := none
  recoverableExpired : Bool := false
  pendingFromOrder : Option OrderFields := none
  discardedFromOrder : Option OrderFields := none

def OPEN_STATUSES : List OrderStatus := [.matching, .claimable]

def OrderFields.isOrderExpired (o : OrderFields) (nowMs : ℚ) : Bool := o.expiry.any fun expiry => (JsNumber.ofInt expiry).thousandfold.le nowMs

def OrderFields.isExpiredMatching (o : OrderFields) (nowMs : ℚ) : Bool := o.status = .matching ∧ o.isOrderExpired nowMs

structure OrderIndex where
  byNoteId : String → Option OrderFields
  byChangeCommitment : ℤ → Option OrderFields
  expiredMatchingByChangeCommitment : ℤ → Option OrderFields
  recoverableNoteIds : List String

/-- `map.set(key, value)`, where there is a key. -/
def setKey {κ : Type} [DecidableEq κ] (m : κ → Option OrderFields) (key : Option κ) (o : OrderFields) : κ → Option OrderFields :=
  match key with
  | none => m
  | some key => Function.update m key (some o)

/-- `map.set(key, value)`, where there is a key that is not in the map. -/
def setFirst {κ : Type} [DecidableEq κ] (m : κ → Option OrderFields) (key : Option κ) (o : OrderFields) : κ → Option OrderFields :=
  if (key.bind m).isSome then m else setKey m key o

namespace OrderIndex

def empty : OrderIndex := ⟨fun _ => none, fun _ => none, fun _ => none, []⟩

/-- The body of the loop. -/
def enter (nowMs : ℚ) (index : OrderIndex) (o : OrderFields) : OrderIndex :=
  if o.status ∉ OPEN_STATUSES then index
  else if o.isExpiredMatching nowMs then
    { index with
      expiredMatchingByChangeCommitment := setKey index.expiredMatchingByChangeCommitment o.changeCommitment o
      recoverableNoteIds := index.recoverableNoteIds ++ o.noteId.toList }
  else
    { index with
      byNoteId := setFirst index.byNoteId o.noteId o
      byChangeCommitment := setFirst index.byChangeCommitment o.changeCommitment o }

end OrderIndex

def buildOrderIndex (orders : List OrderFields) (nowMs : ℚ) : OrderIndex := orders.foldl (OrderIndex.enter nowMs) .empty

def classifyAgainstIndex (note : VaultNote) (index : OrderIndex) (crossApp : Option CrossAppNoteStates) : NoteStatusInfo :=
  if note.leafIndex < 0 then
    match index.byChangeCommitment note.commitment with
    | some fromOpen => { status := .pending, pendingFromOrder := some fromOpen }
    | none =>
      match index.expiredMatchingByChangeCommitment note.commitment with
      | some fromExpired => { status := .discarded, discardedFromOrder := some fromExpired }
      | none => if crossApp.any fun states => note.id ∈ states.discardedNoteIds then { status := .discarded } else { status := .pending }
  else
    match index.byNoteId note.id with
    | some lockedBy => { status := .locked, lockedByOrder := some lockedBy }
    | none =>
      if crossApp.any fun states => note.id ∈ states.lockedNoteIds then { status := .locked }
      else if note.id ∈ index.recoverableNoteIds then { status := .available, recoverableExpired := true }
      else { status := .available }

def deriveNoteStatus (note : VaultNote) (orders : List OrderFields) (nowMs : ℚ) (crossApp : Option CrossAppNoteStates) : NoteStatusInfo :=
  classifyAgainstIndex note (buildOrderIndex orders nowMs) crossApp

end Pro

end ScatterDex
