import Mathlib.Data.List.Sort
import ScatterDex.Library.LowerCase
import ScatterDex.Library.Transactions
import ScatterDex.Relayer.OrderText

/-!
# Orders of other relayers

`core/remote-orderbook.ts`: the listings that peers send, in memory. An order is in four places: a map by id, the ids of its relayer, and the list of its pair on its side, which is kept in the order of the prices. The fields are untrusted JSON. A function that throws leaves what it has changed by then.
-/

namespace ScatterDex

open Sdk

namespace Relayer

/-- An amount as it came: a string (an array counts as its text), a number, a boolean, or something else. -/
inductive WireAmount
  | text (s : String)
  | integer (n : ℤ)
  | fraction
  | bool (b : Bool)
  | other
  deriving DecidableEq

/-- `BigInt(amount)` -/
def WireAmount.bigInt : WireAmount → Option ℤ
  | .text s => (toBigInt s).toOption
  | .integer n => some n
  | .fraction => none
  | .bool b => some (if b then 1 else 0)
  | .other => none

/-- What `BigInt` makes of an amount that was checked to have a value. -/
def WireAmount.value (amount : WireAmount) : ℤ := amount.bigInt.getD 0

/-- A number as a comparison converts a field to it. -/
inductive WireNumber
  | finite (x : ℚ)
  | infinite (negative : Bool)
  | nan
  deriving DecidableEq

/-- `x <= n` -/
def WireNumber.le : WireNumber → ℤ → Bool
  | .finite x, n => x ≤ n
  | .infinite negative, _ => negative
  | .nan, _ => false

abbrev JsString := List CodeUnit

/-- The part of an `OrderSummary` that the store reads, as a peer sends it. An id or a token is `none` when it is no string, and the expiry when its conversion to a number throws. -/
structure SentOrder where
  id : Option JsString
  relayer : JsString
  sellToken : Option JsString
  buyToken : Option JsString
  sellAmount : WireAmount
  buyAmount : WireAmount
  expiry : Option WireNumber

/-- An order in the store, under its normalised id. -/
structure RemoteOrder where
  id : JsString
  relayer : JsString
  sellToken : Option JsString
  buyToken : Option JsString
  sellAmount : WireAmount
  buyAmount : WireAmount
  expiry : WireNumber
  deriving DecidableEq

def SentOrder.normalised (order : SentOrder) (id : JsString) (expiry : WireNumber) : RemoteOrder :=
  ⟨id, order.relayer, order.sellToken, order.buyToken, order.sellAmount, order.buyAmount, expiry⟩

/-- `toLowerCase` -/
def lower (s : JsString) : JsString := LowerCase.unicode.toLowerCase s

namespace RemoteOrder

/-- `expiry <= now` -/
def expired (order : RemoteOrder) (now : ℤ) : Bool := order.expiry.le now

def sellValue (order : RemoteOrder) : ℤ := order.sellAmount.value

def buyValue (order : RemoteOrder) : ℤ := order.buyAmount.value

/-- `sellAmt * eBuy < eSell * buyAmt` -/
def Cheaper (order existing : RemoteOrder) : Prop := order.sellValue * existing.buyValue < existing.sellValue * order.buyValue

/-- `sellAmt * eBuy > eSell * buyAmt` -/
def Dearer (order existing : RemoteOrder) : Prop := order.sellValue * existing.buyValue > existing.sellValue * order.buyValue

instance : DecidableRel Cheaper := fun order existing =>
  inferInstanceAs (Decidable (order.sellValue * existing.buyValue < existing.sellValue * order.buyValue))

instance : DecidableRel Dearer := fun order existing =>
  inferInstanceAs (Decidable (order.sellValue * existing.buyValue > existing.sellValue * order.buyValue))

end RemoteOrder

/-- `pairKeyFromStrings` -/
def pairKeyFromStrings (tokenA tokenB : JsString) : JsString :=
  let a := lower tokenA
  let b := lower tokenB
  if a < b then a ++ Json.units "-" ++ b else b ++ Json.units "-" ++ a

structure RemoteOrderStore where
  maxSize : ℕ
  byId : List (JsString × RemoteOrder)
  byRelayer : JsString → List JsString
  sells : JsString → List RemoteOrder
  buys : JsString → List RemoteOrder

/-- What a call leaves, and whether it threw. -/
structure RemoteOutcome where
  store : RemoteOrderStore
  threw : Bool

namespace RemoteOrderStore

def defaultMaxSize : ℕ := 10000

/-- The constructor. Zero stands for what is no positive integer. -/
def create (maxSize : ℕ) : RemoteOrderStore :=
  ⟨if 0 < maxSize then maxSize else defaultMaxSize, [], fun _ => [], fun _ => [], fun _ => []⟩

variable (store : RemoteOrderStore)

def get (orderId : JsString) : Option RemoteOrder := (store.byId.find? fun entry => entry.1 = lower orderId).map Prod.snd

/-- The order leaves the map and the set of its relayer. -/
def dropIndexes (id : JsString) (order : RemoteOrder) : RemoteOrderStore :=
  { store with
    byId := store.byId.filter fun entry => entry.1 ≠ id
    byRelayer := Function.update store.byRelayer (lower order.relayer) ((store.byRelayer (lower order.relayer)).filter (· ≠ id)) }

/-- The lists without an order's id. -/
def dropListed (lists : JsString → List RemoteOrder) (pair id : JsString) : JsString → List RemoteOrder :=
  Function.update lists pair ((lists pair).filter fun o => o.id ≠ id)

def remove (orderId : JsString) : RemoteOutcome :=
  let id := lower orderId
  match store.get orderId with
  | none => ⟨store, false⟩
  | some order =>
    let dropped := store.dropIndexes id order
    match order.sellToken, order.buyToken with
    | some sellToken, some buyToken =>
      let pair := pairKeyFromStrings sellToken buyToken
      if lower sellToken < lower buyToken then ⟨{ dropped with sells := dropListed store.sells pair id }, false⟩
      else ⟨{ dropped with buys := dropListed store.buys pair id }, false⟩
    | _, _ => ⟨dropped, true⟩

/-- `remove` for one id after another, until it throws. -/
def removeAll (store : RemoteOrderStore) : List JsString → RemoteOutcome
  | [] => ⟨store, false⟩
  | id :: ids =>
    let removed := store.remove id
    if removed.threw then removed else removed.store.removeAll ids

def purgeExpired (now : ℤ) : RemoteOutcome := store.removeAll ((store.byId.filter fun entry => entry.2.expired now).map Prod.fst)

def removeByRelayer (relayerAddr : JsString) : RemoteOutcome :=
  let removed := store.removeAll (store.byRelayer (lower relayerAddr))
  if removed.threw then removed
  else ⟨{ removed.store with byRelayer := Function.update removed.store.byRelayer (lower relayerAddr) [] }, false⟩

/-- An id in the set of its relayer. -/
def addToSet (ids : List JsString) (id : JsString) : List JsString := if ids.any (· = id) then ids else ids ++ [id]

/-- The order enters the map and the set of its relayer. -/
def enterIndexes (order : RemoteOrder) : RemoteOrderStore :=
  { store with
    byId := store.byId ++ [(order.id, order)]
    byRelayer := Function.update store.byRelayer (lower order.relayer) (addToSet (store.byRelayer (lower order.relayer)) order.id) }

/-- The end of `add`, for an order under its normalised id. -/
def insert (order : RemoteOrder) : RemoteOutcome :=
  let entered := store.enterIndexes order
  match order.sellToken, order.buyToken with
  | some sellToken, some buyToken =>
    let pair := pairKeyFromStrings sellToken buyToken
    if lower sellToken < lower buyToken then
      ⟨{ entered with sells := Function.update store.sells pair ((store.sells pair).orderedInsert RemoteOrder.Cheaper order) }, false⟩
    else ⟨{ entered with buys := Function.update store.buys pair ((store.buys pair).orderedInsert RemoteOrder.Dearer order) }, false⟩
  | _, _ => ⟨entered, true⟩

/-- `add`, with the clock at its start and in `purgeExpired`. -/
def add (order : SentOrder) (now later : ℤ) : RemoteOutcome :=
  match order.id with
  | none => ⟨store, true⟩
  | some orderId =>
    if (store.get orderId).isSome then ⟨store, false⟩
    else match order.expiry with
      | none => ⟨store, true⟩
      | some expiry =>
        if expiry.le now then ⟨store, false⟩
        else if order.sellAmount.bigInt.isNone ∨ order.buyAmount.bigInt.isNone then ⟨store, false⟩
        else
          let room := if store.maxSize ≤ store.byId.length then store.purgeExpired later else ⟨store, false⟩
          if room.threw then room
          else if room.store.maxSize ≤ room.store.byId.length then room
          else room.store.insert (order.normalised (lower orderId) expiry)

def clear : RemoteOrderStore := ⟨store.maxSize, [], fun _ => [], fun _ => [], fun _ => []⟩

end RemoteOrderStore

inductive RemoteCall
  | add (order : SentOrder) (now later : ℤ)
  | remove (orderId : JsString)
  | removeByRelayer (relayerAddr : JsString)
  | purgeExpired (now : ℤ)
  | clear

namespace RemoteCall

def apply (call : RemoteCall) (store : RemoteOrderStore) : RemoteOrderStore :=
  match call with
  | .add order now later => (store.add order now later).store
  | .remove orderId => (store.remove orderId).store
  | .removeByRelayer relayerAddr => (store.removeByRelayer relayerAddr).store
  | .purgeExpired now => (store.purgeExpired now).store
  | .clear => store.clear

def run (call : RemoteCall) (store : RemoteOrderStore) : Except Empty RemoteOrderStore := .ok (call.apply store)

end RemoteCall

end Relayer

end ScatterDex
