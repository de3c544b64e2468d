import ScatterDex.Pro.ClaimPackage
import ScatterDex.Pro.FolderOrders

/-!
# The claims backup of Pro

`claimsBundle.ts` and the label counter of `OrdersProvider`, over one workspace folder: the order files of each wallet and chain, which the provider reads when it opens them, and the bundles beside them. The label of an order is counted up from the greatest one that was read, when React runs the update that merges what was read. File operations land some time after they are asked for.
-/

namespace ScatterDex

open Fallible Sdk

namespace Pro

/-- An order as `add` makes it. -/
structure PlacedOrder extends OrderRecord where
  id : String
  deriving DecidableEq

/-! ### claimsBundle.ts -/

structure ClaimsBundle where
  orderId : String
  label : String
  claim : OrderClaim
  deriving DecidableEq

def buildClaimsBundleJson (order : PlacedOrder) : Except String ClaimsBundle :=
  match order.claim with
  | none => .error "order has no claim material to back up"
  | some claim => .ok { orderId := order.id, label := order.label, claim }

def bundleFilename (label : String) : String := "scatter-pro-claims-" ++ label ++ ".json"

def orderClaimsBundleFilename (order : PlacedOrder) : String := bundleFilename order.label

/-- The file that `persistOrderClaimsBundle` saves. A failure is logged. -/
def persistOrderClaimsBundle (order : PlacedOrder) : Option (String × ClaimsBundle) :=
  match buildClaimsBundleJson order with
  | .ok json => some (orderClaimsBundleFilename order, json)
  | .error _ => none

/-! ### orders.tsx -/

def seqLabel (seq : ℕ) : String := "ord-" ++ toString seq

/-- `/^ord-(\d+)$/` and the number in it. -/
def labelSeq (label : String) : Option ℕ :=
  match label.toList with
  | 'o' :: 'r' :: 'd' :: '-' :: digits =>
    if digits ≠ [] ∧ digits.all isDigit then some (digits.foldl (fun n c => 10 * n + (c.toNat - '0'.toNat)) 0) else none
  | _ => none

def maxSeq (orders : List PlacedOrder) : ℕ := (orders.filterMap fun o => labelSeq o.label).foldl max 0

/-- `byId` of the hydration, without the order of display. -/
def mergeHydrated (loaded pending : List PlacedOrder) : List PlacedOrder :=
  (loaded.filter fun o => o.id ∉ pending.map PlacedOrder.id) ++ pending

/-- The chain and the account that an adapter is for. -/
structure OrdersKey where
  chainId : ℕ
  account : String
  deriving DecidableEq

/-- A `setOrders` that React has not run yet. -/
inductive OrdersUpdate
  | prepend (order : PlacedOrder)
  | drop (id : String)
  | hydrate (loaded : List PlacedOrder)
  deriving DecidableEq

/-- How far `loadAll` of the current adapter is. -/
inductive Hydration
  | reading
  | read (loaded : List PlacedOrder)
  | done
  deriving DecidableEq

/-- `added` are the orders of all calls of `add` so far, and `overwritten` the bundles of other orders that a write replaced. -/
structure ClaimsWorkspace where
  orderFiles : OrdersKey → List PlacedOrder
  orderWrites : List (OrdersKey × OrdersCall PlacedOrder)
  bundleFiles : String → Option ClaimsBundle
  bundleWrites : List (String × ClaimsBundle)
  current : OrdersKey
  hydration : Hydration
  orders : List PlacedOrder
  updates : List OrdersUpdate
  labelCounter : ℕ
  added : List PlacedOrder
  overwritten : List ClaimsBundle

/-- `place` is `add` and then `persistOrderClaimsBundle`, through the adapter of the render that the caller is from. `mount` is a switch of the account or the chain, or a reload. -/
inductive ClaimsEvent
  | place (key : OrdersKey) (id : String) (claim : Option OrderClaim) (claims : Option (List OrderClaim))
  | remove (key : OrdersKey) (id : String)
  | mount (key : OrdersKey)
  | read
  | hydrate
  | render
  | landOrder (i : ℕ)
  | landBundle (i : ℕ)
  deriving DecidableEq

/-- What the file operation of a call leaves of the order files. -/
def OrdersCall.land : OrdersCall PlacedOrder → List PlacedOrder → List PlacedOrder
  | .put order, files => files.filter (fun o => o.id ≠ order.id) ++ [order]
  | .remove id, files => files.filter fun o => o.id ≠ id

namespace ClaimsWorkspace

/-- A new folder, with the provider mounted. -/
def opened (key : OrdersKey) : ClaimsWorkspace where
  orderFiles := fun _ => []
  orderWrites := []
  bundleFiles := fun _ => none
  bundleWrites := []
  current := key
  hydration := .reading
  orders := []
  updates := []
  labelCounter := 0
  added := []
  overwritten := []

/-- React runs an update. -/
def update (s : ClaimsWorkspace) : OrdersUpdate → ClaimsWorkspace
  | .prepend order => { s with orders := order :: s.orders }
  | .drop id => { s with orders := s.orders.filter fun o => o.id ≠ id }
  | .hydrate loaded =>
    let merged := mergeHydrated loaded s.orders
    { s with orders := merged, labelCounter := maxSeq merged }

def render (s : ClaimsWorkspace) : ClaimsWorkspace := { s.updates.foldl update s with updates := [] }

/-- The order of the next call of `add`. -/
def nextOrder (s : ClaimsWorkspace) (id : String) (claim : Option OrderClaim) (claims : Option (List OrderClaim)) : PlacedOrder where
  label := seqLabel (s.labelCounter + 1)
  claim
  claims
  id

def place (s : ClaimsWorkspace) (key : OrdersKey) (order : PlacedOrder) : ClaimsWorkspace :=
  { s with
    labelCounter := s.labelCounter + 1
    updates := s.updates ++ [.prepend order]
    orderWrites := s.orderWrites ++ [(key, .put order)]
    bundleWrites := s.bundleWrites ++ (persistOrderClaimsBundle order).toList
    added := s.added ++ [order] }

/-- The render that processes what is queued, and the effect of the new adapter after it. -/
def mount (s : ClaimsWorkspace) (key : OrdersKey) : ClaimsWorkspace :=
  { s with current := key, hydration := .reading, orders := [], updates := [], labelCounter := 0 }

/-- `saveFile` of a bundle. -/
def saveBundle (s : ClaimsWorkspace) (name : String) (bundle : ClaimsBundle) : ClaimsWorkspace :=
  { s with
    bundleFiles := Function.update s.bundleFiles name (some bundle)
    overwritten := s.overwritten ++ (s.bundleFiles name).toList.filter fun old => old.orderId ≠ bundle.orderId }

def Step : ClaimsEvent → ClaimsWorkspace → ClaimsWorkspace → Prop
  | .place key id claim claims, s, s' => id ∉ s.added.map PlacedOrder.id ∧ s' = s.place key (s.nextOrder id claim claims)
  | .remove key id, s, s' =>
    s' = { s with updates := s.updates ++ [.drop id], orderWrites := s.orderWrites ++ [(key, .remove id)] }
  | .mount key, s, s' => s' = s.mount key
  | .read, s, s' => s.hydration = .reading ∧ s' = { s with hydration := .read (s.orderFiles s.current) }
  | .hydrate, s, s' => ∃ loaded, s.hydration = .read loaded ∧ s' = { s with hydration := .done, updates := s.updates ++ [.hydrate loaded] }
  | .render, s, s' => s' = s.render
  | .landOrder i, s, s' => ∃ key call, s.orderWrites[i]? = some (key, call) ∧
    s' = { s with orderWrites := s.orderWrites.eraseIdx i, orderFiles := Function.update s.orderFiles key (call.land (s.orderFiles key)) }
  | .landBundle i, s, s' => ∃ name bundle, s.bundleWrites[i]? = some (name, bundle) ∧
    s' = { s with bundleWrites := s.bundleWrites.eraseIdx i }.saveBundle name bundle

end ClaimsWorkspace

end Pro

end ScatterDex
