import ScatterDex.SharedOrderbook.Orders

/-!
# The order book in memory

The service answers from a book in memory. It keeps every listing of the process, open or not, the relayers that posted them, and indexes of both.
-/

namespace ScatterDex

open Fallible

namespace SharedOrderbook

structure RelayerInfo where
  address : Address
  url : String
  name : Option String
  registeredAt : ℕ
  lastHeartbeat : ℕ
  orderCount : ℕ
  deriving DecidableEq

/-- The limits of the configuration, and what the platform takes for an http or https URL. -/
structure Config where
  maxOrders : ℕ
  maxOrdersPerRelayer : ℕ
  isHttpUrl : String → Bool

/-- A chain and two tokens in order. -/
abbrev PairKey := ℕ × Address × Address

def indexKey (order : OrderSummary) : PairKey :=
  if order.sellToken < order.buyToken then (order.chainId, order.sellToken, order.buyToken)
  else (order.chainId, order.buyToken, order.sellToken)

/-- Put an id into the set under a key. -/
def addToSet {κ : Type} [DecidableEq κ] (index : κ → List String) (key : κ) (id : String) : κ → List String :=
  Function.update index key ((index key).insert id)

/-- Take an id out of the set under a key. -/
def deleteFromSet {κ : Type} [DecidableEq κ] (index : κ → List String) (key : κ) (id : String) : κ → List String :=
  Function.update index key ((index key).erase id)

structure Orderbook where
  orders : OrdersTable
  sellSide : PairKey → List String
  buySide : PairKey → List String
  relayers : Table RelayerInfo.address
  openCount : ℤ
  relayerOrders : Address → List String

namespace Orderbook

def empty : Orderbook := ⟨Table.empty, fun _ => [], fun _ => [], Table.empty, 0, fun _ => []⟩

/-! ### Relayers -/

def registerRelayer (cfg : Config) (book : Orderbook) (address : Address) (url : String) (name : Option String)
    (now : ℕ) : Except String Orderbook := do
  require (cfg.isHttpUrl url) "invalid relayer URL"
  let existing := book.relayers.lookup address
  return { book with
    relayers := book.relayers.put
      { address, url
        name := name.or (existing.bind RelayerInfo.name)
        registeredAt := existing.elim now RelayerInfo.registeredAt
        lastHeartbeat := now
        orderCount := existing.elim 0 RelayerInfo.orderCount } }

/-- A heartbeat, and whether the relayer was known. -/
def heartbeat (book : Orderbook) (address : Address) (now : ℕ) : Orderbook × Bool :=
  match book.relayers.lookup address with
  | none => (book, false)
  | some info => ({ book with relayers := book.relayers.put { info with lastHeartbeat := now } }, true)

/-- A relayer of the registry has one open order less. -/
def uncount (book : Orderbook) (relayer : Address) : Table RelayerInfo.address :=
  book.relayers.update (fun info => info.address = relayer ∧ 0 < info.orderCount)
    (fun info => { info with orderCount := info.orderCount - 1 }) fun _ => rfl

/-! ### Orders -/

/-- An open order enters the indexes of its pair and its relayer. -/
def index (book : Orderbook) (stored : StoredOrder) : Orderbook :=
  let pair := indexKey stored.order
  let isSellSide := decide (stored.order.sellToken < stored.order.buyToken)
  { book with
    orders := book.orders.put stored
    sellSide := if isSellSide then addToSet book.sellSide pair stored.order.id else book.sellSide
    buySide := if isSellSide then book.buySide else addToSet book.buySide pair stored.order.id
    relayerOrders := addToSet book.relayerOrders stored.order.relayer stored.order.id
    openCount := book.openCount + 1 }

def addOrder (cfg : Config) (book : Orderbook) (order : OrderSummary) : Except String Orderbook := do
  require (book.orders.lookup order.id = none) "duplicate order id"
  require (book.orders.rows.length < cfg.maxOrders) "orderbook full"
  require (∀ info ∈ book.relayers.lookup order.relayer, info.orderCount < cfg.maxOrdersPerRelayer)
    "relayer order limit reached"
  let relayers := book.relayers.update (fun info => info.address = order.relayer)
    (fun info => { info with orderCount := info.orderCount + 1 }) fun _ => rfl
  return { book.index ⟨order, .opened, none⟩ with relayers }

/-- The listing leaves the indexes of its pair. -/
def unindex (book : Orderbook) (order : OrderSummary) : Orderbook :=
  { book with
    sellSide := deleteFromSet book.sellSide (indexKey order) order.id
    buySide := deleteFromSet book.buySide (indexKey order) order.id
    relayers := book.uncount order.relayer }

def removeOrder (book : Orderbook) (id : String) : Orderbook :=
  match book.orders.lookup id with
  | none => book
  | some stored =>
    { book.unindex stored.order with
      orders := book.orders.delete fun row => row.order.id = id
      relayerOrders := deleteFromSet book.relayerOrders stored.order.relayer id
      openCount := if stored.status = .opened then book.openCount - 1 else book.openCount }

def updateStatus (book : Orderbook) (id : String) (status : OrderStatus) : Orderbook :=
  match book.orders.lookup id with
  | none => book
  | some stored =>
    let orders := book.orders.update (fun row => row.order.id = id) (fun row => { row with status }) fun _ => rfl
    if status ≠ .opened ∧ stored.status = .opened then
      { book.unindex stored.order with orders, openCount := book.openCount - 1 }
    else { book with orders }

/-- The listings past their expiry are closed; their ids are for the database. -/
def purgeExpired (book : Orderbook) (now : ℕ) : Orderbook × List String :=
  let expiredIds := (book.orders.rows.filter fun row => row.status = .opened ∧ row.order.expiry ≤ (now : ℚ)).map (·.order.id)
  (expiredIds.foldl (fun book id => book.updateStatus id .expired) book, expiredIds)

/-- A relayer leaves, and its open listings are closed. -/
def purgeRelayer (book : Orderbook) (address : Address) : Orderbook :=
  let closed := (book.relayerOrders address).foldl (fun book id =>
    match book.orders.lookup id with
    | some ⟨_, .opened, _⟩ => book.updateStatus id .expired
    | _ => book) book
  { closed with
    relayerOrders := Function.update closed.relayerOrders address []
    relayers := closed.relayers.delete fun info => info.address = address }

/-- The relayers whose last heartbeat is too long ago. -/
def staleRelayers (book : Orderbook) (staleThresholdSec now : ℕ) : List Address :=
  (book.relayers.rows.filter fun info => info.lastHeartbeat + staleThresholdSec < now).map RelayerInfo.address

def purgeStaleRelayers (book : Orderbook) (staleThresholdSec now : ℕ) : Orderbook :=
  (book.staleRelayers staleThresholdSec now).foldl purgeRelayer book

/-- Restore from database rows. -/
def loadFromStored (book : Orderbook) (orders : List StoredOrder) : Orderbook :=
  (orders.filter fun stored => stored.status = .opened).foldl index book

/-! ### The open listings after an operation -/

variable {cfg : Config} {book book' : Orderbook} {id : String}

theorem registerRelayer_orders {address : Address} {url : String} {name : Option String} {now : ℕ}
    (hregister : book.registerRelayer cfg address url name now = .ok book') : book'.orders = book.orders := by
  simp only [registerRelayer, bind_eq_ok, pure_eq_ok] at hregister
  obtain ⟨-, -, rfl⟩ := hregister
  rfl

theorem registerRelayer_url {address : Address} {url : String} {name : Option String} {now : ℕ}
    (hregister : book.registerRelayer cfg address url name now = .ok book') : cfg.isHttpUrl url = true := by
  simp only [registerRelayer, bind_eq_ok, require_eq_ok] at hregister
  obtain ⟨-, hurl, -⟩ := hregister
  exact hurl

theorem heartbeat_orders (book : Orderbook) (address : Address) (now : ℕ) :
    (book.heartbeat address now).1.orders = book.orders := by
  unfold heartbeat
  split <;> rfl

theorem opens_addOrder {order : OrderSummary} (hadd : book.addOrder cfg order = .ok book') :
    book'.orders.opens = insert order book.orders.opens := by
  simp only [addOrder, bind_eq_ok, require_eq_ok, pure_eq_ok] at hadd
  obtain ⟨-, hfree, -, -, -, -, rfl⟩ := hadd
  have hopens : OrdersTable.opens (book.orders.put ⟨order, .opened, none⟩) = _ := OrdersTable.opens_put rfl
  rw [OrdersTable.opens_without fun row hrow hid => absurd hid (Table.lookup_eq_none.mp hfree row hrow)] at hopens
  exact hopens

theorem opens_removeOrder : (book.removeOrder id).orders.opens = {o ∈ book.orders.opens | o.id ≠ id} := by
  unfold removeOrder
  split
  · rename_i hnone
    exact (OrdersTable.opens_without fun row hrow hid => absurd hid (Table.lookup_eq_none.mp hnone row hrow)).symm
  · exact OrdersTable.opens_deleteOrder

theorem opens_updateStatus {status : OrderStatus} (hstatus : status ≠ .opened) :
    (book.updateStatus id status).orders.opens = {o ∈ book.orders.opens | o.id ≠ id} := by
  unfold updateStatus
  split
  · rename_i hnone
    exact (OrdersTable.opens_without fun row hrow hid => absurd hid (Table.lookup_eq_none.mp hnone row hrow)).symm
  · have hopens : OrdersTable.opens (book.orders.update (fun row => row.order.id = id)
        (fun row => { row with status }) fun _ => rfl) = _ := OrdersTable.opens_update fun _ => hstatus
    dsimp only
    split
    · exact hopens
    · exact hopens

theorem opens_purgeExpired {now : ℕ} :
    (book.purgeExpired now).1.orders.opens = {o ∈ book.orders.opens | o.id ∉ (book.purgeExpired now).2} := by
  unfold purgeExpired
  dsimp only
  generalize (book.orders.rows.filter fun row => decide (row.status = .opened ∧ row.order.expiry ≤ (now : ℚ))).map
    (·.order.id) = ids
  induction ids generalizing book with
  | nil => simp
  | cons id ids ih =>
    rw [List.foldl_cons, ih, opens_updateStatus (by decide)]
    ext o
    simp [and_assoc]

theorem purgeRelayer_orders {address : Address}
    (hclosed : ∀ id ∈ book.relayerOrders address, ∀ stored ∈ book.orders.lookup id, stored.status ≠ .opened) :
    (book.purgeRelayer address).orders = book.orders ∧
      (book.purgeRelayer address).relayerOrders = Function.update book.relayerOrders address [] := by
  have hsame : (book.relayerOrders address).foldl (fun book id =>
      match book.orders.lookup id with
      | some ⟨_, .opened, _⟩ => book.updateStatus id .expired
      | _ => book) book = book := by
    generalize book.relayerOrders address = ids at hclosed
    induction ids with
    | nil => rfl
    | cons id ids ih =>
      rw [List.foldl_cons]
      split
      · rename_i hopen
        exact absurd rfl (hclosed id List.mem_cons_self _ hopen)
      · exact ih fun id' hid' => hclosed id' (List.mem_cons_of_mem id hid')
  unfold purgeRelayer
  rw [hsame]
  exact ⟨rfl, rfl⟩

theorem purgeStaleRelayers_orders {staleThresholdSec now : ℕ}
    (hclosed : ∀ address ∈ book.staleRelayers staleThresholdSec now, ∀ id ∈ book.relayerOrders address,
      ∀ stored ∈ book.orders.lookup id, stored.status ≠ .opened) :
    (book.purgeStaleRelayers staleThresholdSec now).orders = book.orders := by
  unfold purgeStaleRelayers
  generalize book.staleRelayers staleThresholdSec now = addresses at hclosed
  induction addresses generalizing book with
  | nil => rfl
  | cons address addresses ih =>
    obtain ⟨horders, hindex⟩ := purgeRelayer_orders (hclosed address List.mem_cons_self)
    rw [List.foldl_cons, ih, horders]
    intro address' haddress' id hid stored hstored
    rw [horders] at hstored
    rw [hindex, Function.update_apply] at hid
    split at hid
    · cases hid
    · exact hclosed address' (List.mem_cons_of_mem address haddress') id hid stored hstored

theorem loadFromStored_orders {stored : List StoredOrder} :
    (book.loadFromStored stored).orders = (stored.filter fun row => row.status = .opened).foldl Table.put book.orders := by
  unfold loadFromStored
  generalize (stored.filter fun row => decide (row.status = .opened)) = rows
  induction rows generalizing book with
  | nil => rfl
  | cons row rows ih => exact ih

end Orderbook

end SharedOrderbook

end ScatterDex
