import ScatterDex.Library.Transactions
import ScatterDex.SharedOrderbook.Orderbook

/-!
# The routes of the order book

Each request and each periodic task changes the book in memory and then the database. What a handler awaits is over before it changes anything, so handlers do not interleave. A restart forgets the book and reads the open rows back.
-/

namespace ScatterDex

namespace SharedOrderbook

inductive Response where
  | ok (status : ℕ)
  | error (status : ℕ) (msg : String)
  deriving DecidableEq

def OrderStatus.text : OrderStatus → String
  | .opened => "open"
  | .cancelled => "cancelled"
  | .expired => "expired"
  | .matched => "matched"

/-- The process and its database. -/
structure Service where
  book : Orderbook
  db : OrdersTable

namespace Service

/-- The order goes into the book, then into the database. -/
def addOrder (cfg : Config) (s : Service) (order : OrderSummary) : Service × Response :=
  match s.book.addOrder cfg order with
  | .error msg => (s, .error 400 msg)
  | .ok book =>
    match s.db.insertOrder order with
    | .error msg => (⟨book, s.db⟩, .error 400 msg)
    | .ok db => (⟨book, db⟩, .ok 201)

/-- POST /orders. `guard` is the verdict on the relayer's URL, which the handler awaits. -/
def postOrder (cfg : Config) (s : Service) (relayerAddress : Address) (relayerUrl : String) (guard : Except String Unit)
    (body : OrderBody) (now : ℕ) : Service × Response :=
  if relayerUrl = "" then (s, .error 400 "x-relayer-url header required for order posting")
  else match guard with
  | .error msg => (s, .error 400 msg)
  | .ok () =>
    match s.book.registerRelayer cfg relayerAddress relayerUrl none now with
    | .error msg => (s, .error 400 msg)
    | .ok book =>
      match parseOrderSummary body relayerAddress relayerUrl now with
      | .error msg => (⟨book, s.db⟩, .error 400 msg)
      | .ok order =>
        match book.orders.lookup order.id with
        | none => addOrder cfg ⟨book, s.db⟩ order
        | some existing =>
          if existing.status = .opened then (⟨book, s.db⟩, .error 409 "order already exists")
          -- a terminal listing makes room for the new one
          else addOrder cfg ⟨book.removeOrder order.id, s.db.deleteOrder order.id⟩ order

/-- An open listing of the relayer gets a final status. -/
def closeOrder (s : Service) (relayerAddress : Address) (id : String) (status : OrderStatus) (verb : String) :
    Service × Response :=
  match s.book.orders.lookup id with
  | none => (s, .error 404 "order not found")
  | some stored =>
    if stored.order.relayer ≠ relayerAddress then (s, .error 403 "not your order")
    else if stored.status ≠ .opened then
      (s, .error 409 ("order is " ++ stored.status.text ++ ", cannot " ++ verb))
    else (⟨s.book.updateStatus id status, s.db.updateStatus id status⟩, .ok 200)

/-- DELETE /orders/:id. -/
def deleteOrder (s : Service) (relayerAddress : Address) (id : String) : Service × Response :=
  s.closeOrder relayerAddress id .cancelled "cancel"

/-- POST /orders/:id/matched. -/
def matchedOrder (s : Service) (relayerAddress : Address) (id : String) : Service × Response :=
  s.closeOrder relayerAddress id .matched "mark matched"

/-- POST /relayers/register. -/
def register (cfg : Config) (s : Service) (relayerAddress : Address) (relayerUrl : String) (guard : Except String Unit)
    (name : Option String) (now : ℕ) : Service × Response :=
  match guard with
  | .error msg => (s, .error 400 msg)
  | .ok () =>
    match s.book.registerRelayer cfg relayerAddress relayerUrl name now with
    | .error msg => (s, .error 500 msg)
    | .ok book => (⟨book, s.db⟩, .ok 200)

/-- POST /relayers/heartbeat. -/
def heartbeat (s : Service) (relayerAddress : Address) (now : ℕ) : Service × Response :=
  match s.book.heartbeat relayerAddress now with
  | (_, false) => (s, .error 404 "relayer not registered")
  | (book, true) => (⟨book, s.db⟩, .ok 200)

/-- The expiry task. -/
def purgeExpired (s : Service) (now : ℕ) : Service :=
  ⟨(s.book.purgeExpired now).1, s.db.expireByIds (s.book.purgeExpired now).2⟩

/-- The task that drops relayers after ten minutes without a heartbeat. -/
def purgeStaleRelayers (s : Service) (now : ℕ) : Service :=
  ⟨s.book.purgeStaleRelayers 600 now, s.db⟩

/-- The process starts on a database. -/
def start (db : OrdersTable) : Service := ⟨Orderbook.empty.loadFromStored db.loadAllOpen, db⟩

/-- The process starts again on its database. -/
def restart (s : Service) : Service := start s.db

end Service

inductive ServiceStep where
  | post (relayerAddress : Address) (relayerUrl : String) (guard : Except String Unit) (body : OrderBody) (now : ℕ)
  | delete (relayerAddress : Address) (orderId : String)
  | matched (relayerAddress : Address) (orderId : String)
  | register (relayerAddress : Address) (relayerUrl : String) (guard : Except String Unit) (name : Option String) (now : ℕ)
  | heartbeat (relayerAddress : Address) (now : ℕ)
  | purgeExpired (now : ℕ)
  | purgeStaleRelayers (now : ℕ)
  | restart

/-- A step, and the response when it is a request. -/
def ServiceStep.apply (cfg : Config) (s : Service) : ServiceStep → Service × Option Response
  | .post relayerAddress relayerUrl guard body now =>
    (s.postOrder cfg relayerAddress relayerUrl guard body now).map id some
  | .delete relayerAddress orderId => (s.deleteOrder relayerAddress orderId).map id some
  | .matched relayerAddress orderId => (s.matchedOrder relayerAddress orderId).map id some
  | .register relayerAddress relayerUrl guard name now =>
    (s.register cfg relayerAddress relayerUrl guard name now).map id some
  | .heartbeat relayerAddress now => (s.heartbeat relayerAddress now).map id some
  | .purgeExpired now => (s.purgeExpired now, none)
  | .purgeStaleRelayers now => (s.purgeStaleRelayers now, none)
  | .restart => (s.restart, none)

/-- Every step leaves a state. -/
def ServiceStep.run (cfg : Config) (step : ServiceStep) (s : Service) : Except Empty Service := .ok (step.apply cfg s).1

end SharedOrderbook

end ScatterDex
