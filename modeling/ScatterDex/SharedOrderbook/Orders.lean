import ScatterDex.Contract.Basic
import ScatterDex.Library.Fallible
import ScatterDex.Library.Table
import Mathlib.Data.List.Sort
import Mathlib.Data.Rat.Defs

/-!
# Listings of the shared orderbook

A relayer publishes the trade-relevant fields of an order under an offer handle. The service keeps the listings twice: in memory, and as rows of a database.
-/

namespace ScatterDex

open Fallible

namespace SharedOrderbook

def DEFAULT_CHAIN_ID : ℕ := 11155111

inductive OrderStatus where
  | opened
  | cancelled
  | expired
  | matched
  deriving DecidableEq, Repr

/-- The published fields of an order. Addresses are values, so their spelling does not matter. -/
structure OrderSummary where
  id : String
  chainId : ℕ
  relayer : Address
  relayerUrl : String
  sellToken : Address
  buyToken : Address
  sellAmount : ℕ
  buyAmount : ℕ
  minFillAmount : ℕ
  maxFee : ℚ
  expiry : ℚ
  createdAt : ℕ
  deriving DecidableEq

structure StoredOrder where
  order : OrderSummary
  status : OrderStatus
  matchId : Option String
  deriving DecidableEq

/-! ### Parsing -/

/-- A text that `BigInt` reads. -/
inductive Numeral where
  | empty
  | malformed (text : String)
  | value (n : ℤ)
  deriving DecidableEq

/-- The body of a post, each field as far as the language reads it: an address, a finite number, an integer. -/
structure OrderBody where
  id : String
  /-- the text, and its number -/
  chainId : Option (String × Option ℚ)
  sellToken : Option Address
  buyToken : Option Address
  sellAmount : Numeral
  buyAmount : Numeral
  minFillAmount : Numeral
  maxFee : Option ℚ
  expiry : Option ℚ
  deriving DecidableEq

def MAX_SAFE_INTEGER : ℕ := 2 ^ 53 - 1

def chainIdOrDefault (value : Option (String × Option ℚ)) : Except String ℕ :=
  match value with
  | none => .ok DEFAULT_CHAIN_ID
  | some (text, number) =>
    match number with
    | some n => if n.den = 1 ∧ 0 < n ∧ n ≤ MAX_SAFE_INTEGER then .ok n.num.toNat else .error ("invalid chainId: " ++ text)
    | none => .error ("invalid chainId: " ++ text)

def isHexDigit (c : Char) : Bool := c.isDigit || ('a' ≤ c && c ≤ 'f') || ('A' ≤ c && c ≤ 'F')

/-- `OFFER_HANDLE_RE`. -/
def isOfferHandle (id : String) : Bool :=
  match id.toList with
  | '0' :: 'x' :: digits => digits.length == 64 && digits.all isHexDigit
  | _ => false

/-- The amount a text stands for, above zero. -/
def positiveAmount (amount : Numeral) (msg : String) : Except String ℕ :=
  match amount with
  | .empty => .error msg
  | .malformed text => .error ("Cannot convert " ++ text ++ " to a BigInt")
  | .value n => if n ≤ 0 then .error msg else .ok n.toNat

/-- The amount a text stands for; no text stands for zero. -/
def optionalAmount (amount : Numeral) (msg : String) : Except String ℕ :=
  match amount with
  | .empty => .ok 0
  | .malformed text => .error ("Cannot convert " ++ text ++ " to a BigInt")
  | .value n => if n < 0 then .error msg else .ok n.toNat

/-- A finite number in a range. -/
def finiteNumber (number : Option ℚ) (inRange : ℚ → Bool) (msg : String) : Except String ℚ :=
  match number with
  | some n => if inRange n then .ok n else .error msg
  | none => .error msg

def parseOrderSummary (raw : OrderBody) (relayer : Address) (relayerUrl : String) (now : ℕ) :
    Except String OrderSummary := do
  let chainId ← chainIdOrDefault raw.chainId
  require (isOfferHandle raw.id) "invalid order id (expect 0x-prefixed 32-byte hex offer handle)"
  let sellToken ← raw.sellToken.elim (.error "invalid sellToken address") .ok
  let buyToken ← raw.buyToken.elim (.error "invalid buyToken address") .ok
  require (sellToken ≠ buyToken) "sellToken == buyToken"
  let sellAmount ← positiveAmount raw.sellAmount "sellAmount must be > 0"
  let buyAmount ← positiveAmount raw.buyAmount "buyAmount must be > 0"
  let minFillAmount ← optionalAmount raw.minFillAmount "minFillAmount must be >= 0"
  let maxFee ← finiteNumber raw.maxFee (0 ≤ ·) "maxFee must be >= 0"
  let expiry ← finiteNumber raw.expiry (0 < ·) "invalid expiry"
  require (now < expiry) "order already expired"
  return { id := raw.id, chainId, relayer, relayerUrl, sellToken, buyToken, sellAmount, buyAmount, minFillAmount,
           maxFee, expiry, createdAt := now }

/-! ### The table `orders` -/

abbrev OrdersTable := Table fun row : StoredOrder => row.order.id

namespace OrdersTable

/-- A new row is open. Its key must be free. -/
def insertOrder (table : OrdersTable) (o : OrderSummary) : Except String OrdersTable :=
  match table.insert ⟨o, .opened, none⟩ with
  | some table => .ok table
  | none => .error "UNIQUE constraint failed: orders.id"

def deleteOrder (table : OrdersTable) (id : String) : OrdersTable := table.delete fun row => row.order.id = id

def updateStatus (table : OrdersTable) (id : String) (status : OrderStatus) : OrdersTable :=
  table.update (fun row => row.order.id = id) (fun row => ⟨row.order, status, none⟩) fun _ => rfl

def expireByIds (table : OrdersTable) (ids : List String) : OrdersTable :=
  ids.foldl (fun table id => table.updateStatus id .expired) table

def loadAllOpen (table : OrdersTable) : List StoredOrder :=
  (table.rows.filter fun row => row.status = .opened).insertionSort fun a b => a.order.createdAt ≤ b.order.createdAt

/-- The open orders. -/
def opens (table : OrdersTable) : Set OrderSummary := {o | ∃ row ∈ table.rows, row.order = o ∧ row.status = .opened}

variable {table table' : OrdersTable} {id : String}

theorem opens_update {f : StoredOrder → StoredOrder} {hf : ∀ row, (f row).order.id = row.order.id}
    (hclosed : ∀ row, (f row).status ≠ .opened) :
    opens (table.update (fun row => row.order.id = id) f hf) = {o ∈ table.opens | o.id ≠ id} := by
  ext o
  constructor
  · rintro ⟨row', hrow', rfl, hopen⟩
    obtain ⟨row, hrow, rfl⟩ := Table.mem_update.mp hrow'
    by_cases hid : row.order.id = id
    · rw [if_pos (decide_eq_true hid)] at hopen
      exact absurd hopen (hclosed row)
    · rw [if_neg (by simpa using hid)] at hopen ⊢
      exact ⟨⟨row, hrow, rfl, hopen⟩, hid⟩
  · rintro ⟨⟨row, hrow, rfl, hopen⟩, hid⟩
    exact ⟨row, Table.mem_update.mpr ⟨row, hrow, if_neg (by simpa using hid)⟩, rfl, hopen⟩

theorem opens_updateStatus {status : OrderStatus} (hstatus : status ≠ .opened) :
    (table.updateStatus id status).opens = {o ∈ table.opens | o.id ≠ id} :=
  opens_update fun _ => hstatus

theorem opens_deleteOrder : (table.deleteOrder id).opens = {o ∈ table.opens | o.id ≠ id} := by
  ext o
  constructor
  · rintro ⟨row, hrow, rfl, hopen⟩
    obtain ⟨hmember, hid⟩ := Table.mem_delete.mp hrow
    exact ⟨⟨row, hmember, rfl, hopen⟩, of_decide_eq_false hid⟩
  · rintro ⟨⟨row, hrow, rfl, hopen⟩, hid⟩
    exact ⟨row, Table.mem_delete.mpr ⟨hrow, decide_eq_false hid⟩, rfl, hopen⟩

theorem opens_insertOrder {o : OrderSummary} (hinsert : table.insertOrder o = .ok table') :
    table'.opens = insert o table.opens := by
  unfold insertOrder at hinsert
  split at hinsert
  · rename_i stored hstored
    cases hinsert
    obtain ⟨-, hrows⟩ := Table.insert_eq_some.mp hstored
    ext o'
    simp [opens, hrows, or_and_right, exists_or, eq_comm, or_comm]
  · cases hinsert

theorem insertOrder_eq_ok {o : OrderSummary} (hfree : table.lookup o.id = none) :
    ∃ table', table.insertOrder o = .ok table' := by
  unfold insertOrder
  cases hinsert : table.insert ⟨o, .opened, none⟩ with
  | some stored => exact ⟨stored, rfl⟩
  | none =>
    obtain ⟨row, hrow, hid⟩ := Table.insert_eq_none.mp hinsert
    exact absurd hid (Table.lookup_eq_none.mp hfree row hrow)

theorem lookup_deleteOrder : (table.deleteOrder id).lookup id = none := by
  apply Table.lookup_eq_none.mpr
  intro row hrow
  exact of_decide_eq_false (Table.mem_delete.mp hrow).2

theorem opens_put {stored : StoredOrder} (hopen : stored.status = .opened) :
    opens (table.put stored) = insert stored.order {o ∈ table.opens | o.id ≠ stored.order.id} := by
  ext o
  simp only [opens, Table.mem_put, Set.mem_ofPred_eq, Set.mem_insert_iff]
  constructor
  · rintro ⟨row, rfl | ⟨hrow, hid⟩, rfl, hrowOpen⟩
    · exact Or.inl rfl
    · exact Or.inr ⟨⟨row, hrow, rfl, hrowOpen⟩, hid⟩
  · rintro (rfl | ⟨⟨row, hrow, rfl, hrowOpen⟩, hid⟩)
    · exact ⟨stored, Or.inl rfl, rfl, hopen⟩
    · exact ⟨row, Or.inr ⟨hrow, hid⟩, rfl, hrowOpen⟩

theorem opens_without (hclosed : ∀ row ∈ table.rows, row.order.id = id → row.status ≠ .opened) :
    {o ∈ table.opens | o.id ≠ id} = table.opens := by
  refine Set.sep_eq_self_iff_mem_true.mpr ?_
  rintro o ⟨row, hrow, rfl, hopen⟩ hid
  exact hclosed row hrow hid hopen

theorem opens_expireByIds {ids : List String} :
    (table.expireByIds ids).opens = {o ∈ table.opens | o.id ∉ ids} := by
  unfold expireByIds
  induction ids generalizing table with
  | nil => simp
  | cons id ids ih =>
    rw [List.foldl_cons, ih, opens_updateStatus (by decide)]
    ext o
    simp [and_assoc]

theorem mem_loadAllOpen {row : StoredOrder} : row ∈ table.loadAllOpen ↔ row ∈ table.rows ∧ row.status = .opened := by
  simp [loadAllOpen, List.mem_insertionSort]

theorem loadAllOpen_distinct : (table.loadAllOpen.map fun row => row.order.id).Nodup :=
  ((List.perm_insertionSort _ _).map _).nodup_iff.mpr (table.distinct.sublist (List.filter_sublist.map _))

end OrdersTable

end SharedOrderbook

end ScatterDex
