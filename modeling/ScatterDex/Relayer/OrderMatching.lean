import ScatterDex.Relayer.AuthorizeOrder

/-!
# The order book of the relayer

Orders sit in a map under their nullifiers. An index by directed token pair leads an order to its possible counterparties; orders that sell what they buy are settled alone and never enter it.
-/

namespace ScatterDex

namespace Relayer

/-- `authorizeOrders` and `ordersByPair`. A bucket lists its nullifiers in the order they were added. -/
structure OrderBook where
  authorizeOrders : ℕ → Option StoredAuthorizeOrder
  ordersByPair : ℕ × ℕ → List ℕ
  crossToken : ∀ token, ordersByPair (token, token) = []

namespace OrderBook

def empty : OrderBook := ⟨fun _ => none, fun _ => [], fun _ => rfl⟩

variable (book : OrderBook)

def set (nullifier : ℕ) (stored : StoredAuthorizeOrder) : OrderBook :=
  { book with authorizeOrders := Function.update book.authorizeOrders nullifier (some stored) }

def delete (nullifier : ℕ) : OrderBook :=
  { book with authorizeOrders := Function.update book.authorizeOrders nullifier none }

/-- A change of one bucket, the bucket of a pair of different tokens. -/
def updateBucket (sellToken buyToken : ℕ) (f : List ℕ → List ℕ) : OrderBook where
  authorizeOrders := book.authorizeOrders
  ordersByPair key :=
    if sellToken ≠ buyToken ∧ key = (sellToken, buyToken) then f (book.ordersByPair key) else book.ordersByPair key
  crossToken := by
    intro token
    rw [if_neg]
    · exact book.crossToken token
    · rintro ⟨hne, hkey⟩
      simp only [Prod.mk.injEq] at hkey
      exact hne (hkey.1.symm.trans hkey.2)

def indexAuthorizeOrder (nullifier : ℕ) (order : AuthorizeOrderFile) : OrderBook :=
  book.updateBucket order.publicSignals.sellToken order.publicSignals.buyToken fun bucket =>
    if nullifier ∈ bucket then bucket else bucket ++ [nullifier]

def unindexAuthorizeOrder (nullifier : ℕ) (order : AuthorizeOrderFile) : OrderBook :=
  book.updateBucket order.publicSignals.sellToken order.publicSignals.buyToken fun bucket => bucket.erase nullifier

/-- The orders on the other side of a pair: they sell what it buys. -/
def lookupAuthorizeOrdersByCounterPair (counterSellToken counterBuyToken : ℕ) : List (ℕ × StoredAuthorizeOrder) :=
  (book.ordersByPair (counterBuyToken, counterSellToken)).filterMap fun nullifier =>
    (book.authorizeOrders nullifier).map fun stored => (nullifier, stored)

/-- The counterparty of an order: the first live one on the other side whose price crosses. An order is told from itself by its place in the map. -/
def findMatch (nullifier : ℕ) (incoming : StoredAuthorizeOrder) : Option AuthorizeMatch :=
  let inPs := incoming.order.publicSignals
  let candidates := book.lookupAuthorizeOrdersByCounterPair inPs.sellToken inPs.buyToken
  (candidates.find? fun (key, candidate) =>
    key ≠ nullifier ∧ candidate.status.isLiveStatus ∧ candidate.order.publicSignals.isTokenCompatible inPs ∧
      candidate.order.publicSignals.isPriceCompatible inPs).map fun (_, candidate) => ⟨candidate, incoming⟩

/-- What a match is: a live order of the book against the incoming one, with tokens mirrored and distinct, at prices that cross. -/
structure Matched (nullifier : ℕ) (incoming : StoredAuthorizeOrder) (pair : AuthorizeMatch) : Prop where
  taker : pair.taker = incoming
  maker : ∃ key ≠ nullifier, book.authorizeOrders key = some pair.maker
  live : pair.maker.status.isLiveStatus = true
  makerSells : pair.maker.order.publicSignals.sellToken = incoming.order.publicSignals.buyToken
  takerSells : incoming.order.publicSignals.sellToken = pair.maker.order.publicSignals.buyToken
  crossToken : incoming.order.publicSignals.sellToken ≠ incoming.order.publicSignals.buyToken
  price : pair.maker.order.publicSignals.buyAmount * incoming.order.publicSignals.buyAmount ≤
    pair.maker.order.publicSignals.sellAmount * incoming.order.publicSignals.sellAmount

variable {book}

theorem findMatch_spec {nullifier : ℕ} {incoming : StoredAuthorizeOrder} {pair : AuthorizeMatch}
    (hmatch : book.findMatch nullifier incoming = some pair) : book.Matched nullifier incoming pair := by
  obtain ⟨⟨key, candidate⟩, hfind, rfl⟩ := Option.map_eq_some_iff.mp hmatch
  have hmember := List.mem_of_find?_eq_some hfind
  have hchecks := List.find?_some hfind
  simp only [AuthorizePublicSignals.isTokenCompatible, AuthorizePublicSignals.isPriceCompatible, decide_eq_true_eq]
    at hchecks
  obtain ⟨hkey, hlive, ⟨hmaker, htaker⟩, hprice⟩ := hchecks
  obtain ⟨nullifier', hbucket, hentry⟩ := List.mem_filterMap.mp hmember
  obtain ⟨stored, hstored, heq⟩ := Option.map_eq_some_iff.mp hentry
  obtain ⟨rfl, rfl⟩ := Prod.mk.injEq _ _ _ _ ▸ heq
  refine ⟨rfl, ⟨nullifier', hkey, hstored⟩, hlive, hmaker, htaker, fun hsame => ?_, hprice⟩
  rw [hsame, book.crossToken] at hbucket
  exact absurd hbucket List.not_mem_nil

end OrderBook

end Relayer

end ScatterDex
