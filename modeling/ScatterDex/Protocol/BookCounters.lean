import ScatterDex.Protocol.OpenOrders
import Mathlib.Data.Set.Card

/-!
# Counters and indexes of the book

Next to the listings the book keeps the number of open listings, the same number for each registered relayer, and the ids of the open listings of a pair and a side. All of them are written by hand wherever a listing opens or closes.
-/

/-! ### Counting the members of a set -/

section Tally

variable {α : Type*} {S : Set α} {a : α} {p : α → Prop}

theorem Set.ncard_sep_insert [Decidable (p a)] (hfinite : S.Finite) (hnew : a ∉ S) :
    {b ∈ insert a S | p b}.ncard = {b ∈ S | p b}.ncard + if p a then 1 else 0 := by
  split
  · rename_i ha
    have hinsert : {b ∈ insert a S | p b} = insert a {b ∈ S | p b} := by
      ext b
      constructor
      · rintro ⟨rfl | hb, hpb⟩
        · exact Or.inl rfl
        · exact Or.inr ⟨hb, hpb⟩
      · rintro (rfl | ⟨hb, hpb⟩)
        · exact ⟨Or.inl rfl, ha⟩
        · exact ⟨Or.inr hb, hpb⟩
    rw [hinsert, Set.ncard_insert_of_notMem (fun hmem => hnew hmem.1) (hfinite.subset (Set.sep_subset S p))]
  · rename_i ha
    have hsame : {b ∈ insert a S | p b} = {b ∈ S | p b} := by
      ext b
      constructor
      · rintro ⟨rfl | hb, hpb⟩
        · exact absurd hpb ha
        · exact ⟨hb, hpb⟩
      · exact fun hb => ⟨Or.inr hb.1, hb.2⟩
    rw [hsame, add_zero]

theorem Set.ncard_sep_diff [Decidable (p a)] (hfinite : S.Finite) (ha : a ∈ S) :
    {b ∈ S \ {a} | p b}.ncard + (if p a then 1 else 0) = {b ∈ S | p b}.ncard := by
  have hback : insert a (S \ {a}) = S := by
    rw [Set.insert_sdiff_singleton, Set.insert_eq_of_mem ha]
  have hleft : a ∉ S \ {a} := fun hmem => hmem.2 rfl
  have hcount := Set.ncard_sep_insert (p := p) (hfinite.subset Set.sdiff_subset) hleft
  rw [hback] at hcount
  exact hcount.symm

end Tally

namespace ScatterDex

open Fallible Transactions

namespace SharedOrderbook

/-! ### Open orders -/

namespace OrdersTable

variable {table : OrdersTable} {o o' : OrderSummary}

theorem opens_finite : table.opens.Finite := by
  refine (table.rows.map StoredOrder.order).finite_toSet.subset ?_
  rintro o ⟨row, hrow, rfl, -⟩
  exact List.mem_map_of_mem hrow

theorem opens_inj (ho : o ∈ table.opens) (ho' : o' ∈ table.opens) (hid : o.id = o'.id) : o = o' := by
  obtain ⟨row, hrow, rfl, -⟩ := ho
  obtain ⟨row', hrow', rfl, -⟩ := ho'
  rw [table.eq_of_key hrow hrow' hid]

/-- Closing an open order takes out that order only. -/
theorem opens_closing (ho : o ∈ table.opens) : {o' ∈ table.opens | o'.id ≠ o.id} = table.opens \ {o} := by
  ext o'
  constructor
  · rintro ⟨ho', hid⟩
    exact ⟨ho', fun heq => hid (congrArg OrderSummary.id heq)⟩
  · rintro ⟨ho', hne⟩
    exact ⟨ho', fun hid => hne (opens_inj ho' ho hid)⟩

end OrdersTable

/-- The side of its pair on which an order is listed. -/
def OrderSummary.IsSellSide (order : OrderSummary) : Prop := order.sellToken < order.buyToken

instance (order : OrderSummary) : Decidable order.IsSellSide :=
  inferInstanceAs (Decidable (order.sellToken < order.buyToken))

/-- An index holds the ids of the orders of a set that stand on a side, under the key of their pair. -/
structure Indexes (index : PairKey → List String) (orders : Set OrderSummary) (side : OrderSummary → Prop) : Prop where
  mem : ∀ pair id, id ∈ index pair ↔ ∃ o ∈ orders, side o ∧ indexKey o = pair ∧ o.id = id
  nodup : ∀ pair, (index pair).Nodup

namespace Indexes

variable {index : PairKey → List String} {orders : Set OrderSummary} {side : OrderSummary → Prop} {o : OrderSummary}

theorem empty : Indexes (fun _ => []) ∅ side := by
  refine ⟨fun pair id => ⟨fun hid => absurd hid List.not_mem_nil, ?_⟩, fun _ => List.nodup_nil⟩
  rintro ⟨o, ho, -⟩
  exact absurd ho (Set.notMem_empty o)

theorem add (hindex : Indexes index orders side) (ho : side o) :
    Indexes (addToSet index (indexKey o) o.id) (insert o orders) side := by
  constructor
  · intro pair id
    rw [addToSet, Function.update_apply]
    constructor
    · intro hid
      split at hid
      · rename_i hpair
        rw [List.mem_insert_iff] at hid
        rcases hid with rfl | hid
        · exact ⟨o, Or.inl rfl, ho, hpair.symm, rfl⟩
        · obtain ⟨o', ho', hrest⟩ := (hindex.mem _ id).mp hid
          rw [hpair]
          exact ⟨o', Or.inr ho', hrest⟩
      · obtain ⟨o', ho', hrest⟩ := (hindex.mem pair id).mp hid
        exact ⟨o', Or.inr ho', hrest⟩
    · rintro ⟨o', rfl | ho', hside, rfl, rfl⟩
      · rw [if_pos rfl]
        exact List.mem_insert_self
      · have hheld := (hindex.mem _ _).mpr ⟨o', ho', hside, rfl, rfl⟩
        split
        · rename_i hpair
          rw [hpair] at hheld
          exact List.mem_insert_of_mem hheld
        · exact hheld
  · intro pair
    rw [addToSet, Function.update_apply]
    split
    · exact (hindex.nodup _).insert
    · exact hindex.nodup pair

theorem skip (hindex : Indexes index orders side) (ho : ¬side o) : Indexes index (insert o orders) side := by
  refine ⟨fun pair id => (hindex.mem pair id).trans ⟨?_, ?_⟩, hindex.nodup⟩
  · rintro ⟨o', ho', hrest⟩
    exact ⟨o', Or.inr ho', hrest⟩
  · rintro ⟨o', rfl | ho', hside, hrest⟩
    · exact absurd hside ho
    · exact ⟨o', ho', hside, hrest⟩

theorem delete (hindex : Indexes index orders side) (hinj : ∀ o' ∈ orders, o'.id = o.id → o' = o) :
    Indexes (deleteFromSet index (indexKey o) o.id) (orders \ {o}) side := by
  constructor
  · intro pair id
    rw [deleteFromSet, Function.update_apply]
    constructor
    · intro hid
      split at hid
      · rename_i hpair
        obtain ⟨hne, hid⟩ := ((hindex.nodup _).mem_erase_iff).mp hid
        obtain ⟨o', ho', hside, hkey, rfl⟩ := (hindex.mem _ id).mp hid
        exact ⟨o', ⟨ho', fun heq => hne (congrArg OrderSummary.id heq)⟩, hside, hkey.trans hpair.symm, rfl⟩
      · rename_i hpair
        obtain ⟨o', ho', hside, rfl, rfl⟩ := (hindex.mem pair id).mp hid
        exact ⟨o', ⟨ho', fun heq => hpair (congrArg indexKey heq)⟩, hside, rfl, rfl⟩
    · rintro ⟨o', ⟨ho', hne⟩, hside, rfl, rfl⟩
      have hheld := (hindex.mem _ _).mpr ⟨o', ho', hside, rfl, rfl⟩
      split
      · rename_i hpair
        rw [hpair] at hheld
        exact ((hindex.nodup _).mem_erase_iff).mpr ⟨fun hid => hne (hinj o' ho' hid), hheld⟩
      · exact hheld
  · intro pair
    rw [deleteFromSet, Function.update_apply]
    split
    · exact (hindex.nodup _).erase _
    · exact hindex.nodup pair

theorem delete_absent (hindex : Indexes index orders side) {key : PairKey} {id : String}
    (habsent : ∀ o' ∈ orders, o'.id ≠ id) : Indexes (deleteFromSet index key id) orders side := by
  have hsame : deleteFromSet index key id = index := by
    refine Function.update_eq_self_iff.mpr (List.erase_of_not_mem fun hid => ?_)
    obtain ⟨o', ho', -, -, heq⟩ := (hindex.mem key id).mp hid
    exact habsent o' ho' heq
  rw [hsame]
  exact hindex

end Indexes

namespace Orderbook

/-- The open orders of a relayer. -/
def openOf (book : Orderbook) (relayer : Address) : Set OrderSummary := {o ∈ book.orders.opens | o.relayer = relayer}

/-- Counters and indexes describe the open orders. -/
structure Counted (book : Orderbook) : Prop where
  relayer : ∀ info ∈ book.relayers.rows, info.orderCount = (book.openOf info.address).ncard
  total : book.openCount = book.orders.opens.ncard
  sellSide : Indexes book.sellSide book.orders.opens OrderSummary.IsSellSide
  buySide : Indexes book.buySide book.orders.opens fun o => ¬o.IsSellSide

variable {book book' : Orderbook}

theorem count_rows {relayer : Address} {info' : RelayerInfo}
    (hinfo' : info' ∈ (book.relayers.update (fun info => info.address = relayer)
      (fun info => { info with orderCount := info.orderCount + 1 }) fun _ => rfl).rows) :
    ∃ info ∈ book.relayers.rows, info'.address = info.address ∧
      info'.orderCount = info.orderCount + if relayer = info.address then 1 else 0 := by
  obtain ⟨info, hinfo, rfl⟩ := Table.mem_update.mp hinfo'
  refine ⟨info, hinfo, ?_⟩
  by_cases hrelayer : info.address = relayer
  · rw [if_pos hrelayer.symm, if_pos (decide_eq_true hrelayer)]
    exact ⟨rfl, rfl⟩
  · rw [if_neg (Ne.symm hrelayer), if_neg (by simp [hrelayer])]
    exact ⟨rfl, rfl⟩

theorem uncount_rows {relayer : Address} {info' : RelayerInfo} (hinfo' : info' ∈ (book.uncount relayer).rows) :
    ∃ info ∈ book.relayers.rows, info'.address = info.address ∧
      info'.orderCount = info.orderCount - if relayer = info.address then 1 else 0 := by
  obtain ⟨info, hinfo, rfl⟩ := Table.mem_update.mp hinfo'
  refine ⟨info, hinfo, ?_⟩
  by_cases hrelayer : info.address = relayer
  · rw [if_pos hrelayer.symm]
    by_cases hpos : 0 < info.orderCount
    · rw [if_pos (decide_eq_true ⟨hrelayer, hpos⟩)]
      exact ⟨rfl, rfl⟩
    · rw [if_neg (by simp [hpos])]
      exact ⟨rfl, by omega⟩
  · rw [if_neg (Ne.symm hrelayer), if_neg (by simp [hrelayer])]
    exact ⟨rfl, rfl⟩

theorem index_sellSide (book : Orderbook) (stored : StoredOrder) : (book.index stored).sellSide =
    if stored.order.IsSellSide then addToSet book.sellSide (indexKey stored.order) stored.order.id
    else book.sellSide := by
  by_cases hside : stored.order.IsSellSide
  · rw [if_pos hside]
    exact if_pos (decide_eq_true hside)
  · rw [if_neg hside]
    exact if_neg fun hsell => hside (of_decide_eq_true hsell)

theorem index_buySide (book : Orderbook) (stored : StoredOrder) : (book.index stored).buySide =
    if stored.order.IsSellSide then book.buySide
    else addToSet book.buySide (indexKey stored.order) stored.order.id := by
  by_cases hside : stored.order.IsSellSide
  · rw [if_pos hside]
    exact if_pos (decide_eq_true hside)
  · rw [if_neg hside]
    exact if_neg fun hsell => hside (of_decide_eq_true hsell)

namespace Counted

variable {o : OrderSummary}

theorem of_same (hs : book.Counted) (hopens : book'.orders.opens = book.orders.opens)
    (hrelayers : ∀ info' ∈ book'.relayers.rows, ∃ info ∈ book.relayers.rows,
      info'.address = info.address ∧ info'.orderCount = info.orderCount)
    (htotal : book'.openCount = book.openCount) (hsell : book'.sellSide = book.sellSide)
    (hbuy : book'.buySide = book.buySide) : book'.Counted where
  relayer := by
    intro info' hinfo'
    obtain ⟨info, hinfo, haddress, hcount⟩ := hrelayers info' hinfo'
    rw [hcount, haddress, openOf, hopens]
    exact hs.relayer info hinfo
  total := by rw [htotal, hopens, hs.total]
  sellSide := by rw [hsell, hopens]; exact hs.sellSide
  buySide := by rw [hbuy, hopens]; exact hs.buySide

/-- An order opens under an id that no open order has, and the registry counts it. -/
theorem opened (hs : book.Counted) (hfresh : ∀ o' ∈ book.orders.opens, o'.id ≠ o.id)
    (hopens : book'.orders.opens = insert o book.orders.opens)
    (hrelayers : ∀ info' ∈ book'.relayers.rows, ∃ info ∈ book.relayers.rows, info'.address = info.address ∧
      info'.orderCount = info.orderCount + if o.relayer = info.address then 1 else 0)
    (htotal : book'.openCount = book.openCount + 1)
    (hsell : book'.sellSide = if o.IsSellSide then addToSet book.sellSide (indexKey o) o.id else book.sellSide)
    (hbuy : book'.buySide = if o.IsSellSide then book.buySide else addToSet book.buySide (indexKey o) o.id) :
    book'.Counted := by
  have hnew : o ∉ book.orders.opens := fun ho => hfresh o ho rfl
  constructor
  · intro info' hinfo'
    obtain ⟨info, hinfo, haddress, hcount⟩ := hrelayers info' hinfo'
    rw [hcount, haddress, openOf, hopens, Set.ncard_sep_insert OrdersTable.opens_finite hnew, hs.relayer info hinfo,
      openOf]
  · rw [htotal, hopens, Set.ncard_insert_of_notMem hnew OrdersTable.opens_finite, hs.total]
    push_cast
    rfl
  · rw [hsell, hopens]
    split
    · exact hs.sellSide.add (by assumption)
    · exact hs.sellSide.skip (by assumption)
  · rw [hbuy, hopens]
    split
    · next hside => exact hs.buySide.skip fun hnot => hnot hside
    · exact hs.buySide.add (by assumption)

/-- An open order leaves, and the registry no longer counts it. -/
theorem closed (hs : book.Counted) (ho : o ∈ book.orders.opens)
    (hopens : book'.orders.opens = {o' ∈ book.orders.opens | o'.id ≠ o.id})
    (hrelayers : book'.relayers = book.uncount o.relayer) (htotal : book'.openCount = book.openCount - 1)
    (hsell : book'.sellSide = deleteFromSet book.sellSide (indexKey o) o.id)
    (hbuy : book'.buySide = deleteFromSet book.buySide (indexKey o) o.id) : book'.Counted := by
  have hinj : ∀ o' ∈ book.orders.opens, o'.id = o.id → o' = o := fun o' ho' => OrdersTable.opens_inj ho' ho
  rw [OrdersTable.opens_closing ho] at hopens
  constructor
  · intro info' hinfo'
    rw [hrelayers] at hinfo'
    obtain ⟨info, hinfo, haddress, hcount⟩ := uncount_rows hinfo'
    have hbefore := hs.relayer info hinfo
    rw [openOf, ← Set.ncard_sep_diff OrdersTable.opens_finite ho] at hbefore
    rw [hcount, haddress, openOf, hopens, hbefore, Nat.add_sub_cancel]
  · have hcount := Set.ncard_sdiff_singleton_add_one ho OrdersTable.opens_finite
    rw [htotal, hopens, hs.total, ← hcount]
    push_cast
    ring
  · rw [hsell, hopens]
    exact hs.sellSide.delete hinj
  · rw [hbuy, hopens]
    exact hs.buySide.delete hinj

end Counted

/-! ### Operations -/

variable {cfg : Config}

theorem registerRelayer_counted (hs : book.Counted) {address : Address} {url : String} {name : Option String} {now : ℕ}
    (hnew : book.relayers.lookup address = none → book.openOf address = ∅)
    (hregister : book.registerRelayer cfg address url name now = .ok book') : book'.Counted := by
  simp only [registerRelayer, bind_eq_ok, pure_eq_ok] at hregister
  obtain ⟨-, -, rfl⟩ := hregister
  refine ⟨fun info hinfo => ?_, hs.total, hs.sellSide, hs.buySide⟩
  rcases Table.mem_put.mp hinfo with rfl | ⟨hinfo, -⟩
  · show (book.relayers.lookup address).elim 0 RelayerInfo.orderCount = (book.openOf address).ncard
    cases hexisting : book.relayers.lookup address with
    | none => rw [hnew hexisting, Set.ncard_empty, Option.elim_none]
    | some existing =>
      obtain ⟨hmem, rfl⟩ := Table.lookup_eq_some.mp hexisting
      exact hs.relayer existing hmem
  · exact hs.relayer info hinfo

theorem heartbeat_counted (hs : book.Counted) (address : Address) (now : ℕ) : (book.heartbeat address now).1.Counted := by
  unfold heartbeat
  split
  · exact hs
  · rename_i info hlookup
    obtain ⟨hmem, -⟩ := Table.lookup_eq_some.mp hlookup
    refine hs.of_same rfl (fun info' hinfo' => ?_) rfl rfl rfl
    rcases Table.mem_put.mp hinfo' with rfl | ⟨hinfo', -⟩
    · exact ⟨info, hmem, rfl, rfl⟩
    · exact ⟨info', hinfo', rfl, rfl⟩

theorem addOrder_counted (hs : book.Counted) {order : OrderSummary} (hadd : book.addOrder cfg order = .ok book') :
    book'.Counted := by
  have hopens := opens_addOrder hadd
  simp only [addOrder, bind_eq_ok, require_eq_ok, pure_eq_ok] at hadd
  obtain ⟨-, hfree, -, -, -, -, rfl⟩ := hadd
  refine hs.opened ?_ hopens (fun info' hinfo' => count_rows hinfo') rfl (index_sellSide book _) (index_buySide book _)
  rintro o ⟨row, hrow, rfl, -⟩
  exact Table.lookup_eq_none.mp hfree row hrow

theorem removeOrder_counted (hs : book.Counted) {id : String}
    (hclosed : ∀ stored ∈ book.orders.lookup id, stored.status ≠ .opened →
      ∀ info ∈ book.relayers.lookup stored.order.relayer, book.openOf info.address = ∅) :
    (book.removeOrder id).Counted := by
  have hopens : (book.removeOrder id).orders.opens = _ := opens_removeOrder
  cases hlookup : book.orders.lookup id with
  | none =>
    rw [removeOrder, hlookup]
    exact hs
  | some stored =>
    obtain ⟨hmem, rfl⟩ := Table.lookup_eq_some.mp hlookup
    by_cases hstatus : stored.status = .opened
    · rw [removeOrder, hlookup] at hopens ⊢
      exact hs.closed ⟨stored, hmem, rfl, hstatus⟩ hopens rfl (if_pos hstatus) rfl rfl
    · rw [OrdersTable.opens_closed hlookup hstatus] at hopens
      have habsent : ∀ o ∈ book.orders.opens, o.id ≠ stored.order.id := by
        rintro o ⟨row, hrow, rfl, hopen⟩ hid
        rw [book.orders.eq_of_key hrow hmem hid] at hopen
        exact hstatus hopen
      rw [removeOrder, hlookup] at hopens ⊢
      refine ⟨fun info' hinfo' => ?_, ?_, ?_, ?_⟩
      · obtain ⟨info, hinfo, haddress, hcount⟩ := uncount_rows hinfo'
        rw [hcount, haddress, openOf, hopens, ← openOf, hs.relayer info hinfo]
        split
        · next hrelayer =>
          have hnone := hclosed stored hlookup hstatus info (Table.lookup_eq_some.mpr ⟨hinfo, hrelayer.symm⟩)
          rw [hnone, Set.ncard_empty]
        · rfl
      · rw [hopens, ← hs.total]
        exact if_neg hstatus
      · rw [hopens]
        exact hs.sellSide.delete_absent habsent
      · rw [hopens]
        exact hs.buySide.delete_absent habsent

theorem updateStatus_counted (hs : book.Counted) {id : String} {status : OrderStatus} (hstatus : status ≠ .opened) :
    (book.updateStatus id status).Counted := by
  have hopens : (book.updateStatus id status).orders.opens = _ := opens_updateStatus hstatus
  cases hlookup : book.orders.lookup id with
  | none =>
    rw [updateStatus, hlookup]
    exact hs
  | some stored =>
    obtain ⟨hmem, rfl⟩ := Table.lookup_eq_some.mp hlookup
    by_cases hopen : stored.status = .opened
    · rw [updateStatus, hlookup] at hopens ⊢
      dsimp only at hopens ⊢
      rw [if_pos ⟨hstatus, hopen⟩] at hopens ⊢
      exact hs.closed ⟨stored, hmem, rfl, hopen⟩ hopens rfl rfl rfl rfl
    · rw [OrdersTable.opens_closed hlookup hopen, updateStatus, hlookup] at hopens
      rw [updateStatus, hlookup]
      dsimp only at hopens ⊢
      rw [if_neg fun hboth => hopen hboth.2] at hopens ⊢
      exact hs.of_same hopens (fun info hinfo => ⟨info, hinfo, rfl, rfl⟩) rfl rfl rfl

theorem purgeExpired_counted (hs : book.Counted) (now : ℕ) : (book.purgeExpired now).1.Counted := by
  unfold purgeExpired
  dsimp only
  generalize (book.orders.rows.filter fun row => decide (row.status = .opened ∧ row.order.expiry ≤ (now : ℚ))).map
    (·.order.id) = ids
  induction ids generalizing book with
  | nil => exact hs
  | cons id ids ih => exact ih (updateStatus_counted hs (by decide))

theorem purgeRelayer_counted (hs : book.Counted) (address : Address) : (book.purgeRelayer address).Counted := by
  unfold purgeRelayer
  generalize book.relayerOrders address = ids
  refine (List.foldlRecOn (motive := Counted) ids _ hs ?_).of_same rfl (fun info hinfo => ⟨info, (Table.mem_delete.mp hinfo).1, rfl, rfl⟩) rfl rfl rfl
  intro book hs id _
  split
  · exact updateStatus_counted hs (by decide)
  · exact hs

theorem purgeStaleRelayers_counted (hs : book.Counted) (staleThresholdSec now : ℕ) :
    (book.purgeStaleRelayers staleThresholdSec now).Counted := by
  unfold purgeStaleRelayers
  generalize book.staleRelayers staleThresholdSec now = addresses
  induction addresses generalizing book with
  | nil => exact hs
  | cons address addresses ih => exact ih (purgeRelayer_counted hs address)

/-- A row of the database can be restored: its id stands for no open order, and the registry has no counter for its relayer. -/
def Restorable (book : Orderbook) (stored : StoredOrder) : Prop :=
  (∀ o ∈ book.orders.opens, o.id ≠ stored.order.id) ∧ book.relayers.lookup stored.order.relayer = none

theorem index_counted (hs : book.Counted) {stored : StoredOrder} (hopen : stored.status = .opened)
    (hrestorable : book.Restorable stored) : (book.index stored).Counted := by
  have hopens : (book.index stored).orders.opens = _ := OrdersTable.opens_put hopen
  rw [Set.sep_eq_self_iff_mem_true.mpr fun o ho => hrestorable.1 o ho] at hopens
  refine hs.opened hrestorable.1 hopens (fun info hinfo => ⟨info, hinfo, rfl, ?_⟩) rfl (index_sellSide book stored)
    (index_buySide book stored)
  rw [if_neg (Table.lookup_eq_none.mp hrestorable.2 info hinfo).symm]
  rfl

theorem loadFromStored_counted (hs : book.Counted) {rows : List StoredOrder}
    (hdistinct : ((rows.filter fun row => row.status = .opened).map fun row => row.order.id).Nodup)
    (hrestorable : ∀ row ∈ rows, row.status = .opened → book.Restorable row) : (book.loadFromStored rows).Counted := by
  unfold loadFromStored
  have hopen : ∀ row ∈ rows.filter (fun row => decide (row.status = .opened)), row.status = .opened ∧ book.Restorable row := by
    intro row hrow
    obtain ⟨hmem, hstatus⟩ := List.mem_filter.mp hrow
    exact ⟨of_decide_eq_true hstatus, hrestorable row hmem (of_decide_eq_true hstatus)⟩
  clear hrestorable
  generalize rows.filter (fun row => decide (row.status = .opened)) = restored at hopen hdistinct
  induction restored generalizing book with
  | nil => exact hs
  | cons stored restored ih =>
    rw [List.map_cons, List.nodup_cons] at hdistinct
    obtain ⟨hstatus, hstored⟩ := hopen stored List.mem_cons_self
    refine ih (index_counted hs hstatus hstored) (fun row hrow => ?_) hdistinct.2
    obtain ⟨hrowStatus, hfresh, hrelayer⟩ := hopen row (List.mem_cons_of_mem _ hrow)
    refine ⟨hrowStatus, ?_, hrelayer⟩
    intro o ho
    have hopens : (book.index stored).orders.opens = _ := OrdersTable.opens_put hstatus
    rw [hopens] at ho
    rcases ho with rfl | ⟨ho, -⟩
    · exact fun hid => hdistinct.1 (hid ▸ List.mem_map_of_mem hrow)
    · exact hfresh o ho

/-! ### Runs -/

/-- The calls of the service on its book. -/
inductive Call where
  | registerRelayer (address : Address) (url : String) (name : Option String) (now : ℕ)
  | heartbeat (address : Address) (now : ℕ)
  | addOrder (order : OrderSummary)
  | removeOrder (id : String)
  | cancelled (id : String)
  | matched (id : String)
  | purgeExpired (now : ℕ)
  | purgeStaleRelayers (staleThresholdSec now : ℕ)
  | loadFromStored (rows : List StoredOrder)

def Call.run (cfg : Config) : Call → Orderbook → Except String Orderbook
  | .registerRelayer address url name now, book => book.registerRelayer cfg address url name now
  | .heartbeat address now, book => .ok (book.heartbeat address now).1
  | .addOrder order, book => book.addOrder cfg order
  | .removeOrder id, book => .ok (book.removeOrder id)
  | .cancelled id, book => .ok (book.updateStatus id .cancelled)
  | .matched id, book => .ok (book.updateStatus id .matched)
  | .purgeExpired now, book => .ok (book.purgeExpired now).1
  | .purgeStaleRelayers staleThresholdSec now, book => .ok (book.purgeStaleRelayers staleThresholdSec now)
  | .loadFromStored rows, book => .ok (book.loadFromStored rows)

/-- A relayer enters the registry without open orders, no closed order of a relayer with open orders is removed, and restored rows are new open orders of relayers that are not in the registry. -/
def Call.Tracked (book : Orderbook) : Call → Prop
  | .registerRelayer address _ _ _ => book.relayers.lookup address = none → book.openOf address = ∅
  | .removeOrder id => ∀ stored ∈ book.orders.lookup id, stored.status ≠ .opened →
      ∀ info ∈ book.relayers.lookup stored.order.relayer, book.openOf info.address = ∅
  | .loadFromStored rows => ((rows.filter fun row => row.status = .opened).map fun row => row.order.id).Nodup ∧
      ∀ row ∈ rows, row.status = .opened → book.Restorable row
  | _ => True

theorem empty_counted : empty.Counted := by
  have hnone : empty.orders.opens = ∅ := by
    apply Set.eq_empty_iff_forall_notMem.mpr
    rintro o ⟨row, hrow, -⟩
    exact absurd hrow List.not_mem_nil
  refine ⟨fun info hinfo => absurd hinfo List.not_mem_nil, ?_, ?_, ?_⟩
  · rw [hnone, Set.ncard_empty]
    rfl
  · rw [hnone]
    exact .empty
  · rw [hnone]
    exact .empty

theorem Call.run_counted (hs : book.Counted) {call : Call} (htracked : call.Tracked book)
    (hrun : call.run cfg book = .ok book') : book'.Counted := by
  cases call with
  | registerRelayer address url name now => exact registerRelayer_counted hs htracked hrun
  | addOrder order => exact addOrder_counted hs hrun
  | heartbeat address now =>
    cases hrun
    exact heartbeat_counted hs address now
  | removeOrder id =>
    cases hrun
    exact removeOrder_counted hs htracked
  | cancelled id =>
    cases hrun
    exact updateStatus_counted hs (by decide)
  | matched id =>
    cases hrun
    exact updateStatus_counted hs (by decide)
  | purgeExpired now =>
    cases hrun
    exact purgeExpired_counted hs now
  | purgeStaleRelayers staleThresholdSec now =>
    cases hrun
    exact purgeStaleRelayers_counted hs staleThresholdSec now
  | loadFromStored rows =>
    cases hrun
    exact loadFromStored_counted hs htracked.1 htracked.2

/-- **Counters and indexes describe the open orders** after every run of calls on an empty book in which relayers enter the registry without open orders, closed orders are removed when their relayer has no open ones, and what is restored is new. -/
theorem book_counted {calls : List Call} (htracked : Along (Call.run cfg) Call.Tracked empty calls) :
    (after (Call.run cfg) empty calls).Counted :=
  invariant_along (fun _ _ _ hs htracked hrun => Call.run_counted hs htracked hrun) empty_counted htracked

theorem openOf_eq_empty {relayer : Address}
    (hnone : ∀ row ∈ book.orders.rows, row.status = .opened → row.order.relayer ≠ relayer) : book.openOf relayer = ∅ := by
  apply Set.eq_empty_iff_forall_notMem.mpr
  rintro o ⟨⟨row, hrow, rfl, hopen⟩, hrelayer⟩
  exact hnone row hrow hopen hrelayer

/-- A relayer whose counter is zero has no open order. -/
theorem Counted.none_open (hs : book.Counted) {info : RelayerInfo} (hinfo : info ∈ book.relayers.rows)
    (hzero : info.orderCount = 0) {row : StoredOrder} (hrow : row ∈ book.orders.rows) (hopen : row.status = .opened) :
    row.order.relayer ≠ info.address := by
  intro hrelayer
  have hfinite : (book.openOf info.address).Finite := OrdersTable.opens_finite.subset (Set.sep_subset _ _)
  have hnone := (Set.ncard_eq_zero hfinite).mp ((hs.relayer info hinfo).symm.trans hzero)
  have hmem : row.order ∈ book.openOf info.address := ⟨⟨row, hrow, rfl, hopen⟩, hrelayer⟩
  rw [hnone] at hmem
  exact hmem

def summary (id : String) (relayer : Address) : OrderSummary where
  id
  chainId := DEFAULT_CHAIN_ID
  relayer
  relayerUrl := "https://relayer"
  sellToken := 1
  buyToken := 2
  sellAmount := 100
  buyAmount := 200
  minFillAmount := 0
  maxFee := 30
  expiry := 100000
  createdAt := 1000

def registered : Call := .registerRelayer 5 "https://relayer" none 1000

/-- A restored order of another relayer, and an order that is matched and removed. -/
def settledCalls : List Call :=
  [.loadFromStored [⟨summary "c" 6, .opened, none⟩], registered, .addOrder (summary "a" 5), .matched "a", .removeOrder "a"]

theorem book_counted_settled : (after (Call.run smallConfig) empty settledCalls).Counted := by
  have htracked : Along (Call.run smallConfig) Call.Tracked empty settledCalls := by
    refine ⟨⟨by decide, fun row hrow _ => ⟨?_, rfl⟩⟩, fun _ => openOf_eq_empty (by decide +kernel), trivial, trivial,
      fun stored hstored _ info hinfo => openOf_eq_empty ?_, trivial⟩
    · rintro o ⟨row', hrow', -⟩
      exact absurd hrow' List.not_mem_nil
    · revert info stored
      decide +kernel
  exact book_counted htracked

/-- Two orders, of which the first is matched and then removed; and an order that is restored before its relayer registers. -/
def removedCalls : List Call :=
  [registered, .addOrder (summary "a" 5), .addOrder (summary "b" 5), .matched "a", .removeOrder "a"]

def restoredCalls : List Call := [.loadFromStored [⟨summary "b" 5, .opened, none⟩], registered]

theorem book_miscounted :
    ¬(after (Call.run smallConfig) empty removedCalls).Counted ∧
      ¬(after (Call.run smallConfig) empty restoredCalls).Counted := by
  constructor
  · intro hs
    obtain ⟨info, hinfo, hzero, row, hrow, hopen, hrelayer⟩ :
        ∃ info ∈ (after (Call.run smallConfig) empty removedCalls).relayers.rows, info.orderCount = 0 ∧
          ∃ row ∈ (after (Call.run smallConfig) empty removedCalls).orders.rows, row.status = .opened ∧
            row.order.relayer = info.address := by decide +kernel
    exact hs.none_open hinfo hzero hrow hopen hrelayer
  · intro hs
    obtain ⟨info, hinfo, hzero, row, hrow, hopen, hrelayer⟩ :
        ∃ info ∈ (after (Call.run smallConfig) empty restoredCalls).relayers.rows, info.orderCount = 0 ∧
          ∃ row ∈ (after (Call.run smallConfig) empty restoredCalls).orders.rows, row.status = .opened ∧
            row.order.relayer = info.address := by decide +kernel
    exact hs.none_open hinfo hzero hrow hopen hrelayer

end Orderbook

end SharedOrderbook

end ScatterDex
