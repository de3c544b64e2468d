import ScatterDex.Relayer.RemoteOrderbook

/-!
# The store of remote orders

The map, the sets of the relayers and the lists of the pairs hold the same orders, and each list is in the order of its prices, as long as the tokens of an order are strings and its amounts have a price. Every removal keeps the orders whose ids pass a test, in all four places at once.
-/

namespace ScatterDex

open Sdk Transactions

namespace Relayer

/-- Amounts whose prices are comparable: the buy amount is positive, or both are there to be divided by zero. -/
def Upright (sellValue buyValue : ℤ) : Prop := 0 < buyValue ∨ buyValue = 0 ∧ 0 ≤ sellValue

namespace RemoteOrder

def Upright (order : RemoteOrder) : Prop := Relayer.Upright order.sellValue order.buyValue

/-- The side and the pair of an order; the sell side is `true`. -/
def On (order : RemoteOrder) (side : Bool) (pair : JsString) : Prop :=
  ∃ sellToken buyToken, order.sellToken = some sellToken ∧ order.buyToken = some buyToken ∧
    pairKeyFromStrings sellToken buyToken = pair ∧ decide (lower sellToken < lower buyToken) = side

/-- By the cross-multiplied prices, an order may stand before another on a side. -/
def Precedes : Bool → RemoteOrder → RemoteOrder → Prop
  | true, a, b => a.sellValue * b.buyValue ≤ b.sellValue * a.buyValue
  | false, a, b => b.sellValue * a.buyValue ≤ a.sellValue * b.buyValue

end RemoteOrder

/-- `add` gets as far as the insertion: the id is new, the order is not expired, its amounts parse, and there is room, if need be without the expired orders. -/
structure RemoteOrderStore.Inserts (s : RemoteOrderStore) (order : SentOrder) (now later : ℤ) : Prop where
  unknown : ∃ id, order.id = some id ∧ s.get id = none
  live : ∃ expiry, order.expiry = some expiry ∧ expiry.le now = false
  sellParses : order.sellAmount.bigInt.isSome
  buyParses : order.buyAmount.bigInt.isSome
  room : (s.byId.filter fun entry => ¬entry.2.expired later).length < s.maxSize

namespace RemoteCall

/-- An order that is inserted has strings for tokens, and comparable amounts. -/
def Sound (s : RemoteOrderStore) : RemoteCall → Prop
  | .add order now later => s.Inserts order now later →
    order.sellToken.isSome ∧ order.buyToken.isSome ∧ Upright order.sellAmount.value order.buyAmount.value
  | _ => True

/-- What takes an order away. -/
def Loses (s : RemoteOrderStore) (order : RemoteOrder) : RemoteCall → Prop
  | .add _ _ later => s.maxSize ≤ s.byId.length ∧ order.expired later = true
  | .remove orderId => lower orderId = lower order.id
  | .removeByRelayer relayerAddr => lower relayerAddr = lower order.relayer
  | .purgeExpired now => order.expired now = true
  | .clear => True

end RemoteCall

namespace RemoteOrderStore

def listed (s : RemoteOrderStore) (side : Bool) (pair : JsString) : List RemoteOrder := if side then s.sells pair else s.buys pair

/-- The four structures hold the same orders, each once and in its place. -/
structure Consistent (s : RemoteOrderStore) : Prop where
  keyed : ∀ id o, (id, o) ∈ s.byId → o.id = id ∧ lower id = id
  distinct : (s.byId.map Prod.fst).Nodup
  relayers_nodup : ∀ relayer, (s.byRelayer relayer).Nodup
  relayers : ∀ relayer id, id ∈ s.byRelayer relayer ↔ ∃ o, (id, o) ∈ s.byId ∧ lower o.relayer = relayer
  listed_nodup : ∀ side pair, (s.listed side pair).Nodup
  listed : ∀ side pair o, o ∈ s.listed side pair ↔ (o.id, o) ∈ s.byId ∧ o.On side pair
  placed : ∀ id o, (id, o) ∈ s.byId → ∃ side pair, o.On side pair
  size_le : s.byId.length ≤ s.maxSize

/-- The lists are in the order of the prices, and the prices comparable. -/
structure Sorted (s : RemoteOrderStore) : Prop where
  upright : ∀ side pair, ∀ o ∈ s.listed side pair, o.Upright
  sorted : ∀ side pair, (s.listed side pair).Pairwise (RemoteOrder.Precedes side)

variable {s : RemoteOrderStore}

theorem lower_lower (id : JsString) : lower (lower id) = lower id := LowerCase.CaseData.toLowerCase_toLowerCase id

/-! ### Removals -/

/-- The orders whose ids pass a test. -/
def keep (s : RemoteOrderStore) (p : JsString → Bool) : RemoteOrderStore where
  maxSize := s.maxSize
  byId := s.byId.filter fun entry => p entry.1
  byRelayer relayer := (s.byRelayer relayer).filter p
  sells pair := (s.sells pair).filter fun o => p o.id
  buys pair := (s.buys pair).filter fun o => p o.id

theorem listed_keep (p : JsString → Bool) (side : Bool) (pair : JsString) :
    (s.keep p).listed side pair = (s.listed side pair).filter fun o => p o.id := by
  cases side <;> rfl

theorem keep_keep (p q : JsString → Bool) : (s.keep p).keep q = s.keep fun id => q id && p id := by
  rw [keep, keep, keep]
  congr 1
  · rw [List.filter_filter]
  · funext relayer
    rw [List.filter_filter]
  · funext pair
    rw [List.filter_filter]
  · funext pair
    rw [List.filter_filter]

theorem Consistent.eq_of_id (hs : s.Consistent) {id : JsString} {o o' : RemoteOrder} (ho : (id, o) ∈ s.byId) (ho' : (id, o') ∈ s.byId) :
    o = o' := (Prod.mk.inj (List.inj_on_of_nodup_map hs.distinct ho ho' rfl)).2

theorem Consistent.keep (hs : s.Consistent) (p : JsString → Bool) : (s.keep p).Consistent where
  keyed id o hmem := hs.keyed id o (List.mem_of_mem_filter hmem)
  distinct := hs.distinct.sublist (List.filter_sublist.map _)
  relayers_nodup relayer := (hs.relayers_nodup relayer).filter _
  relayers relayer id := by
    show id ∈ (s.byRelayer relayer).filter p ↔ ∃ o, (id, o) ∈ s.byId.filter _ ∧ _
    rw [List.mem_filter, hs.relayers relayer id]
    constructor
    · rintro ⟨⟨o, ho, hrelayer⟩, hp⟩
      exact ⟨o, List.mem_filter.mpr ⟨ho, hp⟩, hrelayer⟩
    · rintro ⟨o, ho, hrelayer⟩
      obtain ⟨ho, hp⟩ := List.mem_filter.mp ho
      exact ⟨⟨o, ho, hrelayer⟩, hp⟩
  listed_nodup side pair := by
    rw [listed_keep]
    exact (hs.listed_nodup side pair).filter _
  listed side pair o := by
    rw [listed_keep, List.mem_filter, hs.listed side pair o]
    show _ ↔ (o.id, o) ∈ s.byId.filter _ ∧ _
    rw [List.mem_filter]
    exact and_right_comm
  placed id o hmem := hs.placed id o (List.mem_of_mem_filter hmem)
  size_le := (List.length_filter_le _ _).trans hs.size_le

theorem Sorted.keep (hs : s.Sorted) (p : JsString → Bool) : (s.keep p).Sorted where
  upright side pair o ho := by
    rw [listed_keep] at ho
    exact hs.upright side pair o (List.mem_of_mem_filter ho)
  sorted side pair := by
    rw [listed_keep]
    exact (hs.sorted side pair).filter _

theorem Consistent.keep_eq (hs : s.Consistent) {p : JsString → Bool} (hp : ∀ id o, (id, o) ∈ s.byId → p id = true) : s.keep p = s := by
  rw [RemoteOrderStore.keep]
  congr 1
  · exact List.filter_eq_self.mpr fun entry hentry => hp entry.1 entry.2 hentry
  · funext relayer
    refine List.filter_eq_self.mpr fun id hid => ?_
    obtain ⟨o, ho, -⟩ := (hs.relayers relayer id).mp hid
    exact hp id o ho
  · funext pair
    exact List.filter_eq_self.mpr fun o ho => hp o.id o ((hs.listed true pair o).mp ho).1
  · funext pair
    exact List.filter_eq_self.mpr fun o ho => hp o.id o ((hs.listed false pair o).mp ho).1

theorem get_eq_some (hs : s.Consistent) {orderId : JsString} {order : RemoteOrder} :
    s.get orderId = some order ↔ (lower orderId, order) ∈ s.byId := by
  rw [get, Option.map_eq_some_iff]
  constructor
  · rintro ⟨entry, hfind, rfl⟩
    have hid := of_decide_eq_true (List.find?_some (p := fun entry : JsString × RemoteOrder => decide (entry.1 = lower orderId)) hfind)
    rw [← hid]
    exact List.mem_of_find?_eq_some hfind
  · intro hmem
    cases hfind : s.byId.find? fun entry => entry.1 = lower orderId with
    | none =>
      have hnot := List.find?_eq_none.mp hfind _ hmem
      exact absurd (decide_eq_true rfl) hnot
    | some entry =>
      have hid := of_decide_eq_true (List.find?_some (p := fun entry : JsString × RemoteOrder => decide (entry.1 = lower orderId)) hfind)
      have hentry := List.mem_of_find?_eq_some hfind
      obtain ⟨id, o⟩ := entry
      obtain rfl : id = lower orderId := hid
      exact ⟨_, rfl, hs.eq_of_id hentry hmem⟩

theorem update_filter {α κ : Type} [DecidableEq κ] {f : κ → List α} {p : α → Bool} {k : κ} (hother : ∀ k', k' ≠ k → ∀ a ∈ f k', p a = true) :
    Function.update f k ((f k).filter p) = fun k' => (f k').filter p := by
  funext k'
  by_cases hk : k' = k
  · rw [hk, Function.update_self]
  · rw [Function.update_of_ne hk]
    exact (List.filter_eq_self.mpr (hother k' hk)).symm

theorem remove_eq (hs : s.Consistent) (orderId : JsString) : s.remove orderId = ⟨s.keep fun id => id ≠ lower orderId, false⟩ := by
  rw [remove]
  cases hget : s.get orderId with
  | none =>
    rw [hs.keep_eq]
    intro id o ho
    refine decide_eq_true fun heq => ?_
    have hnone := (get_eq_some hs).mpr (heq ▸ ho : (lower orderId, o) ∈ s.byId)
    rw [hget] at hnone
    cases hnone
  | some order =>
    have hmem := (get_eq_some hs).mp hget
    have hrelayers : Function.update s.byRelayer (lower order.relayer) ((s.byRelayer (lower order.relayer)).filter (· ≠ lower orderId)) =
        fun relayer => (s.byRelayer relayer).filter (· ≠ lower orderId) := by
      apply update_filter
      intro relayer hne id hid
      obtain ⟨o, ho, hrelayer⟩ := (hs.relayers relayer id).mp hid
      refine decide_eq_true fun heq : id = lower orderId => hne ?_
      have ho' : (lower orderId, o) ∈ s.byId := heq ▸ ho
      rw [← hrelayer, hs.eq_of_id ho' hmem]
    -- an order of that id is in the list of its side and pair only
    have hlisted : ∀ side pair o, o ∈ s.listed side pair → o.id = lower orderId → order.On side pair := by
      intro side pair o ho hid
      obtain ⟨ho, hon⟩ := (hs.listed side pair o).mp ho
      rw [hs.eq_of_id hmem (hid ▸ ho)]
      exact hon
    obtain ⟨side, pair, sellToken, buyToken, hsell, hbuy, hpair, hside⟩ := hs.placed _ _ hmem
    have hunlisted : ∀ side' pair', (side' ≠ side ∨ pair' ≠ pair) → ∀ o ∈ s.listed side' pair', decide (o.id ≠ lower orderId) = true := by
      intro side' pair' hne o ho
      refine decide_eq_true fun hid => ?_
      obtain ⟨sellToken', buyToken', hsell', hbuy', hpair', hside'⟩ := hlisted side' pair' o ho hid
      obtain rfl := Option.some.inj (hsell.symm.trans hsell')
      obtain rfl := Option.some.inj (hbuy.symm.trans hbuy')
      exact hne.elim (fun h => h (hside'.symm.trans hside)) fun h => h (hpair'.symm.trans hpair)
    dsimp only
    rw [hsell, hbuy]
    dsimp only
    rw [hpair]
    cases side with
    | true =>
      rw [if_pos (of_decide_eq_true hside)]
      congr 1
      rw [keep, dropIndexes]
      congr 1
      · exact update_filter fun pair' hne => hunlisted true pair' (Or.inr hne)
      · funext pair'
        exact (List.filter_eq_self.mpr (hunlisted false pair' (Or.inl Bool.false_ne_true))).symm
    | false =>
      rw [if_neg (of_decide_eq_false hside)]
      congr 1
      rw [keep, dropIndexes]
      congr 1
      · funext pair'
        exact (List.filter_eq_self.mpr (hunlisted true pair' (Or.inl Bool.false_ne_true.symm))).symm
      · exact update_filter fun pair' hne => hunlisted false pair' (Or.inr hne)

theorem removeAll_eq (hs : s.Consistent) {ids : List JsString} (hids : ∀ id ∈ ids, lower id = id) :
    s.removeAll ids = ⟨s.keep fun id => id ∉ ids, false⟩ := by
  induction ids generalizing s with
  | nil =>
    rw [removeAll, hs.keep_eq fun id _ _ => decide_eq_true List.not_mem_nil]
  | cons id ids ih =>
    rw [removeAll, remove_eq hs, if_neg Bool.false_ne_true, hids id List.mem_cons_self]
    rw [ih (hs.keep _) fun id' hid' => hids id' (List.mem_cons_of_mem _ hid'), keep_keep]
    congr 2
    funext id'
    rw [← Bool.decide_and, decide_eq_decide, List.mem_cons, not_or]
    exact and_comm

def expiredIds (s : RemoteOrderStore) (now : ℤ) : List JsString := (s.byId.filter fun entry => entry.2.expired now).map Prod.fst

theorem purgeExpired_eq (hs : s.Consistent) (now : ℤ) : s.purgeExpired now = ⟨s.keep fun id => id ∉ s.expiredIds now, false⟩ := by
  apply removeAll_eq hs
  intro id hid
  obtain ⟨entry, hentry, rfl⟩ := List.mem_map.mp hid
  exact (hs.keyed _ _ (List.mem_of_mem_filter hentry)).2

theorem removeByRelayer_eq (hs : s.Consistent) (relayerAddr : JsString) :
    s.removeByRelayer relayerAddr = ⟨s.keep fun id => id ∉ s.byRelayer (lower relayerAddr), false⟩ := by
  have hids : ∀ id ∈ s.byRelayer (lower relayerAddr), lower id = id := by
    intro id hid
    obtain ⟨o, ho, -⟩ := (hs.relayers _ id).mp hid
    exact (hs.keyed id o ho).2
  rw [removeByRelayer, removeAll_eq hs hids, if_neg Bool.false_ne_true]
  congr 1
  -- the set of the relayer is empty by then
  have hempty : (s.keep fun id => id ∉ s.byRelayer (lower relayerAddr)).byRelayer (lower relayerAddr) = [] :=
    List.filter_eq_nil_iff.mpr fun id hid hnot => of_decide_eq_true hnot hid
  rw [← hempty, Function.update_eq_self]

/-! ### Insertion -/

/-- Insertion before the first element that must come later keeps an order, as far as the new element compares transitively. -/
theorem pairwise_orderedInsert {α : Type} {r le : α → α → Prop} [DecidableRel r] {a : α} {list : List α} (hlist : list.Pairwise le)
    (hafter : ∀ e ∈ list, ¬r a e → le e a) (hbefore : ∀ e ∈ list, r a e → le a e)
    (htrans : ∀ e ∈ list, ∀ f ∈ list, r a e → le e f → le a f) : (list.orderedInsert r a).Pairwise le := by
  induction list with
  | nil => exact List.pairwise_singleton le a
  | cons first rest ih =>
    obtain ⟨hfirst, hrest⟩ := List.pairwise_cons.mp hlist
    rw [List.orderedInsert_cons]
    split
    · next hr =>
      refine List.pairwise_cons.mpr ⟨fun e he => ?_, hlist⟩
      rcases List.mem_cons.mp he with rfl | he
      · exact hbefore e List.mem_cons_self hr
      · exact htrans first List.mem_cons_self e (List.mem_cons_of_mem _ he) hr (hfirst e he)
    · next hr =>
      refine List.pairwise_cons.mpr ⟨fun e he => ?_, ?_⟩
      · rcases (List.mem_orderedInsert r).mp he with rfl | he
        · exact hafter first List.mem_cons_self hr
        · exact hfirst e he
      · exact ih hrest (fun e he => hafter e (List.mem_cons_of_mem _ he)) (fun e he => hbefore e (List.mem_cons_of_mem _ he))
          fun e he f hf => htrans e (List.mem_cons_of_mem _ he) f (List.mem_cons_of_mem _ hf)

theorem buyValue_nonneg {o : RemoteOrder} (ho : o.Upright) : 0 ≤ o.buyValue := ho.elim le_of_lt fun h => h.1.ge

theorem cheaper_trans {a e f : RemoteOrder} (ha : a.Upright) (he : e.Upright) (hf : f.Upright) (hcheaper : a.Cheaper e)
    (hprecedes : e.Precedes true f) : a.Precedes true f := by
  have ha0 := buyValue_nonneg ha
  have hf0 := buyValue_nonneg hf
  show a.sellValue * f.buyValue ≤ f.sellValue * a.buyValue
  have hlt : a.sellValue * e.buyValue < e.sellValue * a.buyValue := hcheaper
  have hle : e.sellValue * f.buyValue ≤ f.sellValue * e.buyValue := hprecedes
  rcases he with hpos | ⟨hzero, hsell⟩
  · refine le_of_mul_le_mul_left ?_ hpos
    calc e.buyValue * (a.sellValue * f.buyValue) = a.sellValue * e.buyValue * f.buyValue := by ring
      _ ≤ e.sellValue * a.buyValue * f.buyValue := mul_le_mul_of_nonneg_right hlt.le hf0
      _ = e.sellValue * f.buyValue * a.buyValue := by ring
      _ ≤ f.sellValue * e.buyValue * a.buyValue := mul_le_mul_of_nonneg_right hle ha0
      _ = e.buyValue * (f.sellValue * a.buyValue) := by ring
  · rw [hzero, mul_zero] at hlt hle
    have hesell : 0 < e.sellValue := lt_of_le_of_ne hsell fun h => by rw [← h, zero_mul] at hlt; exact lt_irrefl 0 hlt
    have hfzero : f.buyValue = 0 := le_antisymm (nonpos_of_mul_nonpos_right hle hesell) hf0
    have hfsell : 0 ≤ f.sellValue := hf.elim (fun h => absurd hfzero h.ne') fun h => h.2
    rw [hfzero, mul_zero]
    exact mul_nonneg hfsell ha0

theorem dearer_trans {a e f : RemoteOrder} (ha : a.Upright) (he : e.Upright) (hf : f.Upright) (hdearer : a.Dearer e)
    (hprecedes : e.Precedes false f) : a.Precedes false f := by
  have ha0 := buyValue_nonneg ha
  have hf0 := buyValue_nonneg hf
  show f.sellValue * a.buyValue ≤ a.sellValue * f.buyValue
  have hlt : e.sellValue * a.buyValue < a.sellValue * e.buyValue := hdearer
  have hle : f.sellValue * e.buyValue ≤ e.sellValue * f.buyValue := hprecedes
  rcases he with hpos | ⟨hzero, hsell⟩
  · refine le_of_mul_le_mul_left ?_ hpos
    calc e.buyValue * (f.sellValue * a.buyValue) = f.sellValue * e.buyValue * a.buyValue := by ring
      _ ≤ e.sellValue * f.buyValue * a.buyValue := mul_le_mul_of_nonneg_right hle ha0
      _ = e.sellValue * a.buyValue * f.buyValue := by ring
      _ ≤ a.sellValue * e.buyValue * f.buyValue := mul_le_mul_of_nonneg_right hlt.le hf0
      _ = e.buyValue * (a.sellValue * f.buyValue) := by ring
  · rw [hzero, mul_zero] at hlt
    exact absurd hlt (not_lt.mpr (mul_nonneg hsell ha0))

/-- The list of an order's place with the order. -/
def insertListed (order : RemoteOrder) (side : Bool) (list : List RemoteOrder) : List RemoteOrder :=
  if side then list.orderedInsert RemoteOrder.Cheaper order else list.orderedInsert RemoteOrder.Dearer order

theorem perm_insertListed (order : RemoteOrder) (side : Bool) (list : List RemoteOrder) : (insertListed order side list).Perm (order :: list) := by
  cases side with
  | true => exact List.perm_orderedInsert _ order list
  | false => exact List.perm_orderedInsert _ order list

theorem sorted_insertListed {order : RemoteOrder} {side : Bool} {list : List RemoteOrder} (horder : order.Upright)
    (hupright : ∀ o ∈ list, o.Upright) (hlist : list.Pairwise (RemoteOrder.Precedes side)) :
    (insertListed order side list).Pairwise (RemoteOrder.Precedes side) := by
  cases side with
  | true =>
    apply pairwise_orderedInsert hlist
    · exact fun e _ hnot => not_lt.mp hnot
    · exact fun e _ hlt => le_of_lt hlt
    · exact fun e he f hf => cheaper_trans horder (hupright e he) (hupright f hf)
  | false =>
    apply pairwise_orderedInsert hlist
    · exact fun e _ hnot => not_lt.mp hnot
    · exact fun e _ hlt => le_of_lt hlt
    · exact fun e he f hf => dearer_trans horder (hupright e he) (hupright f hf)

theorem any_eq_iff {ids : List JsString} {id : JsString} : (ids.any fun other => decide (other = id)) = true ↔ id ∈ ids := by
  rw [List.any_eq_true]
  constructor
  · rintro ⟨other, hother, heq⟩
    exact of_decide_eq_true heq ▸ hother
  · exact fun hid => ⟨id, hid, decide_eq_true rfl⟩

theorem mem_addToSet {ids : List JsString} {id other : JsString} : other ∈ addToSet ids id ↔ other ∈ ids ∨ other = id := by
  rw [addToSet]
  split
  · next hmem =>
    constructor
    · exact Or.inl
    · rintro (hother | rfl)
      · exact hother
      · exact any_eq_iff.mp hmem
  · rw [List.mem_append, List.mem_singleton]

theorem nodup_addToSet {ids : List JsString} {id : JsString} (hids : ids.Nodup) : (addToSet ids id).Nodup := by
  rw [addToSet]
  split
  · exact hids
  · next hnot => exact List.nodup_append_comm.mp (List.nodup_cons.mpr ⟨fun hid => hnot (any_eq_iff.mpr hid), hids⟩)

/-- The lists of a side with an order in the list of its pair. -/
def enterListed (order : RemoteOrder) (side : Bool) (lists : JsString → List RemoteOrder) (pair : JsString) : JsString → List RemoteOrder :=
  Function.update lists pair (insertListed order side (lists pair))

theorem insert_eq {order : RemoteOrder} {sellToken buyToken pair : JsString} (hsell : order.sellToken = some sellToken)
    (hbuy : order.buyToken = some buyToken) (hpair : pairKeyFromStrings sellToken buyToken = pair) : s.insert order =
      if lower sellToken < lower buyToken then ⟨{ s.enterIndexes order with sells := enterListed order true s.sells pair }, false⟩
      else ⟨{ s.enterIndexes order with buys := enterListed order false s.buys pair }, false⟩ := by
  rw [insert, hsell, hbuy]
  dsimp only
  rw [hpair]
  rfl

theorem insert_spec {order : RemoteOrder} {side : Bool} {pair : JsString} (hon : order.On side pair) :
    (s.insert order).threw = false ∧ (s.insert order).store.maxSize = s.maxSize ∧
      (s.insert order).store.byId = s.byId ++ [(order.id, order)] ∧
      (s.insert order).store.byRelayer = Function.update s.byRelayer (lower order.relayer) (addToSet (s.byRelayer (lower order.relayer)) order.id) ∧
      (s.insert order).store.listed side = enterListed order side (s.listed side) pair ∧
      (s.insert order).store.listed (!side) = s.listed (!side) := by
  obtain ⟨sellToken, buyToken, hsell, hbuy, hpair, hside⟩ := hon
  rw [insert_eq hsell hbuy hpair]
  cases side with
  | true =>
    rw [if_pos (of_decide_eq_true hside)]
    exact ⟨rfl, rfl, rfl, rfl, rfl, rfl⟩
  | false =>
    rw [if_neg (of_decide_eq_false hside)]
    exact ⟨rfl, rfl, rfl, rfl, rfl, rfl⟩

theorem insert_listed {order : RemoteOrder} {side : Bool} {pair : JsString} (hon : order.On side pair) (side' : Bool) (pair' : JsString) :
    (s.insert order).store.listed side' pair' =
      if side' = side ∧ pair' = pair then insertListed order side (s.listed side pair) else s.listed side' pair' := by
  obtain ⟨-, -, -, -, hthis, hother⟩ := s.insert_spec hon
  by_cases hside : side' = side
  · rw [hside, hthis, enterListed]
    by_cases hpair : pair' = pair
    · rw [hpair, Function.update_self, if_pos ⟨rfl, rfl⟩]
    · rw [Function.update_of_ne hpair, if_neg fun h => hpair h.2]
  · obtain rfl : side' = !side := by
      cases side <;> cases side' <;> first | rfl | exact absurd rfl hside
    rw [hother, if_neg fun h => hside h.1]

theorem on_unique {order : RemoteOrder} {side side' : Bool} {pair pair' : JsString} (hon : order.On side pair) (hon' : order.On side' pair') :
    side' = side ∧ pair' = pair := by
  obtain ⟨sellToken, buyToken, hsell, hbuy, rfl, rfl⟩ := hon
  obtain ⟨sellToken', buyToken', hsell', hbuy', rfl, rfl⟩ := hon'
  obtain rfl := Option.some.inj (hsell.symm.trans hsell')
  obtain rfl := Option.some.inj (hbuy.symm.trans hbuy')
  exact ⟨rfl, rfl⟩

theorem mem_byRelayer_insert {order : RemoteOrder} {side : Bool} {pair : JsString} (hon : order.On side pair) {relayer id : JsString} :
    id ∈ (s.insert order).store.byRelayer relayer ↔ id ∈ s.byRelayer relayer ∨ id = order.id ∧ relayer = lower order.relayer := by
  obtain ⟨-, -, -, hrelayer, -⟩ := s.insert_spec hon
  rw [hrelayer]
  by_cases hsame : relayer = lower order.relayer
  · rw [hsame, Function.update_self, mem_addToSet]
    exact or_congr_right (and_iff_left rfl).symm
  · rw [Function.update_of_ne hsame]
    exact (or_iff_left fun h => hsame h.2).symm

theorem mem_listed_insert {order o : RemoteOrder} {side side' : Bool} {pair pair' : JsString} (hon : order.On side pair) :
    o ∈ (s.insert order).store.listed side' pair' ↔ o ∈ s.listed side' pair' ∨ o = order ∧ side' = side ∧ pair' = pair := by
  rw [insert_listed hon]
  split
  · next hhere =>
    obtain ⟨rfl, rfl⟩ := hhere
    rw [(perm_insertListed order side' _).mem_iff, List.mem_cons, or_comm]
    exact or_congr_right (and_iff_left ⟨rfl, rfl⟩).symm
  · next hhere => exact (or_iff_left fun h => hhere h.2).symm

theorem Consistent.insert (hs : s.Consistent) {order : RemoteOrder} {side : Bool} {pair : JsString} (hon : order.On side pair)
    (hlower : lower order.id = order.id) (hnew : ∀ o, (order.id, o) ∉ s.byId) (hroom : s.byId.length < s.maxSize) :
    (s.insert order).store.Consistent := by
  obtain ⟨-, hmax, hbyId, hrelayer, -⟩ := s.insert_spec hon
  have hmem : ∀ id o, (id, o) ∈ (s.insert order).store.byId ↔ (id, o) ∈ s.byId ∨ id = order.id ∧ o = order := by
    intro id o
    rw [hbyId, List.mem_append, List.mem_singleton, Prod.mk.injEq]
  have hunlisted : order ∉ s.listed side pair := fun hin => hnew order ((hs.listed side pair order).mp hin).1
  refine ⟨?_, ?_, ?_, ?_, ?_, ?_, ?_, ?_⟩
  · intro id o ho
    rcases (hmem id o).mp ho with ho | ⟨rfl, rfl⟩
    · exact hs.keyed id o ho
    · exact ⟨rfl, hlower⟩
  · rw [hbyId, List.map_append]
    refine List.nodup_append_comm.mp (List.nodup_cons.mpr ⟨fun hin => ?_, hs.distinct⟩)
    obtain ⟨entry, hentry, hid⟩ := List.mem_map.mp hin
    obtain ⟨id, o⟩ := entry
    obtain rfl : id = order.id := hid
    exact hnew o hentry
  · intro relayer
    rw [hrelayer]
    by_cases hsame : relayer = lower order.relayer
    · rw [hsame, Function.update_self]
      exact nodup_addToSet (hs.relayers_nodup _)
    · rw [Function.update_of_ne hsame]
      exact hs.relayers_nodup relayer
  · intro relayer id
    rw [mem_byRelayer_insert hon, hs.relayers relayer id]
    constructor
    · rintro (⟨o, ho, hrelayer⟩ | ⟨rfl, rfl⟩)
      · exact ⟨o, (hmem id o).mpr (Or.inl ho), hrelayer⟩
      · exact ⟨order, (hmem _ _).mpr (Or.inr ⟨rfl, rfl⟩), rfl⟩
    · rintro ⟨o, ho, rfl⟩
      rcases (hmem id o).mp ho with ho | ⟨rfl, rfl⟩
      · exact Or.inl ⟨o, ho, rfl⟩
      · exact Or.inr ⟨rfl, rfl⟩
  · intro side' pair'
    rw [insert_listed hon]
    split
    · exact (perm_insertListed order side _).nodup_iff.mpr (List.nodup_cons.mpr ⟨hunlisted, hs.listed_nodup side pair⟩)
    · exact hs.listed_nodup side' pair'
  · intro side' pair' o
    rw [mem_listed_insert hon, hs.listed side' pair' o, hmem]
    constructor
    · rintro (⟨ho, hother⟩ | ⟨rfl, rfl, rfl⟩)
      · exact ⟨Or.inl ho, hother⟩
      · exact ⟨Or.inr ⟨rfl, rfl⟩, hon⟩
    · rintro ⟨ho | ⟨-, rfl⟩, hother⟩
      · exact Or.inl ⟨ho, hother⟩
      · exact Or.inr ⟨rfl, on_unique hon hother⟩
  · intro id o ho
    rcases (hmem id o).mp ho with ho | ⟨-, rfl⟩
    · exact hs.placed id o ho
    · exact ⟨side, pair, hon⟩
  · rw [hbyId, hmax, List.length_append]
    exact hroom

theorem Sorted.insert (hs : s.Sorted) {order : RemoteOrder} {side : Bool} {pair : JsString} (hon : order.On side pair) (horder : order.Upright) :
    (s.insert order).store.Sorted := by
  constructor
  · intro side' pair' o ho
    rcases (mem_listed_insert hon).mp ho with ho | ⟨rfl, -⟩
    · exact hs.upright side' pair' o ho
    · exact horder
  · intro side' pair'
    rw [insert_listed hon]
    split
    · next hhere =>
      obtain ⟨rfl, rfl⟩ := hhere
      exact sorted_insertListed horder (hs.upright side' pair') (hs.sorted side' pair')
    · exact hs.sorted side' pair'

/-! ### Calls -/

theorem mem_expiredIds (hs : s.Consistent) {now : ℤ} {id : JsString} {o : RemoteOrder} (ho : (id, o) ∈ s.byId) :
    id ∈ s.expiredIds now ↔ o.expired now = true := by
  rw [expiredIds, List.mem_map]
  constructor
  · rintro ⟨⟨id', o'⟩, hentry, rfl⟩
    obtain ⟨hmem, hexpired⟩ := List.mem_filter.mp hentry
    rw [hs.eq_of_id ho hmem]
    exact hexpired
  · intro hexpired
    exact ⟨(id, o), List.mem_filter.mpr ⟨ho, hexpired⟩, rfl⟩

theorem keep_expired_byId (hs : s.Consistent) (now : ℤ) :
    (s.keep fun id => id ∉ s.expiredIds now).byId = s.byId.filter fun entry => ¬entry.2.expired now := by
  show s.byId.filter _ = s.byId.filter _
  apply List.filter_congr
  intro entry hentry
  rw [decide_eq_decide, mem_expiredIds hs hentry]

/-- `add` makes room or not, and then inserts the order or not. -/
theorem add_cases (hs : s.Consistent) (order : SentOrder) (now later : ℤ) :
    ∃ room, (room = s ∨ s.maxSize ≤ s.byId.length ∧ room = s.keep fun id => id ∉ s.expiredIds later) ∧
      ((s.add order now later).store = room ∨
        s.Inserts order now later ∧ room.byId.length < room.maxSize ∧
          ∃ id expiry, s.get id = none ∧ (s.add order now later).store = (room.insert (order.normalised (lower id) expiry)).store) := by
  rw [add]
  split
  · exact ⟨s, Or.inl rfl, Or.inl rfl⟩
  next id hid =>
  split
  · exact ⟨s, Or.inl rfl, Or.inl rfl⟩
  next hknown =>
  split
  · exact ⟨s, Or.inl rfl, Or.inl rfl⟩
  next expiry hexpiry =>
  split
  · exact ⟨s, Or.inl rfl, Or.inl rfl⟩
  next hlive =>
  split
  · exact ⟨s, Or.inl rfl, Or.inl rfl⟩
  next hparses =>
  obtain ⟨hsell, hbuy⟩ := not_or.mp hparses
  have hget : s.get id = none := Option.not_isSome_iff_eq_none.mp hknown
  have hinserts (hroom : (s.byId.filter fun entry => ¬entry.2.expired later).length < s.maxSize) : s.Inserts order now later :=
    ⟨⟨id, hid, hget⟩, ⟨expiry, hexpiry, Bool.not_eq_true _ ▸ hlive⟩, Option.isSome_iff_ne_none.mpr fun h => hsell (Option.isNone_iff_eq_none.mpr h),
      Option.isSome_iff_ne_none.mpr fun h => hbuy (Option.isNone_iff_eq_none.mpr h), hroom⟩
  rw [purgeExpired_eq hs]
  by_cases hfull : s.maxSize ≤ s.byId.length
  · refine ⟨_, Or.inr ⟨hfull, rfl⟩, ?_⟩
    simp only [if_pos hfull, Bool.false_eq_true, if_false]
    split
    · exact Or.inl rfl
    · next hroom =>
      have hroom := Nat.lt_of_not_le hroom
      exact Or.inr ⟨hinserts (keep_expired_byId hs later ▸ hroom), hroom, id, expiry, hget, rfl⟩
  · have hroom := Nat.lt_of_not_le hfull
    refine ⟨s, Or.inl rfl, Or.inr ⟨hinserts ((List.length_filter_le _ _).trans_lt hroom), hroom, id, expiry, hget, ?_⟩⟩
    simp only [if_neg hfull, Bool.false_eq_true, if_false]

theorem clear_eq : s.clear = s.keep fun _ => false := by
  rw [clear, keep, List.filter_false]
  simp only [List.filter_false]

theorem insert_byId (order : RemoteOrder) : (s.insert order).store.byId = s.byId ++ [(order.id, order)] := by
  rw [insert]
  split
  · dsimp only
    split
    · rfl
    · rfl
  · rfl

theorem on_of_tokens {order : RemoteOrder} (hsell : order.sellToken.isSome) (hbuy : order.buyToken.isSome) : ∃ side pair, order.On side pair := by
  obtain ⟨sellToken, hsell⟩ := Option.isSome_iff_exists.mp hsell
  obtain ⟨buyToken, hbuy⟩ := Option.isSome_iff_exists.mp hbuy
  exact ⟨_, _, sellToken, buyToken, hsell, hbuy, rfl, rfl⟩

theorem apply_kept (hs : s.Consistent) (hsorted : s.Sorted) {call : RemoteCall} (hcall : call.Sound s) :
    (call.apply s).Consistent ∧ (call.apply s).Sorted := by
  have hkeep (p : JsString → Bool) : (s.keep p).Consistent ∧ (s.keep p).Sorted := ⟨hs.keep p, hsorted.keep p⟩
  cases call with
  | add order now later =>
    show (s.add order now later).store.Consistent ∧ (s.add order now later).store.Sorted
    obtain ⟨room, hroom, hadd⟩ := s.add_cases hs order now later
    have hkept : room.Consistent ∧ room.Sorted ∧ ∀ entry ∈ room.byId, entry ∈ s.byId := by
      rcases hroom with rfl | ⟨-, rfl⟩
      · exact ⟨hs, hsorted, fun _ h => h⟩
      · exact ⟨hs.keep _, hsorted.keep _, fun _ h => List.mem_of_mem_filter h⟩
    rcases hadd with hsame | ⟨hinserts, hsize, id, expiry, hget, hinsert⟩
    · rw [hsame]
      exact ⟨hkept.1, hkept.2.1⟩
    · obtain ⟨hsellToken, hbuyToken, hupright⟩ := hcall hinserts
      obtain ⟨side, pair, hon⟩ : ∃ side pair, (order.normalised (lower id) expiry).On side pair :=
        on_of_tokens hsellToken hbuyToken
      have hnew : ∀ o, (lower id, o) ∉ room.byId := by
        intro o ho
        have hsome := (get_eq_some hs).mpr (hkept.2.2 _ ho)
        rw [hget] at hsome
        cases hsome
      rw [hinsert]
      exact ⟨hkept.1.insert hon (lower_lower id) hnew hsize, hkept.2.1.insert hon hupright⟩
  | remove orderId =>
    show (s.remove orderId).store.Consistent ∧ (s.remove orderId).store.Sorted
    rw [remove_eq hs]
    dsimp only
    exact hkeep _
  | removeByRelayer relayerAddr =>
    show (s.removeByRelayer relayerAddr).store.Consistent ∧ (s.removeByRelayer relayerAddr).store.Sorted
    rw [removeByRelayer_eq hs]
    dsimp only
    exact hkeep _
  | purgeExpired now =>
    show (s.purgeExpired now).store.Consistent ∧ (s.purgeExpired now).store.Sorted
    rw [purgeExpired_eq hs]
    dsimp only
    exact hkeep _
  | clear =>
    show s.clear.Consistent ∧ s.clear.Sorted
    rw [clear_eq]
    exact hkeep _

theorem not_mem_keep {p : JsString → Bool} {id : JsString} {o : RemoteOrder} (ho : (id, o) ∈ s.byId) (hlost : (id, o) ∉ (s.keep p).byId) :
    p id = false := by
  by_contra hp
  exact hlost (List.mem_filter.mpr ⟨ho, Bool.not_eq_false _ ▸ hp⟩)

theorem apply_loses (hs : s.Consistent) {call : RemoteCall} {o : RemoteOrder} (ho : (o.id, o) ∈ s.byId) (hlost : (o.id, o) ∉ (call.apply s).byId) :
    call.Loses s o := by
  cases call with
  | add order now later =>
    obtain ⟨room, hroom, hadd⟩ := s.add_cases hs order now later
    have hgone : (o.id, o) ∉ room.byId := by
      intro hin
      apply hlost
      show (o.id, o) ∈ (s.add order now later).store.byId
      rcases hadd with hsame | ⟨-, -, id, expiry, -, hinsert⟩
      · rw [hsame]
        exact hin
      · rw [hinsert, insert_byId]
        exact List.mem_append_left _ hin
    rcases hroom with rfl | ⟨hfull, rfl⟩
    · exact absurd ho hgone
    · have hin := of_decide_eq_false (not_mem_keep ho hgone)
      exact ⟨hfull, (mem_expiredIds hs ho).mp (not_not.mp hin)⟩
  | remove orderId =>
    have hgone : (o.id, o) ∉ (s.remove orderId).store.byId := hlost
    rw [remove_eq hs] at hgone
    have hid := not_not.mp (of_decide_eq_false (not_mem_keep ho hgone))
    show lower orderId = lower o.id
    rw [(hs.keyed o.id o ho).2, hid]
  | removeByRelayer relayerAddr =>
    have hgone : (o.id, o) ∉ (s.removeByRelayer relayerAddr).store.byId := hlost
    rw [removeByRelayer_eq hs] at hgone
    have hin := not_not.mp (of_decide_eq_false (not_mem_keep ho hgone))
    obtain ⟨o', ho', hrelayer⟩ := (hs.relayers _ _).mp hin
    show lower relayerAddr = lower o.relayer
    rw [hs.eq_of_id ho ho', hrelayer]
  | purgeExpired now =>
    have hgone : (o.id, o) ∉ (s.purgeExpired now).store.byId := hlost
    rw [purgeExpired_eq hs] at hgone
    exact (mem_expiredIds hs ho).mp (not_not.mp (of_decide_eq_false (not_mem_keep ho hgone)))
  | clear => trivial

theorem create_kept (maxSize : ℕ) : (create maxSize).Consistent ∧ (create maxSize).Sorted := by
  have hlisted : ∀ side pair, (create maxSize).listed side pair = [] := fun side pair => by cases side <;> rfl
  refine ⟨⟨fun _ _ h => absurd h List.not_mem_nil, List.nodup_nil, fun _ => List.nodup_nil, fun relayer id => ?_, ?_, ?_,
    fun _ _ h => absurd h List.not_mem_nil, Nat.zero_le _⟩, ?_, ?_⟩
  · exact ⟨fun h => absurd h List.not_mem_nil, fun ⟨o, ho, _⟩ => absurd ho List.not_mem_nil⟩
  · exact fun side pair => hlisted side pair ▸ List.nodup_nil
  · intro side pair o
    rw [hlisted]
    exact ⟨fun h => absurd h List.not_mem_nil, fun h => absurd h.1 List.not_mem_nil⟩
  · intro side pair o ho
    rw [hlisted] at ho
    exact absurd ho List.not_mem_nil
  · exact fun side pair => hlisted side pair ▸ List.Pairwise.nil

/-- **The store of remote orders.** After calls whose orders are sound, the four structures hold the same orders, ids that differ in case are one order, the size is in its bound and the lists are sorted; and no further call loses an order but by its id, by its relayer, by expiry or by clearing. -/
theorem remote_orders_consistent (maxSize : ℕ) {calls : List RemoteCall}
    (hsound : Along RemoteCall.run (fun s call => call.Sound s) (create maxSize) calls) :
    let s := after RemoteCall.run (create maxSize) calls
    s.Consistent ∧ s.Sorted ∧ (∀ id id' o o', (id, o) ∈ s.byId → (id', o') ∈ s.byId → lower o.id = lower o'.id → o = o') ∧
      ∀ (call : RemoteCall) (o : RemoteOrder), (o.id, o) ∈ s.byId → (o.id, o) ∉ (call.apply s).byId → call.Loses s o := by
  have hkept : (after RemoteCall.run (create maxSize) calls).Consistent ∧ (after RemoteCall.run (create maxSize) calls).Sorted := by
    refine Transactions.invariant_along (I := fun s => s.Consistent ∧ s.Sorted) ?_ (create_kept maxSize) hsound
    rintro s call s' hs hcall hrun
    obtain rfl := Except.ok.inj hrun
    exact apply_kept hs.1 hs.2 hcall
  obtain ⟨hconsistent, hsorted⟩ := hkept
  refine ⟨hconsistent, hsorted, ?_, fun call o ho hlost => apply_loses hconsistent ho hlost⟩
  intro id id' o o' ho ho' hid
  obtain ⟨rfl, hlower⟩ := hconsistent.keyed id o ho
  obtain ⟨rfl, hlower'⟩ := hconsistent.keyed id' o' ho'
  rw [hlower, hlower'] at hid
  exact hconsistent.eq_of_id ho (hid ▸ ho')

/-! ### Orders without a price

Whatever the calls, an order in a list has strings for its tokens, so one without them is in none.
-/

def Tokened (s : RemoteOrderStore) : Prop := ∀ side pair, ∀ o ∈ s.listed side pair, o.sellToken.isSome ∧ o.buyToken.isSome

theorem mem_dropListed {lists : JsString → List RemoteOrder} {pair id pair' : JsString} {o : RemoteOrder}
    (ho : o ∈ dropListed lists pair id pair') : o ∈ lists pair' := by
  by_cases hpair : pair' = pair
  · rw [dropListed, hpair, Function.update_self] at ho
    exact hpair ▸ List.mem_of_mem_filter ho
  · rw [dropListed, Function.update_of_ne hpair] at ho
    exact ho

theorem listed_remove {orderId : JsString} (side : Bool) (pair : JsString) :
    ∀ o ∈ (s.remove orderId).store.listed side pair, o ∈ s.listed side pair := by
  rw [remove]
  split
  · exact fun o ho => ho
  · split
    · split
      · cases side with
        | true => exact fun o ho => mem_dropListed ho
        | false => exact fun o ho => ho
      · cases side with
        | true => exact fun o ho => ho
        | false => exact fun o ho => mem_dropListed ho
    · cases side <;> exact fun o ho => ho

theorem listed_removeAll {ids : List JsString} (side : Bool) (pair : JsString) :
    ∀ o ∈ (s.removeAll ids).store.listed side pair, o ∈ s.listed side pair := by
  induction ids generalizing s with
  | nil => exact fun o ho => ho
  | cons id ids ih =>
    intro o ho
    rw [removeAll] at ho
    split at ho
    · exact listed_remove side pair o ho
    · exact listed_remove side pair o (ih o ho)

theorem Tokened.insert (hs : s.Tokened) (order : RemoteOrder) : (s.insert order).store.Tokened := by
  intro side pair o ho
  by_cases htokens : order.sellToken.isSome ∧ order.buyToken.isSome
  · obtain ⟨side', pair', hon⟩ := on_of_tokens htokens.1 htokens.2
    rcases (mem_listed_insert hon).mp ho with ho | ⟨rfl, -⟩
    · exact hs side pair o ho
    · exact htokens
  · rw [RemoteOrderStore.insert] at ho
    split at ho
    · next hsell hbuy => exact absurd ⟨hsell ▸ rfl, hbuy ▸ rfl⟩ htokens
    · exact hs side pair o (by cases side <;> exact ho)

theorem Tokened.apply (hs : s.Tokened) (call : RemoteCall) : (call.apply s).Tokened := by
  have hremoveAll (ids : List JsString) : (s.removeAll ids).store.Tokened := fun side pair o ho => hs side pair o (listed_removeAll side pair o ho)
  cases call with
  | add order now later =>
    show (s.add order now later).store.Tokened
    rw [add]
    split
    · exact hs
    next id _ =>
    split
    · exact hs
    split
    · exact hs
    next expiry _ =>
    split
    · exact hs
    split
    · exact hs
    dsimp only
    generalize hmade : (if s.maxSize ≤ s.byId.length then s.purgeExpired later else ⟨s, false⟩ : RemoteOutcome) = room
    have hroom : room.store.Tokened := by
      rw [← hmade]
      split
      · exact hremoveAll _
      · exact hs
    split
    · exact hroom
    split
    · exact hroom
    · exact hroom.insert _
  | remove orderId => exact fun side pair o ho => hs side pair o (listed_remove side pair o ho)
  | removeByRelayer relayerAddr =>
    show (s.removeByRelayer relayerAddr).store.Tokened
    rw [removeByRelayer]
    dsimp only
    split
    · exact hremoveAll _
    · exact fun side pair o ho => hremoveAll _ side pair o (by cases side <;> exact ho)
  | purgeExpired now => exact hremoveAll _
  | clear =>
    intro side pair o ho
    cases side <;> exact absurd ho List.not_mem_nil

theorem run_tokened (maxSize : ℕ) (calls : List RemoteCall) : (after RemoteCall.run (create maxSize) calls).Tokened := by
  refine Transactions.invariant_along (P := fun _ _ => True) ?_ ?_ (Transactions.along_of_forall fun _ _ _ => trivial)
  · rintro s call s' hs - hrun
    obtain rfl := Except.ok.inj hrun
    exact hs.apply call
  · intro side pair o ho
    cases side <;> exact absurd ho List.not_mem_nil

def sentOrder (id : String) (buyToken : Option String) (sellAmount buyAmount : ℤ) (expiry : WireNumber) : SentOrder :=
  ⟨some (Json.units id), Json.units "0xAA", some (Json.units "0x1"), buyToken.map Json.units, .integer sellAmount, .integer buyAmount, some expiry⟩

/-- A relayer lists an order, sends it again in another spelling of its id with amounts that have no price, lists another one at a better price, and sends one without a price that has expired. -/
def soundCalls : List RemoteCall :=
  [.add (sentOrder "0xaİ" (some "0x2") 3 2 .nan) 0 0, .add (sentOrder "0xAİ" (some "0x2") 0 (-1) .nan) 0 0,
    .add (sentOrder "0xb2" (some "0x2") 1 1 (.finite 70)) 0 0, .add (sentOrder "0xc3" (some "0x2") 0 (-1) (.finite 50)) 60 60]

theorem remote_orders_consistent_listed :
    let s := after RemoteCall.run (create 5) soundCalls
    (s.Consistent ∧ s.Sorted) ∧ (s.sells (Json.units "0x1-0x2")).map RemoteOrder.id = [Json.units "0xb2", Json.units "0xai̇"] := by
  have hsound : Along RemoteCall.run (fun s call => call.Sound s) (create 5) soundCalls := by
    refine ⟨fun _ => ⟨rfl, rfl, Or.inl (by decide)⟩, fun hinserts => ?_, fun _ => ⟨rfl, rfl, Or.inl (by decide)⟩, fun hinserts => ?_, trivial⟩
    · obtain ⟨id, hid, hget⟩ := hinserts.unknown
      obtain rfl := Option.some.inj hid
      exact absurd hget (by decide +kernel)
    · obtain ⟨expiry, hexpiry, hlive⟩ := hinserts.live
      obtain rfl := Option.some.inj hexpiry
      exact absurd hlive (by decide +kernel)
  obtain ⟨hconsistent, hsorted, -⟩ := remote_orders_consistent 5 hsound
  exact ⟨⟨hconsistent, hsorted⟩, by decide +kernel⟩

/-- Three orders that a peer may send, the last two with negative amounts, and one that buys a token named by a number. -/
def unsoundCalls : List RemoteCall :=
  [.add (sentOrder "1" (some "0x2") 1 1 .nan) 0 0, .add (sentOrder "2" (some "0x2") 0 (-1) .nan) 0 0,
    .add (sentOrder "3" (some "0x2") (-3) (-1) .nan) 0 0, .add (sentOrder "4" none 1 1 .nan) 0 0]

/-- The third order is listed before the second, which is cheaper, and the fourth is in the map but in no list. -/
theorem remote_orders_unsorted : let s := after RemoteCall.run (create 5) unsoundCalls
    (∃ o₁ o₂ o₃, s.sells (Json.units "0x1-0x2") = [o₃, o₁, o₂] ∧ ¬o₃.Precedes true o₂) ∧
      ∃ o₄, s.get (Json.units "4") = some o₄ ∧ ∀ side pair, o₄ ∉ s.listed side pair := by
  intro s
  have hsells : s.sells (Json.units "0x1-0x2") = [(sentOrder "3" (some "0x2") (-3) (-1) .nan).normalised (Json.units "3") .nan,
      (sentOrder "1" (some "0x2") 1 1 .nan).normalised (Json.units "1") .nan,
      (sentOrder "2" (some "0x2") 0 (-1) .nan).normalised (Json.units "2") .nan] := by
    decide +kernel
  have hget : s.get (Json.units "4") = some ((sentOrder "4" none 1 1 .nan).normalised (Json.units "4") .nan) := by decide +kernel
  refine ⟨⟨_, _, _, hsells, ?_⟩, _, hget, fun side pair hlisted => ?_⟩
  · show ¬((-3 : ℤ) * -1 ≤ 0 * -1)
    decide
  · have htoken := (run_tokened 5 unsoundCalls side pair _ hlisted).2
    cases htoken

end RemoteOrderStore

end Relayer

end ScatterDex
