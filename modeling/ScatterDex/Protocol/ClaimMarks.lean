import ScatterDex.Pro.ClaimStatus

/-!
# Claimed marks

An order records the leaves that a pass found spent. A pass that the RPC provider answers only adds to them; a pass that the indexer answers puts the answer in their place, and the indexer trails the chain.
-/

namespace ScatterDex

open Sdk

namespace Pro

variable (P : Poseidon)

/-! ### What passes leave of an order -/

/-- The claim's nullifier is among some. -/
def OrderClaim.SpentIn (claim : OrderClaim) (spent : Finset ℕ) : Prop := ∃ n, claim.nullifier P = some n ∧ n ∈ spent

def TrackedOrder.AllSpentIn (order : TrackedOrder) (spent : Finset ℕ) : Prop := ∀ c ∈ order.allClaims, c.SpentIn P spent

/-- What became of an order while the spent nullifiers went from one set to another. -/
structure TrackedOrder.Marked (spent spent' : Finset ℕ) (o o' : TrackedOrder) : Prop where
  id : o'.id = o.id
  allClaims : o'.allClaims = o.allClaims
  /-- A leaf that is recorded and spent stays recorded. -/
  kept : ∀ c ∈ o.allClaims, c.SpentIn P spent → c.leafIndex ∈ o.recorded → c.leafIndex ∈ o'.recorded
  /-- A claimed order with all leaves spent stays claimed. -/
  claimed : o.status = .claimed → o.AllSpentIn P spent → o'.status = .claimed
  /-- A leaf that was added is spent. -/
  added : ∀ li ∈ o'.recorded, li ∈ o.recorded ∨ ∃ c ∈ o.allClaims, c.leafIndex = li ∧ c.SpentIn P spent'
  /-- A matching or cancelled order is as it was. -/
  untouched : o.status = .matching ∨ o.status = .cancelled → o' = o

/-- The indexer's answer to a pass loses nothing of an order: the indexer knew every spent leaf that is recorded, and every leaf of a claimed order that is wholly spent. -/
def TrackedOrder.Indexed (order : TrackedOrder) (spent asked : Finset ℕ) : Prop :=
  ∀ c ∈ order.allClaims, ∀ n, c.nullifier P = some n → n ∈ spent →
    (c.leafIndex ∈ order.recorded ∨ order.status = .claimed ∧ order.AllSpentIn P spent) → n ∈ asked

/-- When the answer to the newest pass may be written: the passes before it have been rendered, and an indexer that answered knew what is recorded. -/
def ClaimStatusEvent.Safe (network : ClaimNetwork) (s : ClaimStatus) : ClaimStatusEvent → Prop
  | .answer i indexer _ => ∀ pass, s.passes[i]? = some pass → pass.seq = s.passSeq →
    s.rendered = s.orders ∧ s.ordersRef = s.orders ∧
    (network.sharedOrderbookUrl = true → ¬(pass.direct = true ∧ network.readProvider = true) → indexer ≠ none →
      ∀ o ∈ s.orders.orders, o.id ∈ pass.processedOrders → o.Indexed P s.chain.spent pass.asked)
  | _ => True

variable {P}

namespace TrackedOrder

theorem Marked.refl {spent spent' : Finset ℕ} (o : TrackedOrder) : Marked P spent spent' o o where
  id := rfl
  allClaims := rfl
  kept _ _ _ hrecorded := hrecorded
  claimed hclaimed _ := hclaimed
  added _ hli := Or.inl hli
  untouched _ := rfl

instance {spent spent' : Finset ℕ} : Std.Refl (Marked P spent spent') := ⟨Marked.refl⟩

theorem Marked.trans {spent spent' spent'' : Finset ℕ} {o o' o'' : TrackedOrder} (hfirst : Marked P spent spent' o o')
    (hthen : Marked P spent' spent'' o' o'') (hgrow : spent ⊆ spent') (hgrow' : spent' ⊆ spent'') : Marked P spent spent'' o o'' where
  id := hthen.id.trans hfirst.id
  allClaims := hthen.allClaims.trans hfirst.allClaims
  kept c hc hspent hrecorded := by
    obtain ⟨n, hn, hin⟩ := hspent
    exact hthen.kept c (hfirst.allClaims ▸ hc) ⟨n, hn, hgrow hin⟩ (hfirst.kept c hc ⟨n, hn, hin⟩ hrecorded)
  claimed hclaimed hspent := by
    apply hthen.claimed (hfirst.claimed hclaimed hspent)
    intro c hc
    obtain ⟨n, hn, hin⟩ := hspent c (hfirst.allClaims ▸ hc)
    exact ⟨n, hn, hgrow hin⟩
  added li hli := by
    rcases hthen.added li hli with hli | ⟨c, hc, hleaf, hspent⟩
    · rcases hfirst.added li hli with hli | ⟨c, hc, hleaf, n, hn, hin⟩
      · exact Or.inl hli
      · exact Or.inr ⟨c, hc, hleaf, n, hn, hgrow' hin⟩
    · exact Or.inr ⟨c, hfirst.allClaims ▸ hc, hleaf, hspent⟩
  untouched hstatus := by
    obtain rfl := hfirst.untouched hstatus
    exact hthen.untouched hstatus

end TrackedOrder

/-! ### One order -/

/-- What `computeClaimedFromSpent` comes to, given what the answer knows of the leaves. -/
theorem computeClaimedFromSpent_marked {o : TrackedOrder} {spentLeafIndexes claimedLeafIndexes : List ℤ} {authoritative : Bool}
    {status : OrderStatus} {spent : Finset ℕ} (hstatus : o.settled = true)
    (hsound : ∀ li ∈ spentLeafIndexes, ∃ c ∈ o.allClaims, c.leafIndex = li ∧ c.SpentIn P spent)
    (hcomplete : authoritative = true → ∀ c ∈ o.allClaims, c.SpentIn P spent →
      (c.leafIndex ∈ o.recorded ∨ o.status = .claimed ∧ o.AllSpentIn P spent) → c.leafIndex ∈ spentLeafIndexes)
    (hcompute : computeClaimedFromSpent o spentLeafIndexes authoritative = some (claimedLeafIndexes, status)) :
    o.Marked P spent spent { o with claimedLeafIndexes := some claimedLeafIndexes, status := status } := by
  rw [computeClaimedFromSpent] at hcompute
  dsimp only at hcompute
  rw [Option.ite_none_left_eq_some, Option.ite_none_left_eq_some] at hcompute
  obtain ⟨-, -, hcompute⟩ := hcompute
  obtain ⟨hindexes, hstatus'⟩ := Prod.mk.inj (Option.some.inj hcompute)
  rw [hindexes] at hstatus'
  -- the new leaves are the confirmed ones, and the old ones too unless the answer is authoritative
  have hmem : ∀ li, li ∈ claimedLeafIndexes ↔ li ∈ o.allClaims.map OrderClaim.leafIndex ∧
      (li ∈ spentLeafIndexes ∨ authoritative = false ∧ li ∈ o.recorded) := by
    intro li
    rw [← hindexes, List.mem_mergeSort, List.mem_dedup]
    cases authoritative with
    | true => simp [List.mem_filter, and_comm]
    | false =>
      simp only [Bool.false_eq_true, if_false, List.mem_append, List.mem_filter, decide_eq_true_eq, true_and]
      tauto
  have hkept : ∀ c ∈ o.allClaims, c.SpentIn P spent → c.leafIndex ∈ o.recorded → c.leafIndex ∈ claimedLeafIndexes := by
    intro c hc hspent hrecorded
    refine (hmem _).mpr ⟨List.mem_map_of_mem hc, ?_⟩
    cases hauth : authoritative with
    | true => exact Or.inl (hcomplete hauth c hc hspent (Or.inl hrecorded))
    | false => exact Or.inr ⟨rfl, hrecorded⟩
  refine ⟨rfl, rfl, hkept, ?_, ?_, ?_⟩
  · intro hclaimed hall
    show status = .claimed
    rw [← hstatus', hclaimed, if_neg (fun h => by cases h.1)]
    split
    · next hdemoted =>
      obtain ⟨-, hauth, hundone⟩ := hdemoted
      rw [Bool.not_eq_true', Bool.eq_false_iff] at hundone
      refine absurd ?_ hundone
      rw [List.all_eq_true]
      intro li hli
      obtain ⟨c, hc, rfl⟩ := List.mem_map.mp hli
      rw [decide_eq_true_eq, hmem]
      exact ⟨hli, Or.inl (hcomplete hauth c hc (hall c hc) (Or.inr ⟨hclaimed, hall⟩))⟩
    · rfl
  · intro li hli
    rcases ((hmem li).mp hli).2 with hspent | ⟨-, hrecorded⟩
    · exact Or.inr (hsound li hspent)
    · exact Or.inl hrecorded
  · intro hclosed
    rw [TrackedOrder.settled, decide_eq_true_eq] at hstatus
    rcases hclosed with hclosed | hclosed <;> rw [hclosed] at hstatus <;> simp at hstatus

/-! ### One answer -/

namespace ClaimPass

variable {network : ClaimNetwork} {pass : ClaimPass} {indexer : Option (Finset ℕ)} {probe : ℕ → Option Bool}

theorem mem_keys {kept : ClaimEntryRef → Bool} {key : ℕ} : key ∈ (pass.entries.filter kept).map ClaimEntryRef.key ↔
    ∃ row, pass.rows[key]? = some row ∧ kept ⟨key, row.secret, row.leafIndex, row.claimsRoot⟩ = true := by
  simp only [List.mem_map, List.mem_filter, entries, List.mem_mapIdx]
  constructor
  · intro hkey
    obtain ⟨e, ⟨⟨i, hi, rfl⟩, hkept⟩, rfl⟩ := hkey
    exact ⟨pass.rows[i], List.getElem?_eq_getElem hi, hkept⟩
  · intro hrow
    obtain ⟨row, hrow, hkept⟩ := hrow
    obtain ⟨hi, rfl⟩ := List.getElem?_eq_some_iff.mp hrow
    exact ⟨_, ⟨⟨key, hi, rfl⟩, hkept⟩, rfl⟩

theorem resolve_sound {s : ClaimStatus} (hanswers : s.Answers P pass indexer probe) {key : ℕ}
    (hkey : key ∈ (pass.resolve P network indexer probe).spent) :
    ∃ row, pass.rows[key]? = some row ∧ ∃ n, row.nullifier P = some n ∧ n ∈ s.chain.spent := by
  rw [resolve] at hkey
  rcases resolveSpentClaimEntries_cases (P := P) (pass.opts network indexer probe) with ⟨-, heq⟩ | ⟨spentHex, hindexer, -, heq⟩ | ⟨probe', hprovider, heq⟩ | heq
  · rw [heq] at hkey
    exact absurd hkey List.not_mem_nil
  · rw [heq] at hkey
    obtain ⟨row, hrow, hkept⟩ := mem_keys.mp hkey
    obtain ⟨n, hn, hin⟩ := (Option.any_eq_true _ _).mp hkept
    dsimp only [opts] at hindexer
    split at hindexer
    · exact ⟨row, hrow, n, hn, s.chain.trails (hanswers.indexed spentHex (Option.some.inj hindexer) (of_decide_eq_true hin))⟩
    · cases hindexer
  · rw [heq] at hkey
    obtain ⟨row, hrow, hkept⟩ := mem_keys.mp hkey
    dsimp only [opts] at hprovider
    split at hprovider
    · obtain rfl := Option.some.inj hprovider
      obtain ⟨b, hb, rfl⟩ : ∃ b, (row.nullifier P).bind probe = some b ∧ b = true := by
        cases hb : (row.nullifier P).bind probe with
        | none =>
          have hnone : (ClaimEntryRef.nullifier P ⟨key, row.secret, row.leafIndex, row.claimsRoot⟩).bind probe = none := hb
          rw [hnone] at hkept
          cases hkept
        | some b =>
          have hsome : (ClaimEntryRef.nullifier P ⟨key, row.secret, row.leafIndex, row.claimsRoot⟩).bind probe = some b := hb
          rw [hsome] at hkept
          exact ⟨b, rfl, hkept⟩
      obtain ⟨n, hn, hprobe⟩ := Option.bind_eq_some_iff.mp hb
      exact ⟨row, hrow, n, hn, hanswers.probed n hprobe⟩
    · cases hprovider
  · rw [heq] at hkey
    exact absurd hkey List.not_mem_nil

/-- An authoritative answer is the indexer's, and has every spent leaf the indexer knew of. -/
theorem resolve_complete {s : ClaimStatus} (hanswers : s.Answers P pass indexer probe)
    (hauth : (pass.resolve P network indexer probe).authoritative = true) {key : ℕ} {row : ClaimRow} (hrow : pass.rows[key]? = some row) :
    (network.sharedOrderbookUrl = true ∧ ¬(pass.direct = true ∧ network.readProvider = true) ∧ indexer ≠ none) ∧
      ∀ n, row.nullifier P = some n → n ∈ pass.asked → key ∈ (pass.resolve P network indexer probe).spent := by
  rw [resolve] at hauth ⊢
  rcases resolveSpentClaimEntries_cases (P := P) (pass.opts network indexer probe) with ⟨hempty, -⟩ | ⟨spentHex, hindexer, hfirst, heq⟩ | ⟨probe', -, heq⟩ | heq
  · have hrows : pass.rows = [] := List.mapIdx_eq_nil_iff.mp hempty
    rw [hrows] at hrow
    cases hrow
  · rw [heq]
    dsimp only [opts] at hindexer hfirst
    split at hindexer
    · next hurl =>
      have hspentHex := Option.some.inj hindexer
      refine ⟨⟨hurl, ?_, ?_⟩, ?_⟩
      · intro hdirect
        rw [hdirect.1, hdirect.2] at hfirst
        exact hfirst ⟨rfl, rfl⟩
      · rw [hspentHex]
        exact Option.some_ne_none _
      · intro n hn hasked
        apply mem_keys.mpr
        refine ⟨row, hrow, (Option.any_eq_true _ _).mpr ⟨n, hn, ?_⟩⟩
        exact decide_eq_true (hanswers.retained spentHex hspentHex row (List.mem_of_getElem? hrow) n hn hasked)
    · cases hindexer
  · rw [heq] at hauth
    cases hauth
  · rw [heq] at hauth
    cases hauth

theorem mem_spentByOrder {spent : List ℕ} {orderId : String} {li : ℤ} : li ∈ pass.spentByOrder spent orderId ↔
    ∃ key ∈ spent, ∃ row, pass.rows[key]? = some row ∧ row.orderId = orderId ∧ row.leafIndex = li := by
  simp only [spentByOrder, List.mem_map, List.mem_filter, List.mem_filterMap, decide_eq_true_eq]
  constructor
  · intro hli
    obtain ⟨row, ⟨⟨key, hkey, hrow⟩, hid⟩, hleaf⟩ := hli
    exact ⟨key, hkey, row, hrow, hid, hleaf⟩
  · intro hli
    obtain ⟨key, hkey, row, hrow, hid, hleaf⟩ := hli
    exact ⟨row, ⟨⟨key, hkey, hrow⟩, hid⟩, hleaf⟩

end ClaimPass

namespace OrderList

theorem find_eq_some {list : OrderList} {id : String} {o : TrackedOrder} :
    list.find id = some o ↔ o ∈ list.orders ∧ o.id = id := by
  constructor
  · intro hfind
    exact ⟨List.mem_of_find?_eq_some hfind, by simpa using List.find?_some hfind⟩
  · intro ho
    obtain ⟨ho, rfl⟩ := ho
    cases hfind : list.find o.id with
    | none => exact absurd (decide_eq_true rfl) (List.find?_eq_none.mp hfind o ho)
    | some o' =>
      have hid : o'.id = o.id := by simpa using List.find?_some hfind
      rw [List.inj_on_of_nodup_map list.nodup (List.mem_of_find?_eq_some hfind) ho hid]

theorem eq_of_mem {list : OrderList} {o o' : TrackedOrder} (ho : o ∈ list.orders) (ho' : o' ∈ list.orders) (hid : o.id = o'.id) :
    o = o' := List.inj_on_of_nodup_map list.nodup ho ho' hid

/-- The orders of one list are those of another, as some relation has it. -/
def Into (R : TrackedOrder → TrackedOrder → Prop) (list list' : OrderList) : Prop :=
  (∀ o ∈ list.orders, ∃ o' ∈ list'.orders, R o o') ∧ ∀ o' ∈ list'.orders, ∃ o ∈ list.orders, R o o'

theorem Into.refl {R : TrackedOrder → TrackedOrder → Prop} [Std.Refl R] {list : OrderList} : Into R list list :=
  ⟨fun o ho => ⟨o, ho, Std.Refl.refl o⟩, fun o ho => ⟨o, ho, Std.Refl.refl o⟩⟩

theorem Into.replace {R : TrackedOrder → TrackedOrder → Prop} {list list' : OrderList} {target next : TrackedOrder}
    (hinto : Into R list list') (hid : ∀ o o', R o o' → o'.id = o.id) (htarget : target ∈ list.orders)
    (hnext : R target next) : Into R list (list'.replace next) := by
  constructor
  · intro o ho
    obtain ⟨o', ho', hrel⟩ := hinto.1 o ho
    by_cases hsame : o'.id = next.id
    · have heq : o = target := eq_of_mem ho htarget (by rw [← hid o o' hrel, hsame, hid target next hnext])
      refine ⟨next, List.mem_map.mpr ⟨o', ho', if_pos hsame⟩, ?_⟩
      rw [heq]
      exact hnext
    · exact ⟨o', List.mem_map.mpr ⟨o', ho', if_neg hsame⟩, hrel⟩
  · intro o' ho'
    obtain ⟨u, hu, rfl⟩ := List.mem_map.mp ho'
    split
    · exact ⟨target, htarget, hnext⟩
    · exact hinto.2 u hu

end OrderList

namespace ClaimStatus

variable {network : ClaimNetwork} {s s' : ClaimStatus}

/-- The rows of a pass on an order are the order's own. -/
def Rows (orders : OrderList) (pass : ClaimPass) : Prop :=
  ∀ o ∈ orders.orders, o.id ∈ pass.processedOrders → ∀ row, row ∈ pass.rows ∧ row.orderId = o.id ↔ row ∈ o.rows

/-- What holds between the passes, the orders and the copies of them. -/
structure Consistent (s : ClaimStatus) : Prop where
  rendered : ∀ o ∈ s.orders.orders, ∀ r ∈ s.rendered.orders, r.id = o.id → r.allClaims = o.allClaims
  rows : ∀ pass ∈ s.passes, Rows s.orders pass
  seq_le : ∀ pass ∈ s.passes, pass.seq ≤ s.passSeq

theorem mem_rows {o : TrackedOrder} {row : ClaimRow} : row ∈ o.rows ↔
    ∃ c ∈ o.allClaims, ∃ claimsRoot, c.claimsRoot = some claimsRoot ∧ row = ⟨o.id, c.secret, c.leafIndex, claimsRoot⟩ := by
  rw [TrackedOrder.rows, List.mem_filterMap]
  apply exists_congr
  intro c
  apply and_congr_right
  intro _
  rw [Option.map_eq_some_iff]
  exact exists_congr fun claimsRoot => and_congr_right fun _ => eq_comm

theorem nullifier_of_row {c : OrderClaim} {id : String} {claimsRoot : ℕ} (hroot : c.claimsRoot = some claimsRoot) :
    ClaimRow.nullifier P ⟨id, c.secret, c.leafIndex, claimsRoot⟩ = c.nullifier P := by
  rw [OrderClaim.nullifier, hroot, Option.bind_some, ClaimRow.nullifier]

/-- **What a pass writes.** Each order is marked by its leaves in the answer. -/
theorem write_marked {pass : ClaimPass} {indexer : Option (Finset ℕ)} {probe : ℕ → Option Bool} (hrows : Rows s.orders pass)
    (hanswers : s.Answers P pass indexer probe) (hrendered : s.rendered = s.orders) (href : s.ordersRef = s.orders)
    (hindexed : network.sharedOrderbookUrl = true → ¬(pass.direct = true ∧ network.readProvider = true) → indexer ≠ none →
      ∀ o ∈ s.orders.orders, o.id ∈ pass.processedOrders → o.Indexed P s.chain.spent pass.asked) :
    s.orders.Into (TrackedOrder.Marked P s.chain.spent s.chain.spent) (s.write pass (pass.resolve P network indexer probe)) := by
  have hids : ∀ o o', TrackedOrder.Marked P s.chain.spent s.chain.spent o o' → o'.id = o.id := fun o o' hmarked => hmarked.id
  -- an order that the loop reaches
  have hone : ∀ orders : OrderList, s.orders.Into (TrackedOrder.Marked P s.chain.spent s.chain.spent) orders →
      ∀ orderId ∈ pass.processedOrders, ∀ cur, s.rendered.find orderId = some cur → cur.settled = true →
      s.orders.Into (TrackedOrder.Marked P s.chain.spent s.chain.spent)
        (reconcileClaimedLeaves s.ordersRef orders orderId
          (pass.spentByOrder (pass.resolve P network indexer probe).spent orderId) (pass.resolve P network indexer probe).authoritative) := by
    intro orders hinto orderId hid cur hcur hsettled
    rw [hrendered] at hcur
    rw [reconcileClaimedLeaves, href, hcur]
    obtain ⟨hmem, rfl⟩ := OrderList.find_eq_some.mp hcur
    dsimp only
    cases hcompute : computeClaimedFromSpent cur (pass.spentByOrder (pass.resolve P network indexer probe).spent cur.id)
        (pass.resolve P network indexer probe).authoritative with
    | none => exact hinto
    | some update =>
      apply hinto.replace hids hmem
      apply computeClaimedFromSpent_marked hsettled _ _ hcompute
      · intro li hli
        obtain ⟨key, hkey, row, hrow, horder, rfl⟩ := ClaimPass.mem_spentByOrder.mp hli
        obtain ⟨row', hrow', n, hn, hspent⟩ := ClaimPass.resolve_sound hanswers hkey
        obtain rfl := Option.some.inj (hrow.symm.trans hrow')
        obtain ⟨c, hc, claimsRoot, hroot, rfl⟩ := mem_rows.mp ((hrows cur hmem hid row).mp ⟨List.mem_of_getElem? hrow, horder⟩)
        exact ⟨c, hc, rfl, n, (nullifier_of_row hroot).symm.trans hn, hspent⟩
      · intro hauth c hc hspent hknown
        obtain ⟨n, hn, hin⟩ := hspent
        have hnull := hn
        rw [OrderClaim.nullifier] at hnull
        obtain ⟨claimsRoot, hroot, -⟩ := Option.bind_eq_some_iff.mp hnull
        obtain ⟨hrow, horder⟩ := (hrows cur hmem hid _).mpr (mem_rows.mpr ⟨c, hc, claimsRoot, hroot, rfl⟩)
        obtain ⟨key, hkey⟩ := List.mem_iff_getElem?.mp hrow
        obtain ⟨⟨hurl, hfirst, hanswered⟩, hcomplete⟩ := ClaimPass.resolve_complete hanswers hauth hkey
        have hasked := hindexed hurl hfirst hanswered cur hmem hid c hc n hn hin hknown
        have hrown : ClaimRow.nullifier P ⟨cur.id, c.secret, c.leafIndex, claimsRoot⟩ = some n := (nullifier_of_row hroot).trans hn
        exact ClaimPass.mem_spentByOrder.mpr ⟨key, hcomplete n hrown hasked, _, hkey, rfl, rfl⟩
  rw [write]
  refine List.foldlRecOn (motive := fun orders => s.orders.Into (TrackedOrder.Marked P s.chain.spent s.chain.spent) orders)
    pass.processedOrders _ .refl ?_
  intro orders hinto id hid
  split
  · exact hinto
  · next cur hcur =>
    split
    · next hsettled => exact hone orders hinto id hid cur hcur hsettled
    · exact hinto

theorem Consistent.opened (chain : ClaimChain) (orders : OrderList) : (ClaimStatus.opened chain orders).Consistent where
  rendered o ho r hr hid := by rw [OrderList.eq_of_mem hr ho hid]
  rows pass hpass := absurd hpass List.not_mem_nil
  seq_le pass hpass := absurd hpass List.not_mem_nil

theorem Consistent.finish (hs : s.Consistent) {before after : List ClaimPass} {pass : ClaimPass} {orders : OrderList}
    (hpasses : s.passes = before ++ pass :: after)
    (hinto : s.orders.Into (TrackedOrder.Marked P s.chain.spent s.chain.spent) orders) :
    (s.finish before pass after orders).Consistent := by
  have hsub : ∀ p ∈ before ++ after, p ∈ s.passes := by
    intro p hp
    rw [hpasses]
    exact List.mem_append.mpr ((List.mem_append.mp hp).imp_right (List.mem_cons_of_mem _))
  refine ⟨?_, ?_, fun p hp => hs.seq_le p (hsub p hp)⟩
  · intro o' ho' r hr hid
    obtain ⟨o, ho, hmarked⟩ := hinto.2 o' ho'
    rw [hmarked.allClaims]
    exact hs.rendered o ho r hr (hid.trans hmarked.id)
  · intro p hp o' ho' hin row
    obtain ⟨o, ho, hmarked⟩ := hinto.2 o' ho'
    have hsame : o'.rows = o.rows := by rw [TrackedOrder.rows, hmarked.allClaims, hmarked.id, TrackedOrder.rows]
    rw [hmarked.id] at hin
    rw [hsame, hmarked.id]
    exact hs.rows p (hsub p hp) o ho hin row

/-- A pass that starts takes the rows of the orders it looks at. -/
theorem Consistent.start (hs : s.Consistent) (direct : Bool) :
    (s.start network direct).Consistent ∧ s.chain.spent ⊆ (s.start network direct).chain.spent ∧
      s.orders.Into (TrackedOrder.Marked P s.chain.spent (s.start network direct).chain.spent) (s.start network direct).orders := by
  have hseq : ∀ pass ∈ s.passes, pass.seq ≤ s.passSeq + 1 := fun pass hpass => Nat.le_succ_of_le (hs.seq_le pass hpass)
  rw [ClaimStatus.start]
  split
  · exact ⟨hs, Finset.Subset.refl _, .refl⟩
  split
  · exact ⟨hs, Finset.Subset.refl _, .refl⟩
  dsimp only
  split
  · exact ⟨⟨hs.rendered, hs.rows, hseq⟩, Finset.Subset.refl _, .refl⟩
  refine ⟨⟨hs.rendered, ?_, ?_⟩, Finset.Subset.refl _, .refl⟩
  · intro pass hpass
    rcases List.mem_append.mp hpass with hpass | hpass
    · exact hs.rows pass hpass
    · obtain rfl := List.mem_singleton.mp hpass
      intro o ho hin row
      obtain ⟨r, hr, hid⟩ := List.mem_map.mp hin
      have hclaims := hs.rendered o ho r (List.mem_filter.mp hr).1 hid
      have hsame : r.rows = o.rows := by rw [TrackedOrder.rows, hclaims, hid, TrackedOrder.rows]
      rw [← hsame]
      constructor
      · intro hrow
        obtain ⟨r', hr', hrow'⟩ := List.mem_flatMap.mp hrow.1
        obtain ⟨c, -, claimsRoot, -, rfl⟩ := mem_rows.mp hrow'
        rwa [OrderList.eq_of_mem (List.mem_filter.mp hr).1 (List.mem_filter.mp hr').1 (hid.trans hrow.2.symm)]
      · intro hrow
        refine ⟨List.mem_flatMap.mpr ⟨r, hr, hrow⟩, ?_⟩
        obtain ⟨c, -, claimsRoot, -, rfl⟩ := mem_rows.mp hrow
        exact hid
  · intro pass hpass
    rcases List.mem_append.mp hpass with hpass | hpass
    · exact hseq pass hpass
    · rw [List.mem_singleton.mp hpass]

theorem Step.marked {event : ClaimStatusEvent} (hs : s.Consistent) (hsafe : event.Safe P network s) (hstep : Step P network event s s') :
    s'.Consistent ∧ s.chain.spent ⊆ s'.chain.spent ∧ s.orders.Into (TrackedOrder.Marked P s.chain.spent s'.chain.spent) s'.orders := by
  cases event with
  | claim nullifier =>
    obtain rfl := hstep
    exact ⟨⟨hs.rendered, hs.rows, hs.seq_le⟩, Finset.subset_insert _ _, .refl⟩
  | index nullifier =>
    obtain ⟨-, rfl⟩ := hstep
    exact ⟨⟨hs.rendered, hs.rows, hs.seq_le⟩, Finset.Subset.refl _, .refl⟩
  | start direct =>
    obtain rfl := hstep
    exact hs.start direct
  | answer i indexer probe =>
    obtain ⟨before, pass, after, hpasses, rfl, hanswers, rfl⟩ := hstep
    have hpass : pass ∈ s.passes := by
      rw [hpasses]
      exact List.mem_append_right _ List.mem_cons_self
    have hinto : s.orders.Into (TrackedOrder.Marked P s.chain.spent s.chain.spent)
        (if pass.seq < s.passSeq then s.orders else s.write pass (pass.resolve P network indexer probe)) := by
      split
      · exact .refl
      · next hnewest =>
        have hget : s.passes[before.length]? = some pass := by
          rw [hpasses, List.getElem?_append_right le_rfl, Nat.sub_self]
          rfl
        obtain ⟨hrendered, href, hindexed⟩ := hsafe pass hget (Nat.le_antisymm (hs.seq_le pass hpass) (Nat.not_lt.mp hnewest))
        exact write_marked (hs.rows pass hpass) hanswers hrendered href hindexed
    exact ⟨hs.finish hpasses hinto, Finset.Subset.refl _, hinto⟩
  | fail i =>
    obtain ⟨before, pass, after, hpasses, -, rfl⟩ := hstep
    exact ⟨hs.finish (P := P) hpasses .refl, Finset.Subset.refl _, .refl⟩
  | render =>
    obtain rfl := hstep
    refine ⟨⟨fun o ho r hr hid => ?_, hs.rows, hs.seq_le⟩, Finset.Subset.refl _, .refl⟩
    rw [OrderList.eq_of_mem hr ho hid]
  | mirror =>
    obtain rfl := hstep
    exact ⟨⟨hs.rendered, hs.rows, hs.seq_le⟩, Finset.Subset.refl _, .refl⟩

theorem marked_of_steps {events : List ClaimStatusEvent} (hs : s.Consistent)
    (hrun : Steps (fun event s s' => event.Safe P network s ∧ Step P network event s s') events s s') :
    s'.Consistent ∧ s.chain.spent ⊆ s'.chain.spent ∧ s.orders.Into (TrackedOrder.Marked P s.chain.spent s'.chain.spent) s'.orders := by
  apply hrun.invariant (I := fun t => t.Consistent ∧ s.chain.spent ⊆ t.chain.spent ∧
    s.orders.Into (TrackedOrder.Marked P s.chain.spent t.chain.spent) t.orders)
  · intro event _ t t' ht hevent
    obtain ⟨hconsistent, hgrow, hinto⟩ := ht
    obtain ⟨hconsistent', hgrow', hinto'⟩ := hevent.2.marked hconsistent hevent.1
    refine ⟨hconsistent', hgrow.trans hgrow', ?_, ?_⟩
    · intro o ho
      obtain ⟨o', ho', hmarked⟩ := hinto.1 o ho
      obtain ⟨o'', ho'', hmarked'⟩ := hinto'.1 o' ho'
      exact ⟨o'', ho'', hmarked.trans hmarked' hgrow hgrow'⟩
    · intro o'' ho''
      obtain ⟨o', ho', hmarked'⟩ := hinto'.2 o'' ho''
      obtain ⟨o, ho, hmarked⟩ := hinto.2 o' ho'
      exact ⟨o, ho, hmarked.trans hmarked' hgrow hgrow'⟩
  · exact ⟨hs, Finset.Subset.refl _, .refl⟩

end ClaimStatus

/-- **Marks are kept.** Between any two states of a run of safe steps, each order is marked by spent leaves only and loses no mark of a spent leaf. -/
theorem claim_marks_kept (P : Poseidon) (network : ClaimNetwork) {chain : ClaimChain} {orders : OrderList}
    {events events' : List ClaimStatusEvent} {s s' : ClaimStatus}
    (hrun : Steps (fun event s s' => event.Safe P network s ∧ ClaimStatus.Step P network event s s') events (.opened chain orders) s)
    (hthen : Steps (fun event s s' => event.Safe P network s ∧ ClaimStatus.Step P network event s s') events' s s') :
    ∀ o ∈ s.orders.orders, ∃ o' ∈ s'.orders.orders, o.Marked P s.chain.spent s'.chain.spent o' :=
  (ClaimStatus.marked_of_steps (ClaimStatus.marked_of_steps (.opened chain orders) hrun).1 hthen).2.2.1

/-! ### A claim that the indexer has not seen -/

def markPoseidon : Poseidon := .ofTable [([Sdk.tagClaimNull, 1, 0, 9], 7)] (by decide) (by decide +kernel)

def markClaim : OrderClaim := ⟨1, "0xaa", "0xbb", 5, 0, 0, some 9⟩

/-- An order of one leaf, which is ready to claim. -/
def markOrder : TrackedOrder := { label := "ord-1", claim := none, claims := some [markClaim], id := "o1", status := .claimable, claimedLeafIndexes := none }

def markOrders : OrderList := ⟨[markOrder], List.nodup_singleton _⟩

def noClaims : ClaimChain := ⟨∅, ∅, Finset.Subset.refl _⟩

def markNetwork : ClaimNetwork := ⟨true, true, true⟩

/-- The provider's answers once the claim is on chain. -/
def markProbe (n : ℕ) : Option Bool := some (n = 7)

/-- The claim lands, and a manual pass records it. -/
def markRecorded : List ClaimStatusEvent := [.claim 7, .start true, .answer 0 none markProbe, .render, .mirror]

/-- The order and its only pass, before the answer and after. -/
def markPass (seq : ℕ) (direct : Bool) (asked : Finset ℕ) : ClaimPass := ⟨seq, direct, [⟨"o1", 1, 0, 9⟩], ["o1"], asked⟩

def markedOrders : OrderList := ⟨[{ markOrder with status := .claimed, claimedLeafIndexes := some [0] }], List.nodup_singleton _⟩

def unmarkedOrders : OrderList := ⟨[{ markOrder with claimedLeafIndexes := some [] }], List.nodup_singleton _⟩

def oneClaim : ClaimChain := ⟨{7}, ∅, Finset.empty_subset _⟩

def markedStatus : ClaimStatus := ⟨oneClaim, markedOrders, markedOrders, markedOrders, 1, false, false, []⟩

theorem answers_probe {s : ClaimStatus} (pass : ClaimPass) (hspent : 7 ∈ s.chain.spent) : s.Answers markPoseidon pass none markProbe where
  indexed spent h := by cases h
  retained spent h := by cases h
  probed n hn := by
    obtain rfl : n = 7 := of_decide_eq_true (Option.some.inj hn)
    exact hspent

theorem safe_steps_marked : Steps (fun event s s' => event.Safe markPoseidon markNetwork s ∧ ClaimStatus.Step markPoseidon markNetwork event s s')
    markRecorded (.opened noClaims markOrders) markedStatus := by
  refine ⟨⟨oneClaim, markOrders, markOrders, markOrders, 0, false, false, []⟩, ⟨trivial, rfl⟩,
    ⟨oneClaim, markOrders, markOrders, markOrders, 1, false, true, [markPass 1 true ∅]⟩, ⟨trivial, ?_⟩,
    ⟨oneClaim, markedOrders, markOrders, markOrders, 1, false, false, []⟩,
    ⟨?_, [], markPass 1 true ∅, [], rfl, rfl, answers_probe _ (Finset.mem_singleton_self 7), ?_⟩, _, ⟨trivial, rfl⟩, _, ⟨trivial, rfl⟩, rfl⟩
  · show _ = ClaimStatus.start markNetwork true _
    decide +kernel
  · intro pass hpass _
    obtain rfl := Option.some.inj hpass
    exact ⟨rfl, rfl, fun _ hnot => absurd ⟨rfl, rfl⟩ hnot⟩
  · decide +kernel

def indexedClaim : ClaimChain := ⟨{7}, {7}, Finset.Subset.refl _⟩

/-- The indexer sees the claim, and a background pass asks it. -/
def indexedStatus (passSeq : ℕ) (running : Bool) (passes : List ClaimPass) : ClaimStatus :=
  ⟨indexedClaim, markedOrders, markedOrders, markedOrders, passSeq, running, false, passes⟩

theorem claim_marks_kept_indexed : ∃ o ∈ markedStatus.orders.orders, ∃ o' ∈ (indexedStatus 2 false []).orders.orders,
    o.Marked markPoseidon markedStatus.chain.spent (indexedStatus 2 false []).chain.spent o' := by
  have hthen : Steps (fun event s s' => event.Safe markPoseidon markNetwork s ∧ ClaimStatus.Step markPoseidon markNetwork event s s')
      [.index 7, .start false, .answer 0 (some {7}) markProbe] markedStatus (indexedStatus 2 false []) := by
    refine ⟨indexedStatus 1 false [], ⟨trivial, Finset.mem_singleton_self 7, rfl⟩, indexedStatus 2 true [markPass 2 false {7}],
      ⟨trivial, ?_⟩, _, ⟨?_, [], markPass 2 false {7}, [], rfl, rfl, ⟨?_, ?_, ?_⟩, ?_⟩, rfl⟩
    · show _ = ClaimStatus.start markNetwork false _
      decide +kernel
    · intro pass hpass _
      obtain rfl := Option.some.inj hpass
      exact ⟨rfl, rfl, fun _ _ _ o _ _ c _ n _ hspent _ => hspent⟩
    · intro spent h
      obtain rfl := Option.some.inj h
      exact Finset.Subset.refl _
    · intro spent h row hrow n hn hasked
      obtain rfl := Option.some.inj h
      exact hasked
    · exact (answers_probe (markPass 2 false {7}) (Finset.mem_singleton_self 7)).probed
    · decide +kernel
  exact ⟨_, List.mem_singleton_self _, claim_marks_kept markPoseidon markNetwork safe_steps_marked hthen _ (List.mem_singleton_self _)⟩

/-- A background pass, answered by an indexer that has not seen the claim, drops the mark. -/
theorem marks_lost : ∃ s s', Steps (ClaimStatus.Step markPoseidon markNetwork) markRecorded (.opened noClaims markOrders) s ∧
    Steps (ClaimStatus.Step markPoseidon markNetwork) [.start false, .answer 0 (some ∅) markProbe] s s' ∧
    markOrder.AllSpentIn markPoseidon s.chain.spent ∧ s.orders = markedOrders ∧ s'.orders = unmarkedOrders := by
  have hmarked : Steps (ClaimStatus.Step markPoseidon markNetwork) markRecorded (.opened noClaims markOrders) markedStatus :=
    safe_steps_marked.mono fun _ _ _ hstep => hstep.2
  refine ⟨markedStatus, ⟨oneClaim, unmarkedOrders, markedOrders, markedOrders, 2, false, false, []⟩, hmarked,
    ⟨⟨oneClaim, markedOrders, markedOrders, markedOrders, 2, true, false, [markPass 2 false ∅]⟩, ?_,
      _, ⟨[], markPass 2 false ∅, [], rfl, rfl, ⟨?_, ?_, ?_⟩, ?_⟩, rfl⟩, ?_, rfl, rfl⟩
  · show _ = ClaimStatus.start markNetwork false _
    decide +kernel
  · intro spent h
    obtain rfl := Option.some.inj h
    exact Finset.empty_subset _
  · intro spent h row hrow n hn hasked
    exact absurd hasked (Finset.notMem_empty n)
  · exact (answers_probe (markPass 2 false ∅) (Finset.mem_singleton_self 7)).probed
  · decide +kernel
  · intro c hc
    obtain rfl := List.mem_singleton.mp hc
    exact ⟨7, by decide +kernel, Finset.mem_singleton_self 7⟩

end Pro

end ScatterDex
