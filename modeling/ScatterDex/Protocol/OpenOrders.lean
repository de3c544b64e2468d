import ScatterDex.SharedOrderbook.OrderRoutes

/-!
# The book in memory and its database

Every handler closes or opens a listing on both sides. They part in two places: a relayer that goes stale has its listings closed in memory only, and a closed row that a restart left out of memory keeps its key.
-/

namespace ScatterDex

open Fallible Transactions

namespace SharedOrderbook

/-- The open listings in memory are the open rows. -/
def Service.Agrees (s : Service) : Prop := s.book.orders.opens = s.db.opens

/-- Neither side gained or lost an open order. -/
def Service.SameOpens (s s' : Service) : Prop :=
  s'.book.orders.opens = s.book.orders.opens ∧ s'.db.opens = s.db.opens

/-- The limits of the book leave room for an order of a relayer. -/
def Orderbook.HasRoom (cfg : Config) (book : Orderbook) (relayer : Address) : Prop :=
  book.orders.rows.length < cfg.maxOrders ∧
    (book.relayers.lookup relayer).elim 0 RelayerInfo.orderCount < cfg.maxOrdersPerRelayer

/-- A step away from the two places: a post that passes the checks and finds room does not use the id of a row that is not in memory, and no relayer goes stale with open listings. -/
def ServiceStep.Synced (cfg : Config) (s : Service) : ServiceStep → Prop
  | .post relayerAddress relayerUrl guard body now =>
    relayerUrl ≠ "" → guard = .ok () → cfg.isHttpUrl relayerUrl = true →
      ∀ order, parseOrderSummary body relayerAddress relayerUrl now = .ok order →
        s.book.orders.lookup order.id = none → s.book.HasRoom cfg relayerAddress → s.db.lookup order.id = none
  | .purgeStaleRelayers now =>
    ∀ address ∈ s.book.staleRelayers 600 now, ∀ id ∈ s.book.relayerOrders address,
      ∀ stored ∈ s.book.orders.lookup id, stored.status ≠ .opened
  | _ => True

variable {cfg : Config} {s : Service}

theorem parseOrderSummary_fields {body : OrderBody} {relayer : Address} {relayerUrl : String} {now : ℕ}
    {order : OrderSummary} (hparse : parseOrderSummary body relayer relayerUrl now = .ok order) :
    order.relayer = relayer ∧ order.id = body.id := by
  simp only [parseOrderSummary, bind_eq_ok, pure_eq_ok] at hparse
  obtain ⟨_, _, _, _, _, _, _, _, _, _, _, _, _, _, _, _, _, _, _, _, _, _, rfl⟩ := hparse
  exact ⟨rfl, rfl⟩

theorem Orderbook.HasRoom.of_addOrder {book book' : Orderbook} {relayer : Address} {relayerUrl : String} {now : ℕ}
    {order : OrderSummary} (hregister : s.book.registerRelayer cfg relayer relayerUrl none now = .ok book)
    (hrelayer : order.relayer = relayer) (hadd : book.addOrder cfg order = .ok book') : s.book.HasRoom cfg relayer := by
  simp only [registerRelayer, bind_eq_ok, pure_eq_ok] at hregister
  obtain ⟨-, -, rfl⟩ := hregister
  simp only [addOrder, bind_eq_ok, require_eq_ok] at hadd
  obtain ⟨-, -, -, hsize, -, hcount, -⟩ := hadd
  refine ⟨hsize, ?_⟩
  exact hcount _ (Table.lookup_eq_some.mpr ⟨Table.mem_put.mpr (Or.inl rfl), hrelayer.symm⟩)

/-- A closed listing under an id leaves no open order under it. -/
theorem OrdersTable.opens_closed {table : OrdersTable} {id : String} {stored : StoredOrder}
    (hlookup : table.lookup id = some stored) (hclosed : stored.status ≠ .opened) :
    {o ∈ table.opens | o.id ≠ id} = table.opens := by
  obtain ⟨hstored, hstoredId⟩ := Table.lookup_eq_some.mp hlookup
  apply OrdersTable.opens_without
  intro row hrow hid
  rw [table.eq_of_key hrow hstored (hid.trans hstoredId.symm)]
  exact hclosed

namespace Service

/-- A response that keeps the two sides together, and an error that changes neither. -/
structure Answers (s : Service) (r : Service × Response) : Prop where
  agrees : r.1.Agrees
  error : ∀ status msg, r.2 = .error status msg → s.SameOpens r.1

theorem Answers.of_same (hs : s.Agrees) {r : Service × Response} (hsame : s.SameOpens r.1) : s.Answers r :=
  ⟨hsame.1.trans (hs.trans hsame.2.symm), fun _ _ _ => hsame⟩

theorem addOrder_answers (hs : s.Agrees) {cleared : Service} (hsame : s.SameOpens cleared) {order : OrderSummary}
    (hfree : ∀ book, cleared.book.addOrder cfg order = .ok book → cleared.db.lookup order.id = none) :
    s.Answers (cleared.addOrder cfg order) := by
  unfold addOrder
  cases hadd : cleared.book.addOrder cfg order with
  | error msg => exact .of_same hs hsame
  | ok book =>
    obtain ⟨db, hinsert⟩ := OrdersTable.insertOrder_eq_ok (hfree book hadd)
    simp only [hinsert]
    refine ⟨?_, fun _ _ herror => by cases herror⟩
    calc book.orders.opens = insert order cleared.book.orders.opens := Orderbook.opens_addOrder hadd
      _ = insert order cleared.db.opens := by rw [hsame.1, hs, hsame.2]
      _ = db.opens := (OrdersTable.opens_insertOrder hinsert).symm

theorem postOrder_answers (hs : s.Agrees) {relayerAddress : Address} {relayerUrl : String}
    {guard : Except String Unit} {body : OrderBody} {now : ℕ}
    (hsynced : (ServiceStep.post relayerAddress relayerUrl guard body now).Synced cfg s) :
    s.Answers (s.postOrder cfg relayerAddress relayerUrl guard body now) := by
  unfold postOrder
  split
  · exact .of_same hs ⟨rfl, rfl⟩
  rename_i hurl
  cases guard with
  | error msg => exact .of_same hs ⟨rfl, rfl⟩
  | ok u =>
    dsimp only
    cases hregister : s.book.registerRelayer cfg relayerAddress relayerUrl none now with
    | error msg => exact .of_same hs ⟨rfl, rfl⟩
    | ok book =>
      have horders := Orderbook.registerRelayer_orders hregister
      have hregistered : s.SameOpens ⟨book, s.db⟩ := ⟨congrArg _ horders, rfl⟩
      dsimp only
      cases hparse : parseOrderSummary body relayerAddress relayerUrl now with
      | error msg => exact .of_same hs hregistered
      | ok order =>
        dsimp only
        rw [horders]
        cases hlookup : s.book.orders.lookup order.id with
        | none =>
          refine addOrder_answers hs hregistered fun book' hadd => ?_
          exact hsynced hurl rfl (Orderbook.registerRelayer_url hregister) order hparse hlookup
            (.of_addOrder hregister (parseOrderSummary_fields hparse).1 hadd)
        | some existing =>
          dsimp only
          split
          · exact .of_same hs hregistered
          · rename_i hclosed
            have hkept := OrdersTable.opens_closed hlookup hclosed
            refine addOrder_answers hs ⟨?_, ?_⟩ fun _ _ => OrdersTable.lookup_deleteOrder
            · exact (Orderbook.opens_removeOrder.trans (by rw [horders])).trans hkept
            · rw [OrdersTable.opens_deleteOrder, ← hs, hkept]

theorem closeOrder_answers (hs : s.Agrees) {relayerAddress : Address} {id verb : String} {status : OrderStatus}
    (hstatus : status ≠ .opened) : s.Answers (s.closeOrder relayerAddress id status verb) := by
  unfold closeOrder
  split
  · exact .of_same hs ⟨rfl, rfl⟩
  split
  · exact .of_same hs ⟨rfl, rfl⟩
  split
  · exact .of_same hs ⟨rfl, rfl⟩
  · refine ⟨?_, fun _ _ herror => by cases herror⟩
    calc (s.book.updateStatus id status).orders.opens = {o ∈ s.book.orders.opens | o.id ≠ id} :=
          Orderbook.opens_updateStatus hstatus
      _ = {o ∈ s.db.opens | o.id ≠ id} := by rw [hs]
      _ = (s.db.updateStatus id status).opens := (OrdersTable.opens_updateStatus hstatus).symm

theorem register_answers (hs : s.Agrees) {relayerAddress : Address} {relayerUrl : String} {guard : Except String Unit}
    {name : Option String} {now : ℕ} : s.Answers (s.register cfg relayerAddress relayerUrl guard name now) := by
  unfold register
  split
  · exact .of_same hs ⟨rfl, rfl⟩
  · split
    · exact .of_same hs ⟨rfl, rfl⟩
    · rename_i hregister
      exact .of_same hs ⟨congrArg _ (Orderbook.registerRelayer_orders hregister), rfl⟩

theorem heartbeat_answers (hs : s.Agrees) {relayerAddress : Address} {now : ℕ} :
    s.Answers (s.heartbeat relayerAddress now) := by
  unfold heartbeat
  split
  · exact .of_same hs ⟨rfl, rfl⟩
  · rename_i book hknown
    have horders : book.orders = s.book.orders := by
      rw [← s.book.heartbeat_orders relayerAddress now, hknown]
    exact .of_same hs ⟨congrArg _ horders, rfl⟩

theorem purgeExpired_agrees (hs : s.Agrees) {now : ℕ} : (s.purgeExpired now).Agrees := by
  calc (s.book.purgeExpired now).1.orders.opens = {o ∈ s.book.orders.opens | o.id ∉ (s.book.purgeExpired now).2} :=
        Orderbook.opens_purgeExpired
    _ = {o ∈ s.db.opens | o.id ∉ (s.book.purgeExpired now).2} := by rw [hs]
    _ = (s.db.expireByIds (s.book.purgeExpired now).2).opens := OrdersTable.opens_expireByIds.symm

theorem start_agrees {db : OrdersTable} : (start db).Agrees := by
  have hopen : db.loadAllOpen.filter (fun row => decide (row.status = .opened)) = db.loadAllOpen :=
    List.filter_eq_self.mpr fun row hrow => decide_eq_true (OrdersTable.mem_loadAllOpen.mp hrow).2
  show (Orderbook.empty.loadFromStored db.loadAllOpen).orders.opens = db.opens
  rw [Orderbook.loadFromStored_orders, hopen]
  ext o
  constructor
  · rintro ⟨row, hrow, rfl, hrowOpen⟩
    rcases (Table.mem_foldl_put OrdersTable.loadAllOpen_distinct).mp hrow with hloaded | ⟨hnone, -⟩
    · exact ⟨row, (OrdersTable.mem_loadAllOpen.mp hloaded).1, rfl, hrowOpen⟩
    · exact absurd hnone List.not_mem_nil
  · rintro ⟨row, hrow, rfl, hrowOpen⟩
    exact ⟨row, (Table.mem_foldl_put OrdersTable.loadAllOpen_distinct).mpr
      (Or.inl (OrdersTable.mem_loadAllOpen.mpr ⟨hrow, hrowOpen⟩)), rfl, hrowOpen⟩

end Service

/-- A step keeps the two sides together, and when it answers with an error neither has changed. -/
theorem ServiceStep.apply_agrees (hs : s.Agrees) {step : ServiceStep} (hsynced : step.Synced cfg s) :
    (step.apply cfg s).1.Agrees ∧
      ∀ status msg, (step.apply cfg s).2 = some (.error status msg) → s.SameOpens (step.apply cfg s).1 := by
  have hanswer : ∀ r : Service × Response, s.Answers r → r.1.Agrees ∧
      ∀ status msg, some r.2 = some (.error status msg) → s.SameOpens r.1 :=
    fun r hr => ⟨hr.agrees, fun status msg herror => hr.error status msg (Option.some.inj herror)⟩
  cases step with
  | post relayerAddress relayerUrl guard body now => exact hanswer _ (Service.postOrder_answers hs hsynced)
  | delete relayerAddress orderId => exact hanswer _ (Service.closeOrder_answers hs (by decide))
  | matched relayerAddress orderId => exact hanswer _ (Service.closeOrder_answers hs (by decide))
  | register relayerAddress relayerUrl guard name now => exact hanswer _ (Service.register_answers hs)
  | heartbeat relayerAddress now => exact hanswer _ (Service.heartbeat_answers hs)
  | purgeExpired now => exact ⟨Service.purgeExpired_agrees hs, fun _ _ hnone => by cases hnone⟩
  | purgeStaleRelayers now =>
    have horders : (s.book.purgeStaleRelayers 600 now).orders = s.book.orders :=
      Orderbook.purgeStaleRelayers_orders hsynced
    exact ⟨(congrArg _ horders).trans hs, fun _ _ hnone => by cases hnone⟩
  | restart => exact ⟨Service.start_agrees, fun _ _ hnone => by cases hnone⟩

/-- **The book and the database agree on the open orders** in every state of a run of a process started on any database, and errors change neither, as long as the run stays away from the two places. -/
theorem opens_agree {db : OrdersTable} {steps : List ServiceStep}
    (hsynced : Along (ServiceStep.run cfg) (fun s step => step.Synced cfg s) (Service.start db) steps) :
    (after (ServiceStep.run cfg) (Service.start db) steps).Agrees ∧
      Along (ServiceStep.run cfg) (fun s step => s.Agrees ∧
        ∀ status msg, (step.apply cfg s).2 = some (.error status msg) → s.SameOpens (step.apply cfg s).1)
        (Service.start db) steps := by
  have hkeep : ∀ (s : Service) (step : ServiceStep) (s' : Service), s.Agrees → step.Synced cfg s →
      step.run cfg s = .ok s' → s'.Agrees := by
    intro s step s' hs hstep hrun
    cases hrun
    exact (ServiceStep.apply_agrees hs hstep).1
  refine ⟨invariant_along hkeep Service.start_agrees hsynced, ?_⟩
  exact along_of_invariant hkeep (fun s step hs hstep => ⟨hs, (ServiceStep.apply_agrees hs hstep).2⟩)
    Service.start_agrees hsynced

def smallConfig : Config := ⟨10, 10, fun _ => true⟩

def listing : OrderBody where
  id := "0x1111111111111111111111111111111111111111111111111111111111111111"
  chainId := none
  sellToken := some 1
  buyToken := some 2
  sellAmount := .value 100
  buyAmount := .value 200
  minFillAmount := .value 0
  maxFee := some 30
  expiry := some 100000

def listed : ServiceStep := .post 5 "https://relayer" (.ok ()) listing 1000

/-- A listing, its cancellation, a second listing of the same id, a repeated one that is refused, and a restart. -/
def relisting : List ServiceStep := [listed, .delete 5 listing.id, listed, listed, .restart]

theorem listed_synced (hheld : (s.book.orders.lookup listing.id).isSome = true) : listed.Synced smallConfig s := by
  intro _ _ _ order hparse hnone
  rw [(parseOrderSummary_fields hparse).2] at hnone
  rw [hnone] at hheld
  cases hheld

theorem opens_agree_relisting :
    (after (ServiceStep.run smallConfig) (Service.start Table.empty) relisting).Agrees := by
  have hsynced : Along (ServiceStep.run smallConfig) (fun s step => step.Synced smallConfig s)
      (Service.start Table.empty) relisting :=
    ⟨fun _ _ _ _ _ _ _ => rfl, trivial, listed_synced (by decide +kernel), listed_synced (by decide +kernel), trivial,
      trivial⟩
  exact (opens_agree hsynced).1

/-- In the first run the relayer goes stale; in the second its cancelled listing outlives a restart. -/
def staleRun : List ServiceStep := [listed, .purgeStaleRelayers 1601]

def restartedRun : List ServiceStep := [listed, .delete 5 listing.id, .restart]

theorem opens_part :
    ¬(after (ServiceStep.run smallConfig) (Service.start Table.empty) staleRun).Agrees ∧
      (listed.apply smallConfig (after (ServiceStep.run smallConfig) (Service.start Table.empty) restartedRun)).2 =
        some (.error 400 "UNIQUE constraint failed: orders.id") ∧
      ¬(after (ServiceStep.run smallConfig) (Service.start Table.empty) restartedRun).SameOpens
        (listed.apply smallConfig (after (ServiceStep.run smallConfig) (Service.start Table.empty) restartedRun)).1 := by
  refine ⟨fun hagrees => ?_, by decide +kernel, fun hsame => ?_⟩
  · -- the row is open, the listing is not
    obtain ⟨row, hrow, hopen⟩ : ∃ row ∈ (after (ServiceStep.run smallConfig) (Service.start Table.empty) staleRun).db.rows,
      row.status = .opened := by decide +kernel
    have hclosed : ∀ row ∈ (after (ServiceStep.run smallConfig) (Service.start Table.empty) staleRun).book.orders.rows,
      row.status ≠ .opened := by decide +kernel
    obtain ⟨listing, hlisting, -, hlistingOpen⟩ := hagrees.symm.subset ⟨row, hrow, rfl, hopen⟩
    exact hclosed listing hlisting hlistingOpen
  · -- the refused post left an open listing where there was none
    obtain ⟨listing, hlisting, hopen⟩ : ∃ row ∈ (listed.apply smallConfig
        (after (ServiceStep.run smallConfig) (Service.start Table.empty) restartedRun)).1.book.orders.rows,
      row.status = .opened := by decide +kernel
    have hnone : (after (ServiceStep.run smallConfig) (Service.start Table.empty) restartedRun).book.orders.rows = [] := by
      decide +kernel
    obtain ⟨before, hbefore, -⟩ := hsame.1.subset ⟨listing, hlisting, rfl, hopen⟩
    rw [hnone] at hbefore
    cases hbefore

end SharedOrderbook

end ScatterDex
