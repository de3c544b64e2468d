import ScatterDex.Relayer.OrderKeys

/-!
# One order for one nullifier

Whatever is submitted, rows and entries agree and every live order holds one slot. As long as every accepted nullifier is spelled as its decimal digits, the text identifies the field element: a second submission is a replay, a cancellation finds the order, and a boot keeps it.
-/

namespace ScatterDex

open Sdk Fallible

namespace Relayer

variable {routes : OrderRoutes} {p : String → Prop} {s s' : OrderStore}

/-! ### Decimal digits -/

theorem toNat_nonneg_bigIntToString {v : ℤ} (hv : 0 ≤ v) : bigIntToString 10 v = Nat.toDigits 10 v.toNat := by
  rw [bigIntToString, if_neg (not_lt.mpr hv)]

theorem isDigit_of_mem_toDigits {n : ℕ} {c : Char} (hc : c ∈ Nat.toDigits 10 n) : isDigit c = true := by
  have hall : ∀ d < 10, isDigit d.digitChar = true := by decide
  induction n using Nat.strongRecOn generalizing c with
  | ind n ih =>
    rw [Nat.toDigits_eq_if (by decide)] at hc
    split at hc
    · next hlt =>
      rw [List.mem_singleton.mp hc]
      exact hall n hlt
    · next hge =>
      cases List.mem_append.mp hc with
      | inl hfirst => exact ih (n / 10) (Nat.div_lt_self (by omega) (by decide)) hfirst
      | inr hlast =>
        rw [List.mem_singleton.mp hlast]
        exact hall (n % 10) (Nat.mod_lt n (by decide))

theorem isDigits_decimalText {v : ℤ} (hv : 0 ≤ v) : OrderStore.isDigits (decimalText v) = true := by
  rw [OrderStore.isDigits, decimalText, toNat_nonneg_bigIntToString hv, String.toList_ofList]
  exact decide_eq_true ⟨Nat.toDigits_ne_nil, List.all_eq_true.mpr fun c hc => isDigit_of_mem_toDigits hc⟩

/-! ### What a submission leaves -/

/-- A body that passed the checks, under a key of a kind -/
structure Submitted (p : String → Prop) (body : AuthorizeOrderBody) : Prop where
  reads : toBigInt (body.text .nullifier) = .ok (body.value .nullifier)
  nonneg : 0 ≤ body.value .nullifier
  key : p (body.text .nullifier)

theorem Submitted.of_valid {body : AuthorizeOrderBody} {relayerAddress : String} {nowSeconds : ℕ}
    (hvalid : body.validateAuthorizeOrder relayerAddress nowSeconds = .ok ()) (hkey : p (body.text .nullifier)) : Submitted p body := by
  have haccepted := AuthorizeOrderBody.validateAuthorizeOrder_ok hvalid
  exact ⟨haccepted.reads .nullifier, haccepted.nonneg .nullifier, hkey⟩

namespace OrderStore

/-- The slots of a public key: its live orders, and its submissions at the verifier. -/
def occupied (s : OrderStore) (id : ℤ × ℤ) : ℕ :=
  s.authorizeOrders.rows.countP (fun e => e.status.isLiveStatus ∧ e.pubKey = id) + s.posts.countP fun post => post.slot = some id

/-- Rows and entries are the same orders, but for slots that one turn of a handler has in its hands. -/
structure KeyedWith (p : String → Prop) (held : ℤ × ℤ → ℕ) (s : OrderStore) : Prop where
  key : ∀ o ∈ s.rows.rows, o.nullifier = o.body.text .nullifier
  submitted : ∀ o ∈ s.rows.rows, Submitted p o.body
  entries : ∀ e ∈ s.authorizeOrders.rows, e ∈ s.rows.rows
  live : ∀ o ∈ s.rows.rows, o.status.isLiveStatus = true → o ∈ s.authorizeOrders.rows
  posts : ∀ post ∈ s.posts, Submitted p post.body
  slots : ∀ id, s.pendingCountByPubKey id = s.occupied id + held id

abbrev Keyed (p : String → Prop) (s : OrderStore) : Prop := s.KeyedWith p fun _ => 0

/-- The one slot of a public key -/
def oneSlot (id id' : ℤ × ℤ) : ℕ := if id' = id then 1 else 0

variable {held : ℤ × ℤ → ℕ} {id : ℤ × ℤ}

theorem keyed_start : Keyed p start where
  key _ ho := absurd ho List.not_mem_nil
  submitted _ ho := absurd ho List.not_mem_nil
  entries _ he := absurd he List.not_mem_nil
  live _ ho := absurd ho List.not_mem_nil
  posts _ hpost := absurd hpost List.not_mem_nil
  slots _ := rfl

theorem KeyedWith.incPubKeyCount (hs : s.Keyed p) (id : ℤ × ℤ) : (s.incPubKeyCount id).KeyedWith p (oneSlot id) := by
  refine ⟨hs.key, hs.submitted, hs.entries, hs.live, hs.posts, fun id' => ?_⟩
  show Function.update s.pendingCountByPubKey id (s.pendingCountByPubKey id + 1) id' = s.occupied id' + oneSlot id id'
  rw [oneSlot]
  split
  · next heq =>
    rw [heq, Function.update_self, hs.slots]
  · next hne =>
    rw [Function.update_of_ne hne, hs.slots]

theorem KeyedWith.decPubKeyCount (hs : s.KeyedWith p (oneSlot id)) : (s.decPubKeyCount id).Keyed p := by
  refine ⟨hs.key, hs.submitted, hs.entries, hs.live, hs.posts, fun id' => ?_⟩
  show Function.update s.pendingCountByPubKey id (s.pendingCountByPubKey id - 1) id' = s.occupied id' + 0
  have hslots := hs.slots id'
  rw [oneSlot] at hslots
  by_cases hid : id' = id
  · subst hid
    rw [if_pos rfl] at hslots
    rw [Function.update_self, hslots, Nat.add_sub_cancel]
    rfl
  · rw [if_neg hid] at hslots
    rw [Function.update_of_ne hid, hslots]

theorem countP_eraseIdx {α : Type} {l : List α} {i : ℕ} {a : α} (q : α → Bool) (ha : l[i]? = some a) :
    l.countP q = (l.eraseIdx i).countP q + if q a then 1 else 0 := by
  obtain ⟨hi, heq⟩ := List.getElem?_eq_some_iff.mp ha
  have hsplit : l = l.take i ++ a :: l.drop (i + 1) := by
    rw [← heq, List.getElem_cons_drop, List.take_append_drop]
  rw [List.eraseIdx_eq_take_drop_succ, List.countP_append]
  conv_lhs => rw [hsplit]
  rw [List.countP_append, List.countP_cons, Nat.add_assoc]

theorem KeyedWith.dropPost {i : ℕ} {post : PendingPost} (hs : s.Keyed p) (hpost : s.posts[i]? = some post) :
    (s.dropPost i).KeyedWith p fun id => if post.slot = some id then 1 else 0 := by
  refine ⟨hs.key, hs.submitted, hs.entries, hs.live, fun q hq => hs.posts q ((List.eraseIdx_sublist _ _).subset hq), fun id => ?_⟩
  have hcount := countP_eraseIdx (fun post => post.slot = some id) hpost
  have hslots := hs.slots id
  simp only [occupied, decide_eq_true_eq] at hslots hcount ⊢
  show s.pendingCountByPubKey id = s.authorizeOrders.rows.countP _ + (s.posts.eraseIdx i).countP _ + _
  omega

theorem KeyedWith.dropHashed {i : ℕ} {post : PendingPost} (hs : s.Keyed p) (hpost : s.posts[i]? = some post) (hslot : post.slot = none) :
    (s.dropPost i).Keyed p := by
  have hdrop := hs.dropPost hpost
  simpa only [hslot, reduceCtorEq, if_false] using hdrop

theorem KeyedWith.dropVerified {i : ℕ} {post : PendingPost} (hs : s.Keyed p) (hpost : s.posts[i]? = some post) (hslot : post.slot = some id) :
    (s.dropPost i).KeyedWith p (oneSlot id) := by
  have hdrop := hs.dropPost hpost
  have heq : (fun id' => if post.slot = some id' then 1 else 0) = oneSlot id := by
    funext id'
    rw [hslot, oneSlot]
    exact if_congr (by rw [Option.some_inj]; exact eq_comm) rfl rfl
  rwa [heq] at hdrop

theorem entry_free (hs : s.KeyedWith p held) {nullifier : String} (hfree : nullifier ∉ s.rows.rows.map KeyedOrder.nullifier) :
    nullifier ∉ s.authorizeOrders.rows.map KeyedOrder.nullifier := by
  intro hmem
  obtain ⟨e, he, heq⟩ := List.mem_map.mp hmem
  exact hfree (List.mem_map.mpr ⟨e, hs.entries e he, heq⟩)

theorem KeyedWith.insertAccepted {body : AuthorizeOrderBody} (hs : s.KeyedWith p (oneSlot id)) (hbody : Submitted p body) :
    (s.insertAccepted body id).1.Keyed p := by
  rw [OrderStore.insertAccepted]
  cases hinsert : s.rows.insert ⟨body.text .nullifier, body, .accepted, id⟩ with
  | none => exact hs.decPubKeyCount
  | some rows =>
    obtain ⟨hfree, hrows⟩ := Table.insert_eq_some.mp hinsert
    have hentries : (s.authorizeOrders.put ⟨body.text .nullifier, body, .accepted, id⟩).rows =
        s.authorizeOrders.rows ++ [⟨body.text .nullifier, body, .accepted, id⟩] := by
      rw [Table.put, dif_neg (entry_free hs hfree)]
    refine ⟨?_, ?_, ?_, ?_, hs.posts, ?_⟩
    · intro o ho
      rw [hrows] at ho
      cases List.mem_append.mp ho with
      | inl hold => exact hs.key o hold
      | inr hnew => rw [List.mem_singleton.mp hnew]
    · intro o ho
      rw [hrows] at ho
      cases List.mem_append.mp ho with
      | inl hold => exact hs.submitted o hold
      | inr hnew =>
        rw [List.mem_singleton.mp hnew]
        exact hbody
    · intro e he
      rw [hentries] at he
      rw [hrows]
      exact List.mem_append.mpr ((List.mem_append.mp he).imp_left (hs.entries e))
    · intro o ho hlive
      rw [hrows] at ho
      rw [hentries]
      exact List.mem_append.mpr ((List.mem_append.mp ho).imp_left fun hold => hs.live o hold hlive)
    · intro id'
      show s.pendingCountByPubKey id' = (s.authorizeOrders.put _).rows.countP _ + s.posts.countP _ + 0
      have hslots := hs.slots id'
      simp only [occupied, oneSlot] at hslots
      rw [hentries, List.countP_append, List.countP_singleton, hslots]
      by_cases hid : id' = id
      · subst hid
        simp [AuthorizeOrderStatus.isLiveStatus]
        omega
      · simp [hid, Ne.symm hid]

theorem KeyedWith.reserve {i : ℕ} {post : PendingPost} (hs : s.Keyed p) (hpost : s.posts[i]? = some post) (hslot : post.slot = none)
    (id : ℤ × ℤ) : Keyed p { s.incPubKeyCount id with posts := s.posts.set i { post with slot := some id } } := by
  obtain ⟨hi, heq⟩ := List.getElem?_eq_some_iff.mp hpost
  refine ⟨hs.key, hs.submitted, hs.entries, hs.live, ?_, ?_⟩
  · intro q hq
    cases List.mem_or_eq_of_mem_set hq with
    | inl hold => exact hs.posts q hold
    | inr hnew =>
      rw [hnew]
      exact hs.posts post (List.mem_of_getElem? hpost)
  · intro id'
    have hinc := (hs.incPubKeyCount id).slots id'
    have hset := @List.countP_set _ (fun post : PendingPost => post.slot = some id') s.posts i { post with slot := some id } hi
    rw [heq, hslot] at hset
    simp only [reduceCtorEq, decide_false, Bool.false_eq_true, if_false, Nat.sub_zero, Option.some_inj, decide_eq_true_eq] at hset
    show (s.incPubKeyCount id).pendingCountByPubKey id' = s.authorizeOrders.rows.countP _ + (s.posts.set i _).countP _ + 0
    rw [hset, hinc]
    show s.authorizeOrders.rows.countP _ + s.posts.countP _ + oneSlot id id' = _
    rw [oneSlot, if_congr (@eq_comm _ id' id) rfl rfl]
    omega

theorem KeyedWith.hashedPost {i : ℕ} {post : PendingPost} (hs : s.Keyed p) (hpost : s.posts[i]? = some post) (hslot : post.slot = none) :
    (s.hashedPost routes i post).1.Keyed p := by
  have hdrop := hs.dropHashed hpost hslot
  have hbody := hs.posts post (List.mem_of_getElem? hpost)
  unfold OrderStore.hashedPost
  split
  · split
    · exact hdrop
    · split
      · exact hdrop
      · next id hid =>
        split
        · exact hdrop
        · split
          · exact hdrop
          · split
            · exact hs.reserve hpost hslot id
            · exact (hdrop.incPubKeyCount id).insertAccepted hbody
  · exact hdrop

theorem KeyedWith.verifiedPost {i : ℕ} {post : PendingPost} (hs : s.Keyed p) (hpost : s.posts[i]? = some post) (hslot : post.slot = some id)
    (proofValid : Option Bool) : (s.verifiedPost i post id proofValid).1.Keyed p := by
  have hdrop := hs.dropVerified hpost hslot
  have hbody := hs.posts post (List.mem_of_getElem? hpost)
  unfold OrderStore.verifiedPost
  split
  · exact hdrop.insertAccepted hbody
  · exact hdrop.decPubKeyCount
  · exact hdrop.decPubKeyCount

theorem replay_row {o : KeyedOrder} (ho : o ∈ s.rows.rows) :
    s.replay o.nullifier = if o.status = .failed then none else some (.order (idempotencyHttpCode o.status) o.status) := by
  rw [replay, Table.lookup_eq_some.mpr ⟨ho, rfl⟩]

theorem KeyedWith.forgetFailed (hs : s.Keyed p) {nullifier : String} (hreplay : s.replay nullifier = none) :
    (s.forgetFailed nullifier).Keyed p := by
  rw [OrderStore.forgetFailed]
  split
  · next hsome =>
    obtain ⟨o, hlookup⟩ := Option.isSome_iff_exists.mp hsome
    obtain ⟨ho, hkey⟩ := Table.lookup_eq_some.mp hlookup
    have hfailed : o.status = .failed := by
      rw [← hkey, replay_row ho] at hreplay
      by_contra hstatus
      rw [if_neg hstatus] at hreplay
      exact absurd hreplay (by simp)
    refine ⟨fun o ho => hs.key o (Table.mem_delete.mp ho).1, fun o ho => hs.submitted o (Table.mem_delete.mp ho).1, ?_, ?_, hs.posts, ?_⟩
    · intro e he
      obtain ⟨hmem, hother⟩ := Table.mem_delete.mp he
      exact Table.mem_delete.mpr ⟨hs.entries e hmem, hother⟩
    · intro r hr hlive
      obtain ⟨hmem, hother⟩ := Table.mem_delete.mp hr
      exact Table.mem_delete.mpr ⟨hs.live r hmem hlive, hother⟩
    · intro id
      -- the entry that goes, if there is one, is the failed row and holds no slot
      rw [hs.slots id]
      show s.authorizeOrders.rows.countP _ + s.posts.countP _ + 0 = (s.authorizeOrders.delete _).rows.countP _ + s.posts.countP _ + 0
      rw [Table.delete, List.countP_filter]
      congr 2
      apply List.countP_congr
      intro e he
      by_cases hsame : e.nullifier = nullifier
      · have heq := s.rows.eq_of_key (hs.entries e he) ho (hsame.trans hkey.symm)
        simp [heq, hfailed, AuthorizeOrderStatus.isLiveStatus]
      · simp [hsame]
  · exact hs

theorem KeyedWith.addPost (hs : s.Keyed p) {body : AuthorizeOrderBody} (hbody : Submitted p body) (pubKeyAx pubKeyAy : String) :
    Keyed p { s with posts := s.posts ++ [⟨body, pubKeyAx, pubKeyAy, none⟩] } := by
  refine ⟨hs.key, hs.submitted, hs.entries, hs.live, ?_, ?_⟩
  · intro post hpost
    cases List.mem_append.mp hpost with
    | inl hold => exact hs.posts post hold
    | inr hnew =>
      rw [List.mem_singleton.mp hnew]
      exact hbody
  · intro id
    show s.pendingCountByPubKey id = s.authorizeOrders.rows.countP _ + (s.posts ++ [_]).countP _ + 0
    rw [List.countP_append, hs.slots id]
    rfl

theorem KeyedWith.receivePost (hs : s.Keyed p) {sub : OrderSubmission}
    (hsub : sub.body.validateAuthorizeOrder routes.relayerAddress sub.nowSeconds = .ok () → p (sub.body.text .nullifier)) :
    (s.receivePost routes sub).1.Keyed p := by
  unfold OrderStore.receivePost
  split
  · exact hs
  · next hvalid =>
    split
    · exact hs
    · next hreplay =>
      have hforgot := hs.forgetFailed hreplay
      dsimp only
      split
      · exact hforgot
      · split
        · exact hforgot
        · split
          · exact hforgot
          · exact hforgot.addPost (.of_valid hvalid (hsub hvalid)) _ _

/-! ### Failure, cancellation, restart -/

theorem mem_setStatus {nullifier : String} {status : AuthorizeOrderStatus} {t : KeyedOrders} {o' : KeyedOrder} :
    o' ∈ (KeyedOrders.setStatus t nullifier status).rows ↔ ∃ o ∈ t.rows, (if o.nullifier = nullifier then o.setStatus status else o) = o' := by
  rw [KeyedOrders.setStatus, Table.mem_update]
  simp only [decide_eq_true_eq]

theorem KeyedWith.setStatus (hs : s.Keyed p) {o : KeyedOrder} (ho : o ∈ s.rows.rows) (hlive : o.status.isLiveStatus = true)
    {status : AuthorizeOrderStatus} (hstatus : status.isLiveStatus = false) : (s.setStatus o.nullifier status).KeyedWith p (oneSlot o.pubKey) := by
  have hentry := hs.live o ho hlive
  refine ⟨?_, ?_, ?_, ?_, hs.posts, ?_⟩
  · intro r' hr'
    obtain ⟨r, hr, rfl⟩ := mem_setStatus.mp hr'
    split
    · exact hs.key r hr
    · exact hs.key r hr
  · intro r' hr'
    obtain ⟨r, hr, rfl⟩ := mem_setStatus.mp hr'
    split
    · exact hs.submitted r hr
    · exact hs.submitted r hr
  · intro e' he'
    obtain ⟨e, he, rfl⟩ := mem_setStatus.mp he'
    exact mem_setStatus.mpr ⟨e, hs.entries e he, rfl⟩
  · intro r' hr' hlive'
    obtain ⟨r, hr, rfl⟩ := mem_setStatus.mp hr'
    split at hlive'
    · exact absurd hlive' (by rw [KeyedOrder.setStatus, hstatus]; decide)
    · next hother => exact mem_setStatus.mpr ⟨r, hs.live r hr hlive', rfl⟩
  · intro id
    show s.pendingCountByPubKey id = (KeyedOrders.setStatus s.authorizeOrders _ _).rows.countP _ + s.posts.countP _ + oneSlot o.pubKey id
    have hcount := s.authorizeOrders.countP_delete (fun e => e.status.isLiveStatus ∧ e.pubKey = id) hentry
    have hrest : (KeyedOrders.setStatus s.authorizeOrders o.nullifier status).rows.countP
        (fun e => e.status.isLiveStatus ∧ e.pubKey = id) =
          (s.authorizeOrders.delete fun e => e.nullifier = o.nullifier).rows.countP fun e => e.status.isLiveStatus ∧ e.pubKey = id := by
      rw [KeyedOrders.setStatus, Table.update, Table.delete, List.countP_map, List.countP_filter]
      apply List.countP_congr
      intro e _
      by_cases hsame : e.nullifier = o.nullifier
      · simp [hsame, KeyedOrder.setStatus, hstatus]
      · simp [hsame]
    have hslots := hs.slots id
    rw [occupied, hcount, ← hrest] at hslots
    rw [hslots, oneSlot]
    simp only [hlive, true_and, decide_eq_true_eq, @eq_comm _ o.pubKey id]
    omega

theorem KeyedWith.settleFailed (hs : s.Keyed p) {o : KeyedOrder} (ho : o ∈ s.rows.rows) (hlive : o.status.isLiveStatus = true) :
    (s.settleFailed o).Keyed p :=
  (hs.setStatus ho hlive rfl).decPubKeyCount

theorem KeyedWith.setStatus_dead (hs : s.Keyed p) {o : KeyedOrder} (ho : o ∈ s.rows.rows) (hdead : o.status.isLiveStatus = false)
    {status : AuthorizeOrderStatus} (hstatus : status.isLiveStatus = false) : (s.setStatus o.nullifier status).Keyed p := by
  refine ⟨?_, ?_, ?_, ?_, hs.posts, ?_⟩
  · intro r' hr'
    obtain ⟨r, hr, rfl⟩ := mem_setStatus.mp hr'
    split
    · exact hs.key r hr
    · exact hs.key r hr
  · intro r' hr'
    obtain ⟨r, hr, rfl⟩ := mem_setStatus.mp hr'
    split
    · exact hs.submitted r hr
    · exact hs.submitted r hr
  · intro e' he'
    obtain ⟨e, he, rfl⟩ := mem_setStatus.mp he'
    exact mem_setStatus.mpr ⟨e, hs.entries e he, rfl⟩
  · intro r' hr' hlive'
    obtain ⟨r, hr, rfl⟩ := mem_setStatus.mp hr'
    split at hlive'
    · exact absurd hlive' (by rw [KeyedOrder.setStatus, hstatus]; decide)
    · next hother => exact mem_setStatus.mpr ⟨r, hs.live r hr hlive', rfl⟩
  · intro id
    rw [show (s.setStatus o.nullifier status).pendingCountByPubKey id = s.pendingCountByPubKey id from rfl, hs.slots id]
    show s.authorizeOrders.rows.countP _ + s.posts.countP _ + 0 = (KeyedOrders.setStatus s.authorizeOrders _ _).rows.countP _ + s.posts.countP _ + 0
    rw [KeyedOrders.setStatus, Table.update, List.countP_map]
    congr 2
    apply List.countP_congr
    intro e he
    by_cases hsame : e.nullifier = o.nullifier
    · have heq := s.rows.eq_of_key (hs.entries e he) ho hsame
      simp [heq, hdead, KeyedOrder.setStatus, hstatus]
    · simp [hsame]

theorem KeyedWith.dropEntry (hs : s.Keyed p) {nullifier : String}
    (hdead : ∀ o ∈ s.rows.rows, o.nullifier = nullifier → o.status.isLiveStatus = false) :
    Keyed p { s with authorizeOrders := s.authorizeOrders.delete fun o => o.nullifier = nullifier } := by
  refine ⟨hs.key, hs.submitted, fun e he => hs.entries e (Table.mem_delete.mp he).1, ?_, hs.posts, ?_⟩
  · intro o ho hlive
    refine Table.mem_delete.mpr ⟨hs.live o ho hlive, decide_eq_false fun hkey => ?_⟩
    exact absurd hlive (by rw [hdead o ho hkey]; decide)
  · intro id
    rw [show s.pendingCountByPubKey id = s.occupied id + 0 from hs.slots id]
    show s.authorizeOrders.rows.countP _ + s.posts.countP _ + 0 = (s.authorizeOrders.delete _).rows.countP _ + s.posts.countP _ + 0
    rw [Table.delete, List.countP_filter]
    congr 2
    apply List.countP_congr
    intro e he
    by_cases hsame : e.nullifier = nullifier
    · simp [hdead e (hs.entries e he) hsame]
    · simp [hsame]

theorem setStatus_status {nullifier : String} {status : AuthorizeOrderStatus} {o : KeyedOrder}
    (ho : o ∈ (s.setStatus nullifier status).rows.rows) (hkey : o.nullifier = nullifier) : o.status = status := by
  obtain ⟨r, hr, rfl⟩ := mem_setStatus.mp ho
  split
  · rfl
  · next hother =>
    rw [if_neg hother] at hkey
    exact absurd hkey hother

theorem KeyedWith.applyOnChainAuthorizeCancel (hs : s.Keyed p) (nullifier : ℕ) : (s.applyOnChainAuthorizeCancel nullifier).1.Keyed p := by
  rw [OrderStore.applyOnChainAuthorizeCancel]
  cases hlookup : s.authorizeOrders.lookup (decimalText nullifier) with
  | none => exact hs
  | some stored =>
    obtain ⟨hentry, hkey⟩ := Table.lookup_eq_some.mp hlookup
    have hrow := hs.entries stored hentry
    dsimp only
    rw [← hkey]
    by_cases hlive : stored.status.isLiveStatus = true
    · rw [if_pos hlive]
      have hreleased : ((s.decPubKeyCount stored.pubKey).setStatus stored.nullifier .cancelled).Keyed p :=
        (hs.setStatus hrow hlive rfl).decPubKeyCount
      apply hreleased.dropEntry
      intro o ho hsame
      rw [setStatus_status ho hsame]
      rfl
    · rw [if_neg hlive]
      apply (hs.setStatus_dead hrow (Bool.eq_false_iff.mpr hlive) rfl).dropEntry
      intro o ho hsame
      rw [setStatus_status ho hsame]
      rfl

theorem KeyedWith.restart (hs : s.Keyed p) : s.restart.Keyed p := by
  have hloaded : ∀ o, o ∈ s.restart.authorizeOrders.rows ↔ o ∈ s.rows.rows ∧ o.status.isLiveStatus = true ∧ isDigits o.nullifier = true := by
    intro o
    simp only [OrderStore.restart, Table.mem_delete, Bool.not_eq_eq_eq_not, Bool.not_false, Bool.decide_and, Bool.and_eq_true, decide_eq_true_eq]
  have hrows : ∀ o, o ∈ s.restart.rows.rows ↔ o ∈ s.rows.rows ∧ (o.status.isLiveStatus = true → isDigits o.nullifier = true) := by
    intro o
    simp only [OrderStore.restart, Table.mem_delete, decide_eq_false_iff_not, not_and, Bool.not_eq_true', Bool.not_eq_false]
  refine ⟨fun o ho => hs.key o ((hrows o).mp ho).1, fun o ho => hs.submitted o ((hrows o).mp ho).1, ?_, ?_, fun post hpost => absurd hpost List.not_mem_nil, ?_⟩
  · intro e he
    obtain ⟨hmem, hlive, hdigits⟩ := (hloaded e).mp he
    exact (hrows e).mpr ⟨hmem, fun _ => hdigits⟩
  · intro o ho hlive
    obtain ⟨hmem, hdigits⟩ := (hrows o).mp ho
    exact (hloaded o).mpr ⟨hmem, hlive, hdigits hlive⟩
  · intro id
    show s.restart.authorizeOrders.rows.countP _ = s.restart.authorizeOrders.rows.countP _ + 0 + 0
    apply List.countP_congr
    intro e he
    simp [((hloaded e).mp he).2.1]

end OrderStore

theorem OrderStore.KeyedWith.run_keyed {step : OrderStep} (hs : s.Keyed p) (hrun : step.run routes s s')
    (hpost : ∀ sub, step = .post sub → sub.body.validateAuthorizeOrder routes.relayerAddress sub.nowSeconds = .ok () →
      p (sub.body.text .nullifier)) : s'.Keyed p := by
  cases step with
  | post sub =>
    obtain rfl := hrun
    exact hs.receivePost (hpost sub rfl)
  | hashed i =>
    obtain ⟨post, hget, hslot, rfl⟩ := hrun
    exact hs.hashedPost hget hslot
  | verified i proofValid =>
    obtain ⟨post, id, hget, hslot, rfl⟩ := hrun
    exact hs.verifiedPost hget hslot proofValid
  | settleFailed nullifier =>
    obtain ⟨o, hlookup, hlive, rfl⟩ := hrun
    exact hs.settleFailed (Table.lookup_eq_some.mp hlookup).1 hlive
  | cancelled nullifier =>
    obtain rfl := hrun
    exact hs.applyOnChainAuthorizeCancel nullifier
  | restart =>
    obtain rfl := hrun
    exact hs.restart

/-! ### One order -/

/-- A field element has at most one row, which its entry is, under a slot of its own; its cancellation finds the entry, and a boot keeps it. -/
structure OneOrder (s : OrderStore) : Prop where
  row : ∀ o ∈ s.rows.rows, ∀ o' ∈ s.rows.rows, o.body.value .nullifier = o'.body.value .nullifier → o = o'
  entry : ∀ e ∈ s.authorizeOrders.rows, e ∈ s.rows.rows
  slot : ∀ id, s.pendingCountByPubKey id = s.occupied id
  cancelled : ∀ e ∈ s.authorizeOrders.rows, (s.applyOnChainAuthorizeCancel (e.body.value .nullifier).toNat).2 = true
  restarted : ∀ o ∈ s.rows.rows, o.status.isLiveStatus = true → o ∈ s.restart.rows.rows ∧ o ∈ s.restart.authorizeOrders.rows

/-- The decimal digits of a number, as a key -/
def IsDecimalText (nullifier : String) : Prop := ∃ v : ℤ, 0 ≤ v ∧ toBigInt nullifier = .ok v ∧ nullifier = decimalText v

/-- A submission that passes the checks spells its nullifier in decimal digits. -/
def OrderStep.Spelled (routes : OrderRoutes) (step : OrderStep) : Prop :=
  ∀ sub, step = .post sub → sub.body.validateAuthorizeOrder routes.relayerAddress sub.nowSeconds = .ok () →
    sub.body.text .nullifier = decimalText (sub.body.value .nullifier)

theorem Submitted.decimal {body : AuthorizeOrderBody} (hbody : Submitted IsDecimalText body) :
    body.text .nullifier = decimalText (body.value .nullifier) := by
  obtain ⟨v, -, hread, htext⟩ := hbody.key
  have hvalue := hbody.reads
  rw [hread] at hvalue
  rw [← Except.ok.inj hvalue]
  exact htext

theorem oneOrder_of_keyed (hs : OrderStore.Keyed IsDecimalText s) : OneOrder s := by
  have hkey : ∀ o ∈ s.rows.rows, o.nullifier = decimalText (o.body.value .nullifier) :=
    fun o ho => (hs.key o ho).trans (hs.submitted o ho).decimal
  refine ⟨?_, hs.entries, hs.slots, ?_, ?_⟩
  · intro o ho o' ho' hvalue
    exact s.rows.eq_of_key ho ho' (by rw [hkey o ho, hkey o' ho', hvalue])
  · intro e he
    have hrow := hs.entries e he
    have hlookup : s.authorizeOrders.lookup (decimalText ((e.body.value .nullifier).toNat : ℤ)) = some e := by
      rw [Table.lookup_eq_some, Int.toNat_of_nonneg (hs.submitted e hrow).nonneg]
      exact ⟨he, hkey e hrow⟩
    rw [OrderStore.applyOnChainAuthorizeCancel, hlookup]
  · intro o ho hlive
    have hdigits : OrderStore.isDigits o.nullifier = true := by
      rw [hkey o ho]
      exact isDigits_decimalText (hs.submitted o ho).nonneg
    refine ⟨Table.mem_delete.mpr ⟨ho, ?_⟩, Table.mem_delete.mpr ⟨ho, ?_⟩⟩
    · simp [hdigits]
    · simp [hlive, hdigits]

theorem keyed_of_spelled {steps : List OrderStep} (hspelled : ∀ step ∈ steps, step.Spelled routes)
    (hrun : Steps (OrderStep.run routes) steps .start s) : OrderStore.Keyed IsDecimalText s := by
  refine Steps.invariant ?_ OrderStore.keyed_start hrun
  intro step hstep s s' hs hrun
  apply hs.run_keyed hrun
  intro sub heq hvalid
  have haccepted := AuthorizeOrderBody.validateAuthorizeOrder_ok hvalid
  exact ⟨sub.body.value .nullifier, haccepted.nonneg .nullifier, haccepted.reads .nullifier, hspelled step hstep sub heq hvalid⟩

/-- A submission that is accepted goes on to its row and its entry. -/
theorem receives {sub : OrderSubmission} (hvalid : sub.body.validateAuthorizeOrder routes.relayerAddress sub.nowSeconds = .ok ())
    (hs : s.Keyed p) (hfree : sub.body.text .nullifier ∉ s.rows.rows.map KeyedOrder.nullifier)
    (hroom : s.authorizeOrders.rows.length < MAX_AUTHORIZE_ORDERS) (hexpiry : sub.body.value .expiry - sub.nowSeconds ≤ MAX_EXPIRY_DURATION_SECS)
    (hkeys : sub.pubKeyAx ≠ "" ∧ sub.pubKeyAy ≠ "") :
    (s.receivePost routes sub).1 = { s with posts := s.posts ++ [⟨sub.body, sub.pubKeyAx, sub.pubKeyAy, none⟩] } := by
  have hrow : s.rows.lookup (sub.body.text .nullifier) = none :=
    Table.lookup_eq_none.mpr fun o ho hkey => hfree (List.mem_map.mpr ⟨o, ho, hkey⟩)
  have hentry : s.authorizeOrders.lookup (sub.body.text .nullifier) = none :=
    Table.lookup_eq_none.mpr fun e he hkey => OrderStore.entry_free hs hfree (List.mem_map.mpr ⟨e, he, hkey⟩)
  have hreplay : s.replay (sub.body.text .nullifier) = none := by rw [OrderStore.replay, hrow, hentry]
  have hforget : s.forgetFailed (sub.body.text .nullifier) = s := by
    rw [OrderStore.forgetFailed, hrow]
    rfl
  rw [OrderStore.receivePost, hvalid]
  simp only [hreplay, hforget]
  rw [if_neg (not_le.mpr hroom), if_neg (not_lt.mpr hexpiry), if_neg (not_or.mpr hkeys)]

theorem insertAccepted_free {body : AuthorizeOrderBody} {id : ℤ × ℤ} (hfree : body.text .nullifier ∉ s.rows.rows.map KeyedOrder.nullifier) :
    (s.insertAccepted body id).1.rows.rows = s.rows.rows ++ [⟨body.text .nullifier, body, .accepted, id⟩] ∧
      (s.insertAccepted body id).1.posts = s.posts := by
  rw [OrderStore.insertAccepted]
  cases hinsert : s.rows.insert ⟨body.text .nullifier, body, .accepted, id⟩ with
  | none =>
    obtain ⟨o, ho, hkey⟩ := Table.insert_eq_none.mp hinsert
    exact absurd (List.mem_map.mpr ⟨o, ho, hkey⟩) hfree
  | some rows => exact ⟨(Table.insert_eq_some.mp hinsert).2, rfl⟩

/-- A submission that nothing speaks against, where proofs are not verified -/
structure OrderSubmission.Admitted (routes : OrderRoutes) (sub : OrderSubmission) (ax ay : ℤ) : Prop where
  unverified : routes.verifyOrderProofs = false
  valid : sub.body.validateAuthorizeOrder routes.relayerAddress sub.nowSeconds = .ok ()
  expiry : sub.body.value .expiry - sub.nowSeconds ≤ MAX_EXPIRY_DURATION_SECS
  keys : sub.pubKeyAx ≠ "" ∧ sub.pubKeyAy ≠ ""
  reads : toBigInt sub.pubKeyAx = .ok ax ∧ toBigInt sub.pubKeyAy = .ok ay
  id : pubKeyId sub.pubKeyAx sub.pubKeyAy = some (ax, ay)
  bind : decimalText (routes.poseidonHash [ax, ay, sub.body.value .nullifier]) = sub.body.text .pubKeyBind
  listed : routes.isSanctionedById (ax, ay) = false

theorem hashes {sub : OrderSubmission} {ax ay : ℤ} (hsub : sub.Admitted routes ax ay) {i : ℕ}
    (hslots : s.pendingCountByPubKey (ax, ay) < MAX_PENDING_PER_PUBKEY) :
    s.hashedPost routes i ⟨sub.body, sub.pubKeyAx, sub.pubKeyAy, none⟩ = ((s.dropPost i).incPubKeyCount (ax, ay)).insertAccepted sub.body (ax, ay) := by
  rw [OrderStore.hashedPost, hsub.reads.1, hsub.reads.2]
  simp only [hsub.bind, hsub.id, hsub.listed, hsub.unverified, ne_eq, not_true_eq_false, if_false, Bool.false_eq_true]
  exact if_neg (not_le.mpr hslots)

theorem accepts {sub : OrderSubmission} {ax ay : ℤ} (hsub : sub.Admitted routes ax ay) (hs : s.Keyed fun _ => True)
    (hposts : s.posts = []) (hfew : s.authorizeOrders.rows.length < MAX_PENDING_PER_PUBKEY)
    (hfree : sub.body.text .nullifier ∉ s.rows.rows.map KeyedOrder.nullifier) :
    ∃ s', Steps (OrderStep.run routes) [.post sub, .hashed 0] s s' ∧ s'.Keyed (fun _ => True) ∧ s'.posts = [] ∧
      s'.rows.rows = s.rows.rows ++ [⟨sub.body.text .nullifier, sub.body, .accepted, (ax, ay)⟩] := by
  have hreceive := receives hsub.valid hs hfree (hfew.trans (by decide)) hsub.expiry hsub.keys
  have hkeyed : (s.receivePost routes sub).1.Keyed fun _ => True := hs.receivePost fun _ => trivial
  obtain ⟨t, ht⟩ : ∃ t, t = (s.receivePost routes sub).1 := ⟨_, rfl⟩
  rw [← ht] at hkeyed
  rw [hreceive, hposts, List.nil_append] at ht
  have hget : t.posts[0]? = some ⟨sub.body, sub.pubKeyAx, sub.pubKeyAy, none⟩ := by rw [ht]; rfl
  have hslots : t.pendingCountByPubKey (ax, ay) < MAX_PENDING_PER_PUBKEY := by
    rw [ht]
    show s.pendingCountByPubKey (ax, ay) < MAX_PENDING_PER_PUBKEY
    rw [hs.slots, OrderStore.occupied, hposts]
    exact Nat.lt_of_le_of_lt List.countP_le_length hfew
  have hfree' : sub.body.text .nullifier ∉ ((t.dropPost 0).incPubKeyCount (ax, ay)).rows.rows.map KeyedOrder.nullifier := by
    rw [ht]
    exact hfree
  obtain ⟨hrows, hleft⟩ := @insertAccepted_free _ _ (ax, ay) hfree'
  have hnext : (t.hashedPost routes 0 _).1.Keyed fun _ => True := hkeyed.hashedPost hget rfl
  rw [hashes hsub hslots] at hnext
  refine ⟨_, ⟨t, ht.trans (by rw [hreceive, hposts, List.nil_append]), _, ⟨_, hget, rfl, rfl⟩, rfl⟩, ?_⟩
  rw [hashes hsub hslots]
  refine ⟨hnext, ?_, ?_⟩
  · rw [hleft, ht]
    rfl
  · rw [hrows, ht]
    rfl

/-- While every accepted nullifier is spelled as its decimal digits, a field element has one order, and another submission of it is answered as a replay. -/
theorem one_order_per_nullifier {steps : List OrderStep} (hspelled : ∀ step ∈ steps, step.Spelled routes)
    (hrun : Steps (OrderStep.run routes) steps .start s) :
    OneOrder s ∧
      ∀ sub : OrderSubmission, (OrderStep.post sub).Spelled routes →
        sub.body.validateAuthorizeOrder routes.relayerAddress sub.nowSeconds = .ok () →
        ∀ o ∈ s.rows.rows, o.status ≠ .failed → o.body.value .nullifier = sub.body.value .nullifier →
          s.receivePost routes sub = (s, some (.order (idempotencyHttpCode o.status) o.status)) := by
  have hs := keyed_of_spelled hspelled hrun
  refine ⟨oneOrder_of_keyed hs, ?_⟩
  intro sub hspelled hvalid o ho hstatus hvalue
  have hkey : o.nullifier = sub.body.text .nullifier := by
    rw [hs.key o ho, (hs.submitted o ho).decimal, hvalue, hspelled sub rfl hvalid]
  have hreplay := OrderStore.replay_row ho
  rw [if_neg hstatus, hkey] at hreplay
  rw [OrderStore.receivePost, hvalid]
  simp only [hreplay]

/-- A relayer that does not verify proofs, with a hash that is constant -/
def plainRoutes : OrderRoutes := ⟨"0x0000000000000000000000000000000000000021", fun _ => 1, fun _ => false, false⟩

/-- One order with its nullifier spelled in a way of choice -/
def submissionOf (nullifier : String) : OrderSubmission where
  body :=
    { proof := ⟨some ("1", "2"), some (("3", "4"), "5", "6"), some ("7", "8")⟩
      publicSignals
        | .pubKeyBind => some "1"
        | .commitmentRoot => some "5"
        | .nullifier => some nullifier
        | .nonceNullifier => some "22"
        | .newCommitment => some "0"
        | .sellToken => some "13"
        | .buyToken => some "14"
        | .sellAmount => some "100"
        | .buyAmount => some "90"
        | .maxFee => some "30"
        | .expiry => some "2000"
        | .claimsRoot => some "77"
        | .totalLocked => some "80"
        | .relayer => some "33"
        | .orderHash => some "9"
      publicSignalsArray := some ["1", "5", nullifier, "22", "0", "13", "14", "100", "90", "30", "2000", "77", "80", "33", "9"]
      tier := none }
  pubKeyAx := "3"
  pubKeyAy := "4"
  nowSeconds := 1000

theorem decimal_admitted : (submissionOf "21").Admitted plainRoutes 3 4 :=
  ⟨rfl, by decide +kernel, by decide +kernel, by decide, by decide +kernel, by decide +kernel, by decide +kernel, rfl⟩

theorem hexadecimal_admitted : (submissionOf "0x15").Admitted plainRoutes 3 4 :=
  ⟨rfl, by decide +kernel, by decide +kernel, by decide, by decide +kernel, by decide +kernel, by decide +kernel, rfl⟩

/-- The replay of an order that was accepted -/
theorem one_order_per_nullifier_replayed : ∃ s, Steps (OrderStep.run plainRoutes) [.post (submissionOf "21"), .hashed 0] .start s ∧
    OneOrder s ∧ s.receivePost plainRoutes (submissionOf "21") = (s, some (.order 202 .accepted)) := by
  obtain ⟨s, hrun, -, -, hrows⟩ := accepts decimal_admitted OrderStore.keyed_start rfl (by decide) List.not_mem_nil
  have hspelled : (OrderStep.post (submissionOf "21")).Spelled plainRoutes := by
    intro sub heq _
    rw [← OrderStep.post.inj heq]
    decide +kernel
  have hsteps : ∀ step ∈ [OrderStep.post (submissionOf "21"), .hashed 0], step.Spelled plainRoutes := by
    intro step hstep
    simp only [List.mem_cons, List.not_mem_nil, or_false] at hstep
    cases hstep with
    | inl heq => exact heq ▸ hspelled
    | inr heq =>
      rw [heq]
      intro sub hpost
      cases hpost
  obtain ⟨hone, hreplay⟩ := one_order_per_nullifier hsteps hrun
  have hrow : (⟨"21", (submissionOf "21").body, .accepted, (3, 4)⟩ : KeyedOrder) ∈ s.rows.rows := by
    rw [hrows]
    exact List.mem_cons_self
  exact ⟨s, hrun, hone, hreplay _ hspelled decimal_admitted.valid _ hrow (by simp) rfl⟩

/-- Two spellings of one nullifier are two orders. -/
theorem two_spellings_two_orders : ∃ s, Steps (OrderStep.run plainRoutes)
    [.post (submissionOf "21"), .hashed 0, .post (submissionOf "0x15"), .hashed 0] .start s ∧ ¬OneOrder s := by
  obtain ⟨s, hrun, hs, hposts, hrows⟩ := accepts decimal_admitted OrderStore.keyed_start rfl (by decide) List.not_mem_nil
  have hfew : s.authorizeOrders.rows.length < MAX_PENDING_PER_PUBKEY := by
    have hle : s.authorizeOrders.rows.length ≤ s.rows.rows.length := (s.authorizeOrders.distinct.of_map.subperm hs.entries).length_le
    rw [hrows] at hle
    exact Nat.lt_of_le_of_lt hle (by decide)
  have hfree : (submissionOf "0x15").body.text .nullifier ∉ s.rows.rows.map KeyedOrder.nullifier := by
    rw [hrows]
    decide
  obtain ⟨s', hrun', -, -, hrows'⟩ := accepts hexadecimal_admitted hs hposts hfew hfree
  refine ⟨s', hrun.append hrun', fun hone => ?_⟩
  rw [hrows] at hrows'
  have hsame := hone.row ⟨"21", (submissionOf "21").body, .accepted, (3, 4)⟩ (by rw [hrows']; exact List.mem_cons_self)
    ⟨"0x15", (submissionOf "0x15").body, .accepted, (3, 4)⟩ (by rw [hrows']; exact List.mem_append_right _ List.mem_cons_self) (by decide +kernel)
  exact absurd (congrArg KeyedOrder.nullifier hsame) (by decide)

end Relayer

end ScatterDex
