import ScatterDex.Library.Tally
import ScatterDex.Protocol.OrderLifecycle

/-!
# The slots of a public key

A submission takes a slot of its public key, and each order gives it back once, at its outcome. The counter of a key should be the number of its orders that are live or in flight, with the submissions that hold a slot while their proof is verified. An order that left the map while an operation had it in hand loses its slot when the operation ends without an outcome: nothing releases it any more.
-/

namespace ScatterDex

open Fallible Transactions

namespace Relayer

/-- The key whose slot an order takes: that of a live or in-flight entry, and of an operation whose order left the map. -/
def Cell.occupant (c : Cell) (t : Option Task) : Option PubKeyId :=
  match c.entry, t with
  | some e, _ => if (c.status e.id).isActive then some e.pubKey else none
  | none, some (.own stored pubKey) => some ((stored.map Entry.pubKey).getD pubKey)
  | none, some (.partner p) => some p.pubKey
  | none, none => c.holds.head?.map fun h => h.entry.pubKey

def World.occupant (w : World) (n : ℕ) : Option PubKeyId := (w.cells n).occupant (w.task n)

/-- The submissions of a key that reserved a slot. -/
def reservedIn (posts : List Post) (pk : PubKeyId) : ℕ := posts.countP fun post => post.reserved && post.pubKey = pk

/-- Every counter is the number of the slots taken. -/
def World.Balanced (w : World) : Prop := Tally.Balances w.pendingCountByPubKey w.occupant (reservedIn w.posts)

/-- Each order is in the map when its slot has to be kept, and an offer that was verified finds its order live. -/
def World.Counted (w : World) : Step → Prop
  | .accept i => w.Rechecked (.accept i)
  | .claim n _ => (w.cells n).entry = none → ∀ row ∈ (w.cells n).row, ¬row.order.SameToken
  | .workerEnd submission => ∀ job ∈ w.worker, ∀ err, submission.result job.label = .error err →
    ((handleSettleError w.nowMs job.attempt err).2 = .retrying → (w.cells job.nullifier).entry ≠ none) ∧
      ∀ pair ∈ job.partner, (w.cells pair.1).entry ≠ none
  | .offerEnd n _ settled => settled = none → (w.cells n).entry ≠ none
  | .offerThrow n _ => (w.cells n).entry ≠ none
  | .acceptEnd n _ submission => (∃ err, submission.result "settleAuth" = .error err) → (w.cells n).entry ≠ none
  | .privateCancel n => ∀ e ∈ (w.cells n).entry, ((w.cells n).status e.id).isInFlightStatus = true → w.InHand n
  | .restart => ∀ n, ∀ row ∈ (w.cells n).row, row.status.isActive = true → (w.cells n).entry ≠ none
  | _ => True

theorem World.Counted.rechecked {w : World} {a : Step} (ha : w.Counted a) : w.Rechecked a := by
  cases a with
  | accept i => exact ha
  | _ => trivial

/-! ### Slots of one order -/

section

variable {w w' : World} {a : Step} {n : ℕ} {c c' : Cell} {t t' : Option Task} {e : Entry} {pk : PubKeyId}

theorem Cell.occupant_of_active (he : c.entry = some e) (hactive : (c.status e.id).isActive = true) :
    c.occupant t = some e.pubKey := by
  unfold Cell.occupant
  rw [he]
  exact if_pos hactive

theorem Cell.occupant_of_done (he : c.entry = some e) (hdone : (c.status e.id).isActive = false) : c.occupant t = none := by
  unfold Cell.occupant
  rw [he]
  exact if_neg fun h => Bool.false_ne_true (hdone.symm.trans h)

theorem Cell.occupant_of_none (he : c.entry = none) (hholds : c.holds = []) : c.occupant none = none := by
  unfold Cell.occupant
  rw [he, hholds]
  rfl

theorem Cell.Sound.row_of_occupant (hs : c.Sound t) (hoccupied : c.occupant t ≠ none) : c.row ≠ none := by
  intro hrow
  obtain ⟨hentry, hholds, rfl⟩ := hs.empty_of_none hrow
  exact hoccupied (Cell.occupant_of_none hentry hholds)

theorem isActive_of_live {s : AuthorizeOrderStatus} (hlive : s.isLiveStatus = true) : s.isActive = true := by
  rw [AuthorizeOrderStatus.isActive, hlive, Bool.true_or]

theorem Cell.occupant_of_matched (he : c.entry = some e) (hmatched : c.status e.id = .matched) :
    c.occupant t = some e.pubKey := by
  apply Cell.occupant_of_active he
  rw [hmatched]
  rfl

theorem Cell.Sound.occupant_own {stored : Option Entry} {pubKey : PubKeyId} (hs : c.Sound (some (.own stored pubKey))) :
    c.occupant (some (.own stored pubKey)) = some ((stored.map Entry.pubKey).getD pubKey) := by
  cases hentry : c.entry with
  | none =>
    unfold Cell.occupant
    rw [hentry]
  | some e =>
    obtain ⟨rfl, hmatched⟩ := (hs.own _ _ rfl).2 e hentry
    exact Cell.occupant_of_matched hentry hmatched

theorem Cell.Sound.occupant_partner {p : Entry} (hs : c.Sound (some (.partner p))) :
    c.occupant (some (.partner p)) = some p.pubKey := by
  cases hentry : c.entry with
  | none =>
    unfold Cell.occupant
    rw [hentry]
  | some e =>
    obtain ⟨rfl, hmatched⟩ := (hs.partner _ rfl).2 e hentry
    exact Cell.occupant_of_matched hentry hmatched

theorem Cell.Sound.occupant_held {i : ℕ} {h : Hold} (hs : c.Sound t) (hhold : c.holds[i]? = some h) :
    c.occupant t = some h.entry.pubKey := by
  obtain ⟨hone, rfl, -, -, hobject⟩ := hs.held h (List.mem_of_getElem? hhold)
  cases hentry : c.entry with
  | none =>
    unfold Cell.occupant
    rw [hentry, hone]
    rfl
  | some e =>
    obtain ⟨rfl, hmatched⟩ := hobject e hentry
    exact Cell.occupant_of_matched hentry hmatched

theorem Cell.Sound.occupant_finish {stored : Option Entry} {write : AuthorizeOrderRow → AuthorizeOrderRow} {s : AuthorizeOrderStatus}
    (hs : c.Sound t) (ht : t ≠ none) (hobject : ∀ e ∈ c.entry, stored = some e) (hdone : s.isActive = false) :
    (c.finish stored write s).occupant none = none := by
  have hentry' : (c.finish stored write s).entry = c.entry := by rw [Cell.finish, Cell.mark_entry, Cell.updateRow_entry]
  cases hentry : c.entry with
  | none =>
    apply Cell.occupant_of_none (hentry'.trans hentry)
    rw [Cell.finish, Cell.mark_holds, Cell.updateRow_holds, hs.unheld_of_task ht]
  | some e =>
    apply Cell.occupant_of_done (hentry'.trans hentry)
    rw [hobject e hentry, Cell.finish, Cell.mark_status, hdone]

theorem Cell.Sound.occupant_retry {stored : Option Entry} {pubKey : PubKeyId} {write : AuthorizeOrderRow → AuthorizeOrderRow}
    (hs : c.Sound (some (.own stored pubKey))) (hentry : c.entry ≠ none) :
    (c.finish stored write .retrying).occupant none = c.occupant (some (.own stored pubKey)) := by
  obtain ⟨e, he⟩ := Option.ne_none_iff_exists'.mp hentry
  obtain ⟨rfl, hmatched⟩ := (hs.own _ _ rfl).2 e he
  rw [Cell.occupant_of_matched he hmatched]
  apply Cell.occupant_of_active
  · rw [Cell.finish, Cell.mark_entry, Cell.updateRow_entry, he]
  · rw [Cell.finish, Cell.mark_status]
    rfl

theorem Cell.Sound.occupant_put_back {p : Entry} (hs : c.Sound (some (.partner p))) (hentry : c.entry ≠ none) :
    (c.setStatus p.id .pending).occupant none = c.occupant (some (.partner p)) := by
  obtain ⟨e, he⟩ := Option.ne_none_iff_exists'.mp hentry
  obtain ⟨rfl, hmatched⟩ := (hs.partner _ rfl).2 e he
  rw [Cell.occupant_of_matched he hmatched]
  refine Cell.occupant_of_active he ?_
  rw [Cell.setStatus_self]
  rfl

theorem Cell.occupant_hold (he : c.entry = some e) (hlive : (c.status e.id).isLiveStatus = true) (taker : Option ℕ) :
    (c.hold e taker).occupant t = c.occupant t := by
  rw [Cell.occupant_of_active he (isActive_of_live hlive)]
  exact Cell.occupant_of_matched he (Function.update_self ..)

theorem Cell.Sound.occupant_restore {i : ℕ} {h : Hold} (hs : c.Sound t) (hhold : c.holds[i]? = some h) (hentry : c.entry ≠ none) :
    (c.restore i h).occupant t = c.occupant t := by
  rw [hs.occupant_held hhold]
  obtain ⟨-, -, hlive, -, hobject⟩ := hs.held h (List.mem_of_getElem? hhold)
  obtain ⟨e, he⟩ := Option.ne_none_iff_exists'.mp hentry
  obtain ⟨rfl, -⟩ := hobject e he
  refine Cell.occupant_of_active he ?_
  show (Function.update c.status h.entry.id h.prior h.entry.id).isActive = true
  rw [Function.update_self]
  exact isActive_of_live hlive

theorem Cell.Sound.occupant_holdSettled {i : ℕ} {h : Hold} (hs : c.Sound t) (hhold : c.holds[i]? = some h) (txHash : ℕ) :
    (c.holdSettled i h txHash).occupant t = none := by
  obtain ⟨-, -, -, -, hobject⟩ := hs.held h (List.mem_of_getElem? hhold)
  obtain ⟨rfl, hnone⟩ := hs.released hhold
  cases hentry : c.entry with
  | none => exact Cell.occupant_of_none hentry hnone
  | some e =>
    obtain ⟨rfl, -⟩ := hobject e hentry
    refine Cell.occupant_of_done hentry ?_
    show (Function.update c.status h.entry.id .settled h.entry.id).isActive = false
    rw [Function.update_self]
    rfl

/-- An entry that is live leaves the map with its slot. -/
theorem Cell.Sound.occupant_removeEntry (hs : c.Sound t) (he : c.entry = some e) (hlive : (c.status e.id).isLiveStatus = true) :
    (c.removeEntry e).occupant t = none := by
  obtain ⟨hholds, rfl⟩ := hs.free_of_live he hlive
  exact Cell.occupant_of_none rfl (Cell.removeEntry_holds.trans hholds)

theorem Cell.Sound.occupant_cancel (hs : c.Sound t) (he : c.entry = some e) (hlive : (c.status e.id).isLiveStatus = true) :
    (c.cancel e).occupant t = none := by
  obtain ⟨hholds, rfl⟩ := hs.free_of_live he hlive
  exact Cell.occupant_of_none rfl (Cell.cancel_holds.trans hholds)

/-- An entry in hand leaves its slot to the operation, and one that is done has none. -/
theorem Cell.Sound.occupant_gone {c' : Cell} (hs : c.Sound t) (he : c.entry = some e) (hentry' : c'.entry = none)
    (hholds' : c'.holds = c.holds) (hdone : (c.status e.id).isActive = true → c.holds ≠ [] ∨ t ≠ none) :
    c'.occupant t = c.occupant t := by
  by_cases hactive : (c.status e.id).isActive = true
  · cases t with
    | none =>
      obtain ⟨h, hh⟩ := List.exists_mem_of_ne_nil _ ((hdone hactive).resolve_right fun h => h rfl)
      obtain ⟨hone, -, -, -, hobject⟩ := hs.held h hh
      obtain ⟨rfl, hmatched⟩ := hobject e he
      rw [Cell.occupant_of_matched he hmatched]
      unfold Cell.occupant
      rw [hentry', hholds', hone]
      rfl
    | some task =>
      cases task with
      | own stored pubKey =>
        rw [hs.occupant_own]
        unfold Cell.occupant
        rw [hentry']
      | partner p =>
        rw [hs.occupant_partner]
        unfold Cell.occupant
        rw [hentry']
  · rw [Bool.not_eq_true] at hactive
    have hunmatched : c.status e.id ≠ .matched := by
      intro h
      rw [h] at hactive
      cases hactive
    have hunheld : c.holds = [] := by
      apply List.eq_nil_iff_forall_not_mem.mpr
      intro h hh
      exact hunmatched ((hs.held h hh).2.2.2.2 e he).2
    have hidle : t = none := by
      cases t with
      | none => rfl
      | some task =>
        cases task with
        | own stored pubKey => exact absurd ((hs.own _ _ rfl).2 e he).2 hunmatched
        | partner p => exact absurd ((hs.partner _ rfl).2 e he).2 hunmatched
    subst hidle
    rw [Cell.occupant_of_done he hactive, Cell.occupant_of_none hentry' (hholds'.trans hunheld)]

theorem Cell.Sound.occupant_cancel_other (hs : c.Sound t) (he : c.entry = some e) (hlive : ¬(c.status e.id).isLiveStatus = true)
    (hflight : (c.status e.id).isInFlightStatus = true → c.holds ≠ [] ∨ t ≠ none) : (c.cancel e).occupant t = c.occupant t := by
  refine hs.occupant_gone he rfl Cell.cancel_holds fun hactive => hflight ?_
  rw [AuthorizeOrderStatus.isActive, Bool.or_eq_true] at hactive
  exact hactive.resolve_left hlive

theorem Cell.Sound.occupant_purge (hs : c.Sound t) (he : c.entry = some e) (hdone : (c.status e.id).isTerminalStatus = true) :
    (c.removeEntry e).occupant t = c.occupant t := by
  refine hs.occupant_gone he rfl Cell.removeEntry_holds fun hactive => ?_
  exfalso
  revert hdone hactive
  cases c.status e.id <;> decide

/-- A failed order has no slot, in the map or out of it. -/
theorem Cell.Sound.occupant_forget {row : OrderRow} (hs : c.Sound t) (hrow : c.row = some row) (hfailed : row.status = .failed) :
    c.occupant t = none ∧ ({ c with row := none, entry := none } : Cell).occupant t = none := by
  obtain ⟨hholds, hown⟩ := hs.free_of_row hrow (Or.inl hfailed)
  have ht : t = none := by
    cases t with
    | none => rfl
    | some task =>
      cases task with
      | own stored pubKey => exact absurd rfl (hown stored pubKey)
      | partner p =>
        obtain ⟨row', hrow', hstatus, -⟩ := (hs.partner p rfl).1
        obtain rfl := Option.some.inj (hrow.symm.trans hrow')
        exact absurd hfailed hstatus
  subst ht
  refine ⟨?_, Cell.occupant_of_none rfl hholds⟩
  cases hentry : c.entry with
  | none => exact Cell.occupant_of_none hentry hholds
  | some e =>
    apply Cell.occupant_of_done hentry
    rw [← Bool.not_eq_true, hs.active_iff hentry hrow, hfailed]
    decide

/-! ### Steps -/

/-- The table lists each nullifier that has a row once. -/
structure World.Keyed (w : World) : Prop where
  nodup : w.nullifiers.Nodup
  mem_iff : ∀ n, n ∈ w.nullifiers ↔ (w.cells n).row ≠ none

theorem World.finite_occupant (hw : w.Sound) (hkeyed : w.Keyed) : {n | w.occupant n ≠ none}.Finite := by
  apply (List.finite_toSet w.nullifiers).subset
  intro n hn
  exact (hkeyed.mem_iff n).mpr ((hw.cell n).row_of_occupant hn)

theorem World.occupant_write (hcells : w'.cells = Function.update w.cells n c) (hworker : w'.worker = w.worker) :
    w'.occupant = Function.update w.occupant n (c.occupant (w.task n)) := by
  ext1 m
  rw [World.occupant, World.task, hcells, hworker]
  by_cases hm : m = n
  · subst hm
    rw [Function.update_self, Function.update_self]
    rfl
  · rw [Function.update_of_ne hm, Function.update_of_ne hm]
    rfl

theorem World.Balanced.of_parts {count : PubKeyId → ℕ} {occupant : ℕ → Option PubKeyId}
    (hbalances : Tally.Balances count occupant (reservedIn w.posts)) (hocc : w'.occupant = occupant)
    (hcount : w'.pendingCountByPubKey = count) (hposts : w'.posts = w.posts) : w'.Balanced := by
  rw [World.Balanced, hocc, hcount, hposts]
  exact hbalances

theorem World.Balanced.keep (hbalanced : w.Balanced) (hsame : c.occupant (w.task n) = w.occupant n)
    (hcells : w'.cells = Function.update w.cells n c) (hworker : w'.worker = w.worker)
    (hcount : w'.pendingCountByPubKey = w.pendingCountByPubKey) (hposts : w'.posts = w.posts) : w'.Balanced := by
  refine .of_parts hbalanced ?_ hcount hposts
  rw [World.occupant_write hcells hworker, hsame, Function.update_eq_self]

theorem World.Balanced.release (hbalanced : w.Balanced) (hfinite : {n | w.occupant n ≠ none}.Finite)
    (hslot : w.occupant n = some pk) (hfree : c.occupant (w.task n) = none) (hcells : w'.cells = Function.update w.cells n c)
    (hworker : w'.worker = w.worker) (hcount : w'.pendingCountByPubKey = (w.decPubKeyCount pk).pendingCountByPubKey)
    (hposts : w'.posts = w.posts) : w'.Balanced := by
  refine .of_parts (hbalanced.free hfinite hslot) ?_ hcount hposts
  rw [World.occupant_write hcells hworker, hfree]

theorem handleJob_counts {row : OrderRow} {counterparty : Option (ℕ × Entry)} :
    (w.handleJob n row counterparty).pendingCountByPubKey = w.pendingCountByPubKey ∧
      (w.handleJob n row counterparty).posts = w.posts := by
  unfold World.handleJob
  dsimp only
  split
  · exact ⟨rfl, rfl⟩
  · split <;> exact ⟨rfl, rfl⟩

/-- The counters of a claim: the job takes over the slots of its orders. -/
theorem World.Balanced.claim {counterparty : Option ℕ} (hbalanced : w.Balanced) (hw : w.Sound)
    (ha : w.Counted (.claim n counterparty)) (hstep : run (.claim n counterparty) w = .ok w') : w'.Balanced := by
  have hocc : w'.occupant = w.occupant := by
    ext1 m
    have hs := hw.cell m
    have hmove := World.moves hw.distinct hstep m
    show (w'.cells m).occupant (w'.task m) = (w.cells m).occupant (w.task m)
    generalize w'.cells m = c' at hmove ⊢
    generalize w'.task m = t' at hmove ⊢
    cases hmove with
    | keep => rfl
    | @start counterparty row hidle hrow hdue hgone =>
      obtain ⟨e, he⟩ : ∃ e, (w.cells n).entry = some e := by
        rw [← Option.ne_none_iff_exists']
        exact fun hnone => ha hnone row hrow (hgone hnone)
      have hactive : ((w.cells n).status e.id).isActive = true := by
        apply (hs.active_iff he hrow).mpr
        rcases hdue.1 with h | h <;> rw [h] <;> rfl
      rw [Cell.occupant_of_active he hactive, he]
      refine Cell.occupant_of_matched ?_ ?_
      · rw [Cell.startJob, Cell.mark_entry, Cell.updateRow_entry, he]
      · exact Cell.mark_status
    | @matched n' p hidle hentry hlive =>
      rw [Cell.occupant_of_active hentry (isActive_of_live hlive)]
      exact Cell.occupant_of_matched hentry Cell.setStatus_self
    | park hidle hrow hdue => rfl
    | holdSettled hhold ha' => rcases ha' with h | ⟨_, h⟩ <;> cases h
    | restore hhold ha' => rcases ha' with h | h | ⟨_, _, h, -⟩ <;> cases h
    | cancel hentry ha' => rcases ha' with h | ⟨h, -⟩ <;> cases h
  have hsame : w'.pendingCountByPubKey = w.pendingCountByPubKey ∧ w'.posts = w.posts := by
    simp only [run, bind_eq_ok, require_eq_ok, orError_eq_ok] at hstep
    obtain ⟨-, -, row, -, -, -, hstep⟩ := hstep
    cases counterparty with
    | none =>
      simp only [bind_eq_ok, require_eq_ok, pure_eq_ok] at hstep
      obtain ⟨-, -, rfl⟩ := hstep
      exact handleJob_counts
    | some m =>
      simp only [bind_eq_ok, orError_eq_ok, pure_eq_ok] at hstep
      obtain ⟨incoming, -, p, -, rfl⟩ := hstep
      exact handleJob_counts
  exact .of_parts hbalanced hocc hsame.1 hsame.2

theorem World.Balanced.jobSettled {job : Job} {txHash : ℕ} (hbalanced : w.Balanced) (hw : w.Sound) (hkeyed : w.Keyed)
    (hjob : w.worker = some job) : (w.jobSettled job txHash).Balanced := by
  have hfinite := World.finite_occupant hw hkeyed
  have hown := World.task_own hjob rfl
  have hsown := hw.cell job.nullifier
  rw [hown] at hsown
  have hslot : w.occupant job.nullifier = some job.slot := by
    rw [World.occupant, hown]
    exact hsown.occupant_own
  have hfinish : ((w.cells job.nullifier).finish job.stored (·.markSettled txHash) .settled).occupant none = none :=
    hsown.occupant_finish (Option.some_ne_none _) (fun e he => ((hsown.own _ _ rfl).2 e he).1) rfl
  cases hpartner : job.partner with
  | none =>
    have hocc : (w.jobSettled job txHash).occupant = Function.update w.occupant job.nullifier none := by
      ext1 n
      rw [World.occupant, World.jobSettled, hpartner]
      dsimp only
      rw [World.setWorker_idle, World.setWorker_cells, World.dec_cells]
      by_cases hn : n = job.nullifier
      · rw [hn, World.modify_self, Function.update_self, hfinish]
      · rw [World.modify_of_ne hn, Function.update_of_ne hn, World.occupant, World.task_of_worker hjob, Job.task_none hn]
        rw [hpartner]
        exact fun pair hpair => (by cases hpair)
    have hcounts : (w.jobSettled job txHash).pendingCountByPubKey =
        Function.update w.pendingCountByPubKey job.slot (w.pendingCountByPubKey job.slot - 1) ∧
        (w.jobSettled job txHash).posts = w.posts := by
      rw [World.jobSettled, hpartner]
      exact ⟨rfl, rfl⟩
    exact .of_parts (hbalanced.free hfinite hslot) hocc hcounts.1 hcounts.2
  | some pair =>
    obtain ⟨m, p⟩ := pair
    have hne : m ≠ job.nullifier := hw.distinct job hjob _ hpartner
    have htask := hw.distinct.task_partner hjob hpartner
    have hspartner := hw.cell m
    rw [htask] at hspartner
    have hslot' : w.occupant m = some p.pubKey := by
      rw [World.occupant, htask]
      exact hspartner.occupant_partner
    have hfinish' : ((w.cells m).finish (some p) (·.markSettled txHash) .settled).occupant none = none :=
      hspartner.occupant_finish (Option.some_ne_none _) (fun e he => congrArg some ((hspartner.partner _ rfl).2 e he).1.symm) rfl
    have hocc : (w.jobSettled job txHash).occupant = Function.update (Function.update w.occupant m none) job.nullifier none := by
      ext1 n
      rw [World.occupant, World.jobSettled, hpartner]
      dsimp only
      rw [World.setWorker_idle, World.setWorker_cells, World.dec_cells]
      by_cases hn : n = job.nullifier
      · rw [hn, World.modify_self, Function.update_self, World.dec_cells, World.modify_of_ne hne.symm, hfinish]
      · rw [World.modify_of_ne hn, World.dec_cells, Function.update_of_ne hn]
        by_cases hm : n = m
        · rw [hm, World.modify_self, Function.update_self, hfinish']
        · rw [World.modify_of_ne hm, Function.update_of_ne hm, World.occupant, World.task_of_worker hjob, Job.task_none hn]
          rw [hpartner]
          intro pair hpair
          rw [← Option.some.inj hpair]
          exact Ne.symm hm
    have hcounts : (w.jobSettled job txHash).pendingCountByPubKey =
        ((w.decPubKeyCount p.pubKey).decPubKeyCount job.slot).pendingCountByPubKey ∧ (w.jobSettled job txHash).posts = w.posts := by
      rw [World.jobSettled, hpartner]
      exact ⟨rfl, rfl⟩
    have hfree := hbalanced.free hfinite hslot'
    have hfinite' : {n | Function.update w.occupant m none n ≠ none}.Finite := by
      apply hfinite.subset
      intro n hn
      by_cases hm : n = m
      · rw [Set.mem_ofPred_eq, hm, Function.update_self] at hn
        exact absurd rfl hn
      · rwa [Set.mem_ofPred_eq, Function.update_of_ne hm] at hn
    have hslot'' : Function.update w.occupant m none job.nullifier = some job.slot := by
      rw [Function.update_of_ne hne.symm, hslot]
    exact .of_parts (hfree.free hfinite' hslot'') hocc hcounts.1 hcounts.2

theorem jobFailed_counts {job : Job} {err : String} : (w.jobFailed job err).posts = w.posts ∧
    (w.jobFailed job err).pendingCountByPubKey = if (handleSettleError w.nowMs job.attempt err).2 = .retrying
      then w.pendingCountByPubKey else (w.decPubKeyCount job.slot).pendingCountByPubKey := by
  unfold World.jobFailed
  dsimp only
  cases job.partner <;> split <;> exact ⟨rfl, rfl⟩

/-- A job that failed keeps the slot of a retry and of the counterparty. -/
theorem World.Balanced.jobFailed {job : Job} {err : String} (hbalanced : w.Balanced) (hw : w.Sound) (hkeyed : w.Keyed)
    (hjob : w.worker = some job)
    (hown' : (handleSettleError w.nowMs job.attempt err).2 = .retrying → (w.cells job.nullifier).entry ≠ none)
    (hpartner' : ∀ pair ∈ job.partner, (w.cells pair.1).entry ≠ none) : (w.jobFailed job err).Balanced := by
  have hown := World.task_own hjob rfl
  have hsown := hw.cell job.nullifier
  rw [hown] at hsown
  have hslot : w.occupant job.nullifier = some job.slot := by
    rw [World.occupant, hown]
    exact hsown.occupant_own
  obtain ⟨hcells, hidle⟩ := @jobFailed_cells w job err _ rfl
  obtain ⟨hposts, hcount⟩ := @jobFailed_counts w job err
  -- the counterparty goes back to the queue with its slot
  have hother : ∀ n, n ≠ job.nullifier → (w.jobFailed job err).occupant n = w.occupant n := by
    intro n hn
    rw [World.occupant, World.task_of_idle hidle, hcells, World.modify_of_ne hn]
    have hsame : (∀ pair ∈ job.partner, pair.1 ≠ n) → (w.cells n).occupant none = w.occupant n := by
      intro hpair
      rw [World.occupant, World.task_of_worker hjob, Job.task_none hn hpair]
    cases hpartner : job.partner with
    | none =>
      apply hsame
      rw [hpartner]
      exact fun pair hpair => (by cases hpair)
    | some pair =>
      obtain ⟨m, p⟩ := pair
      dsimp only
      by_cases hm : n = m
      · subst hm
        have htask := hw.distinct.task_partner hjob hpartner
        have hspartner := hw.cell n
        rw [htask] at hspartner
        rw [World.modify_self, hspartner.occupant_put_back (hpartner' _ hpartner), World.occupant, htask]
      · rw [World.modify_of_ne hm]
        apply hsame
        rw [hpartner]
        intro pair hpair
        rw [← Option.some.inj hpair]
        exact Ne.symm hm
  have hself : (w.jobFailed job err).occupant job.nullifier = ((w.cells job.nullifier).finish job.stored
      (handleSettleError w.nowMs job.attempt err).1 (handleSettleError w.nowMs job.attempt err).2).occupant none := by
    rw [World.occupant, World.task_of_idle hidle, hcells, World.modify_self]
    cases hpartner : job.partner with
    | none => rfl
    | some pair =>
      obtain ⟨m, p⟩ := pair
      have hne : m ≠ job.nullifier := hw.distinct job hjob _ hpartner
      dsimp only
      rw [World.modify_of_ne hne.symm]
  by_cases hretry : (handleSettleError w.nowMs job.attempt err).2 = .retrying
  · rw [if_pos hretry] at hcount
    refine .of_parts hbalanced ?_ hcount hposts
    ext1 n
    by_cases hn : n = job.nullifier
    · rw [hn, hself, hretry, hsown.occupant_retry (hown' hretry), World.occupant, hown]
    · exact hother n hn
  · rw [if_neg hretry] at hcount
    have hdone : (handleSettleError w.nowMs job.attempt err).2.isActive = false := by
      obtain ⟨⟨row, -, -⟩, -⟩ := hsown.own _ _ rfl
      have hmem := (handleSettleError_spec w.nowMs job.attempt err row.toAuthorizeOrderRow).2.2
      revert hmem hretry
      cases (handleSettleError w.nowMs job.attempt err).2 <;> decide
    refine .of_parts (hbalanced.free (World.finite_occupant hw hkeyed) hslot) ?_ hcount hposts
    ext1 n
    by_cases hn : n = job.nullifier
    · rw [hn, hself, Function.update_self]
      exact hsown.occupant_finish (Option.some_ne_none _) (fun e he => ((hsown.own _ _ rfl).2 e he).1) hdone
    · rw [Function.update_of_ne hn]
      exact hother n hn

/-! ### Submissions -/

section

variable {posts : List Post} {i : ℕ} {post : Post}

theorem reservedIn_set (hpost : posts[i]? = some post) (hfree : post.reserved = false) (pk : PubKeyId) :
    reservedIn (posts.set i { post with reserved := true }) pk = reservedIn posts pk + if pk = post.pubKey then 1 else 0 := by
  obtain ⟨hi, hget⟩ := List.getElem?_eq_some_iff.mp hpost
  rw [reservedIn, reservedIn, List.countP_set hi, hget, hfree]
  by_cases hpk : pk = post.pubKey
  · simp [hpk]
  · simp [hpk, Ne.symm hpk]

theorem reservedIn_eraseIdx (hpost : posts[i]? = some post) (pk : PubKeyId) : reservedIn posts pk =
    reservedIn (posts.eraseIdx i) pk + if post.reserved = true ∧ pk = post.pubKey then 1 else 0 := by
  obtain ⟨hi, hget⟩ := List.getElem?_eq_some_iff.mp hpost
  have hperm := List.getElem_cons_eraseIdx_perm hi
  rw [reservedIn, reservedIn, ← hperm.countP_eq, List.countP_cons, hget]
  by_cases hpk : pk = post.pubKey
  · simp [hpk]
  · simp [hpk, Ne.symm hpk]

theorem reservedIn_eraseIdx_reserved (hpost : posts[i]? = some post) (hreserved : post.reserved = true) (pk : PubKeyId) :
    reservedIn posts pk = reservedIn (posts.eraseIdx i) pk + if pk = post.pubKey then 1 else 0 := by
  have herase := reservedIn_eraseIdx hpost pk
  simpa only [hreserved, true_and] using herase

end

/-! ### The table -/

theorem Moves.row_none (hmove : Moves w n a c' t') : (c'.row = none ↔ (w.cells n).row = none) ∨
    (∃ order relayerAddress pubKey, a = .post order relayerAddress pubKey) ∨ ∃ i, a = .insert i := by
  have hmap : ∀ {f : OrderRow → OrderRow}, c'.row = (w.cells n).row.map f → (c'.row = none ↔ (w.cells n).row = none) := by
    intro f h
    rw [h, Option.map_eq_none_iff]
  cases hmove with
  | keep => exact Or.inl Iff.rfl
  | forget hn hrow hfailed => exact Or.inr (Or.inl ⟨_, _, _, rfl⟩)
  | insert hpost hn hrow => exact Or.inr (Or.inr ⟨_, rfl⟩)
  | start hidle hrow hdue hgone => exact Or.inl (hmap Cell.mark_row)
  | matched hidle hentry hlive => exact Or.inl Iff.rfl
  | park hidle hrow hdue => exact Or.inl (hmap rfl)
  | ownSettled hjob hn hmined => exact Or.inl (hmap Cell.mark_row)
  | partnerSettled hjob hpair hmined => exact Or.inl (hmap Cell.mark_row)
  | ownFailed hjob hn herr => exact Or.inl (hmap Cell.mark_row)
  | partnerFailed hjob hpair herr => exact Or.inl Iff.rfl
  | offer hentry hlive hnow => exact Or.inl (hmap rfl)
  | accept hv hn => exact Or.inl (hmap rfl)
  | holdSettled hhold ha hmined => exact Or.inl (hmap rfl)
  | restore hhold ha => exact Or.inl (hmap rfl)
  | release hhold hstatus => exact Or.inl Iff.rfl
  | cancel hentry ha => exact Or.inl (hmap Cell.cancel_row)
  | purge hentry hstatus =>
    apply Or.inl
    rw [Cell.removeEntry_row]
  | sweep => exact Or.inl (hmap rfl)
  | restart => exact Or.inl (hmap (Cell.restart_row _ _))

@[simp] theorem World.modify_nullifiers {f : Cell → Cell} : (w.modify n f).nullifiers = w.nullifiers := rfl

@[simp] theorem World.inc_nullifiers : (w.incPubKeyCount pk).nullifiers = w.nullifiers := rfl

@[simp] theorem World.dec_nullifiers : (w.decPubKeyCount pk).nullifiers = w.nullifiers := rfl

theorem handleJob_nullifiers {row : OrderRow} {counterparty : Option (ℕ × Entry)} :
    (w.handleJob n row counterparty).nullifiers = w.nullifiers := by
  unfold World.handleJob
  dsimp only
  split
  · rfl
  · split <;> rfl

theorem jobSettled_nullifiers {job : Job} {txHash : ℕ} : (w.jobSettled job txHash).nullifiers = w.nullifiers := by
  unfold World.jobSettled
  cases job.partner <;> rfl

theorem jobFailed_nullifiers {job : Job} {err : String} : (w.jobFailed job err).nullifiers = w.nullifiers := by
  unfold World.jobFailed
  dsimp only
  cases job.partner <;> split <;> rfl

theorem World.Keyed.of_same (hkeyed : w.Keyed) (hnullifiers : w'.nullifiers = w.nullifiers)
    (hrows : ∀ n, (w'.cells n).row = none ↔ (w.cells n).row = none) : w'.Keyed where
  nodup := hnullifiers ▸ hkeyed.nodup
  mem_iff n := by
    rw [hnullifiers, hkeyed.mem_iff]
    exact not_congr (hrows n).symm

theorem World.Keyed.step (hkeyed : w.Keyed) (hw : w.Distinct) (hstep : run a w = .ok w') : w'.Keyed := by
  have hmoves := World.moves hw hstep
  have hother : (∀ order relayerAddress pubKey, a ≠ .post order relayerAddress pubKey) → (∀ i, a ≠ .insert i) →
      ∀ n, (w'.cells n).row = none ↔ (w.cells n).row = none := by
    intro hpost hinsert n
    rcases (hmoves n).row_none with h | ⟨order, relayerAddress, pubKey, h⟩ | ⟨i, h⟩
    · exact h
    · exact absurd h (hpost _ _ _)
    · exact absurd h (hinsert i)
  cases a
  case post order relayerAddress pubKey =>
    simp only [run, bind_eq_ok, require_eq_ok, pure_eq_ok] at hstep
    obtain ⟨-, -, -, hknown, rfl⟩ := hstep
    have hnone : (w.cells order.nullifier).forget.row = none := by
      unfold Cell.forget
      split
      · rfl
      · assumption
    refine ⟨hkeyed.nodup.erase _, fun n => ?_⟩
    show n ∈ w.nullifiers.erase order.nullifier ↔ ((w.modify order.nullifier Cell.forget).cells n).row ≠ none
    rw [hkeyed.nodup.mem_erase_iff, hkeyed.mem_iff]
    by_cases hn : n = order.nullifier
    · subst hn
      rw [World.modify_self, hnone]
      exact ⟨fun h => absurd rfl h.1, fun h => absurd rfl h⟩
    · rw [World.modify_of_ne hn]
      exact ⟨And.right, fun h => ⟨hn, h⟩⟩
  case insert i =>
    simp only [run, bind_eq_ok, require_eq_ok, orError_eq_ok] at hstep
    obtain ⟨post, -, -, -, hstep⟩ := hstep
    split at hstep
    · obtain rfl := Except.ok.inj hstep
      exact hkeyed.of_same rfl fun n => Iff.rfl
    · rename_i hrow
      obtain rfl := Except.ok.inj hstep
      have hnew : post.order.nullifier ∉ w.nullifiers := by
        rw [hkeyed.mem_iff, not_not]
        exact hrow
      refine ⟨List.nodup_cons.mpr ⟨hnew, hkeyed.nodup⟩, fun n => ?_⟩
      show n ∈ post.order.nullifier :: w.nullifiers ↔
        ((w.modify post.order.nullifier (Cell.postInsert · w.nextId post)).cells n).row ≠ none
      rw [List.mem_cons, hkeyed.mem_iff]
      by_cases hn : n = post.order.nullifier
      · subst hn
        rw [World.modify_self, Cell.postInsert, Cell.indexOrder_row]
        exact ⟨fun _ => Option.some_ne_none _, fun _ => Or.inl rfl⟩
      · rw [World.modify_of_ne hn]
        exact ⟨fun h => h.resolve_left hn, Or.inr⟩
  -- no other step writes the keys
  all_goals
    refine hkeyed.of_same ?_ (hother (fun _ _ _ h => by cases h) fun _ h => by cases h)
    simp only [run, bind_eq_ok, require_eq_ok, orError_eq_ok, pure_eq_ok] at hstep
    grind [World.modify_nullifiers, World.dec_nullifiers, World.inc_nullifiers, handleJob_nullifiers, jobSettled_nullifiers,
      jobFailed_nullifiers, pure_eq_ok, bind_eq_ok, require_eq_ok, orError_eq_ok]

/-! ### A boot -/

theorem Cell.occupant_restart (id : ℕ) : (c.restart id).occupant none =
    (c.row.filter fun row => row.status.isActive).map fun row => row.pubKey := by
  have hholds := Cell.restart_holds c id
  cases hrow : c.row.filter fun row => row.status.isActive with
  | none =>
    have hentry : (c.restart id).entry = none := by rw [Cell.restart_entry, hrow, Option.map_none]
    rw [Option.map_none]
    exact Cell.occupant_of_none hentry hholds
  | some row =>
    have hentry : (c.restart id).entry = some ⟨id, row.order, row.pubKey⟩ := by rw [Cell.restart_entry, hrow, Option.map_some]
    obtain ⟨hrow', hactive⟩ := Option.filter_eq_some_iff.mp hrow
    refine Cell.occupant_of_active hentry ?_
    show ((c.restart id).status id).isActive = true
    rw [Cell.restart_status c id hrow']
    exact hactive

theorem World.Balanced.restart (hkeyed : w.Keyed) (hstep : run .restart w = .ok w') : w'.Balanced := by
  obtain rfl := Except.ok.inj hstep
  intro pk
  have hocc : ∀ n, World.occupant { w with
      nextId := w.nextId + 1
      cells := fun n => (w.cells n).restart w.nextId
      pendingCountByPubKey := w.recount
      posts := []
      verifying := []
      worker := none } n = ((w.cells n).row.filter fun row => row.status.isActive).map fun row => row.pubKey :=
    fun n => Cell.occupant_restart w.nextId
  have hplaces : ∀ n, World.occupant { w with
      nextId := w.nextId + 1
      cells := fun n => (w.cells n).restart w.nextId
      pendingCountByPubKey := w.recount
      posts := []
      verifying := []
      worker := none } n ≠ none → n ∈ w.nullifiers := by
    intro n hn
    rw [hkeyed.mem_iff]
    intro hnone
    rw [hocc n, hnone] at hn
    exact hn rfl
  rw [Tally.eq_countP hkeyed.nodup hplaces pk]
  show w.recount pk = _ + 0
  rw [Nat.add_zero, World.recount]
  apply List.countP_congr
  intro n _
  rw [hocc n]
  cases (w.cells n).row with
  | none => simp
  | some row => cases hactive : row.status.isActive <;> simp [Option.filter, hactive]

/-! ### Runs -/

theorem World.Balanced.step (hbalanced : w.Balanced) (hw : w.Sound) (hkeyed : w.Keyed) (ha : w.Counted a)
    (hstep : run a w = .ok w') : w'.Balanced := by
  have hfinite := World.finite_occupant hw hkeyed
  cases a with
  | elapse ms =>
    obtain rfl := Except.ok.inj hstep
    exact hbalanced
  | post order relayerAddress pubKey =>
    simp only [run, bind_eq_ok, require_eq_ok, pure_eq_ok] at hstep
    obtain ⟨-, -, -, hknown, rfl⟩ := hstep
    have hsame : (w.cells order.nullifier).forget.occupant (w.task order.nullifier) = w.occupant order.nullifier := by
      cases hrow : (w.cells order.nullifier).row with
      | none =>
        rw [Cell.forget, hrow]
        rfl
      | some row =>
        rw [Cell.Known, hrow, not_not] at hknown
        obtain ⟨hbefore, hafter⟩ := (hw.cell order.nullifier).occupant_forget hrow hknown
        rw [Cell.forget, hrow]
        exact hafter.trans hbefore.symm
    have hmodify : (w.modify order.nullifier Cell.forget).Balanced := hbalanced.keep hsame rfl rfl rfl rfl
    intro pk
    have hreserved : reservedIn (w.posts ++ [{ order, pubKey, reserved := false }]) pk = reservedIn w.posts pk := by
      rw [reservedIn, List.countP_append]
      rfl
    exact (hmodify pk).trans (congrArg (tally (w.modify order.nullifier Cell.forget).occupant pk + ·) hreserved.symm)
  | reserve i =>
    simp only [run, bind_eq_ok, require_eq_ok, orError_eq_ok, pure_eq_ok] at hstep
    obtain ⟨post, hpost, -, hfree, -, -, rfl⟩ := hstep
    exact hbalanced.reserve (reservedIn_set hpost hfree)
  | insert i =>
    simp only [run, bind_eq_ok, require_eq_ok, orError_eq_ok] at hstep
    obtain ⟨post, hpost, -, hreserved, hstep⟩ := hstep
    split at hstep
    · obtain rfl := Except.ok.inj hstep
      exact hbalanced.give_up (reservedIn_eraseIdx_reserved hpost hreserved)
    · rename_i hrow
      obtain rfl := Except.ok.inj hstep
      obtain ⟨hentry, hholds, hidle⟩ := (hw.cell post.order.nullifier).empty_of_none hrow
      have hnone : w.occupant post.order.nullifier = none := by
        rw [World.occupant, hidle]
        exact Cell.occupant_of_none hentry hholds
      have htaken : ((w.cells post.order.nullifier).postInsert w.nextId post).occupant (w.task post.order.nullifier) =
          some post.pubKey := by
        refine Cell.occupant_of_active (e := ⟨w.nextId, post.order, post.pubKey⟩) Cell.indexOrder_entry ?_
        rw [Cell.postInsert, Cell.indexOrder_status]
        show (Function.update (w.cells post.order.nullifier).status w.nextId AuthorizeOrderStatus.accepted w.nextId).isActive = true
        rw [Function.update_self]
        rfl
      have htake := hbalanced.take hfinite hnone (reservedIn_eraseIdx_reserved hpost hreserved)
      rw [← htaken, ← @World.occupant_write w (w.modify post.order.nullifier (Cell.postInsert · w.nextId post)) _ _ rfl rfl] at htake
      exact htake
  | refuse i =>
    simp only [run, bind_eq_ok, orError_eq_ok, pure_eq_ok] at hstep
    obtain ⟨post, hpost, rfl⟩ := hstep
    split
    · rename_i hreserved
      exact hbalanced.give_up (reservedIn_eraseIdx_reserved hpost hreserved)
    · rename_i hfree
      intro pk
      have hsame := reservedIn_eraseIdx hpost pk
      rw [if_neg fun h => hfree h.1, Nat.add_zero] at hsame
      exact (hbalanced pk).trans (congrArg (tally w.occupant pk + ·) hsame)
  | claim n counterparty => exact hbalanced.claim hw ha hstep
  | workerSend =>
    simp only [run, bind_eq_ok, orError_eq_ok, pure_eq_ok] at hstep
    obtain ⟨job, -, rfl⟩ := hstep
    exact hbalanced
  | workerEnd submission =>
    simp only [run, bind_eq_ok, orError_eq_ok] at hstep
    obtain ⟨job, hjob, hstep⟩ := hstep
    split at hstep
    · simp only [bind_eq_ok, require_eq_ok, pure_eq_ok] at hstep
      obtain ⟨-, -, rfl⟩ := hstep
      exact hbalanced.jobSettled hw hkeyed hjob
    · rename_i err herr
      obtain rfl := Except.ok.inj hstep
      obtain ⟨hown, hpartner⟩ := ha job hjob err herr
      exact hbalanced.jobFailed hw hkeyed hjob hown hpartner
  | offer n now remote =>
    simp only [run, bind_eq_ok, require_eq_ok, pure_eq_ok] at hstep
    obtain ⟨-, -, e, he, rfl⟩ := hstep
    obtain ⟨hentry, hlive, -⟩ := offered_ok he
    exact hbalanced.keep (Cell.occupant_hold hentry hlive none) rfl rfl rfl rfl
  | offerEnd n i settled =>
    simp only [run, bind_eq_ok, require_eq_ok, orError_eq_ok] at hstep
    obtain ⟨h, hhold, -, -, hstep⟩ := hstep
    have hs := hw.cell n
    cases settled with
    | none =>
      obtain rfl := Except.ok.inj hstep
      exact hbalanced.keep (hs.occupant_restore hhold (ha rfl)) rfl rfl rfl rfl
    | some txHash =>
      simp only [bind_eq_ok, require_eq_ok, pure_eq_ok] at hstep
      obtain ⟨-, -, rfl⟩ := hstep
      exact hbalanced.release hfinite (hs.occupant_held hhold) (hs.occupant_holdSettled hhold txHash) rfl rfl rfl rfl
  | offerThrow n i =>
    simp only [run, bind_eq_ok, require_eq_ok, orError_eq_ok] at hstep
    obtain ⟨h, hhold, -, -, hstep⟩ := hstep
    have hs := hw.cell n
    split at hstep
    · obtain rfl := Except.ok.inj hstep
      exact hbalanced.keep (hs.occupant_restore hhold ha) rfl rfl rfl rfl
    · rename_i hstatus
      obtain ⟨e, he⟩ := Option.ne_none_iff_exists'.mp ha
      obtain ⟨rfl, hmatched⟩ := (hs.held h (List.mem_of_getElem? hhold)).2.2.2.2 e he
      exact absurd hmatched hstatus
  | receive n relayerFee taker =>
    simp only [run, bind_eq_ok, pure_eq_ok] at hstep
    obtain ⟨maker, -, rfl⟩ := hstep
    exact hbalanced
  | reject i =>
    obtain rfl := Except.ok.inj hstep
    exact hbalanced
  | accept i =>
    simp only [run, bind_eq_ok, orError_eq_ok, pure_eq_ok] at hstep
    obtain ⟨v, hv, rfl⟩ := hstep
    obtain ⟨hentry, hlive⟩ := ha v hv
    exact hbalanced.keep (Cell.occupant_hold hentry hlive (some v.taker.nullifier)) rfl rfl rfl rfl
  | acceptSend n i =>
    simp only [run, bind_eq_ok, orError_eq_ok, pure_eq_ok] at hstep
    obtain ⟨h, -, taker, -, rfl⟩ := hstep
    exact hbalanced
  | acceptEnd n i submission =>
    simp only [run, bind_eq_ok, orError_eq_ok] at hstep
    obtain ⟨h, hhold, taker, -, hstep⟩ := hstep
    have hs := hw.cell n
    split at hstep
    · rename_i txHash _
      simp only [bind_eq_ok, require_eq_ok, pure_eq_ok] at hstep
      obtain ⟨-, -, rfl⟩ := hstep
      exact hbalanced.release hfinite (hs.occupant_held hhold) (hs.occupant_holdSettled hhold txHash) rfl rfl rfl rfl
    · rename_i err herr
      obtain rfl := Except.ok.inj hstep
      exact hbalanced.keep (hs.occupant_restore hhold (ha ⟨err, herr⟩)) rfl rfl rfl rfl
  | privateCancel n =>
    simp only [run, bind_eq_ok, orError_eq_ok, pure_eq_ok] at hstep
    obtain ⟨e, he, rfl⟩ := hstep
    have hs := hw.cell n
    split
    · rename_i hlive
      exact hbalanced.release hfinite (Cell.occupant_of_active he (isActive_of_live hlive)) (hs.occupant_cancel he hlive)
        rfl rfl rfl rfl
    · rename_i hlive
      refine hbalanced.keep (hs.occupant_cancel_other he hlive fun hflight => ha e he hflight) rfl rfl rfl rfl
  | drain n =>
    simp only [run, bind_eq_ok, require_eq_ok, orError_eq_ok, pure_eq_ok] at hstep
    obtain ⟨e, he, -, hlive, rfl⟩ := hstep
    exact hbalanced.release hfinite (Cell.occupant_of_active he (isActive_of_live hlive)) ((hw.cell n).occupant_cancel he hlive)
      rfl rfl rfl rfl
  | purge n =>
    simp only [run, bind_eq_ok, require_eq_ok, orError_eq_ok, pure_eq_ok] at hstep
    obtain ⟨e, he, -, hstatus, rfl⟩ := hstep
    have hs := hw.cell n
    split
    · rename_i hexpired
      rw [Bool.and_eq_true] at hexpired
      exact hbalanced.release hfinite (Cell.occupant_of_active he (isActive_of_live hexpired.1)) (hs.occupant_removeEntry he hexpired.1)
        rfl rfl rfl rfl
    · rename_i hkept
      exact hbalanced.keep (hs.occupant_purge he (hstatus.resolve_right hkept)) rfl rfl rfl rfl
  | sweep =>
    obtain rfl := Except.ok.inj hstep
    exact hbalanced
  | restart => exact World.Balanced.restart hkeyed hstep
  | peerSend nullifiers =>
    obtain rfl := Except.ok.inj hstep
    exact hbalanced
  | mine txHash =>
    simp only [run, bind_eq_ok, require_eq_ok, orError_eq_ok, pure_eq_ok] at hstep
    obtain ⟨tx, -, -, -, -, -, rfl⟩ := hstep
    exact hbalanced
  | revert txHash =>
    simp only [run, bind_eq_ok, require_eq_ok, orError_eq_ok, pure_eq_ok] at hstep
    obtain ⟨tx, -, -, -, rfl⟩ := hstep
    exact hbalanced

/-! ### The limit -/

theorem World.dec_le : (w.decPubKeyCount pk).pendingCountByPubKey ≤ w.pendingCountByPubKey := by
  intro pk'
  show Function.update w.pendingCountByPubKey pk (w.pendingCountByPubKey pk - 1) pk' ≤ _
  rw [Function.update_apply]
  split
  · rename_i hpk
    rw [hpk]
    exact Nat.sub_le _ _
  · exact le_rfl

theorem jobSettled_le {job : Job} {txHash : ℕ} : (w.jobSettled job txHash).pendingCountByPubKey ≤ w.pendingCountByPubKey := by
  unfold World.jobSettled
  cases job.partner with
  | none => exact World.dec_le (w := w)
  | some pair => exact (World.dec_le (w := w.decPubKeyCount pair.2.pubKey)).trans World.dec_le

theorem jobFailed_le {job : Job} {err : String} : (w.jobFailed job err).pendingCountByPubKey ≤ w.pendingCountByPubKey := by
  rw [jobFailed_counts.2]
  split
  · exact le_rfl
  · exact World.dec_le

/-- A boot counts no order that had no slot before, if no row outlived its entry. -/
theorem World.recount_le (hbalanced : w.Balanced) (hw : w.Sound) (hkeyed : w.Keyed) (ha : w.Counted .restart) :
    w.recount ≤ w.pendingCountByPubKey := by
  intro pk
  have hplaces : ∀ n, w.occupant n ≠ none → n ∈ w.nullifiers :=
    fun n hn => (hkeyed.mem_iff n).mpr ((hw.cell n).row_of_occupant hn)
  have hcount := hbalanced pk
  rw [Tally.eq_countP hkeyed.nodup hplaces pk] at hcount
  have hmono : w.recount pk ≤ w.nullifiers.countP fun n => decide (w.occupant n = some pk) := by
    apply List.countP_mono_left
    intro n _ hrow
    obtain ⟨row, hrow, hkey⟩ := (Option.any_eq_true _ _).mp hrow
    rw [Bool.and_eq_true, decide_eq_true_eq] at hkey
    obtain ⟨hactive, hkey⟩ := hkey
    obtain ⟨e, he⟩ := Option.ne_none_iff_exists'.mp (ha n row hrow hactive)
    obtain ⟨row', hrow', -, hpubKey, hiff⟩ := (hw.cell n).stored e he
    obtain rfl := Option.some.inj (hrow.symm.trans hrow')
    have hopen : row.status.isDone = false := by
      revert hactive
      cases row.status <;> decide
    rw [decide_eq_true_eq, ← hkey, hpubKey]
    exact Cell.occupant_of_active he (hiff.mpr hopen)
  exact hmono.trans (hcount ▸ Nat.le_add_right _ _)

/-- Only a reservation raises a counter, and it looks at the limit first. -/
theorem World.limit_step (hbalanced : w.Balanced) (hw : w.Sound) (hkeyed : w.Keyed) (ha : w.Counted a)
    (hlimit : ∀ pk, w.pendingCountByPubKey pk ≤ MAX_ORDERS_PER_PUBKEY) (hstep : run a w = .ok w') (pk : PubKeyId) :
    w'.pendingCountByPubKey pk ≤ MAX_ORDERS_PER_PUBKEY := by
  have hfewer : w'.pendingCountByPubKey ≤ w.pendingCountByPubKey → w'.pendingCountByPubKey pk ≤ MAX_ORDERS_PER_PUBKEY :=
    fun h => (h pk).trans (hlimit pk)
  cases a
  case reserve i =>
    simp only [run, bind_eq_ok, require_eq_ok, orError_eq_ok, pure_eq_ok] at hstep
    obtain ⟨post, -, -, -, -, hroom, rfl⟩ := hstep
    show Function.update w.pendingCountByPubKey post.pubKey (w.pendingCountByPubKey post.pubKey + 1) pk ≤ _
    rw [Function.update_apply]
    split
    · exact hroom
    · exact hlimit pk
  case restart =>
    obtain rfl := Except.ok.inj hstep
    exact hfewer (World.recount_le hbalanced hw hkeyed ha)
  all_goals
    apply hfewer
    simp only [run, bind_eq_ok, require_eq_ok, orError_eq_ok, pure_eq_ok] at hstep
    have hmodify : ∀ {n f}, (w.modify n f).pendingCountByPubKey = w.pendingCountByPubKey := rfl
    grind [World.dec_le, jobSettled_le, jobFailed_le, handleJob_counts, pure_eq_ok, bind_eq_ok, require_eq_ok, orError_eq_ok,
      le_refl]

end

/-! ### Runs -/

/-- What holds of the slots in a run whose steps are counted. -/
structure World.Slots (w : World) : Prop where
  sound : w.Sound
  keyed : w.Keyed
  balanced : w.Balanced
  limit : ∀ pk, w.pendingCountByPubKey pk ≤ MAX_ORDERS_PER_PUBKEY

theorem World.slots_start (nowMs : ℕ) : (World.start nowMs).Slots where
  sound := World.sound_start nowMs
  keyed :=
    { nodup := List.nodup_nil
      mem_iff := fun n => by simp [World.start, Cell.empty] }
  balanced pk := by
    have hfree : {n | (World.start nowMs).occupant n = some pk} = ∅ := by
      ext n
      simp [World.occupant, Cell.occupant, World.task, World.start, Cell.empty]
    show 0 = tally _ pk + 0
    rw [tally, hfree, Set.ncard_empty]
  limit pk := Nat.zero_le _

theorem World.slots_run {nowMs : ℕ} {as : List Step} (halong : Along run World.Counted (World.start nowMs) as) :
    (after run (World.start nowMs) as).Slots := by
  apply invariant_along (I := World.Slots) _ (World.slots_start nowMs) halong
  intro w a w' hw ha hstep
  have hkeyed := hw.keyed.step hw.sound.distinct hstep
  exact
    { sound := hw.sound.step ha.rechecked hstep
      keyed := hkeyed
      balanced := hw.balanced.step hw.sound hw.keyed ha hstep
      limit := World.limit_step hw.balanced hw.sound hw.keyed ha hw.limit hstep }

/-- In a run whose orders stay in the map as long as an operation may hand them back, every counter is exact, and no key passes its limit. -/
theorem slots_balanced (nowMs : ℕ) (as : List Step) (halong : Along run World.Counted (World.start nowMs) as) :
    (after run (World.start nowMs) as).Balanced ∧
      ∀ pk, (after run (World.start nowMs) as).pendingCountByPubKey pk ≤ MAX_ORDERS_PER_PUBKEY :=
  ⟨(World.slots_run halong).balanced, (World.slots_run halong).limit⟩

/-- The order of a job that failed once still has its slot. -/
theorem slots_balanced_retrying :
    (after run (World.start 0) (crossing ++ [.claim 5 (some 6), .workerEnd (.refused "timeout")])).Balanced ∧
      ∀ pk, (after run (World.start 0) (crossing ++ [.claim 5 (some 6), .workerEnd (.refused "timeout")])).pendingCountByPubKey pk ≤
        MAX_ORDERS_PER_PUBKEY := by
  have hclaim : World.Counted (after run (World.start 0) crossing) (.claim 5 (some 6)) := by
    intro hnone
    have hentry : ((after run (World.start 0) crossing).cells 5).entry.isSome = true := by decide +kernel
    rw [hnone] at hentry
    cases hentry
  have hend : World.Counted (after run (World.start 0) (crossing ++ [.claim 5 (some 6)])) (.workerEnd (.refused "timeout")) := by
    intro job hjob err _
    have hown : ((after run (World.start 0) (crossing ++ [.claim 5 (some 6)])).worker.all fun job =>
        ((after run (World.start 0) (crossing ++ [.claim 5 (some 6)])).cells job.nullifier).entry.isSome) = true := by decide +kernel
    have hpartner : ((after run (World.start 0) (crossing ++ [.claim 5 (some 6)])).worker.all fun job => job.partner.all fun pair =>
        ((after run (World.start 0) (crossing ++ [.claim 5 (some 6)])).cells pair.1).entry.isSome) = true := by decide +kernel
    rw [Option.all_eq_true] at hown hpartner
    refine ⟨fun _ => Option.isSome_iff_ne_none.mp (hown job hjob), fun pair hpair => ?_⟩
    exact Option.isSome_iff_ne_none.mp ((Option.all_eq_true _ _).mp (hpartner job hjob) pair hpair)
  apply slots_balanced
  exact ⟨trivial, trivial, trivial, trivial, trivial, trivial, hclaim, hend, trivial⟩

theorem World.finite_run {nowMs : ℕ} {as : List Step} (halong : Along run World.Rechecked (World.start nowMs) as) :
    (after run (World.start nowMs) as).Keyed ∧
      ∀ n, (after run (World.start nowMs) as).occupant n ≠ none → n ∈ (after run (World.start nowMs) as).nullifiers := by
  have hkept := invariant_along (I := fun w : World => w.Sound ∧ w.Keyed) (fun w a w' hw ha hstep => ?_)
    ⟨World.sound_start nowMs, (World.slots_start nowMs).keyed⟩ halong
  · refine ⟨hkept.2, fun n hn => ?_⟩
    exact (hkept.2.mem_iff n).mpr ((hkept.1.cell n).row_of_occupant hn)
  · exact ⟨hw.1.step ha hstep, hw.2.step hw.1.distinct hstep⟩

/-- An order is cancelled on chain while the worker has it, and the job is to be tried again: nobody gives the slot back. -/
theorem cancelled_retry_leaks : ¬∀ nowMs as, (after run (World.start nowMs) as).Balanced := by
  intro h
  have hbalanced := h 0 (crossing ++ [.claim 5 (some 6), .privateCancel 5, .workerEnd (.refused "timeout")]) (1, 2)
  have halong : Along run World.Rechecked (World.start 0)
      (crossing ++ [.claim 5 (some 6), .privateCancel 5, .workerEnd (.refused "timeout")]) :=
    ⟨trivial, trivial, trivial, trivial, trivial, trivial, trivial, trivial, trivial, trivial⟩
  obtain ⟨hkeyed, hplaces⟩ := World.finite_run halong
  have hslot : (after run (World.start 0) (crossing ++ [.claim 5 (some 6), .privateCancel 5,
      .workerEnd (.refused "timeout")])).pendingCountByPubKey (1, 2) = 1 := by decide +kernel
  have hreserved : reservedIn (after run (World.start 0) (crossing ++ [.claim 5 (some 6), .privateCancel 5,
      .workerEnd (.refused "timeout")])).posts (1, 2) = 0 := by decide +kernel
  have hfree : (after run (World.start 0) (crossing ++ [.claim 5 (some 6), .privateCancel 5,
      .workerEnd (.refused "timeout")])).nullifiers.countP (fun n => decide ((after run (World.start 0) (crossing ++
        [.claim 5 (some 6), .privateCancel 5, .workerEnd (.refused "timeout")])).occupant n = some (1, 2))) = 0 := by
    decide +kernel
  rw [Tally.eq_countP hkeyed.nodup hplaces (1, 2), hfree, hslot, hreserved] at hbalanced
  exact absurd hbalanced (by decide)

end Relayer

end ScatterDex
