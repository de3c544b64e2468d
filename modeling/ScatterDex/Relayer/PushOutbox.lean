import ScatterDex.Relayer.SettlementHistory
import ScatterDex.Sdk.Text

/-!
# The outbox of settlement pushes

A confirmed settlement is stored before it is pushed to the shared orderbook. What the orderbook has not acknowledged is sent again by a worker, the oldest first, with a pause between two attempts and a cap on their number. Acknowledged rows are kept for a week.
-/

namespace ScatterDex

open SharedOrderbook

namespace Relayer

def MAX_PUSH_ATTEMPTS : ℕ := 50

def DEFAULT_BATCH_SIZE : ℕ := 50

def DEFAULT_RETRY_BACKOFF_MS : ℕ := 30000

def DEFAULT_PRUNE_PUSHED_AFTER_MS : ℕ := 7 * 24 * 60 * 60000

/-- A row of `settlement_push_outbox`. -/
structure PushRow where
  txHash : ℕ
  payload : SettlementInsert
  attempts : ℕ
  lastAttemptAt : Option ℕ
  lastError : Option String
  pushedAt : Option ℕ
  createdAt : ℕ

abbrev PushOutbox := Table PushRow.txHash

/-- Not acknowledged, below the cap, and not tried since the cutoff. -/
def PushRow.claimable (row : PushRow) (cutoff : ℤ) : Bool :=
  row.pushedAt = none ∧ row.attempts < MAX_PUSH_ATTEMPTS ∧ row.lastAttemptAt.all fun last => (last : ℤ) ≤ cutoff

/-- Not acknowledged, and below the cap: the worker will try it again. -/
def PushRow.live (row : PushRow) : Bool := row.pushedAt = none ∧ row.attempts < MAX_PUSH_ATTEMPTS

def PushRow.succeeded (now : ℕ) (row : PushRow) : PushRow :=
  { row with pushedAt := some now, lastAttemptAt := some now, lastError := none, attempts := row.attempts + 1 }

/-- `error.slice(0, 500)` -/
def cutError (error : String) : String := String.ofList (Sdk.sliceChars 500 error.toList)

/-- A failed attempt. A row acknowledged before stays acknowledged. -/
def PushRow.failed (now : ℕ) (error : String) (row : PushRow) : PushRow :=
  { row with lastAttemptAt := some now, lastError := some (cutError error), attempts := row.attempts + 1 }

namespace PushOutbox

def enqueueSettlementPush (outbox : PushOutbox) (payload : SettlementInsert) (now : ℕ) : PushOutbox :=
  (outbox.insertOrIgnore
    { txHash := payload.txHash, payload, attempts := 0, lastAttemptAt := none, lastError := none, pushedAt := none
      createdAt := now }).1

def getPendingSettlementPushes (outbox : PushOutbox) (limit backoffMs now : ℕ) : List PushRow :=
  ((outbox.rows.filter fun row => row.claimable (now - backoffMs)).insertionSort
    fun a b => a.createdAt ≤ b.createdAt).take limit

def markSettlementPushSucceeded (outbox : PushOutbox) (txHash now : ℕ) : PushOutbox :=
  outbox.update (fun row => row.txHash = txHash) (PushRow.succeeded now) fun _ => rfl

def markSettlementPushFailed (outbox : PushOutbox) (txHash : ℕ) (error : String) (now : ℕ) : PushOutbox :=
  outbox.update (fun row => row.txHash = txHash) (PushRow.failed now error) fun _ => rfl

def prunePushedSettlementPushes (outbox : PushOutbox) (olderThanMs now : ℕ) : PushOutbox :=
  outbox.delete fun row => row.pushedAt.any fun pushedAt => (pushedAt : ℤ) ≤ now - olderThanMs

variable {outbox : PushOutbox} {payload : SettlementInsert} {row : PushRow} {txHash limit backoffMs olderThanMs now : ℕ}
  {error : String}

/-- A settlement waits: it is in the outbox and has not been acknowledged. -/
def Waits (outbox : PushOutbox) (txHash : ℕ) : Prop :=
  ∃ row ∈ outbox.rows, row.txHash = txHash ∧ row.pushedAt = none

theorem mem_pending (hrow : row ∈ outbox.getPendingSettlementPushes limit backoffMs now) : row ∈ outbox.rows :=
  (List.mem_filter.mp ((List.mem_insertionSort _).mp (List.mem_of_mem_take hrow))).1

theorem mem_enqueue : row ∈ (outbox.enqueueSettlementPush payload now).rows →
    row ∈ outbox.rows ∨ row.txHash = payload.txHash ∧ row.payload = payload ∧ row.pushedAt = none := by
  unfold enqueueSettlementPush Table.insertOrIgnore
  split
  · rename_i t hinsert
    rw [(Table.insert_eq_some.mp hinsert).2, List.mem_append, List.mem_singleton]
    rintro (hold | rfl)
    · exact Or.inl hold
    · exact Or.inr ⟨rfl, rfl, rfl⟩
  · exact Or.inl

theorem enqueue_keeps (hrow : row ∈ outbox.rows) : row ∈ (outbox.enqueueSettlementPush payload now).rows := by
  unfold enqueueSettlementPush Table.insertOrIgnore
  split
  · rename_i t hinsert
    rw [(Table.insert_eq_some.mp hinsert).2]
    exact List.mem_append_left _ hrow
  · exact hrow

theorem enqueue_has (outbox : PushOutbox) (payload : SettlementInsert) (now : ℕ) :
    ∃ row ∈ (outbox.enqueueSettlementPush payload now).rows, row.txHash = payload.txHash := by
  unfold enqueueSettlementPush Table.insertOrIgnore
  split
  · rename_i t hinsert
    rw [(Table.insert_eq_some.mp hinsert).2]
    exact ⟨_, List.mem_append_right _ List.mem_cons_self, rfl⟩
  · rename_i hinsert
    obtain ⟨row, hrow, htx⟩ := Table.insert_eq_none.mp hinsert
    exact ⟨row, hrow, htx⟩

theorem mem_marked (f : PushRow → PushRow) {hf : ∀ row, (f row).txHash = row.txHash}
    (hpayload : ∀ row, (f row).payload = row.payload)
    (hrow : row ∈ (outbox.update (fun row => row.txHash = txHash) f hf).rows) :
    ∃ old ∈ outbox.rows, old.txHash = row.txHash ∧ old.payload = row.payload ∧
      (row.pushedAt = old.pushedAt ∨ row.txHash = txHash ∧ row = f old) := by
  obtain ⟨old, hold, rfl⟩ := Table.mem_update.mp hrow
  refine ⟨old, hold, ?_⟩
  split
  · rename_i htx
    exact ⟨(hf old).symm, (hpayload old).symm, Or.inr ⟨(hf old).trans (of_decide_eq_true htx), rfl⟩⟩
  · exact ⟨rfl, rfl, Or.inl rfl⟩

theorem mem_succeeded (hrow : row ∈ (outbox.markSettlementPushSucceeded txHash now).rows) :
    ∃ old ∈ outbox.rows, old.txHash = row.txHash ∧ old.payload = row.payload ∧
      (row.pushedAt = old.pushedAt ∨ row.txHash = txHash) := by
  obtain ⟨old, hold, htx, hpayload, hmark⟩ := mem_marked (PushRow.succeeded now) (fun _ => rfl) hrow
  exact ⟨old, hold, htx, hpayload, hmark.imp_right And.left⟩

theorem mem_failed (hrow : row ∈ (outbox.markSettlementPushFailed txHash error now).rows) :
    ∃ old ∈ outbox.rows, old.txHash = row.txHash ∧ old.payload = row.payload ∧ row.pushedAt = old.pushedAt := by
  obtain ⟨old, hold, htx, hpayload, hmark⟩ := mem_marked (PushRow.failed now error) (fun _ => rfl) hrow
  refine ⟨old, hold, htx, hpayload, ?_⟩
  rcases hmark with hmark | ⟨-, hmark⟩
  · exact hmark
  · rw [hmark]
    rfl

theorem failed_waits {waiting : ℕ} (hwaits : outbox.Waits waiting) :
    (outbox.markSettlementPushFailed txHash error now).Waits waiting := by
  obtain ⟨row, hrow, htx, hpushed⟩ := hwaits
  refine ⟨_, Table.mem_update.mpr ⟨row, hrow, rfl⟩, ?_, ?_⟩
  · split
    · exact htx
    · exact htx
  · split
    · exact hpushed
    · exact hpushed

theorem succeeded_waits {waiting : ℕ} (hother : waiting ≠ txHash) (hwaits : outbox.Waits waiting) :
    (outbox.markSettlementPushSucceeded txHash now).Waits waiting := by
  obtain ⟨row, hrow, htx, hpushed⟩ := hwaits
  have hne : ¬row.txHash = txHash := fun heq => hother (htx.symm.trans heq)
  exact ⟨row, Table.mem_update.mpr ⟨row, hrow, if_neg (by simpa using hne)⟩, htx, hpushed⟩

/-- Pruning takes acknowledged rows only. -/
theorem prune_waits {waiting : ℕ} (hwaits : outbox.Waits waiting) :
    (outbox.prunePushedSettlementPushes olderThanMs now).Waits waiting := by
  obtain ⟨row, hrow, htx, hpushed⟩ := hwaits
  refine ⟨row, Table.mem_delete.mpr ⟨hrow, ?_⟩, htx, hpushed⟩
  rw [hpushed]
  rfl

/-! ### The worker -/

/-- What the pusher says of a record: acknowledged, refused, or an exception. -/
abbrev Pusher := SettlementInsert → Except String Bool

/-- The answer to one row of a batch. -/
def answered (push : Pusher) (now : ℕ) (outbox : PushOutbox) (row : PushRow) : PushOutbox :=
  match push row.payload with
  | .ok true => outbox.markSettlementPushSucceeded row.txHash now
  | .ok false => outbox.markSettlementPushFailed row.txHash "pushSettlement returned false" now
  | .error e => outbox.markSettlementPushFailed row.txHash e now

/-- A tick of the worker: the rows of its batch one after another. -/
def tick (push : Pusher) (batchSize retryBackoffMs : ℕ) (outbox : PushOutbox) (now : ℕ) : PushOutbox :=
  (outbox.getPendingSettlementPushes batchSize retryBackoffMs now).foldl (answered push now) outbox

/-- The ticks of a worker, at their times. -/
def ticks (push : Pusher) (batchSize retryBackoffMs : ℕ) (outbox : PushOutbox) (nows : List ℕ) : PushOutbox :=
  nows.foldl (tick push batchSize retryBackoffMs) outbox

/-- The pause of every live row is over. -/
def Rested (outbox : PushOutbox) (backoffMs now : ℕ) : Prop :=
  ∀ row ∈ outbox.rows, row.live = true → row.lastAttemptAt.all (fun last => (last : ℤ) ≤ now - backoffMs) = true

/-- What a batch of acknowledgements makes of a row. -/
def acknowledgedBy (now : ℕ) (batch : List PushRow) (row : PushRow) : PushRow :=
  batch.foldl (fun row sent => if row.txHash = sent.txHash then row.succeeded now else row) row

theorem acknowledgedBy_other {batch : List PushRow} (hother : row.txHash ∉ batch.map PushRow.txHash) :
    acknowledgedBy now batch row = row := by
  induction batch with
  | nil => rfl
  | cons sent batch ih =>
    rw [List.map_cons, List.mem_cons, not_or] at hother
    rw [acknowledgedBy, List.foldl_cons, if_neg hother.1]
    exact ih hother.2

theorem acknowledgedBy_pushed {batch : List PushRow} (hpushed : row.pushedAt ≠ none) :
    (acknowledgedBy now batch row).pushedAt ≠ none := by
  induction batch generalizing row with
  | nil => exact hpushed
  | cons sent batch ih =>
    rw [acknowledgedBy, List.foldl_cons]
    apply ih
    split
    · exact Option.some_ne_none now
    · exact hpushed

theorem acknowledgedBy_own {batch : List PushRow} (now : ℕ) (hown : row.txHash ∈ batch.map PushRow.txHash) :
    (acknowledgedBy now batch row).pushedAt ≠ none := by
  induction batch generalizing row with
  | nil => cases hown
  | cons sent batch ih =>
    rw [acknowledgedBy, List.foldl_cons]
    by_cases hfirst : row.txHash = sent.txHash
    · rw [if_pos hfirst]
      exact acknowledgedBy_pushed (Option.some_ne_none now)
    · rw [if_neg hfirst]
      exact ih ((List.mem_cons.mp hown).resolve_left hfirst)

/-- A row is live after a batch of acknowledgements when it was, and was not in the batch. -/
theorem acknowledgedBy_live (batch : List PushRow) (row : PushRow) :
    (acknowledgedBy now batch row).live = (row.live && !decide (row.txHash ∈ batch.map PushRow.txHash)) := by
  by_cases hmem : row.txHash ∈ batch.map PushRow.txHash
  · have hpushed := acknowledgedBy_own now hmem
    simp [PushRow.live, hmem, hpushed]
  · rw [acknowledgedBy_other hmem]
    simp [hmem]

theorem tick_rows (outbox : PushOutbox) (now : ℕ) :
    (tick (fun _ => .ok true) limit backoffMs outbox now).rows =
      outbox.rows.map (acknowledgedBy now (outbox.getPendingSettlementPushes limit backoffMs now)) := by
  have hrows := @Table.foldl_update_rows PushRow ℕ PushRow.txHash PushRow (fun sent row => row.txHash = sent.txHash)
    (fun _ => PushRow.succeeded now) (fun _ _ => rfl) (outbox.getPendingSettlementPushes limit backoffMs now) outbox
  simp only [decide_eq_true_eq] at hrows
  exact hrows

theorem claimable_rested (hrested : outbox.Rested backoffMs now) :
    outbox.rows.filter (fun row => row.claimable (now - backoffMs)) = outbox.rows.filter PushRow.live := by
  apply List.filter_congr
  intro row hrow
  unfold PushRow.claimable
  cases hlive : row.live with
  | false =>
    have hnot : ¬(row.pushedAt = none ∧ row.attempts < MAX_PUSH_ATTEMPTS) := of_decide_eq_false hlive
    exact decide_eq_false fun h => hnot ⟨h.1, h.2.1⟩
  | true =>
    obtain ⟨hpushed, hcap⟩ := of_decide_eq_true hlive
    exact decide_eq_true ⟨hpushed, hcap, hrested row hrow hlive⟩

theorem countP_pending (hrested : outbox.Rested backoffMs now) :
    outbox.rows.countP (fun row => row.live && decide (row.txHash ∈
        (outbox.getPendingSettlementPushes limit backoffMs now).map PushRow.txHash)) =
      min limit (outbox.rows.countP PushRow.live) := by
  have hnodup : outbox.rows.Nodup := outbox.distinct.of_map
  have hbatch : outbox.getPendingSettlementPushes limit backoffMs now =
      ((outbox.rows.filter PushRow.live).insertionSort fun a b => a.createdAt ≤ b.createdAt).take limit := by
    rw [getPendingSettlementPushes, claimable_rested hrested]
  have hsub : ∀ row ∈ outbox.getPendingSettlementPushes limit backoffMs now, row ∈ outbox.rows ∧ row.live = true := by
    intro row hrow
    rw [hbatch] at hrow
    exact List.mem_filter.mp ((List.mem_insertionSort _).mp (List.mem_of_mem_take hrow))
  have hperm : (outbox.rows.filter fun row => row.live && decide (row.txHash ∈
      (outbox.getPendingSettlementPushes limit backoffMs now).map PushRow.txHash)).Perm
        (outbox.getPendingSettlementPushes limit backoffMs now) := by
    apply (List.perm_ext_iff_of_nodup (hnodup.filter _) _).mpr
    · intro row
      rw [List.mem_filter, Bool.and_eq_true, decide_eq_true_eq]
      constructor
      · -- a row of the outbox under a hash of the batch is the row of the batch
        rintro ⟨hrow, -, hhash⟩
        obtain ⟨sent, hsent, htx⟩ := List.mem_map.mp hhash
        exact outbox.eq_of_key (hsub sent hsent).1 hrow htx ▸ hsent
      · intro hrow
        exact ⟨(hsub row hrow).1, (hsub row hrow).2, List.mem_map_of_mem hrow⟩
    · rw [hbatch]
      exact ((List.perm_insertionSort _ _).nodup_iff.mpr (hnodup.filter _)).sublist (List.take_sublist _ _)
  rw [List.countP_eq_length_filter, hperm.length_eq, hbatch, List.length_take, List.length_insertionSort,
    ← List.countP_eq_length_filter]

/-- A tick whose pushes succeed acknowledges a batch of live rows, or all of them. -/
theorem tick_live (hrested : outbox.Rested backoffMs now) :
    (tick (fun _ => .ok true) limit backoffMs outbox now).rows.countP PushRow.live =
      outbox.rows.countP PushRow.live - limit := by
  have hafter : (tick (fun _ => .ok true) limit backoffMs outbox now).rows.countP PushRow.live =
      outbox.rows.countP fun row => row.live && !decide (row.txHash ∈
        (outbox.getPendingSettlementPushes limit backoffMs now).map PushRow.txHash) := by
    rw [tick_rows, List.countP_map]
    congr 1
    funext row
    exact acknowledgedBy_live _ row
  have hsplit := List.countP_eq_countP_filter_add outbox.rows PushRow.live fun row =>
    decide (row.txHash ∈ (outbox.getPendingSettlementPushes limit backoffMs now).map PushRow.txHash)
  rw [List.countP_filter, List.countP_filter, countP_pending hrested] at hsplit
  rw [hafter]
  omega

theorem tick_rested {later : ℕ} (hrested : outbox.Rested backoffMs later) :
    (tick (fun _ => .ok true) limit backoffMs outbox now).Rested backoffMs later := by
  intro row hrow hlive
  rw [tick_rows] at hrow
  obtain ⟨old, hold, rfl⟩ := List.mem_map.mp hrow
  by_cases hsent : old.txHash ∈ (outbox.getPendingSettlementPushes limit backoffMs now).map PushRow.txHash
  · rw [acknowledgedBy_live, decide_eq_true hsent, Bool.not_true, Bool.and_false] at hlive
    cases hlive
  · rw [acknowledgedBy_other hsent] at hlive ⊢
    exact hrested old hold hlive

/-- Once the orderbook answers, every tick acknowledges a batch of what waits, until nothing does. -/
theorem ticks_drain {nows : List ℕ} (hrested : ∀ now ∈ nows, outbox.Rested backoffMs now) :
    (ticks (fun _ => .ok true) limit backoffMs outbox nows).rows.countP PushRow.live =
      outbox.rows.countP PushRow.live - limit * nows.length := by
  induction nows generalizing outbox with
  | nil => rfl
  | cons now nows ih =>
    have hnext : ∀ later ∈ nows, (tick (fun _ => .ok true) limit backoffMs outbox now).Rested backoffMs later :=
      fun later hlater => tick_rested (hrested later (List.mem_cons_of_mem _ hlater))
    show (ticks _ _ _ (tick _ _ _ outbox now) nows).rows.countP _ = _
    rw [ih hnext, tick_live (hrested now List.mem_cons_self), List.length_cons, Nat.mul_succ]
    omega

def outageRecord (txHash : ℕ) : SettlementInsert :=
  (⟨txHash, 50, none, none, 1, 2, 10, 20, 30, 30, none, some 5, some 6, some 100, some 200, false⟩ :
    SettlePushContext).payload 12

/-- Two settlements of an outage, each tried once when it confirmed. -/
def outage : PushOutbox :=
  let enqueued := (enqueueSettlementPush .empty (outageRecord 1) 0).enqueueSettlementPush (outageRecord 2) 500
  (enqueued.markSettlementPushFailed 1 "immediate push returned false" 100).markSettlementPushFailed 2
    "immediate push returned false" 600

theorem ticks_drain_outage :
    (ticks (fun _ => .ok true) DEFAULT_BATCH_SIZE DEFAULT_RETRY_BACKOFF_MS outage [30600]).rows.countP PushRow.live =
      outage.rows.countP PushRow.live - DEFAULT_BATCH_SIZE * [30600].length :=
  ticks_drain (by
    intro now hnow row hrow hlive
    rw [List.mem_singleton] at hnow
    subst hnow
    have hall : (outage.rows.all fun row =>
      row.lastAttemptAt.all fun last => (last : ℤ) ≤ (30600 : ℕ) - (DEFAULT_RETRY_BACKOFF_MS : ℤ)) = true := by decide
    exact List.all_eq_true.mp hall row hrow)

end PushOutbox

end Relayer

end ScatterDex
