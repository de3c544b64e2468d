import ScatterDex.Library.Transactions
import ScatterDex.Relayer.Lifecycle

/-!
# What a step does to an order

A step of the relayer is read off one nullifier at a time: `Moves` lists what may happen to the cell, and to the part the worker's job has in it. The invariant `Cell.Sound` ties the row, the entry of the map and the operations that hold the order together. It needs one condition, which the code does not check: an offer that was verified finds the order it was made for still live in the map.
-/

namespace ScatterDex

open Fallible Transactions

namespace Relayer

/-! ### The part of the worker -/

/-- The order of a job, with the object the job keeps and the public key of the row, or the counterparty. -/
inductive Task
  | own (stored : Option Entry) (pubKey : PubKeyId)
  | partner (p : Entry)

def Job.task (job : Job) (n : ℕ) : Option Task :=
  if n = job.nullifier then some (.own job.stored job.pubKey)
  else match job.partner with
    | some (m, p) => if n = m then some (.partner p) else none
    | none => none

def World.task (w : World) (n : ℕ) : Option Task := w.worker.bind (·.task n)

/-- An operation between relayers or the job of the worker has the order in hand. -/
def World.InHand (w : World) (n : ℕ) : Prop := (w.cells n).holds ≠ [] ∨ w.task n ≠ none

/-- A job is not its own counterparty. -/
def World.Distinct (w : World) : Prop := ∀ job ∈ w.worker, ∀ pair ∈ job.partner, pair.1 ≠ job.nullifier

section

variable {job : Job} {w : World} {n m : ℕ} {p : Entry} {f : Cell → Cell} {pk : PubKeyId}

theorem Job.task_own : job.task job.nullifier = some (.own job.stored job.pubKey) := if_pos rfl

theorem Job.task_partner (hpartner : job.partner = some (m, p)) (hne : m ≠ job.nullifier) : job.task m = some (.partner p) := by
  rw [Job.task, if_neg hne, hpartner]
  exact if_pos rfl

theorem Job.task_none (hown : n ≠ job.nullifier) (hpartner : ∀ pair ∈ job.partner, pair.1 ≠ n) : job.task n = none := by
  rw [Job.task, if_neg hown]
  split
  · exact if_neg fun h => hpartner _ (by assumption) h.symm
  · rfl

theorem World.task_of_worker (hworker : w.worker = some job) : w.task n = job.task n := by
  rw [World.task, hworker, Option.bind_some]

theorem World.task_own (hworker : w.worker = some job) (hn : n = job.nullifier) :
    w.task n = some (.own job.stored job.pubKey) := by
  rw [World.task_of_worker hworker, hn, Job.task_own]

theorem World.task_eq_own {stored : Option Entry} (ht : w.task n = some (.own stored pk)) :
    ∃ job, w.worker = some job ∧ job.nullifier = n ∧ job.stored = stored := by
  obtain ⟨job, hjob, htask⟩ := Option.bind_eq_some_iff.mp ht
  unfold Job.task at htask
  split at htask
  · rename_i hn
    obtain ⟨hstored, -⟩ := Task.own.inj (Option.some.inj htask)
    exact ⟨job, hjob, hn.symm, hstored⟩
  · split at htask
    · split at htask <;> cases htask
    · cases htask

theorem World.Distinct.task_partner (hw : w.Distinct) (hworker : w.worker = some job) (hpartner : job.partner = some (n, p)) :
    w.task n = some (.partner p) := by
  rw [World.task_of_worker hworker, Job.task_partner hpartner (hw job hworker _ hpartner)]

theorem World.task_of_idle (hworker : w.worker = none) : w.task n = none := by
  rw [World.task, hworker, Option.bind_none]

@[simp] theorem World.modify_self : (w.modify n f).cells n = f (w.cells n) := Function.update_self ..

theorem World.modify_of_ne (hne : m ≠ n) : (w.modify n f).cells m = w.cells m := Function.update_of_ne hne ..

@[simp] theorem World.modify_worker : (w.modify n f).worker = w.worker := rfl

@[simp] theorem World.setWorker_cells {worker : Option Job} : (w.setWorker worker).cells = w.cells := rfl

theorem World.setWorker_task : (w.setWorker (some job)).task n = job.task n := rfl

@[simp] theorem World.setWorker_idle : (w.setWorker none).task n = none := rfl

@[simp] theorem World.dec_cells : (w.decPubKeyCount pk).cells = w.cells := rfl

@[simp] theorem World.inc_worker : (w.incPubKeyCount pk).worker = w.worker := rfl

@[simp] theorem World.dec_worker : (w.decPubKeyCount pk).worker = w.worker := rfl

end

/-! ### Moves -/

/-- What a step does to the cell of a nullifier, and to the part of the worker in it. -/
inductive Moves (w : World) (n : ℕ) : Step → Cell → Option Task → Prop
  | keep (a : Step) : Moves w n a (w.cells n) (w.task n)
  | forget {order : AuthorizeOrderFile} {relayerAddress : Address} {pubKey : PubKeyId} {row : OrderRow}
      (hn : n = order.nullifier) (hrow : (w.cells n).row = some row) (hfailed : row.status = .failed) :
      Moves w n (.post order relayerAddress pubKey) { w.cells n with row := none, entry := none } (w.task n)
  | insert {i : ℕ} {post : Post} (hpost : w.posts[i]? = some post) (hn : n = post.order.nullifier)
      (hrow : (w.cells n).row = none) : Moves w n (.insert i) ((w.cells n).postInsert w.nextId post) (w.task n)
  | start {counterparty : Option ℕ} {row : OrderRow} (hidle : w.worker = none) (hrow : (w.cells n).row = some row)
      (hdue : row.Claimable w.nowMs) (hgone : (w.cells n).entry = none → row.order.SameToken) :
      Moves w n (.claim n counterparty) ((w.cells n).startJob (w.cells n).entry) (some (.own (w.cells n).entry row.pubKey))
  | matched {n' : ℕ} {p : Entry} (hidle : w.worker = none) (hentry : (w.cells n).entry = some p)
      (hlive : ((w.cells n).status p.id).isLiveStatus = true) :
      Moves w n (.claim n' (some n)) ((w.cells n).setStatus p.id .matched) (some (.partner p))
  | park {counterparty : Option ℕ} {row : OrderRow} (hidle : w.worker = none) (hrow : (w.cells n).row = some row)
      (hdue : row.Claimable w.nowMs) :
      Moves w n (.claim n counterparty) ((w.cells n).park (w.nowMs + noMatchRepoll)) (w.task n)
  | ownSettled {submission : Submission} {job : Job} {txHash : ℕ} (hjob : w.worker = some job) (hn : n = job.nullifier)
      (hmined : w.Mined txHash job.nullifiers) :
      Moves w n (.workerEnd submission) ((w.cells n).finish job.stored (·.markSettled txHash) .settled) none
  | partnerSettled {submission : Submission} {job : Job} {p : Entry} {txHash : ℕ} (hjob : w.worker = some job)
      (hpartner : job.partner = some (n, p)) (hmined : w.Mined txHash job.nullifiers) :
      Moves w n (.workerEnd submission) ((w.cells n).finish (some p) (·.markSettled txHash) .settled) none
  | ownFailed {submission : Submission} {job : Job} {err : String} (hjob : w.worker = some job) (hn : n = job.nullifier)
      (herr : submission.result job.label = .error err) :
      Moves w n (.workerEnd submission)
        ((w.cells n).finish job.stored (handleSettleError w.nowMs job.attempt err).1 (handleSettleError w.nowMs job.attempt err).2)
        none
  | partnerFailed {submission : Submission} {job : Job} {p : Entry} {err : String} (hjob : w.worker = some job)
      (hpartner : job.partner = some (n, p)) (herr : submission.result job.label = .error err) :
      Moves w n (.workerEnd submission) ((w.cells n).setStatus p.id .pending) none
  | offer {now : ℕ} {remote : OrderSummary} {e : Entry} (hentry : (w.cells n).entry = some e)
      (hlive : ((w.cells n).status e.id).isLiveStatus = true) (hnow : now < e.order.publicSignals.expiry) :
      Moves w n (.offer n now remote) ((w.cells n).hold e none) (w.task n)
  | accept {i : ℕ} {v : Verifying} (hv : w.verifying[i]? = some v) (hn : n = v.mapKey) :
      Moves w n (.accept i) ((w.cells n).hold v.maker (some v.taker.nullifier)) (w.task n)
  | holdSettled {a : Step} {i : ℕ} {h : Hold} {txHash : ℕ} (hhold : (w.cells n).holds[i]? = some h)
      (ha : a = .offerEnd n i (some txHash) ∨ ∃ submission, a = .acceptEnd n i submission)
      (hmined : ∃ nullifiers, n ∈ nullifiers ∧ w.Mined txHash nullifiers) :
      Moves w n a ((w.cells n).holdSettled i h txHash) (w.task n)
  | restore {a : Step} {i : ℕ} {h : Hold} (hhold : (w.cells n).holds[i]? = some h)
      (ha : a = .offerEnd n i none ∨ a = .offerThrow n i ∨
        ∃ submission err, a = .acceptEnd n i submission ∧ submission.result "settleAuth" = .error err) :
      Moves w n a ((w.cells n).restore i h) (w.task n)
  | release {i : ℕ} {h : Hold} (hhold : (w.cells n).holds[i]? = some h) (hstatus : (w.cells n).status h.entry.id ≠ .matched) :
      Moves w n (.offerThrow n i) ((w.cells n).release i) (w.task n)
  | cancel {a : Step} {e : Entry} (hentry : (w.cells n).entry = some e)
      (ha : a = .privateCancel n ∨ a = .drain n ∧ ((w.cells n).status e.id).isLiveStatus = true) :
      Moves w n a ((w.cells n).cancel e) (w.task n)
  | purge {e : Entry} (hentry : (w.cells n).entry = some e) (hstatus : ((w.cells n).status e.id).isInFlightStatus = false) :
      Moves w n (.purge n) ((w.cells n).removeEntry e) (w.task n)
  | sweep : Moves w n .sweep ((w.cells n).updateRow fun row => row.sweep w.nowSeconds) (w.task n)
  | restart : Moves w n .restart ((w.cells n).restart w.nextId) none

section

variable {w w' : World} {a : Step} {n m : ℕ} {c : Cell} {f : Cell → Cell} {t : Option Task}

theorem Moves.of_write (hmove : Moves w m a c (w.task m)) (hcells : w'.cells = Function.update w.cells m c)
    (hworker : w'.worker = w.worker) : Moves w n a (w'.cells n) (w'.task n) := by
  have htask : w'.task n = w.task n := by rw [World.task, hworker, World.task]
  rw [hcells, htask]
  by_cases hn : n = m
  · subst hn
    rw [Function.update_self]
    exact hmove
  · rw [Function.update_of_ne hn]
    exact .keep a

theorem candidate_ok {incoming : AuthorizeOrderFile} {p : Entry} (hp : w.candidate n incoming m = .ok p) :
    m ≠ n ∧ (w.cells m).entry = some p ∧ ((w.cells m).status p.id).isLiveStatus = true := by
  simp only [World.candidate, bind_eq_ok, require_eq_ok, orError_eq_ok, pure_eq_ok] at hp
  obtain ⟨-, hne, -, -, e, hentry, -, hlive, -, -, -, -, rfl⟩ := hp
  exact ⟨hne, hentry, hlive⟩

theorem offered_ok {now : ℕ} {remote : OrderSummary} {e : Entry} (he : c.offered now remote = .ok e) :
    c.entry = some e ∧ (c.status e.id).isLiveStatus = true ∧ now < e.order.publicSignals.expiry := by
  simp only [Cell.offered, bind_eq_ok, require_eq_ok, orError_eq_ok, pure_eq_ok] at he
  obtain ⟨-, -, -, -, e', hentry, -, hlive, -, -, -, hexpiry, -, -, rfl⟩ := he
  exact ⟨hentry, hlive, Nat.lt_of_not_le hexpiry⟩

theorem handleJob_moves {row : OrderRow} {counterparty : Option (ℕ × Entry)} {wanted : Option ℕ}
    (hidle : w.worker = none) (hrow : (w.cells m).row = some row) (hdue : row.Claimable w.nowMs)
    (hmatch : ∀ k p, counterparty = some (k, p) → wanted = some k ∧ k ≠ m ∧ (w.cells k).entry = some p ∧
      ((w.cells k).status p.id).isLiveStatus = true) :
    Moves w n (.claim m wanted) ((w.handleJob m row counterparty).cells n) ((w.handleJob m row counterparty).task n) := by
  have hfree : ∀ k, w.task k = none := fun k => World.task_of_idle hidle
  have hpark : Moves w n (.claim m wanted) ((w.modify m (Cell.park · (w.nowMs + noMatchRepoll))).cells n) (w.task n) :=
    .of_write (.park hidle hrow hdue) rfl rfl
  unfold World.handleJob
  dsimp only
  split
  · rename_i hsame
    by_cases hn : n = m
    · subst hn
      have hgone : (w.cells n).entry = none → row.order.SameToken := by
        intro hnone
        rwa [hnone] at hsame
      rw [World.setWorker_cells, World.modify_self, World.setWorker_task, Job.task, if_pos rfl]
      exact .start hidle hrow hdue hgone
    · rw [World.setWorker_cells, World.modify_of_ne hn, World.setWorker_task, Job.task, if_neg hn, ← hfree n]
      exact .keep _
  · split
    · rename_i e k p hstored
      obtain ⟨rfl, hne, hentry, hlive⟩ := hmatch k p rfl
      by_cases hn : n = m
      · subst hn
        have hcell : (w.modify k (Cell.setStatus · p.id .matched)).cells n = w.cells n := World.modify_of_ne hne.symm
        rw [World.setWorker_cells, World.modify_self, hcell, World.setWorker_task, Job.task, if_pos rfl]
        apply Moves.start hidle hrow hdue
        rw [hstored]
        intro h
        cases h
      · rw [World.setWorker_cells, World.modify_of_ne hn, World.setWorker_task, Job.task, if_neg hn]
        by_cases hk : n = k
        · subst hk
          rw [World.modify_self]
          show Moves w n _ _ (if n = n then _ else _)
          rw [if_pos rfl]
          exact .matched hidle hentry hlive
        · rw [World.modify_of_ne hk]
          show Moves w n _ _ (if n = k then _ else _)
          rw [if_neg hk, ← hfree n]
          exact .keep _
    · exact hpark

theorem jobSettled_moves {submission : Submission} {job : Job} {txHash : ℕ} (hw : w.Distinct)
    (hjob : w.worker = some job) (hmined : w.Mined txHash job.nullifiers) :
    Moves w n (.workerEnd submission) ((w.jobSettled job txHash).cells n) ((w.jobSettled job txHash).task n) := by
  have hother : n ≠ job.nullifier → (∀ pair ∈ job.partner, pair.1 ≠ n) → Moves w n (.workerEnd submission) (w.cells n) none := by
    intro hn hpair
    rw [← Job.task_none hn hpair, ← World.task_of_worker hjob]
    exact .keep _
  rw [World.jobSettled, World.setWorker_idle, World.setWorker_cells, World.dec_cells]
  cases hpartner : job.partner with
  | none =>
    dsimp only
    by_cases hn : n = job.nullifier
    · rw [hn, World.modify_self, ← hn]
      exact .ownSettled hjob hn hmined
    · rw [World.modify_of_ne hn]
      apply hother hn
      simp [hpartner]
  | some pair =>
    obtain ⟨m, p⟩ := pair
    have hne : m ≠ job.nullifier := hw job hjob _ hpartner
    dsimp only
    by_cases hn : n = job.nullifier
    · rw [hn, World.modify_self, World.dec_cells, World.modify_of_ne hne.symm, ← hn]
      exact .ownSettled hjob hn hmined
    · rw [World.modify_of_ne hn, World.dec_cells]
      by_cases hm : n = m
      · subst hm
        rw [World.modify_self]
        exact .partnerSettled hjob hpartner hmined
      · rw [World.modify_of_ne hm]
        apply hother hn
        simp [hpartner, Ne.symm hm]

theorem jobFailed_cells {job : Job} {err : String} {w' : World}
    (hw' : w' = match job.partner with
      | some (m, p) => w.modify m (Cell.setStatus · p.id .pending)
      | none => w) :
    (w.jobFailed job err).cells = (w'.modify job.nullifier (Cell.finish · job.stored
        (handleSettleError w.nowMs job.attempt err).1 (handleSettleError w.nowMs job.attempt err).2)).cells ∧
      (w.jobFailed job err).worker = none := by
  subst hw'
  unfold World.jobFailed
  dsimp only
  split <;> exact ⟨rfl, rfl⟩

theorem jobFailed_moves {submission : Submission} {job : Job} {err : String} (hw : w.Distinct)
    (hjob : w.worker = some job) (herr : submission.result job.label = .error err) :
    Moves w n (.workerEnd submission) ((w.jobFailed job err).cells n) ((w.jobFailed job err).task n) := by
  obtain ⟨hcells, hidle⟩ := @jobFailed_cells w job err _ rfl
  have hother : n ≠ job.nullifier → (∀ pair ∈ job.partner, pair.1 ≠ n) → Moves w n (.workerEnd submission) (w.cells n) none := by
    intro hn hpair
    rw [← Job.task_none hn hpair, ← World.task_of_worker hjob]
    exact .keep _
  rw [World.task_of_idle hidle, hcells]
  cases hpartner : job.partner with
  | none =>
    dsimp only
    by_cases hn : n = job.nullifier
    · rw [hn, World.modify_self, ← hn]
      exact .ownFailed hjob hn herr
    · rw [World.modify_of_ne hn]
      apply hother hn
      simp [hpartner]
  | some pair =>
    obtain ⟨m, p⟩ := pair
    have hne : m ≠ job.nullifier := hw job hjob _ hpartner
    dsimp only
    by_cases hn : n = job.nullifier
    · rw [hn, World.modify_self, World.modify_of_ne hne.symm, ← hn]
      exact .ownFailed hjob hn herr
    · rw [World.modify_of_ne hn]
      by_cases hm : n = m
      · subst hm
        rw [World.modify_self]
        exact .partnerFailed hjob hpartner herr
      · rw [World.modify_of_ne hm]
        apply hother hn
        simp [hpartner, Ne.symm hm]

/-- The inversion of a step at a nullifier. -/
theorem World.moves (hw : w.Distinct) (hstep : run a w = .ok w') (n : ℕ) : Moves w n a (w'.cells n) (w'.task n) := by
  cases a with
  | elapse ms =>
    obtain rfl := Except.ok.inj hstep
    exact .keep _
  | post order relayerAddress pubKey =>
    simp only [run, bind_eq_ok, require_eq_ok, pure_eq_ok] at hstep
    obtain ⟨-, -, -, hknown, rfl⟩ := hstep
    have hmove : Moves w order.nullifier (.post order relayerAddress pubKey) (w.cells order.nullifier).forget
        (w.task order.nullifier) := by
      cases hrow : (w.cells order.nullifier).row with
      | none =>
        rw [Cell.forget, hrow]
        exact .keep _
      | some row =>
        rw [Cell.Known, hrow, not_not] at hknown
        rw [Cell.forget, hrow]
        exact .forget rfl hrow hknown
    exact .of_write hmove rfl rfl
  | reserve i =>
    simp only [run, bind_eq_ok, require_eq_ok, orError_eq_ok, pure_eq_ok] at hstep
    obtain ⟨post, -, -, -, -, -, rfl⟩ := hstep
    exact .keep _
  | insert i =>
    simp only [run, bind_eq_ok, require_eq_ok, orError_eq_ok] at hstep
    obtain ⟨post, hpost, -, -, hstep⟩ := hstep
    split at hstep
    · obtain rfl := Except.ok.inj hstep
      exact .keep _
    · obtain rfl := Except.ok.inj hstep
      exact .of_write (.insert hpost rfl (by assumption)) rfl rfl
  | refuse i =>
    simp only [run, bind_eq_ok, orError_eq_ok, pure_eq_ok] at hstep
    obtain ⟨post, -, rfl⟩ := hstep
    split <;> exact .keep _
  | claim m counterparty =>
    simp only [run, bind_eq_ok, require_eq_ok, orError_eq_ok] at hstep
    obtain ⟨-, hidle, row, hrow, -, hdue, hstep⟩ := hstep
    rw [Option.isNone_iff_eq_none] at hidle
    cases counterparty with
    | none =>
      simp only [bind_eq_ok, require_eq_ok, pure_eq_ok] at hstep
      obtain ⟨-, -, rfl⟩ := hstep
      exact handleJob_moves hidle hrow hdue fun k p h => (by cases h)
    | some k =>
      simp only [bind_eq_ok, orError_eq_ok, pure_eq_ok] at hstep
      obtain ⟨incoming, -, p, hp, rfl⟩ := hstep
      apply handleJob_moves hidle hrow hdue
      intro k' p' h
      obtain ⟨rfl, rfl⟩ := Prod.mk.inj (Option.some.inj h)
      exact ⟨rfl, candidate_ok hp⟩
  | workerSend =>
    simp only [run, bind_eq_ok, orError_eq_ok, pure_eq_ok] at hstep
    obtain ⟨job, -, rfl⟩ := hstep
    exact .keep _
  | workerEnd submission =>
    simp only [run, bind_eq_ok, orError_eq_ok] at hstep
    obtain ⟨job, hjob, hstep⟩ := hstep
    split at hstep
    · simp only [bind_eq_ok, require_eq_ok, pure_eq_ok] at hstep
      obtain ⟨-, hmined, rfl⟩ := hstep
      exact jobSettled_moves hw hjob hmined
    · obtain rfl := Except.ok.inj hstep
      exact jobFailed_moves hw hjob (by assumption)
  | offer m now remote =>
    simp only [run, bind_eq_ok, require_eq_ok, pure_eq_ok] at hstep
    obtain ⟨-, -, e, he, rfl⟩ := hstep
    obtain ⟨hentry, hlive, hnow⟩ := offered_ok he
    exact .of_write (.offer hentry hlive hnow) rfl rfl
  | offerEnd m i settled =>
    simp only [run, bind_eq_ok, require_eq_ok, orError_eq_ok] at hstep
    obtain ⟨h, hhold, -, -, hstep⟩ := hstep
    cases settled with
    | none =>
      obtain rfl := Except.ok.inj hstep
      exact .of_write (.restore hhold (Or.inl rfl)) rfl rfl
    | some txHash =>
      simp only [bind_eq_ok, require_eq_ok, pure_eq_ok] at hstep
      obtain ⟨-, hmined, rfl⟩ := hstep
      obtain ⟨tx, htx, hbody⟩ := (Option.any_eq_true _ _).mp hmined
      obtain ⟨hmem, hfate⟩ := of_decide_eq_true hbody
      have hin : w.Mined txHash tx.body := by rw [World.Mined, htx, ← hfate]
      exact .of_write (.holdSettled hhold (Or.inl rfl) ⟨_, hmem, hin⟩) rfl rfl
  | offerThrow m i =>
    simp only [run, bind_eq_ok, require_eq_ok, orError_eq_ok] at hstep
    obtain ⟨h, hhold, -, -, hstep⟩ := hstep
    split at hstep
    · obtain rfl := Except.ok.inj hstep
      exact .of_write (.restore hhold (Or.inr (Or.inl rfl))) rfl rfl
    · obtain rfl := Except.ok.inj hstep
      exact .of_write (.release hhold (by assumption)) rfl rfl
  | receive m relayerFee taker =>
    simp only [run, bind_eq_ok, pure_eq_ok] at hstep
    obtain ⟨maker, -, rfl⟩ := hstep
    exact .keep _
  | reject i =>
    obtain rfl := Except.ok.inj hstep
    exact .keep _
  | accept i =>
    simp only [run, bind_eq_ok, orError_eq_ok, pure_eq_ok] at hstep
    obtain ⟨v, hv, rfl⟩ := hstep
    exact .of_write (.accept hv rfl) rfl rfl
  | acceptSend m i =>
    simp only [run, bind_eq_ok, orError_eq_ok, pure_eq_ok] at hstep
    obtain ⟨h, -, taker, -, rfl⟩ := hstep
    exact .keep _
  | acceptEnd m i submission =>
    simp only [run, bind_eq_ok, orError_eq_ok] at hstep
    obtain ⟨h, hhold, taker, -, hstep⟩ := hstep
    split at hstep
    · simp only [bind_eq_ok, require_eq_ok, pure_eq_ok] at hstep
      obtain ⟨-, hmined, rfl⟩ := hstep
      exact .of_write (.holdSettled hhold (Or.inr ⟨_, rfl⟩) ⟨_, List.mem_cons_self, hmined⟩) rfl rfl
    · obtain rfl := Except.ok.inj hstep
      exact .of_write (.restore hhold (Or.inr (Or.inr ⟨_, _, rfl, by assumption⟩))) rfl rfl
  | privateCancel m =>
    simp only [run, bind_eq_ok, orError_eq_ok, pure_eq_ok] at hstep
    obtain ⟨e, hentry, rfl⟩ := hstep
    have hmove : Moves w n (.privateCancel m) ((w.modify m (Cell.cancel · e)).cells n) (w.task n) :=
      .of_write (.cancel hentry (Or.inl rfl)) rfl rfl
    split <;> exact hmove
  | drain m =>
    simp only [run, bind_eq_ok, require_eq_ok, orError_eq_ok, pure_eq_ok] at hstep
    obtain ⟨e, hentry, -, hlive, rfl⟩ := hstep
    exact .of_write (.cancel hentry (Or.inr ⟨rfl, hlive⟩)) rfl rfl
  | purge m =>
    simp only [run, bind_eq_ok, require_eq_ok, orError_eq_ok, pure_eq_ok] at hstep
    obtain ⟨e, hentry, -, hstatus, rfl⟩ := hstep
    have hkept : ((w.cells m).status e.id).isInFlightStatus = false := by
      revert hstatus
      cases (w.cells m).status e.id <;> simp [AuthorizeOrderStatus.isTerminalStatus, AuthorizeOrderStatus.isLiveStatus,
        AuthorizeOrderStatus.isInFlightStatus]
    have hmove : Moves w n (.purge m) ((w.modify m (Cell.removeEntry · e)).cells n) (w.task n) :=
      .of_write (.purge hentry hkept) rfl rfl
    split <;> exact hmove
  | sweep =>
    obtain rfl := Except.ok.inj hstep
    exact .sweep
  | restart =>
    obtain rfl := Except.ok.inj hstep
    exact .restart
  | peerSend nullifiers =>
    obtain rfl := Except.ok.inj hstep
    exact .keep _
  | mine txHash =>
    simp only [run, bind_eq_ok, require_eq_ok, orError_eq_ok, pure_eq_ok] at hstep
    obtain ⟨tx, -, -, -, -, -, rfl⟩ := hstep
    exact .keep _
  | revert txHash =>
    simp only [run, bind_eq_ok, require_eq_ok, orError_eq_ok, pure_eq_ok] at hstep
    obtain ⟨tx, -, -, -, rfl⟩ := hstep
    exact .keep _

end

/-! ### The invariant of a cell -/

/-- No operation goes on with a row that is done. An expired row is not: its order can still be settled for a counterparty. -/
def AuthorizeOrderStatus.isDone (s : AuthorizeOrderStatus) : Bool := s ∈ [.settled, .failed, .dead_letter, .cancelled]

namespace AuthorizeOrderRow

variable (row : AuthorizeOrderRow) (nowSeconds : ℕ)

theorem sweep_status : (row.sweep nowSeconds).status = row.status ∨ (row.sweep nowSeconds).status = .expired := by
  unfold sweep
  split
  · exact Or.inr rfl
  · exact Or.inl rfl

theorem sweep_order : (row.sweep nowSeconds).order = row.order := by
  unfold sweep
  split <;> rfl

variable {row nowSeconds}

theorem sweep_of_other (haccepted : row.status ≠ .accepted) (hsettling : row.status ≠ .settling) (hretrying : row.status ≠ .retrying) :
    row.sweep nowSeconds = row :=
  if_neg fun h => h.1.elim haccepted fun h => h.elim hsettling hretrying

theorem sweep_of_held (hstatus : row.status = .matched ∨ row.status = .cancelled) :
    (row.sweep nowSeconds).status = row.status := by
  rw [sweep_of_other] <;> rcases hstatus with h | h <;> rw [h] <;> decide

theorem sweep_isDone : (row.sweep nowSeconds).status.isDone = row.status.isDone := by
  by_cases hswept : row.Swept nowSeconds
  · rw [sweep, if_pos hswept]
    rcases hswept.1 with h | h | h <;> rw [h] <;> rfl
  · rw [sweep, if_neg hswept]

end AuthorizeOrderRow

theorem AuthorizeOrderStatus.isActive_iff {s : AuthorizeOrderStatus} (hs : s ≠ .expired) :
    s.isActive = true ↔ s.isDone = false := by
  revert hs
  cases s <;> decide

/-- The row, the entry of the map and the operations that hold the order agree. -/
structure Cell.Sound (c : Cell) (t : Option Task) : Prop where
  stored : ∀ e ∈ c.entry, ∃ row ∈ c.row, row.order = e.order ∧ row.pubKey = e.pubKey ∧
    ((c.status e.id).isActive = true ↔ row.status.isDone = false)
  held : ∀ h ∈ c.holds, c.holds = [h] ∧ t = none ∧ h.prior.isLiveStatus = true ∧
    (∃ row ∈ c.row, row.status = .matched ∨ row.status = .cancelled) ∧ ∀ e ∈ c.entry, e = h.entry ∧ c.status e.id = .matched
  own : ∀ stored pubKey, t = some (.own stored pubKey) →
    (∃ row ∈ c.row, row.status = .settling ∨ row.status = .expired ∨ row.status = .cancelled) ∧
      ∀ e ∈ c.entry, stored = some e ∧ c.status e.id = .matched
  partner : ∀ p, t = some (.partner p) → (∃ row ∈ c.row, row.status ≠ .failed ∧ row.status ≠ .dead_letter) ∧
    ∀ e ∈ c.entry, e = p ∧ c.status e.id = .matched

namespace Cell

section

variable {c : Cell} {f : AuthorizeOrderRow → AuthorizeOrderRow} {stored : Option Entry} {s : AuthorizeOrderStatus} {id : ℕ}

@[simp] theorem updateRow_row : (c.updateRow f).row =
    c.row.map fun row => { row with toAuthorizeOrderRow := f row.toAuthorizeOrderRow } := rfl

@[simp] theorem updateRow_entry : (c.updateRow f).entry = c.entry := rfl

@[simp] theorem updateRow_status : (c.updateRow f).status = c.status := rfl

@[simp] theorem updateRow_holds : (c.updateRow f).holds = c.holds := rfl

@[simp] theorem updateRow_pairs : (c.updateRow f).pairs = c.pairs := rfl

@[simp] theorem setStatus_row : (c.setStatus id s).row = c.row := rfl

@[simp] theorem setStatus_entry : (c.setStatus id s).entry = c.entry := rfl

@[simp] theorem setStatus_holds : (c.setStatus id s).holds = c.holds := rfl

@[simp] theorem setStatus_pairs : (c.setStatus id s).pairs = c.pairs := rfl

@[simp] theorem setStatus_self : (c.setStatus id s).status id = s := Function.update_self ..

@[simp] theorem mark_row : (c.mark stored s).row = c.row := by
  cases stored <;> rfl

@[simp] theorem mark_entry : (c.mark stored s).entry = c.entry := by
  cases stored <;> rfl

@[simp] theorem mark_holds : (c.mark stored s).holds = c.holds := by
  cases stored <;> rfl

@[simp] theorem mark_pairs : (c.mark stored s).pairs = c.pairs := by
  cases stored <;> rfl

theorem startJob_row {row : OrderRow} (hrow : c.row = some row) :
    (c.startJob stored).row = some { row with toAuthorizeOrderRow := row.claim } := by
  rw [startJob, mark_row, updateRow_row, hrow]
  rfl

theorem mark_status {e : Entry} : (c.mark (some e) s).status e.id = s := Function.update_self ..

@[simp] theorem unindexOrder_row {order : AuthorizeOrderFile} : (c.unindexOrder order).row = c.row := by
  unfold unindexOrder
  split <;> rfl

@[simp] theorem unindexOrder_status {order : AuthorizeOrderFile} : (c.unindexOrder order).status = c.status := by
  unfold unindexOrder
  split <;> rfl

@[simp] theorem unindexOrder_holds {order : AuthorizeOrderFile} : (c.unindexOrder order).holds = c.holds := by
  unfold unindexOrder
  split <;> rfl

@[simp] theorem removeEntry_row {e : Entry} : (c.removeEntry e).row = c.row := unindexOrder_row

@[simp] theorem removeEntry_holds {e : Entry} : (c.removeEntry e).holds = c.holds := unindexOrder_holds

theorem cancel_row {e : Entry} : (c.cancel e).row =
    c.row.map fun row => { row with toAuthorizeOrderRow := row.updateStatus .cancelled none } := by
  unfold cancel
  split <;> exact removeEntry_row

theorem cancel_holds {e : Entry} : (c.cancel e).holds = c.holds := by
  unfold cancel
  split <;> exact removeEntry_holds

@[simp] theorem indexOrder_row {order : AuthorizeOrderFile} : (c.indexOrder order).row = c.row := by
  unfold indexOrder
  split <;> rfl

@[simp] theorem indexOrder_entry {order : AuthorizeOrderFile} : (c.indexOrder order).entry = c.entry := by
  unfold indexOrder
  split <;> rfl

@[simp] theorem indexOrder_status {order : AuthorizeOrderFile} : (c.indexOrder order).status = c.status := by
  unfold indexOrder
  split <;> rfl

@[simp] theorem indexOrder_holds {order : AuthorizeOrderFile} : (c.indexOrder order).holds = c.holds := by
  unfold indexOrder
  split <;> rfl

end

namespace Sound

variable {c : Cell} {t : Option Task} {e : Entry} {row : OrderRow} (hs : c.Sound t)
include hs

theorem row_isSome (he : c.entry = some e) : ∃ row, c.row = some row := by
  obtain ⟨row, hrow, -⟩ := hs.stored e he
  exact ⟨row, hrow⟩

theorem active_iff (he : c.entry = some e) (hrow : c.row = some row) :
    (c.status e.id).isActive = true ↔ row.status.isDone = false := by
  obtain ⟨row', hrow', -, -, hiff⟩ := hs.stored e he
  obtain rfl := Option.some.inj (hrow.symm.trans hrow')
  exact hiff

theorem free_of_live (he : c.entry = some e) (hlive : (c.status e.id).isLiveStatus = true) : c.holds = [] ∧ t = none := by
  have hmatched : c.status e.id ≠ .matched := by
    intro h
    rw [h] at hlive
    cases hlive
  constructor
  · apply List.eq_nil_iff_forall_not_mem.mpr
    intro h hh
    exact hmatched ((hs.held h hh).2.2.2.2 e he).2
  · cases t with
    | none => rfl
    | some task =>
      cases task with
      | own stored pubKey => exact absurd ((hs.own stored pubKey rfl).2 e he).2 hmatched
      | partner p => exact absurd ((hs.partner p rfl).2 e he).2 hmatched

theorem unheld (hrow : c.row = some row) (hmatched : row.status ≠ .matched) (hcancelled : row.status ≠ .cancelled) :
    c.holds = [] := by
  apply List.eq_nil_iff_forall_not_mem.mpr
  intro h hh
  obtain ⟨-, -, -, ⟨row', hrow', hstatus⟩, -⟩ := hs.held h hh
  obtain rfl := Option.some.inj (hrow.symm.trans hrow')
  exact hstatus.elim hmatched hcancelled

/-- A row that no operation of its own has in hand: it is neither matched, nor settling, nor past one. -/
theorem free_of_row (hrow : c.row = some row) (hstatus : row.status = .failed ∨ row.status = .accepted ∨ row.status = .retrying) :
    c.holds = [] ∧ ∀ stored pubKey, t ≠ some (.own stored pubKey) := by
  constructor
  · apply hs.unheld hrow <;> rcases hstatus with h | h | h <;> rw [h] <;> decide
  · intro stored pubKey ht
    obtain ⟨row', hrow', h'⟩ := (hs.own stored pubKey ht).1
    obtain rfl := Option.some.inj (hrow.symm.trans hrow')
    rcases hstatus with h | h | h <;> rw [h] at h' <;> revert h' <;> decide

theorem forget (hrow : c.row = some row) (hfailed : row.status = .failed) :
    ({ c with row := none, entry := none } : Cell).Sound t where
  stored e he := by cases he
  held h hh := by
    rw [(hs.free_of_row hrow (Or.inl hfailed)).1] at hh
    cases hh
  own stored pubKey ht := absurd ht ((hs.free_of_row hrow (Or.inl hfailed)).2 stored pubKey)
  partner p ht := by
    obtain ⟨row', hrow', hstatus, -⟩ := (hs.partner p ht).1
    obtain rfl := Option.some.inj (hrow.symm.trans hrow')
    exact absurd hfailed hstatus

/-- A nullifier without a row has nothing in the map, and no operation. -/
theorem empty_of_none (hrow : c.row = none) : c.entry = none ∧ c.holds = [] ∧ t = none := by
  refine ⟨?_, ?_, ?_⟩
  · rw [Option.eq_none_iff_forall_ne_some]
    intro e he
    obtain ⟨row, hrow'⟩ := hs.row_isSome he
    cases hrow.symm.trans hrow'
  · apply List.eq_nil_iff_forall_not_mem.mpr
    intro h hh
    obtain ⟨-, -, -, ⟨row, hrow', -⟩, -⟩ := hs.held h hh
    cases hrow.symm.trans hrow'
  · cases t with
    | none => rfl
    | some task =>
      cases task with
      | own stored pubKey =>
        obtain ⟨⟨row, hrow', -⟩, -⟩ := hs.own stored pubKey rfl
        cases hrow.symm.trans hrow'
      | partner p =>
        obtain ⟨⟨row, hrow', -⟩, -⟩ := hs.partner p rfl
        cases hrow.symm.trans hrow'

theorem postInsert (hrow : c.row = none) (id : ℕ) (post : Post) : (c.postInsert id post).Sound t := by
  obtain ⟨-, hholds, ht⟩ := hs.empty_of_none hrow
  subst ht
  constructor
  · intro e he
    rw [Cell.postInsert, indexOrder_entry, Option.mem_some_iff] at he
    subst he
    refine ⟨{ acceptedRow post.order with pubKey := post.pubKey }, ?_, rfl, rfl, ?_⟩
    · rw [Cell.postInsert, indexOrder_row]
      rfl
    · rw [Cell.postInsert, indexOrder_status]
      show (Function.update c.status id .accepted id).isActive = true ↔ _
      rw [Function.update_self]
      exact ⟨fun _ => rfl, fun _ => rfl⟩
  · intro h hh
    rw [Cell.postInsert, indexOrder_holds] at hh
    change h ∈ c.holds at hh
    rw [hholds] at hh
    cases hh
  · intro stored pubKey h
    cases h
  · intro p h
    cases h

theorem startJob (hrow : c.row = some row) (hstatus : row.status = .accepted ∨ row.status = .retrying)
    (pubKey : PubKeyId) : (c.startJob c.entry).Sound (some (.own c.entry pubKey)) := by
  have hrow' : (c.startJob c.entry).row = some { row with toAuthorizeOrderRow := row.claim } := startJob_row hrow
  have hentry : (c.startJob c.entry).entry = c.entry := by rw [Cell.startJob, mark_entry, updateRow_entry]
  have hmatched : ∀ e ∈ c.entry, (c.startJob c.entry).status e.id = .matched := by
    intro e he
    rw [Option.mem_def] at he
    rw [Cell.startJob, he]
    exact mark_status
  constructor
  · intro e he
    rw [hentry] at he
    obtain ⟨row₀, hrow₀, horder, hkey, -⟩ := hs.stored e he
    obtain rfl := Option.some.inj (hrow.symm.trans hrow₀)
    refine ⟨_, hrow', horder, hkey, ?_⟩
    rw [hmatched e he]
    exact ⟨fun _ => rfl, fun _ => rfl⟩
  · intro h hh
    rw [Cell.startJob, mark_holds, updateRow_holds, (hs.free_of_row hrow (Or.inr hstatus)).1] at hh
    cases hh
  · intro stored pk ht
    obtain ⟨rfl, rfl⟩ := Task.own.inj (Option.some.inj ht)
    refine ⟨⟨_, hrow', Or.inl rfl⟩, fun e he => ?_⟩
    rw [hentry] at he
    exact ⟨he, hmatched e he⟩
  · intro p ht
    cases Option.some.inj ht

theorem startPartner (he : c.entry = some e) (hlive : (c.status e.id).isLiveStatus = true) :
    (c.setStatus e.id .matched).Sound (some (.partner e)) := by
  obtain ⟨row, hrow, horder, hkey, hiff⟩ := hs.stored e he
  have hdone : row.status.isDone = false := by
    apply hiff.mp
    rw [AuthorizeOrderStatus.isActive, hlive, Bool.true_or]
  constructor
  · intro e' he'
    obtain rfl := Option.some.inj (he.symm.trans he')
    refine ⟨row, hrow, horder, hkey, ?_⟩
    rw [setStatus_self, hdone]
    exact ⟨fun _ => rfl, fun _ => rfl⟩
  · intro h hh
    rw [setStatus_holds, (hs.free_of_live he hlive).1] at hh
    cases hh
  · intro stored pubKey ht
    cases Option.some.inj ht
  · intro p ht
    obtain rfl := Task.partner.inj (Option.some.inj ht)
    refine ⟨⟨row, hrow, ?_, ?_⟩, fun e' he' => ?_⟩
    · intro h
      rw [h] at hdone
      cases hdone
    · intro h
      rw [h] at hdone
      cases hdone
    · obtain rfl := Option.some.inj (he.symm.trans he')
      exact ⟨rfl, setStatus_self⟩

theorem updateRow_of_free {f : AuthorizeOrderRow → AuthorizeOrderRow} (hholds : c.holds = [])
    (hown : ∀ stored pubKey, t ≠ some (.own stored pubKey)) (hpartner : ∀ p, t ≠ some (.partner p))
    (horder : ∀ row : AuthorizeOrderRow, (f row).order = row.order)
    (hdone : ∀ row ∈ c.row, (f row.toAuthorizeOrderRow).status.isDone = row.status.isDone) : (c.updateRow f).Sound t where
  stored e he := by
    obtain ⟨row, hrow, horder', hkey, hiff⟩ := hs.stored e he
    refine ⟨{ row with toAuthorizeOrderRow := f row.toAuthorizeOrderRow }, ?_, (horder _).trans horder', hkey, ?_⟩
    · rw [updateRow_row, hrow]
      rfl
    · rw [hdone row hrow]
      exact hiff
  held h hh := by
    rw [updateRow_holds, hholds] at hh
    cases hh
  own stored pubKey ht := absurd ht (hown stored pubKey)
  partner p ht := absurd ht (hpartner p)

theorem park (hidle : t = none) (hrow : c.row = some row) (hstatus : row.status = .accepted ∨ row.status = .retrying)
    (nextRetryAt : ℕ) : (c.park nextRetryAt).Sound t := by
  subst hidle
  apply hs.updateRow_of_free (hs.free_of_row hrow (Or.inr hstatus)).1
  · intro stored pubKey h
    cases h
  · intro p h
    cases h
  · intro row
    rfl
  · intro row' hrow'
    obtain rfl := Option.some.inj (hrow.symm.trans hrow')
    rcases hstatus with h | h <;> rw [h] <;> rfl

theorem unheld_of_task (ht : t ≠ none) : c.holds = [] := by
  apply List.eq_nil_iff_forall_not_mem.mpr
  intro h hh
  exact ht (hs.held h hh).2.1

/-- The end of a job for an order: the row is done if and only if the object no longer counts. -/
theorem finish {stored : Option Entry} {write : AuthorizeOrderRow → AuthorizeOrderRow} {s : AuthorizeOrderStatus}
    (ht : t ≠ none) (hobject : ∀ e ∈ c.entry, stored = some e) (horder : ∀ row, (write row).order = row.order)
    (hstatus : ∀ row, (write row).status = s) (hexpired : s ≠ .expired) : (c.finish stored write s).Sound none where
  stored e he := by
    rw [Cell.finish, mark_entry, updateRow_entry] at he
    obtain ⟨row, hrow, horder', hkey, -⟩ := hs.stored e he
    obtain rfl := hobject e he
    refine ⟨{ row with toAuthorizeOrderRow := write row.toAuthorizeOrderRow }, ?_, (horder _).trans horder', hkey, ?_⟩
    · rw [Cell.finish, mark_row, updateRow_row, hrow]
      rfl
    · rw [Cell.finish, mark_status, hstatus]
      exact AuthorizeOrderStatus.isActive_iff hexpired
  held h hh := by
    rw [Cell.finish, mark_holds, updateRow_holds, hs.unheld_of_task ht] at hh
    cases hh
  own stored pubKey h := by cases h
  partner p h := by cases h

theorem partnerFailed {p : Entry} (ht : t = some (.partner p)) : (c.setStatus p.id .pending).Sound none where
  stored e he := by
    obtain ⟨row, hrow, horder, hkey, hiff⟩ := hs.stored e he
    obtain ⟨rfl, hmatched⟩ := (hs.partner p ht).2 e he
    refine ⟨row, hrow, horder, hkey, ?_⟩
    rw [hmatched] at hiff
    rw [setStatus_self, hiff.mp rfl]
    exact ⟨fun _ => rfl, fun _ => rfl⟩
  held h hh := by
    have ht' : t ≠ none := by
      rw [ht]
      exact Option.some_ne_none _
    rw [setStatus_holds, hs.unheld_of_task ht'] at hh
    cases hh
  own stored pubKey h := by cases h
  partner p h := by cases h

theorem hold (he : c.entry = some e) (hlive : (c.status e.id).isLiveStatus = true) (taker : Option ℕ) :
    (c.hold e taker).Sound t := by
  obtain ⟨hholds, rfl⟩ := hs.free_of_live he hlive
  obtain ⟨row, hrow, horder, hkey, -⟩ := hs.stored e he
  have hrow' : (c.hold e taker).row =
      some { row with toAuthorizeOrderRow := row.updateStatus .matched none } := by
    show c.row.map _ = _
    rw [hrow]
    rfl
  have hmatched : (c.hold e taker).status e.id = .matched := Function.update_self ..
  constructor
  · intro e' he'
    obtain rfl := Option.some.inj (he.symm.trans he')
    refine ⟨_, hrow', horder, hkey, ?_⟩
    rw [hmatched]
    exact ⟨fun _ => rfl, fun _ => rfl⟩
  · intro h hh
    change h ∈ c.holds ++ _ at hh
    rw [hholds, List.nil_append, List.mem_singleton] at hh
    subst hh
    refine ⟨?_, rfl, hlive, ⟨_, hrow', Or.inl rfl⟩, fun e' he' => ?_⟩
    · show c.holds ++ _ = _
      rw [hholds, List.nil_append]
    · obtain rfl := Option.some.inj (he.symm.trans he')
      exact ⟨rfl, hmatched⟩
  · intro stored pubKey h
    cases h
  · intro p h
    cases h

theorem released {i : ℕ} {h : Hold} (hhold : c.holds[i]? = some h) : t = none ∧ c.holds.eraseIdx i = [] := by
  obtain ⟨hone, ht, -⟩ := hs.held h (List.mem_of_getElem? hhold)
  refine ⟨ht, ?_⟩
  rw [hone, List.getElem?_singleton] at hhold
  by_cases hi : i = 0
  · rw [hone, hi]
    rfl
  · rw [if_neg hi] at hhold
    cases hhold

/-- An operation writes its outcome to the row and to its object, and lets go of the order. -/
theorem holdEnd {i : ℕ} {h : Hold} (hhold : c.holds[i]? = some h) (s : AuthorizeOrderStatus) (settleTx : Option ℕ)
    (hexpired : s ≠ .expired) :
    (((c.setStatus h.entry.id s).updateRow fun row => row.updateStatus s settleTx).release i).Sound t := by
  obtain ⟨rfl, hnone⟩ := hs.released hhold
  obtain ⟨-, -, -, -, hobject⟩ := hs.held h (List.mem_of_getElem? hhold)
  constructor
  · intro e he
    obtain ⟨rfl, -⟩ := hobject e he
    obtain ⟨row, hrow, horder, hkey, -⟩ := hs.stored _ he
    refine ⟨{ row with toAuthorizeOrderRow := row.updateStatus s settleTx }, ?_, horder, hkey, ?_⟩
    · show c.row.map _ = _
      rw [hrow]
      rfl
    · show ((c.setStatus h.entry.id s).status h.entry.id).isActive = true ↔ _
      rw [setStatus_self]
      exact AuthorizeOrderStatus.isActive_iff hexpired
  · intro h' hh'
    change h' ∈ c.holds.eraseIdx i at hh'
    rw [hnone] at hh'
    cases hh'
  · intro stored pubKey h
    cases h
  · intro p h
    cases h

theorem release {i : ℕ} {h : Hold} (hhold : c.holds[i]? = some h) (hstatus : c.status h.entry.id ≠ .matched) :
    (c.release i).Sound t := by
  obtain ⟨rfl, hnone⟩ := hs.released hhold
  obtain ⟨-, -, -, -, hobject⟩ := hs.held h (List.mem_of_getElem? hhold)
  constructor
  · intro e he
    obtain ⟨rfl, hmatched⟩ := hobject e he
    exact absurd hmatched hstatus
  · intro h' hh'
    change h' ∈ c.holds.eraseIdx i at hh'
    rw [hnone] at hh'
    cases hh'
  · intro stored pubKey h
    cases h
  · intro p h
    cases h

theorem remove {c' : Cell} (hentry : c'.entry = none) (hholds : c'.holds = c.holds)
    (hrow : c'.row = c.row ∨ c'.row = c.row.map fun row => { row with toAuthorizeOrderRow := row.updateStatus .cancelled none }) :
    c'.Sound t := by
  have hkeep : ∀ {P : AuthorizeOrderStatus → Prop}, P .cancelled → (∃ row ∈ c.row, P row.status) → ∃ row ∈ c'.row, P row.status := by
    intro P hP hex
    obtain ⟨row, hmem, hrow'⟩ := hex
    rcases hrow with hsame | hcancelled
    · exact ⟨row, by rwa [hsame], hrow'⟩
    · refine ⟨{ row with toAuthorizeOrderRow := row.updateStatus .cancelled none }, ?_, hP⟩
      rw [Option.mem_def] at hmem
      rw [hcancelled, hmem]
      rfl
  constructor
  · intro e he
    rw [hentry] at he
    cases he
  · intro h hh
    rw [hholds] at hh ⊢
    obtain ⟨hone, ht, hlive, hmatched, -⟩ := hs.held h hh
    refine ⟨hone, ht, hlive, hkeep (P := fun s => s = .matched ∨ s = .cancelled) (Or.inr rfl) hmatched, fun e he => ?_⟩
    rw [hentry] at he
    cases he
  · intro stored pubKey ht
    have hsettling := (hs.own stored pubKey ht).1
    refine ⟨hkeep (P := fun s => s = .settling ∨ s = .expired ∨ s = .cancelled) (Or.inr (Or.inr rfl)) hsettling, fun e he => ?_⟩
    rw [hentry] at he
    cases he
  · intro p ht
    have hopen := (hs.partner p ht).1
    refine ⟨hkeep (P := fun s => s ≠ .failed ∧ s ≠ .dead_letter) (by decide) hopen, fun e he => ?_⟩
    rw [hentry] at he
    cases he

theorem cancel (e : Entry) : (c.cancel e).Sound t := hs.remove rfl cancel_holds (Or.inr cancel_row)

theorem removeEntry (e : Entry) : (c.removeEntry e).Sound t := hs.remove rfl removeEntry_holds (Or.inl removeEntry_row)

/-- The sweep passes over the rows of operations between relayers, but not over that of the worker. -/
theorem sweep (nowSeconds : ℕ) : (c.updateRow fun row => row.sweep nowSeconds).Sound t := by
  constructor
  · intro e he
    obtain ⟨row, hrow, horder, hkey, hiff⟩ := hs.stored e he
    refine ⟨{ row with toAuthorizeOrderRow := row.sweep nowSeconds }, ?_, (AuthorizeOrderRow.sweep_order ..).trans horder, hkey, ?_⟩
    · rw [updateRow_row, hrow]
      rfl
    · rw [AuthorizeOrderRow.sweep_isDone]
      exact hiff
  · intro h hh
    obtain ⟨hone, ht, hlive, ⟨row, hrow, hstatus⟩, hobject⟩ := hs.held h hh
    refine ⟨hone, ht, hlive, ⟨{ row with toAuthorizeOrderRow := row.sweep nowSeconds }, ?_, ?_⟩, hobject⟩
    · rw [updateRow_row, hrow]
      rfl
    · rw [AuthorizeOrderRow.sweep_of_held hstatus]
      exact hstatus
  · intro stored pubKey ht
    obtain ⟨⟨row, hrow, hstatus⟩, hobject⟩ := hs.own stored pubKey ht
    refine ⟨⟨{ row with toAuthorizeOrderRow := row.sweep nowSeconds }, ?_, ?_⟩, hobject⟩
    · rw [updateRow_row, hrow]
      rfl
    · rcases row.sweep_status nowSeconds with h | h
      · rw [h]
        exact hstatus
      · exact Or.inr (Or.inl h)
  · intro p ht
    obtain ⟨⟨row, hrow, hstatus⟩, hobject⟩ := hs.partner p ht
    refine ⟨⟨{ row with toAuthorizeOrderRow := row.sweep nowSeconds }, ?_, ?_⟩, hobject⟩
    · rw [updateRow_row, hrow]
      rfl
    · rcases row.sweep_status nowSeconds with h | h
      · rw [h]
        exact hstatus
      · rw [h]
        decide

end Sound

section

variable (c : Cell) (id : ℕ)

theorem restart_row : (c.restart id).row =
    c.row.map fun row => { row with toAuthorizeOrderRow := row.resetOrphaned } := by
  unfold restart
  cases hrow : c.row.filter fun row => row.status.isActive with
  | none => rfl
  | some row => simp

theorem restart_entry : (c.restart id).entry =
    (c.row.filter fun row => row.status.isActive).map fun row => ⟨id, row.order, row.pubKey⟩ := by
  unfold restart
  cases hrow : c.row.filter fun row => row.status.isActive with
  | none => rfl
  | some row => simp

theorem restart_holds : (c.restart id).holds = [] := by
  unfold restart
  cases hrow : c.row.filter fun row => row.status.isActive with
  | none => rfl
  | some row => simp

theorem restart_status {row : OrderRow} (hrow : c.row = some row) : (c.restart id).status id = row.status := by
  unfold restart
  rw [hrow]
  cases hactive : (some row).filter fun row => row.status.isActive with
  | none => exact Function.update_self ..
  | some row' => simp

theorem resetOrphaned_isDone (row : AuthorizeOrderRow) : row.resetOrphaned.status.isDone = row.status.isDone := by
  unfold AuthorizeOrderRow.resetOrphaned
  split
  · rename_i h
    rw [h]
    rfl
  · rfl

theorem resetOrphaned_order (row : AuthorizeOrderRow) : row.resetOrphaned.order = row.order := by
  unfold AuthorizeOrderRow.resetOrphaned
  split <;> rfl

/-- Whatever was under way, a boot leaves the map and the rows in agreement. -/
theorem sound_restart : (c.restart id).Sound none where
  stored e he := by
    rw [restart_entry, Option.mem_def, Option.map_eq_some_iff] at he
    obtain ⟨row, hfilter, rfl⟩ := he
    obtain ⟨hrow, hactive⟩ := Option.filter_eq_some_iff.mp hfilter
    refine ⟨{ row with toAuthorizeOrderRow := row.resetOrphaned }, ?_, resetOrphaned_order _, rfl, ?_⟩
    · rw [restart_row, hrow]
      rfl
    · rw [restart_status c id hrow, resetOrphaned_isDone]
      revert hactive
      cases row.status <;> decide
  held h hh := by
    rw [restart_holds] at hh
    cases hh
  own stored pubKey h := by cases h
  partner p h := by cases h

end

end Cell

/-! ### The invariant of the relayer -/

structure World.Sound (w : World) : Prop where
  distinct : w.Distinct
  cell : ∀ n, (w.cells n).Sound (w.task n)

/-- An offer whose proof was verified finds its order in the map, still live. The code looks only before the verification. -/
def World.Rechecked (w : World) : Step → Prop
  | .accept i => ∀ v, w.verifying[i]? = some v →
    (w.cells v.mapKey).entry = some v.maker ∧ ((w.cells v.mapKey).status v.maker.id).isLiveStatus = true
  | _ => True

theorem World.sound_start (nowMs : ℕ) : (World.start nowMs).Sound where
  distinct job hjob := by cases hjob
  cell n := by
    constructor
    · intro e he
      cases he
    · intro h hh
      cases hh
    · intro stored pubKey h
      cases h
    · intro p h
      cases h

theorem Cell.Sound.moves {w : World} {n : ℕ} {a : Step} {c' : Cell} {t' : Option Task}
    (hw : w.Distinct) (hs : (w.cells n).Sound (w.task n)) (ha : w.Rechecked a) (hmove : Moves w n a c' t') : c'.Sound t' := by
  cases hmove with
  | keep => exact hs
  | forget hn hrow hfailed => exact hs.forget hrow hfailed
  | insert hpost hn hrow => exact hs.postInsert hrow _ _
  | start hidle hrow hdue hgone => exact hs.startJob hrow hdue.1 _
  | matched hidle hentry hlive => exact hs.startPartner hentry hlive
  | park hidle hrow hdue => exact hs.park (World.task_of_idle hidle) hrow hdue.1 _
  | ownSettled hjob hn hmined =>
    have ht := World.task_own hjob hn
    have hobject := (hs.own _ _ ht).2
    exact hs.finish (ht ▸ Option.some_ne_none _) (fun e he => (hobject e he).1) (fun _ => rfl) (fun _ => rfl) (by decide)
  | partnerSettled hjob hpair hmined =>
    have ht := hw.task_partner hjob hpair
    have hobject := (hs.partner _ ht).2
    exact hs.finish (ht ▸ Option.some_ne_none _) (fun e he => congrArg some (hobject e he).1.symm) (fun _ => rfl)
      (fun _ => rfl) (by decide)
  | @ownFailed submission job err hjob hn herr =>
    have ht := World.task_own hjob hn
    obtain ⟨⟨row, -, -⟩, hobject⟩ := hs.own _ _ ht
    have hspec := handleSettleError_spec w.nowMs job.attempt err
    refine hs.finish (ht ▸ Option.some_ne_none _) (fun e he => (hobject e he).1) (fun row => (hspec row).1)
      (fun row => (hspec row).2.1) ?_
    intro h
    have hmem := (hspec row.toAuthorizeOrderRow).2.2
    rw [h] at hmem
    revert hmem
    decide
  | partnerFailed hjob hpair herr => exact hs.partnerFailed (hw.task_partner hjob hpair)
  | offer hentry hlive hnow => exact hs.hold hentry hlive _
  | accept hv hn =>
    subst hn
    obtain ⟨hentry, hlive⟩ := ha _ hv
    exact hs.hold hentry hlive _
  | holdSettled hhold ha' hmined => exact hs.holdEnd hhold .settled _ (by decide)
  | @restore a i h hhold ha' =>
    have hlive := (hs.held h (List.mem_of_getElem? hhold)).2.2.1
    apply hs.holdEnd hhold h.prior none
    intro hexpired
    rw [hexpired] at hlive
    cases hlive
  | release hhold hstatus => exact hs.release hhold hstatus
  | cancel hentry ha' => exact hs.cancel _
  | purge hentry hstatus => exact hs.removeEntry _
  | sweep => exact hs.sweep _
  | restart => exact Cell.sound_restart _ _

section

variable {w w' : World} {a : Step}

theorem handleJob_worker {n : ℕ} {row : OrderRow} {counterparty : Option (ℕ × Entry)} {job : Job}
    (hjob : (w.handleJob n row counterparty).worker = some job) :
    w.worker = some job ∨ job.nullifier = n ∧ (job.partner = none ∨ job.partner = counterparty) := by
  unfold World.handleJob at hjob
  dsimp only at hjob
  split at hjob
  · obtain rfl := Option.some.inj hjob
    exact Or.inr ⟨rfl, Or.inl rfl⟩
  · split at hjob
    · obtain rfl := Option.some.inj hjob
      exact Or.inr ⟨rfl, Or.inr rfl⟩
    · exact Or.inl hjob

theorem World.Distinct.claim {n : ℕ} {counterparty : Option ℕ} (hw : w.Distinct)
    (hstep : run (.claim n counterparty) w = .ok w') : w'.Distinct := by
  simp only [run, bind_eq_ok, require_eq_ok, orError_eq_ok] at hstep
  obtain ⟨-, -, row, -, -, -, hstep⟩ := hstep
  intro job hjob pair hpair
  cases counterparty with
  | none =>
    simp only [bind_eq_ok, require_eq_ok, pure_eq_ok] at hstep
    obtain ⟨-, -, rfl⟩ := hstep
    rcases handleJob_worker hjob with hold | ⟨-, hnone⟩
    · exact hw job hold pair hpair
    · rw [or_self_iff.mp hnone] at hpair
      cases hpair
  | some m =>
    simp only [bind_eq_ok, orError_eq_ok, pure_eq_ok] at hstep
    obtain ⟨incoming, -, p, hp, rfl⟩ := hstep
    rcases handleJob_worker hjob with hold | ⟨hn, hnone | hsome⟩
    · exact hw job hold pair hpair
    · rw [hnone] at hpair
      cases hpair
    · rw [hsome] at hpair
      obtain rfl := Option.some.inj hpair
      rw [hn]
      exact (candidate_ok hp).1

theorem World.Distinct.step (hw : w.Distinct) (hstep : run a w = .ok w') : w'.Distinct := by
  have hkeep : w'.worker = w.worker → w'.Distinct := by
    intro h job hjob
    rw [h] at hjob
    exact hw job hjob
  have hidle : w'.worker = none → w'.Distinct := by
    intro h job hjob
    rw [h] at hjob
    cases hjob
  cases a
  case claim n counterparty => exact hw.claim hstep
  case workerEnd submission =>
    simp only [run, bind_eq_ok, orError_eq_ok] at hstep
    obtain ⟨job, -, hstep⟩ := hstep
    split at hstep
    · simp only [bind_eq_ok, require_eq_ok, pure_eq_ok] at hstep
      obtain ⟨-, -, rfl⟩ := hstep
      exact hidle rfl
    · obtain rfl := Except.ok.inj hstep
      exact hidle (jobFailed_cells rfl).2
  case restart =>
    obtain rfl := Except.ok.inj hstep
    exact hidle rfl
  -- no other step touches the worker
  all_goals
    apply hkeep
    simp only [run, bind_eq_ok, require_eq_ok, orError_eq_ok, pure_eq_ok] at hstep
    grind [World.modify_worker, World.dec_worker, World.inc_worker, pure_eq_ok, bind_eq_ok]

theorem World.Sound.step (hw : w.Sound) (ha : w.Rechecked a) (hstep : run a w = .ok w') : w'.Sound where
  distinct := hw.distinct.step hstep
  cell n := (hw.cell n).moves hw.distinct ha (World.moves hw.distinct hstep n)

end

/-! ### Orders for runs -/

/-- A proof that no verifier has seen. -/
def blankProof : Groth16Proof := ⟨(0, 0), ((0, 0), 0, 0), (0, 0)⟩

/-- An order that passes the checks of a submission until its expiry, for the relayer 1. -/
def plainOrder (nullifier sellToken buyToken expiry : ℕ) : AuthorizeOrderFile where
  proof := blankProof
  publicSignals := ⟨0, 0, nullifier, 1, 0, sellToken, buyToken, 100, 100, 0, expiry, 0, 100, 1, 0⟩
  tier := none

/-- The status of a row, if there is one. -/
def World.rowStatus (w : World) (n : ℕ) : Option AuthorizeOrderStatus := (w.cells n).row.map fun row => row.status

theorem World.rowStatus_eq_some {w : World} {n : ℕ} {s : AuthorizeOrderStatus} :
    w.rowStatus n = some s ↔ ∃ row, (w.cells n).row = some row ∧ row.status = s := Option.map_eq_some_iff

/-- A submission that is answered at once, from the only one under way. -/
def submitted (order : AuthorizeOrderFile) (pubKey : PubKeyId) : List Step :=
  [.post order 1 pubKey, .reserve 0, .insert 0]

/-- Two orders that cross. -/
def crossing : List Step :=
  submitted (plainOrder 5 7 8 100) (1, 2) ++ submitted (plainOrder 6 8 7 100) (3, 4)

end Relayer

end ScatterDex
