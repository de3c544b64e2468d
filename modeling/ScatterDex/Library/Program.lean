import ScatterDex.Library.Steps

/-!
# Asynchronous programs

A program that waits for the answers of its operations, and the calls of one page that run such programs one at a time, through a queue. However the calls and the turns of the programs come, the memory is that of the calls run one after the other.
-/

inductive Program (ω : Type) (ans : ω → Type) (ε α : Type) where
  | done (a : α)
  | fail (e : ε)
  | await (o : ω) (next : ans o → Program ω ans ε α)

namespace Program

variable {ω : Type} {ans : ω → Type} {ε α β σ : Type}

def bind (p : Program ω ans ε α) (f : α → Program ω ans ε β) : Program ω ans ε β :=
  match p with
  | done a => f a
  | fail e => fail e
  | await o next => await o fun answer => (next answer).bind f

instance : Monad (Program ω ans ε) where
  pure := done
  bind := bind

/-- The program waits for one operation. -/
def call (o : ω) : Program ω ans ε (ans o) := await o done

def ofExcept : Except ε α → Program ω ans ε α
  | .ok a => done a
  | .error e => fail e

/-- The program without anything else in between. -/
def exec (handle : (o : ω) → σ → ans o × σ) : Program ω ans ε α → σ → Except ε α × σ
  | done a, m => (.ok a, m)
  | fail e, m => (.error e, m)
  | await o next, m => exec handle (next (handle o m).1) (handle o m).2

variable {handle : (o : ω) → σ → ans o × σ}

theorem exec_bind (p : Program ω ans ε α) (f : α → Program ω ans ε β) (m : σ) :
    exec handle (p >>= f) m =
      match exec handle p m with
      | (.ok a, m') => exec handle (f a) m'
      | (.error e, m') => (.error e, m') := by
  induction p generalizing m with
  | done a => rfl
  | fail e => rfl
  | await o next ih => exact ih (handle o m).1 (handle o m).2

/-- No operation of the program changes the memory. -/
inductive Reads (handle : (o : ω) → σ → ans o × σ) : Program ω ans ε α → Prop
  | done (a : α) : Reads handle (done a)
  | fail (e : ε) : Reads handle (fail e)
  | await {o : ω} {next : ans o → Program ω ans ε α} (hkeep : ∀ m, (handle o m).2 = m) (hnext : ∀ answer, Reads handle (next answer)) :
      Reads handle (await o next)

/-- Only the last operation of the program changes the memory. -/
inductive WritesLast (handle : (o : ω) → σ → ans o × σ) : Program ω ans ε α → Prop
  | done (a : α) : WritesLast handle (done a)
  | fail (e : ε) : WritesLast handle (fail e)
  | read {o : ω} {next : ans o → Program ω ans ε α} (hkeep : ∀ m, (handle o m).2 = m)
      (hnext : ∀ answer, WritesLast handle (next answer)) : WritesLast handle (await o next)
  | write {o : ω} {next : ans o → Program ω ans ε α} (hnext : ∀ answer, ∃ a, next answer = Program.done a) :
      WritesLast handle (await o next)

theorem Reads.bind {p : Program ω ans ε α} {f : α → Program ω ans ε β} (hp : Reads handle p) (hf : ∀ a, Reads handle (f a)) :
    Reads handle (p >>= f) := by
  induction hp with
  | done a => exact hf a
  | fail e => exact .fail e
  | await hkeep _ ih => exact .await hkeep ih

theorem Reads.writesLast_bind {p : Program ω ans ε α} {f : α → Program ω ans ε β} (hp : Reads handle p) (hf : ∀ a, WritesLast handle (f a)) :
    WritesLast handle (p >>= f) := by
  induction hp with
  | done a => exact hf a
  | fail e => exact .fail e
  | await hkeep _ ih => exact .read hkeep ih

/-- What is only computed from the result may come after the last operation. -/
theorem WritesLast.map {p : Program ω ans ε α} {f : α → Program ω ans ε β} (hp : WritesLast handle p) (hf : ∀ a, ∃ b, f a = Program.done b) :
    WritesLast handle (p >>= f) := by
  induction hp with
  | done a =>
    obtain ⟨b, hb⟩ := hf a
    show WritesLast handle (f a)
    rw [hb]
    exact .done b
  | fail e => exact .fail e
  | read hkeep _ ih => exact .read hkeep ih
  | @write o next hnext =>
    apply WritesLast.write
    intro answer
    obtain ⟨a, ha⟩ := hnext answer
    show ∃ b, (next answer).bind f = Program.done b
    rw [ha]
    exact hf a

/-- A program that fails has changed nothing. -/
theorem WritesLast.memory_of_error {p : Program ω ans ε α} (hp : WritesLast handle p) {m m' : σ} {e : ε}
    (hexec : exec handle p m = (.error e, m')) : m' = m := by
  induction hp generalizing m with
  | done a => exact absurd (Prod.mk.inj hexec).1 (by simp)
  | fail e => exact (Prod.mk.inj hexec).2.symm
  | read hkeep _ ih => exact (ih _ hexec).trans (hkeep m)
  | @write o next hnext =>
    obtain ⟨a, ha⟩ := hnext (handle o m).1
    rw [exec, ha] at hexec
    exact absurd (Prod.mk.inj hexec).1 (by simp)

end Program

/-! ### Calls of one page -/

/-- A page: its memory, the calls that wait, the program that runs, and for the record the calls that were started and what they returned. -/
structure Page (κ σ ω : Type) (ans : ω → Type) (ε α : Type) where
  memory : σ
  waiting : List κ
  running : Option (Program ω ans ε α)
  started : List κ
  returned : List (Except ε α)

namespace Page

inductive Event (κ : Type)
  | call (c : κ)
  | start
  | turn

variable {κ σ ω : Type} {ans : ω → Type} {ε α : Type}

/-- The next turn of a program that runs. -/
def turn (handle : (o : ω) → σ → ans o × σ) (s : Page κ σ ω ans ε α) : Program ω ans ε α → Page κ σ ω ans ε α
  | .done a => { s with running := none, returned := s.returned ++ [.ok a] }
  | .fail e => { s with running := none, returned := s.returned ++ [.error e] }
  | .await o next => { s with memory := (handle o s.memory).2, running := some (next (handle o s.memory).1) }

def step (handle : (o : ω) → σ → ans o × σ) (body : κ → Program ω ans ε α) : Event κ → Page κ σ ω ans ε α → Page κ σ ω ans ε α → Prop
  | .call c, s, s' => s' = { s with waiting := s.waiting ++ [c] }
  | .start, s, s' =>
    ∃ c cs, s.running = none ∧ s.waiting = c :: cs ∧ s' = { s with waiting := cs, running := some (body c), started := s.started ++ [c] }
  | .turn, s, s' => ∃ p, s.running = some p ∧ s' = turn handle s p

/-- A page that nothing was called on. -/
def fresh (m : σ) : Page κ σ ω ans ε α := ⟨m, [], none, [], []⟩

/-- The memory after calls, one at a time. -/
def after (handle : (o : ω) → σ → ans o × σ) (body : κ → Program ω ans ε α) (m : σ) (calls : List κ) : σ :=
  calls.foldl (fun m c => (Program.exec handle (body c) m).2) m

/-- What calls return, one at a time. -/
def results (handle : (o : ω) → σ → ans o × σ) (body : κ → Program ω ans ε α) : σ → List κ → List (Except ε α)
  | _, [] => []
  | m, c :: calls => (Program.exec handle (body c) m).1 :: results handle body (Program.exec handle (body c) m).2 calls

variable {handle : (o : ω) → σ → ans o × σ} {body : κ → Program ω ans ε α} {m : σ}

theorem after_concat (calls : List κ) (c : κ) :
    after handle body m (calls ++ [c]) = (Program.exec handle (body c) (after handle body m calls)).2 := by
  rw [after, List.foldl_append]
  rfl

theorem results_concat (calls : List κ) (c : κ) :
    results handle body m (calls ++ [c]) = results handle body m calls ++ [(Program.exec handle (body c) (after handle body m calls)).1] := by
  induction calls generalizing m with
  | nil => rfl
  | cons d calls ih =>
    rw [List.cons_append, results, ih]
    rfl

/-- What is known of a page: the program that runs will do what its call does after the calls before it, and it has not written unless it is done. -/
inductive Serial (handle : (o : ω) → σ → ans o × σ) (body : κ → Program ω ans ε α) (m : σ) : Page κ σ ω ans ε α → Prop
  | idle {s : Page κ σ ω ans ε α} (hrunning : s.running = none) (hmemory : s.memory = after handle body m s.started)
      (hreturned : s.returned = results handle body m s.started) : Serial handle body m s
  | busy {s : Page κ σ ω ans ε α} {calls : List κ} {c : κ} {p : Program ω ans ε α} (hrunning : s.running = some p)
      (hstarted : s.started = calls ++ [c]) (hreturned : s.returned = results handle body m calls)
      (hexec : Program.exec handle p s.memory = Program.exec handle (body c) (after handle body m calls))
      (hwrites : s.memory = after handle body m calls ∧ Program.WritesLast handle p ∨ ∃ a, p = .done a) : Serial handle body m s

theorem serial_step (hbody : ∀ c, Program.WritesLast handle (body c)) {event : Event κ} {s s' : Page κ σ ω ans ε α}
    (hs : Serial handle body m s) (hstep : step handle body event s s') : Serial handle body m s' := by
  cases event with
  | call c =>
    rw [show s' = _ from hstep]
    cases hs with
    | idle hrunning hmemory hreturned => exact .idle hrunning hmemory hreturned
    | busy hrunning hstarted hreturned hexec hwrites => exact .busy hrunning hstarted hreturned hexec hwrites
  | start =>
    obtain ⟨c, cs, hnone, -, hs'⟩ := hstep
    rw [hs']
    cases hs with
    | idle hrunning hmemory hreturned => exact .busy rfl rfl hreturned (by rw [hmemory]) (Or.inl ⟨hmemory, hbody c⟩)
    | busy hrunning => exact absurd (hnone.symm.trans hrunning) (Option.some_ne_none _).symm
  | turn =>
    obtain ⟨p, hp, hs'⟩ := hstep
    rw [hs']
    cases hs with
    | idle hrunning => exact absurd (hrunning.symm.trans hp) (Option.some_ne_none _).symm
    | @busy calls c q hrunning hstarted hreturned hexec hwrites =>
      rw [← Option.some.inj (hp.symm.trans hrunning)] at hexec hwrites
      -- The result and the memory are those of the call.
      have hend : ∀ r, Program.exec handle p s.memory = (r, s.memory) →
          s.memory = after handle body m s.started ∧ s.returned ++ [r] = results handle body m s.started := by
        intro r hr
        rw [hstarted, after_concat, results_concat, ← hexec, hr, hreturned]
        exact ⟨rfl, rfl⟩
      cases p with
      | done a => exact .idle rfl (hend _ rfl).1 (hend _ rfl).2
      | fail e => exact .idle rfl (hend _ rfl).1 (hend _ rfl).2
      | await o next =>
        rcases hwrites with ⟨hmemory, hwrites⟩ | ⟨a, ha⟩
        · cases hwrites with
          | read hkeep hnext => exact .busy rfl hstarted hreturned hexec (Or.inl ⟨(hkeep _).trans hmemory, hnext _⟩)
          | write hnext => exact .busy rfl hstarted hreturned hexec (Or.inr (hnext _))
        · exact absurd ha (by simp)

/-- The calls that returned, and the one that is done and has not returned yet. -/
def committed (s : Page κ σ ω ans ε α) : List κ :=
  s.started.take (s.returned.length + match s.running with | some (.done _) => 1 | _ => 0)

theorem length_results (calls : List κ) : (results handle body m calls).length = calls.length := by
  induction calls generalizing m with
  | nil => rfl
  | cons c calls ih => rw [results, List.length_cons, ih, List.length_cons]

theorem getElem?_results {calls : List κ} {i : ℕ} {r : Except ε α} (hr : (results handle body m calls)[i]? = some r) :
    ∃ c, calls[i]? = some c ∧ r = (Program.exec handle (body c) (after handle body m (calls.take i))).1 := by
  induction calls generalizing m i with
  | nil => exact absurd hr (by simp [results])
  | cons c calls ih =>
    cases i with
    | zero => exact ⟨c, rfl, (Option.some.inj hr).symm⟩
    | succ i => exact ih hr

theorem committed_of_serial {s : Page κ σ ω ans ε α} (hs : Serial handle body m s) :
    s.memory = after handle body m (committed s) ∧ s.returned <+: results handle body m (committed s) := by
  cases hs with
  | idle hrunning hmemory hreturned =>
    have hall : committed s = s.started := by
      rw [committed, hrunning, hreturned, length_results, Nat.add_zero, List.take_length]
    rw [hall]
    exact ⟨hmemory, hreturned ▸ List.prefix_rfl⟩
  | @busy calls c p hrunning hstarted hreturned hexec hwrites =>
    have hlength : s.returned.length = calls.length := by rw [hreturned, length_results]
    by_cases hdone : ∃ a, p = .done a
    · obtain ⟨a, rfl⟩ := hdone
      have hall : committed s = calls ++ [c] := by
        rw [committed, hrunning, hlength, hstarted]
        exact List.take_of_length_le (by rw [List.length_append]; exact Nat.le_refl _)
      rw [hall, after_concat, results_concat, ← hexec, hreturned]
      exact ⟨rfl, List.prefix_append _ _⟩
    · have hall : committed s = calls := by
        cases p with
        | done a => exact absurd ⟨a, rfl⟩ hdone
        | fail e => rw [committed, hrunning, hlength, hstarted, Nat.add_zero, List.take_left]
        | await o next => rw [committed, hrunning, hlength, hstarted, Nat.add_zero, List.take_left]
      rw [hall]
      exact ⟨(hwrites.resolve_right hdone).1, hreturned ▸ List.prefix_rfl⟩

theorem serial_of_steps (hbody : ∀ c, Program.WritesLast handle (body c)) {events : List (Event κ)} {s : Page κ σ ω ans ε α}
    (hrun : Steps (step handle body) events (fresh m) s) : Serial handle body m s :=
  Steps.invariant (fun _ _ _ _ hs hstep => serial_step hbody hs hstep) (Serial.idle rfl rfl rfl) hrun

/-- In any run the memory is that after the calls that are done, in the order they were started, and these return what they return one at a time. -/
theorem serial (hbody : ∀ c, Program.WritesLast handle (body c)) {events : List (Event κ)} {s : Page κ σ ω ans ε α}
    (hrun : Steps (step handle body) events (fresh m) s) :
    s.memory = after handle body m (committed s) ∧ s.returned <+: results handle body m (committed s) :=
  committed_of_serial (serial_of_steps hbody hrun)

theorem committed_prefix_started (s : Page κ σ ω ans ε α) : committed s <+: s.started := List.take_prefix _ _

/-- A call that returned is done, and returned what it returns after the calls before it. -/
theorem exec_of_returned (hbody : ∀ c, Program.WritesLast handle (body c)) {events : List (Event κ)} {s : Page κ σ ω ans ε α}
    (hrun : Steps (step handle body) events (fresh m) s) {i : ℕ} {r : Except ε α} (hreturned : s.returned[i]? = some r) :
    ∃ c later, s.started[i]? = some c ∧ committed s = s.started.take i ++ c :: later ∧
      (Program.exec handle (body c) (after handle body m (s.started.take i))).1 = r := by
  have hresult := List.prefix_iff_getElem?.mp (serial hbody hrun).2 i (List.getElem?_eq_some_iff.mp hreturned).1
  rw [← List.getElem?_eq_getElem, hreturned] at hresult
  obtain ⟨c, hc, hr⟩ := getElem?_results hresult
  obtain ⟨hi, hget⟩ := List.getElem?_eq_some_iff.mp hc
  have htake : (committed s).take i = s.started.take i := by
    have hfront := List.prefix_iff_eq_take.mp (committed_prefix_started s)
    rw [hfront, List.take_take, Nat.min_eq_left (Nat.le_of_lt hi)]
  refine ⟨c, (committed s).drop (i + 1), ?_, ?_, by rw [← htake, ← hr]⟩
  · obtain ⟨rest, hrest⟩ := committed_prefix_started s
    rw [← hrest, List.getElem?_append_left hi, hc]
  · rw [← htake, ← hget, List.getElem_cons_drop, List.take_append_drop]

theorem committed_prefix_step {event : Event κ} {s s' : Page κ σ ω ans ε α} (hs : Serial handle body m s) (hstep : step handle body event s s') :
    committed s <+: committed s' ∧ s.started <+: s'.started := by
  cases event with
  | call c =>
    rw [show s' = _ from hstep]
    exact ⟨List.prefix_rfl, List.prefix_rfl⟩
  | start =>
    obtain ⟨c, cs, hnone, -, hs'⟩ := hstep
    rw [hs']
    cases hs with
    | idle hrunning hmemory hreturned =>
      refine ⟨?_, List.prefix_append _ _⟩
      have hall : committed s = s.started := by
        rw [committed, hrunning, hreturned, length_results, Nat.add_zero, List.take_length]
      rw [hall, committed]
      dsimp only
      rw [hreturned, length_results, List.take_append, List.take_of_length_le (Nat.le_add_right _ _)]
      exact List.prefix_append _ _
    | busy hrunning => exact absurd (hnone.symm.trans hrunning) (Option.some_ne_none _).symm
  | turn =>
    obtain ⟨p, hp, hs'⟩ := hstep
    rw [hs']
    cases p with
    | done a =>
      refine ⟨?_, List.prefix_rfl⟩
      simp only [committed, hp, turn, List.length_append, List.length_singleton, Nat.add_zero]
      exact List.prefix_rfl
    | fail e =>
      refine ⟨?_, List.prefix_rfl⟩
      simp only [committed, hp, turn, List.length_append, List.length_singleton, Nat.add_zero]
      exact List.take_prefix_take_left (Nat.le_succ _)
    | await o next =>
      refine ⟨?_, List.prefix_rfl⟩
      simp only [committed, hp, turn, Nat.add_zero]
      exact List.take_prefix_take_left (Nat.le_add_right _ _)

/-- What is done stays done. -/
theorem committed_prefix (hbody : ∀ c, Program.WritesLast handle (body c)) {events : List (Event κ)} {s s' : Page κ σ ω ans ε α}
    (hs : Serial handle body m s) (hrun : Steps (step handle body) events s s') :
    Serial handle body m s' ∧ committed s <+: committed s' ∧ s.started <+: s'.started := by
  apply Steps.invariant (I := fun t => Serial handle body m t ∧ committed s <+: committed t ∧ s.started <+: t.started) _ ⟨hs, List.prefix_rfl, List.prefix_rfl⟩ hrun
  intro event _ t t' ⟨ht, hcommitted, hstarted⟩ hstep
  obtain ⟨hmore, hlonger⟩ := committed_prefix_step ht hstep
  exact ⟨serial_step hbody ht hstep, hcommitted.trans hmore, hstarted.trans hlonger⟩

end Page
