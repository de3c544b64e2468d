import Mathlib.Data.List.Perm.Subperm
import ScatterDex.Sdk.RunsIndex

/-!
# The runs index and the full scan

A listing that trusts the index answers like a scan of the files as long as each entry is the summary of its file. A file that has been saved since the entry was written has the save's index task still to come, so an entry is out of date only while such a task is on its way, unless the task fails, is lost or comes too late.
-/

namespace ScatterDex

namespace Sdk

variable {δ : Type}

/-! ### What a listing should answer -/

/-- An answer from the records that a scan parsed: those that match, newest first. -/
def RunsAnswer.Of (call : RunsListing) (parsed : List (RunRecord δ)) : RunsAnswer δ → Prop
  | .runs records => call.summary = false ∧ records.Perm (parsed.filter fun r => matchesFilter (summariseRecord r) call.filter) ∧
    records.Pairwise fun a b => b.createdAt ≤ a.createdAt
  | .summaries entries => call.summary = true ∧
    entries.Perm ((parsed.filter fun r => matchesFilter (summariseRecord r) call.filter).map summariseRecord) ∧
    entries.Pairwise fun a b => b.createdAt ≤ a.createdAt

/-- The answer of a scan of all files during the call. -/
def RunsListing.FullScan (call : RunsListing) (s : RunsFolder δ) (answer : RunsAnswer δ) : Prop :=
  ∃ fileIds contents, (∃ files, s.Since call.start files ∧ files.Lists fileIds) ∧ s.Reads call.start fileIds contents ∧
    answer.Of call (fileIds.filterMap fun id => (contents id).join)

/-- The call that an event answers. -/
def RunsEvent.Answers (s : RunsFolder δ) (call : RunsListing) (answer : RunsAnswer δ) : RunsEvent δ → Prop
  | .answer i _ result => ∃ phase, s.listings[i]? = some (call, phase) ∧ answer = result
  | .endRebuild _ _ result => ∃ scan rest, s.queue = .rebuild call scan :: rest ∧ answer = result
  | _ => False

/-! ### When a step is safe -/

namespace RunsFolder

/-- What the file of a run last held, whether it is still there or not. -/
def lastSaved (s : RunsFolder δ) (id : String) : Option (Option (RunRecord δ)) :=
  (s.past ++ [s.files]).foldl (fun last files => (files.content id).or last) none

/-- A save that has written its file and has its index task still to come, among some tasks. -/
def Pending (s : RunsFolder δ) (queue : List (IndexTask δ)) (record : RunRecord δ) : Prop :=
  (record, true) ∈ s.saves ∨ .upsert record ∈ queue

/-- An entry of the index, if there is one, is a record's summary. -/
def Indexes (s : RunsFolder δ) (record : RunRecord δ) : Prop :=
  ∀ entries, s.index = some entries → ∀ e ∈ entries, e.id = record.id → e = summariseRecord record

end RunsFolder

/-- What must hold before a step for the index to stay as good as a scan. -/
def RunsEvent.Safe (wellFormed : δ → Bool) (s : RunsFolder δ) : RunsEvent δ → Prop
  -- a record that is saved can be read back
  | .saveRun record => readBack wellFormed record.normalised = some record.normalised
  -- a trusted index has the summaries of the saves that are still to reach it
  | .loadIndex _ => ∀ record, s.Pending s.queue record → s.Indexes record
  -- a run that is read for the answer still matches
  | .answer i contents _ => ∀ call cached since, s.listings[i]? = some (call, .trusted cached since) → call.summary = false →
    ∀ e ∈ cached, matchesFilter e call.filter = true → ∀ record, contents e.id = some (some record) →
      matchesFilter (summariseRecord record) call.filter = true
  -- no later save has overtaken this one, and a write fails only where the index already has the summary
  | .runUpsert writes => ∀ record rest, s.queue = .upsert record :: rest →
    if writes then ∀ c, s.lastSaved record.id = some c → c = some record ∨ ∃ r, s.Pending rest r ∧ r.id = record.id ∧ c = some r
    else s.Indexes record
  | .restart => ∀ record, s.Pending s.queue record → s.Indexes record
  | _ => True

/-! ### The files over time -/

namespace RunsFolder

variable {s : RunsFolder δ}

theorem filesAt_moveOn {files files' : RunFiles δ} {j : ℕ} (hj : s.filesAt j = some files') : (s.moveOn files).filesAt j = some files' := by
  show ((s.past ++ [s.files]) ++ [files])[j]? = some files'
  obtain ⟨hlt, -⟩ := List.getElem?_eq_some_iff.mp hj
  rw [List.getElem?_append_left hlt]
  exact hj

theorem filesAt_now : s.filesAt s.past.length = some s.files := by
  rw [filesAt, List.getElem?_append_right le_rfl, Nat.sub_self]
  rfl

theorem Since.moveOn {files files' : RunFiles δ} {k : ℕ} (hsince : s.Since k files') : (s.moveOn files).Since k files' := by
  obtain ⟨j, hj, hat⟩ := hsince
  exact ⟨j, hj, filesAt_moveOn hat⟩

theorem Since.le {files : RunFiles δ} {k l : ℕ} (hsince : s.Since l files) (hle : k ≤ l) : s.Since k files := by
  obtain ⟨j, hj, hat⟩ := hsince
  exact ⟨j, hle.trans hj, hat⟩

theorem since_now {k : ℕ} (hk : k ≤ s.past.length) : s.Since k s.files := ⟨_, hk, filesAt_now⟩

theorem since_moveOn {files files' : RunFiles δ} {k : ℕ} (hsince : (s.moveOn files).Since k files') : s.Since k files' ∨ files' = files := by
  obtain ⟨j, hj, hat⟩ := hsince
  by_cases hlt : j < (s.past ++ [s.files]).length
  · rw [filesAt, RunsFolder.moveOn, List.getElem?_append_left hlt] at hat
    exact Or.inl ⟨j, hj, hat⟩
  · rw [filesAt, RunsFolder.moveOn, List.getElem?_append_right (Nat.le_of_not_lt hlt)] at hat
    exact Or.inr (List.mem_singleton.mp (List.mem_of_getElem? hat))

theorem lastSaved_moveOn (files : RunFiles δ) (id : String) :
    (s.moveOn files).lastSaved id = (files.content id).or (s.lastSaved id) := by
  show ((s.past ++ [s.files]) ++ [files]).foldl _ none = _
  rw [List.foldl_append]
  rfl

theorem lastSaved_of_content {id : String} {c : Option (RunRecord δ)} (hc : s.files.content id = some c) : s.lastSaved id = some c := by
  rw [lastSaved, List.foldl_append]
  show (s.files.content id).or _ = some c
  rw [hc, Option.some_or]

/-- A file that was there at some moment held its last content at that moment or later. -/
theorem exists_last {moments : List (RunFiles δ)} {id : String} {j : ℕ} {files : RunFiles δ} (hj : moments[j]? = some files)
    (hthere : files.content id ≠ none) :
    ∃ c, moments.foldl (fun last files => (files.content id).or last) none = some c ∧
      ∃ i ≥ j, ∃ files', moments[i]? = some files' ∧ files'.content id = some c := by
  induction moments using List.reverseRecOn with
  | nil => cases hj
  | append_singleton moments f ih =>
    rw [List.foldl_append]
    show ∃ c, (f.content id).or _ = some c ∧ _
    cases hf : f.content id with
    | some c =>
      have hlt := (List.getElem?_eq_some_iff.mp hj).1
      rw [List.length_append, List.length_singleton] at hlt
      refine ⟨c, Option.some_or, moments.length, by omega, f, ?_, hf⟩
      rw [List.getElem?_append_right le_rfl, Nat.sub_self]
      rfl
    | none =>
      have hlt : j < moments.length := by
        by_contra hge
        rw [List.getElem?_append_right (Nat.le_of_not_lt hge)] at hj
        rw [List.mem_singleton.mp (List.mem_of_getElem? hj)] at hthere
        exact hthere hf
      rw [List.getElem?_append_left hlt] at hj
      obtain ⟨c, hlast, i, hi, files', hat, hcontent⟩ := ih hj
      refine ⟨c, hlast, i, hi, files', ?_, hcontent⟩
      rw [List.getElem?_append_left (List.getElem?_eq_some_iff.mp hat).1]
      exact hat

theorem since_lastSaved {k : ℕ} {files : RunFiles δ} {id : String} (hsince : s.Since k files) (hthere : files.content id ≠ none) :
    ∃ c, s.lastSaved id = some c ∧ ∃ files', s.Since k files' ∧ files'.content id = some c := by
  obtain ⟨j, hj, hat⟩ := hsince
  obtain ⟨c, hlast, i, hi, files', hat', hcontent⟩ := exists_last hat hthere
  exact ⟨c, hlast, files', ⟨i, hj.trans hi, hat'⟩, hcontent⟩

end RunsFolder

/-! ### Listings as scans -/

theorem newestFirst_perm {ρ : Type} (createdAt : ρ → ℕ) (list : List ρ) : (newestFirst createdAt list).Perm list := List.mergeSort_perm _ _

theorem newestFirst_pairwise {ρ : Type} (createdAt : ρ → ℕ) (list : List ρ) :
    (newestFirst createdAt list).Pairwise fun a b => createdAt b ≤ createdAt a := by
  have hsorted : (newestFirst createdAt list).Pairwise fun a b => decide (createdAt b ≤ createdAt a) = true := by
    apply List.pairwise_mergeSort
    · intro a b c hab hbc
      exact decide_eq_true ((of_decide_eq_true hbc).trans (of_decide_eq_true hab))
    · intro a b
      rw [Bool.or_eq_true, decide_eq_true_iff, decide_eq_true_iff]
      exact Nat.le_total _ _
  exact hsorted.imp of_decide_eq_true

theorem newestFirst_map_summarise (records : List (RunRecord δ)) :
    newestFirst RunsIndexEntry.createdAt (records.map summariseRecord) = (newestFirst RunRecord.createdAt records).map summariseRecord := by
  symm
  apply List.map_mergeSort
  intro a _ b _
  rfl

theorem filter_map_summarise (parsed : List (RunRecord δ)) (filter : ListRunsFilter) :
    (parsed.map summariseRecord).filter (matchesFilter · filter) =
      (parsed.filter fun r => matchesFilter (summariseRecord r) filter).map summariseRecord := by
  rw [List.filter_map]
  rfl

theorem find_reverse_id {parsed : List (RunRecord δ)} (hnodup : (parsed.map RunRecord.id).Nodup) {record : RunRecord δ} (hmem : record ∈ parsed) :
    parsed.reverse.find? (fun r => r.id = record.id) = some record := by
  cases hfind : parsed.reverse.find? (fun r => r.id = record.id) with
  | none =>
    have hnot := List.find?_eq_none.mp hfind record (List.mem_reverse.mpr hmem)
    simp at hnot
  | some found =>
    have hfound := List.mem_reverse.mp (List.mem_of_find?_eq_some hfind)
    have hid : found.id = record.id := of_decide_eq_true (List.find?_some (p := fun r : RunRecord δ => decide (r.id = record.id)) hfind)
    rw [List.inj_on_of_nodup_map hnodup hfound hmem hid]

theorem of_fromScan (call : RunsListing) {parsed : List (RunRecord δ)} (hnodup : (parsed.map RunRecord.id).Nodup) :
    (call.fromScan parsed).Of call parsed := by
  rw [RunsListing.fromScan, filter_map_summarise, newestFirst_map_summarise]
  cases hsummary : call.summary with
  | true =>
    refine ⟨hsummary, (newestFirst_perm _ _).map _, ?_⟩
    rw [← newestFirst_map_summarise]
    exact newestFirst_pairwise _ _
  | false =>
    have hrecords : ((newestFirst RunRecord.createdAt (parsed.filter fun r => matchesFilter (summariseRecord r) call.filter)).map
        summariseRecord).filterMap (fun e => parsed.reverse.find? fun r => r.id = e.id) =
        newestFirst RunRecord.createdAt (parsed.filter fun r => matchesFilter (summariseRecord r) call.filter) := by
      rw [List.filterMap_map]
      nth_rewrite 2 [← List.filterMap_some (l := newestFirst _ _)]
      apply List.filterMap_congr
      intro record hmem
      exact find_reverse_id hnodup (List.mem_of_mem_filter ((newestFirst_perm _ _).mem_iff.mp hmem))
    simp only [Bool.false_eq_true, if_false, hrecords]
    exact ⟨hsummary, newestFirst_perm _ _, newestFirst_pairwise _ _⟩

theorem filterMap_filter_eq {ε ρ : Type} {list : List ε} {p : ε → Bool} {q : ρ → Bool} {f g : ε → Option ρ}
    (hmatch : ∀ e ∈ list, p e = true → g e = f e ∧ ∀ r, f e = some r → q r = true)
    (hmiss : ∀ e ∈ list, p e = false → ∀ r, g e = some r → q r = false) :
    (list.filter p).filterMap f = (list.filterMap g).filter q := by
  rw [List.filter_filterMap, List.filterMap_filter]
  apply List.filterMap_congr
  intro e he
  cases hp : p e with
  | true =>
    obtain ⟨hread, hall⟩ := hmatch e he hp
    rw [if_pos rfl, hread]
    cases hf : f e with
    | none => rfl
    | some r => rw [Option.filter_some, if_pos (hall r hf)]
  | false =>
    rw [if_neg Bool.false_ne_true]
    cases hg : g e with
    | none => rfl
    | some r => rw [Option.filter_some, if_neg (by rw [hmiss e he hp r hg]; exact Bool.false_ne_true)]

theorem map_summarise_read {cached : List RunsIndexEntry} {contents : String → Option (Option (RunRecord δ))}
    (hsummaries : ∀ e ∈ cached, ∃ record, contents e.id = some (some record) ∧ e = summariseRecord record) :
    (cached.filterMap fun e => (contents e.id).join).map summariseRecord = cached := by
  rw [List.map_filterMap]
  nth_rewrite 2 [← List.filterMap_some (l := cached)]
  apply List.filterMap_congr
  intro e he
  obtain ⟨record, hcontent, hentry⟩ := hsummaries e he
  rw [hcontent, hentry]
  rfl

theorem of_fromIndex_summary {call : RunsListing} (hsummary : call.summary = true) {cached : List RunsIndexEntry}
    {contents saved : String → Option (Option (RunRecord δ))}
    (hsummaries : ∀ e ∈ cached, ∃ record, saved e.id = some (some record) ∧ e = summariseRecord record) :
    (call.fromIndex cached contents).Of call (cached.filterMap fun e => (saved e.id).join) := by
  rw [RunsListing.fromIndex]
  simp only [hsummary, if_true]
  refine ⟨hsummary, ?_, newestFirst_pairwise _ _⟩
  rw [← filter_map_summarise, map_summarise_read hsummaries]
  exact newestFirst_perm _ _

theorem of_fromIndex_runs {call : RunsListing} (hsummary : call.summary = false) {cached : List RunsIndexEntry}
    {contents read : String → Option (Option (RunRecord δ))}
    (hmatch : ∀ e ∈ cached, matchesFilter e call.filter = true → read e.id = contents e.id ∧
      ∀ record, contents e.id = some (some record) → matchesFilter (summariseRecord record) call.filter = true)
    (hmiss : ∀ e ∈ cached, matchesFilter e call.filter = false → ∃ record, read e.id = some (some record) ∧ e = summariseRecord record) :
    (call.fromIndex cached contents).Of call (cached.filterMap fun e => (read e.id).join) := by
  have hrecords : (cached.filter (matchesFilter · call.filter)).filterMap (fun e => (contents e.id).join) =
      (cached.filterMap fun e => (read e.id).join).filter fun r => matchesFilter (summariseRecord r) call.filter := by
    apply filterMap_filter_eq
    · intro e he hp
      obtain ⟨hread, hall⟩ := hmatch e he hp
      refine ⟨by rw [hread], fun record hrecord => hall record ?_⟩
      rw [← Option.join_eq_some_iff]
      exact hrecord
    · intro e he hp record hrecord
      obtain ⟨record', hcontent, hentry⟩ := hmiss e he hp
      rw [hcontent] at hrecord
      obtain rfl := Option.some.inj hrecord
      rw [← hentry]
      exact hp
  rw [RunsListing.fromIndex]
  simp only [hsummary, Bool.false_eq_true, if_false, hrecords]
  exact ⟨hsummary, newestFirst_perm _ _, newestFirst_pairwise _ _⟩

/-! ### What the steps keep -/

namespace RunsFolder

/-- The content of a file comes from a save with its index task still to come. -/
def Awaited (s : RunsFolder δ) (queue : List (IndexTask δ)) (id : String) (c : Option (RunRecord δ)) : Prop :=
  ∃ record, s.Pending queue record ∧ record.id = id ∧ c = some record

/-- An index entry is the summary of what its file last held, unless a task is on its way. -/
def Fresh (s : RunsFolder δ) (e : RunsIndexEntry) : Prop :=
  ∀ c, s.lastSaved e.id = some c → (∃ record, c = some record ∧ e = summariseRecord record) ∨ s.Awaited s.queue e.id c

/-- So is what a scan since a moment may read. -/
def Steady (s : RunsFolder δ) (since : ℕ) : Prop :=
  ∀ files, s.Since since files → ∀ id record, files.content id = some (some record) →
    s.lastSaved id = some (some record) ∨ ∃ c, s.lastSaved id = some c ∧ s.Awaited s.queue id c

/-- A rebuild with its listing of the files. -/
def Scanned (s : RunsFolder δ) (call : RunsListing) (fileIds : List String) (since : ℕ) : Prop :=
  call.start ≤ since ∧ (∃ files, s.Since since files ∧ files.Lists fileIds) ∧ s.Steady since

def Waits (s : RunsFolder δ) : IndexTask δ → Prop
  | .rebuild call scan => call.start ≤ s.past.length ∧ scan = none
  | _ => True

/-- Only the first task may have begun. -/
def Queued (s : RunsFolder δ) : List (IndexTask δ) → Prop
  | [] => True
  | task :: rest =>
    (s.Waits task ∨ ∃ call fileIds since, task = .rebuild call (some (fileIds, since)) ∧ s.Scanned call fileIds since) ∧
      ∀ task ∈ rest, s.Waits task

def Sound (s : RunsFolder δ) (call : RunsListing) : ListingPhase → Prop
  | .begun => call.start ≤ s.past.length
  | .listed fileIds => ∃ files, s.Since call.start files ∧ files.Lists fileIds
  | .trusted cached since => call.start ≤ since ∧
    (∃ files, s.Since call.start files ∧ files.Lists (cached.map RunsIndexEntry.id)) ∧
    ∃ saved : String → Option (Option (RunRecord δ)), ∀ e ∈ cached, (∃ files, s.Since call.start files ∧ saved e.id = files.content e.id) ∧
      ∃ record, saved e.id = some (some record) ∧ e = summariseRecord record

/-- The invariant. -/
structure Accurate (wellFormed : δ → Bool) (s : RunsFolder δ) : Prop where
  nodup : ∀ entries, s.index = some entries → (entries.map RunsIndexEntry.id).Nodup
  fresh : ∀ entries, s.index = some entries → ∀ e ∈ entries, s.Fresh e
  readable : ∀ record written, (record, written) ∈ s.saves → readBack wellFormed record = some record
  listings : ∀ call phase, (call, phase) ∈ s.listings → s.Sound call phase
  queued : s.Queued s.queue

variable {s : RunsFolder δ}

theorem Awaited.mono {s' : RunsFolder δ} {queue queue' : List (IndexTask δ)} {id : String} {c : Option (RunRecord δ)}
    (hpending : ∀ record, s.Pending queue record → s'.Pending queue' record) (hawaited : s.Awaited queue id c) : s'.Awaited queue' id c := by
  obtain ⟨record, hrecord, hid⟩ := hawaited
  exact ⟨record, hpending record hrecord, hid⟩

theorem Since.start_le {files : RunFiles δ} {k : ℕ} (hsince : s.Since k files) : k ≤ s.past.length := by
  obtain ⟨j, hj, hat⟩ := hsince
  have hlt := (List.getElem?_eq_some_iff.mp hat).1
  rw [List.length_append, List.length_singleton] at hlt
  omega

theorem Queued.rest {task : IndexTask δ} {rest : List (IndexTask δ)} (hqueued : s.Queued (task :: rest)) : s.Queued rest := by
  cases rest with
  | nil => trivial
  | cons next rest => exact ⟨Or.inl (hqueued.2 next List.mem_cons_self), fun task htask => hqueued.2 task (List.mem_cons_of_mem _ htask)⟩

theorem Queued.append {queue : List (IndexTask δ)} {task : IndexTask δ} (hqueued : s.Queued queue) (htask : s.Waits task) :
    s.Queued (queue ++ [task]) := by
  cases queue with
  | nil => exact ⟨Or.inl htask, fun task htask => absurd htask List.not_mem_nil⟩
  | cons first rest =>
    refine ⟨hqueued.1, fun other hother => ?_⟩
    rcases List.mem_append.mp hother with hother | hother
    · exact hqueued.2 other hother
    · rw [List.mem_singleton.mp hother]
      exact htask

theorem Queued.mono {s' : RunsFolder δ} {queue : List (IndexTask δ)} (hlength : s.past.length ≤ s'.past.length)
    (hscanned : ∀ call fileIds since, s.Scanned call fileIds since → s'.Scanned call fileIds since) (hqueued : s.Queued queue) :
    s'.Queued queue := by
  have hwaits : ∀ task, s.Waits task → s'.Waits task := by
    intro task htask
    cases task with
    | rebuild call scan => exact ⟨htask.1.trans hlength, htask.2⟩
    | upsert record => trivial
    | removeEntry id => trivial
  cases queue with
  | nil => trivial
  | cons first rest =>
    refine ⟨?_, fun task htask => hwaits task (hqueued.2 task htask)⟩
    rcases hqueued.1 with hfirst | ⟨call, fileIds, since, htask, hscan⟩
    · exact Or.inl (hwaits first hfirst)
    · exact Or.inr ⟨call, fileIds, since, htask, hscanned call fileIds since hscan⟩

theorem Sound.mono {s' : RunsFolder δ} {call : RunsListing} {phase : ListingPhase} (hlength : s.past.length ≤ s'.past.length)
    (hlater : ∀ files, s.Since call.start files → s'.Since call.start files) (hsound : s.Sound call phase) : s'.Sound call phase := by
  cases phase with
  | begun => exact Nat.le_trans hsound hlength
  | listed fileIds =>
    obtain ⟨files, hsince, hlists⟩ := hsound
    exact ⟨files, hlater files hsince, hlists⟩
  | trusted cached since =>
    obtain ⟨hstart, ⟨files, hsince, hlists⟩, saved, hentries⟩ := hsound
    refine ⟨hstart, ⟨files, hlater files hsince, hlists⟩, saved, fun e he => ?_⟩
    obtain ⟨⟨files', hsince', hread⟩, hrecord⟩ := hentries e he
    exact ⟨⟨files', hlater files' hsince', hread⟩, hrecord⟩

variable {wellFormed : δ → Bool}

theorem Accurate.frame (hs : Accurate wellFormed s) {saves : List (RunRecord δ × Bool)} {deletes : List (String × Bool)}
    {queue : List (IndexTask δ)} {listings : List (RunsListing × ListingPhase)}
    (hpending : ∀ record, s.Pending s.queue record → (record, true) ∈ saves ∨ .upsert record ∈ queue)
    (hreadable : ∀ record written, (record, written) ∈ saves → readBack wellFormed record = some record)
    (hlistings : ∀ call phase, (call, phase) ∈ listings → s.Sound call phase) (hqueued : s.Queued queue) :
    Accurate wellFormed { s with saves := saves, deletes := deletes, queue := queue, listings := listings } where
  nodup := hs.nodup
  fresh entries hentries e he c hc := (hs.fresh entries hentries e he c hc).imp_right (Awaited.mono hpending)
  readable := hreadable
  listings call phase hmem := (hlistings call phase hmem).mono le_rfl fun _ hsince => hsince
  queued := by
    refine Queued.mono (s := s) le_rfl (fun call fileIds since hscan => ?_) hqueued
    refine ⟨hscan.1, hscan.2.1, fun files hsince id record hcontent => ?_⟩
    rcases hscan.2.2 files hsince id record hcontent with hlast | ⟨c, hlast, hawaited⟩
    · exact Or.inl hlast
    · exact Or.inr ⟨c, hlast, hawaited.mono hpending⟩

/-- The steps that change the run files: what is new in them has its index task to come. -/
theorem Accurate.moved (hs : Accurate wellFormed s) {files : RunFiles δ} {saves : List (RunRecord δ × Bool)} {deletes : List (String × Bool)}
    (hpending : ∀ record, s.Pending s.queue record → (record, true) ∈ saves ∨ .upsert record ∈ s.queue)
    (hreadable : ∀ record written, (record, written) ∈ saves → readBack wellFormed record = some record)
    (hnew : ∀ id c, files.content id = some c → s.files.content id = some c ∨ ∃ record, (record, true) ∈ saves ∧ record.id = id ∧ c = some record) :
    Accurate wellFormed { s.moveOn files with saves := saves, deletes := deletes } := by
  have hlast : ∀ id, (s.moveOn files).lastSaved id = s.lastSaved id ∨
      ∃ c, (s.moveOn files).lastSaved id = some c ∧ ∃ record, (record, true) ∈ saves ∧ record.id = id ∧ c = some record := by
    intro id
    rw [lastSaved_moveOn]
    cases hcontent : files.content id with
    | none => exact Or.inl Option.none_or
    | some c =>
      rw [Option.some_or]
      rcases hnew id c hcontent with hold | hsaved
      · exact Or.inl (lastSaved_of_content hold).symm
      · exact Or.inr ⟨c, rfl, hsaved⟩
  have hsaved : ∀ {id c}, (∃ record, (record, true) ∈ saves ∧ record.id = id ∧ c = some record) →
      Awaited { s.moveOn files with saves := saves, deletes := deletes } s.queue id c := by
    intro id c hsaved
    obtain ⟨record, hmem, hid⟩ := hsaved
    exact ⟨record, Or.inl hmem, hid⟩
  have hlength : s.past.length ≤ (s.moveOn files).past.length := by
    show _ ≤ (s.past ++ [s.files]).length
    rw [List.length_append]
    exact Nat.le_add_right _ _
  refine ⟨hs.nodup, ?_, hreadable, fun call phase hmem => (hs.listings call phase hmem).mono hlength fun _ hsince => hsince.moveOn, ?_⟩
  · intro entries hentries e he c hc
    rcases hlast e.id with hsame | ⟨c', hc', hawaited⟩
    · exact (hs.fresh entries hentries e he c (hsame.symm.trans hc)).imp_right (Awaited.mono hpending)
    · obtain rfl := Option.some.inj (hc'.symm.trans hc)
      exact Or.inr (hsaved hawaited)
  · refine hs.queued.mono hlength fun call fileIds since hscan => ?_
    obtain ⟨hstart, ⟨listed, hsince, hlists⟩, hsteady⟩ := hscan
    refine ⟨hstart, ⟨listed, hsince.moveOn, hlists⟩, fun files' hsince' id record hcontent => ?_⟩
    rcases since_moveOn hsince' with hsince' | rfl
    · rcases hlast id with hsame | ⟨c, hc, hawaited⟩
      · rcases hsteady files' hsince' id record hcontent with hold | ⟨c, hc, hawaited⟩
        · exact Or.inl (hsame.trans hold)
        · exact Or.inr ⟨c, hsame.trans hc, hawaited.mono hpending⟩
      · exact Or.inr ⟨c, hc, hsaved hawaited⟩
    · left
      show (s.moveOn files').lastSaved id = _
      rw [lastSaved_moveOn, hcontent, Option.some_or]

/-- The steps that end the first task. -/
theorem Accurate.popped (hs : Accurate wellFormed s) {task : IndexTask δ} {rest : List (IndexTask δ)} (hqueue : s.queue = task :: rest)
    {index : Option (List RunsIndexEntry)}
    (hindex : ∀ entries, index = some entries → (entries.map RunsIndexEntry.id).Nodup ∧ ∀ e ∈ entries, ∀ c, s.lastSaved e.id = some c →
      (∃ record, c = some record ∧ e = summariseRecord record) ∨ s.Awaited rest e.id c) :
    Accurate wellFormed { s with queue := rest, index := index } where
  nodup entries hentries := (hindex entries hentries).1
  fresh entries hentries := (hindex entries hentries).2
  readable := hs.readable
  listings call phase hmem := (hs.listings call phase hmem).mono le_rfl fun _ hsince => hsince
  queued := by
    have hqueued := hs.queued
    rw [hqueue] at hqueued
    cases rest with
    | nil => trivial
    | cons next rest =>
      have hwaits : ∀ task ∈ next :: rest, Waits { s with queue := next :: rest, index := index } task := by
        intro task htask
        have hwait := hqueued.2 task htask
        cases task with
        | rebuild call scan => exact hwait
        | upsert record => trivial
        | removeEntry id => trivial
      exact ⟨Or.inl (hwaits next List.mem_cons_self), fun task htask => hwaits task (List.mem_cons_of_mem _ htask)⟩

theorem Pending.rest {task : IndexTask δ} {rest : List (IndexTask δ)} (htask : ∀ record, task ≠ .upsert record) {record : RunRecord δ}
    (hpending : s.Pending (task :: rest) record) : s.Pending rest record := by
  rcases hpending with hsaved | hqueued
  · exact Or.inl hsaved
  · rcases List.mem_cons.mp hqueued with heq | hqueued
    · exact absurd heq.symm (htask record)
    · exact Or.inr hqueued

theorem Accurate.index_rest (hs : Accurate wellFormed s) {task : IndexTask δ} {rest : List (IndexTask δ)} (hqueue : s.queue = task :: rest)
    (htask : ∀ record, task ≠ .upsert record) {entries : List RunsIndexEntry} (hentries : s.index = some entries) :
    ∀ e ∈ entries, ∀ c, s.lastSaved e.id = some c → (∃ record, c = some record ∧ e = summariseRecord record) ∨ s.Awaited rest e.id c := by
  intro e he c hc
  refine (hs.fresh entries hentries e he c hc).imp_right (Awaited.mono fun record hpending => ?_)
  rw [hqueue] at hpending
  exact hpending.rest htask

theorem mem_upsertEntry {summary e : RunsIndexEntry} {existing : List RunsIndexEntry} (hnodup : (existing.map RunsIndexEntry.id).Nodup)
    (he : e ∈ upsertEntry summary existing) : e = summary ∨ e ∈ existing ∧ e.id ≠ summary.id := by
  induction existing with
  | nil => exact Or.inl (List.mem_singleton.mp he)
  | cons first existing ih =>
    obtain ⟨hfirst, hnodup⟩ := List.nodup_cons.mp hnodup
    rw [upsertEntry] at he
    split at he
    · next hid =>
      rcases List.mem_cons.mp he with he | he
      · exact Or.inl he
      · refine Or.inr ⟨List.mem_cons_of_mem _ he, fun heq => hfirst ?_⟩
        rw [hid, ← heq]
        exact List.mem_map_of_mem he
    · next hid =>
      rcases List.mem_cons.mp he with rfl | he
      · exact Or.inr ⟨List.mem_cons_self, hid⟩
      · exact (ih hnodup he).imp_right fun hold => ⟨List.mem_cons_of_mem _ hold.1, hold.2⟩

theorem nodup_upsertEntry {summary : RunsIndexEntry} {existing : List RunsIndexEntry} (hnodup : (existing.map RunsIndexEntry.id).Nodup) :
    ((upsertEntry summary existing).map RunsIndexEntry.id).Nodup := by
  induction existing with
  | nil => exact List.nodup_singleton _
  | cons first existing ih =>
    obtain ⟨hfirst, hrest⟩ := List.nodup_cons.mp hnodup
    rw [upsertEntry]
    split
    · next hid =>
      rw [List.map_cons, ← hid]
      exact hnodup
    · next hid =>
      refine List.nodup_cons.mpr ⟨fun hmem => ?_, ih hrest⟩
      obtain ⟨e, he, heq⟩ := List.mem_map.mp hmem
      rcases mem_upsertEntry hrest he with rfl | hold
      · exact hid heq.symm
      · exact hfirst (heq ▸ List.mem_map_of_mem hold.1)

/-- The records that a scan parses are under different ids. -/
theorem Reads.nodup {since : ℕ} {fileIds : List String} {contents : String → Option (Option (RunRecord δ))}
    (hreads : s.Reads since fileIds contents) (hnodup : fileIds.Nodup) :
    ((fileIds.filterMap fun id => (contents id).join).map RunRecord.id).Nodup := by
  have hids : (fileIds.filterMap fun id => (contents id).join).map RunRecord.id =
      fileIds.filter fun id => (contents id).join.isSome := by
    rw [List.map_filterMap, ← List.filterMap_eq_filter]
    apply List.filterMap_congr
    intro id hid
    obtain ⟨files, -, hcontent⟩ := hreads id hid
    show _ = if (contents id).join.isSome then some id else none
    cases hread : (contents id).join with
    | none => rfl
    | some record => exact congrArg some (files.named id record (hcontent.symm.trans (Option.join_eq_some_iff.mp hread)))
  rw [hids]
  exact hnodup.filter _

/-- An index with as many entries as there are files, all of them about files, lists the files. -/
theorem lists_of_matches {files : RunFiles δ} {fileIds : List String} {cached : List RunsIndexEntry} (hlists : files.Lists fileIds)
    (hnodup : (cached.map RunsIndexEntry.id).Nodup) (hmatches : indexMatchesFiles cached fileIds = true) :
    files.Lists (cached.map RunsIndexEntry.id) := by
  obtain ⟨hlength, -, hmem⟩ := of_decide_eq_true hmatches
  have hsubset : cached.map RunsIndexEntry.id ⊆ fileIds := by
    intro id hid
    obtain ⟨e, he, rfl⟩ := List.mem_map.mp hid
    exact hmem e he
  have hperm : (cached.map RunsIndexEntry.id).Perm fileIds := by
    apply (List.subperm_of_subset hnodup hsubset).perm_of_length_le
    rw [List.length_map, hlength]
  exact ⟨hnodup, fun id => hperm.mem_iff.trans (hlists.2 id)⟩

/-- An index that is read while its files are there, and the summaries on their way are in it, describes what they last held. -/
theorem Accurate.summaries (hs : Accurate wellFormed s) {entries : List RunsIndexEntry} (hentries : s.index = some entries)
    (hindexed : ∀ record, s.Pending s.queue record → s.Indexes record) {start : ℕ} {files : RunFiles δ} (hsince : s.Since start files)
    {e : RunsIndexEntry} (he : e ∈ entries) (hthere : files.content e.id ≠ none) :
    (∃ files, s.Since start files ∧ s.lastSaved e.id = files.content e.id) ∧
      ∃ record, s.lastSaved e.id = some (some record) ∧ e = summariseRecord record := by
  obtain ⟨c, hlast, files', hsince', hcontent⟩ := since_lastSaved hsince hthere
  refine ⟨⟨files', hsince', hlast.trans hcontent.symm⟩, ?_⟩
  rcases hs.fresh entries hentries e he c hlast with ⟨record, rfl, hsummary⟩ | ⟨record, hpending, hid, rfl⟩
  · exact ⟨record, hlast, hsummary⟩
  · exact ⟨record, hlast, hindexed record hpending entries hentries e he hid.symm⟩

theorem Accurate.other_listings (hs : Accurate wellFormed s) {before after : List (RunsListing × ListingPhase)} {entry : RunsListing × ListingPhase}
    (hlistings : s.listings = before ++ entry :: after) : ∀ call phase, (call, phase) ∈ before ++ after → s.Sound call phase := by
  intro call phase hmem
  apply hs.listings call phase
  rw [hlistings]
  rcases List.mem_append.mp hmem with hmem | hmem
  · exact List.mem_append_left _ hmem
  · exact List.mem_append_right _ (List.mem_cons_of_mem _ hmem)

theorem Accurate.advance (hs : Accurate wellFormed s) {before after : List (RunsListing × ListingPhase)} {call : RunsListing}
    {phase phase' : ListingPhase} (hlistings : s.listings = before ++ (call, phase) :: after) (hsound : s.Sound call phase') :
    Accurate wellFormed { s with listings := before ++ (call, phase') :: after } := by
  apply hs.frame (fun _ hpending => hpending) hs.readable _ hs.queued
  intro other phase'' hmem
  rcases List.mem_append.mp hmem with hmem | hmem
  · exact hs.other_listings hlistings other phase'' (List.mem_append_left _ hmem)
  · rcases List.mem_cons.mp hmem with heq | hmem
    · obtain ⟨rfl, rfl⟩ := Prod.mk.inj heq
      exact hsound
    · exact hs.other_listings hlistings other phase'' (List.mem_append_right _ hmem)

theorem Accurate.leave (hs : Accurate wellFormed s) {before after : List (RunsListing × ListingPhase)} {entry : RunsListing × ListingPhase}
    (hlistings : s.listings = before ++ entry :: after) {queue : List (IndexTask δ)} (htasks : ∀ task ∈ s.queue, task ∈ queue)
    (hqueued : s.Queued queue) : Accurate wellFormed { s with listings := before ++ after, queue := queue } :=
  hs.frame (fun _ hpending => hpending.imp_right (htasks _)) hs.readable (hs.other_listings hlistings) hqueued

theorem Accurate.trust (hs : Accurate wellFormed s) {before after : List (RunsListing × ListingPhase)} {call : RunsListing} {fileIds : List String}
    (hlistings : s.listings = before ++ (call, .listed fileIds) :: after)
    (hindexed : ∀ record, s.Pending s.queue record → s.Indexes record) : Accurate wellFormed (s.trust call fileIds before after) := by
  obtain ⟨files, hsince, hlists⟩ := hs.listings call _ (hlistings ▸ List.mem_append_right _ List.mem_cons_self)
  have hrebuild : Accurate wellFormed { s with listings := before ++ after, queue := s.queue ++ [.rebuild call none] } :=
    hs.leave hlistings (fun _ htask => List.mem_append_left _ htask) (hs.queued.append ⟨hsince.start_le, rfl⟩)
  rw [RunsFolder.trust]
  split
  · exact hrebuild
  · next cached hindex =>
    split
    · next hmatches =>
      have hcached := lists_of_matches hlists (hs.nodup cached hindex) hmatches
      apply hs.advance hlistings
      refine ⟨hsince.start_le, ⟨files, hsince, hcached⟩, s.lastSaved, fun e he => ?_⟩
      exact hs.summaries hindex hindexed hsince he ((hcached.2 e.id).mp (List.mem_map_of_mem he))
    · exact hrebuild

theorem Scanned.rebuilt {call : RunsListing} {fileIds : List String} {since : ℕ} {rest : List (IndexTask δ)}
    (hqueue : s.queue = .rebuild call (some (fileIds, since)) :: rest) {contents : String → Option (Option (RunRecord δ))}
    (hscanned : s.Scanned call fileIds since) (hreads : s.Reads since fileIds contents) {entries : List RunsIndexEntry}
    (hentries : RunsFolder.rebuilt (fileIds.filterMap fun id => (contents id).join) = some entries) :
    (entries.map RunsIndexEntry.id).Nodup ∧ ∀ e ∈ entries, ∀ c, s.lastSaved e.id = some c →
      (∃ record, c = some record ∧ e = summariseRecord record) ∨ s.Awaited rest e.id c := by
  obtain ⟨-, ⟨listed, -, hlists⟩, hsteady⟩ := hscanned
  rw [RunsFolder.rebuilt] at hentries
  split at hentries
  · cases hentries
  · obtain rfl := Option.some.inj hentries
    constructor
    · rw [List.map_map]
      exact hreads.nodup hlists.1
    · intro e he c hc
      obtain ⟨record, hrecord, rfl⟩ := List.mem_map.mp he
      obtain ⟨id, hid, hread⟩ := List.mem_filterMap.mp hrecord
      obtain ⟨files, hsince, hcontent⟩ := hreads id hid
      have hfile : files.content id = some (some record) := hcontent.symm.trans (Option.join_eq_some_iff.mp hread)
      obtain rfl : record.id = id := files.named id record hfile
      rcases hsteady files hsince record.id record hfile with hlast | ⟨c', hlast, hawaited⟩
      · exact Or.inl ⟨record, Option.some.inj (hc.symm.trans hlast), rfl⟩
      · obtain rfl := Option.some.inj (hc.symm.trans hlast)
        refine Or.inr (hawaited.mono fun other hpending => ?_)
        rw [hqueue] at hpending
        exact hpending.rest fun _ heq => by cases heq

theorem Accurate.upserted (hs : Accurate wellFormed s) {record : RunRecord δ} {rest : List (IndexTask δ)} (hqueue : s.queue = .upsert record :: rest)
    {writes : Bool} (hsafe : (RunsEvent.runUpsert writes).Safe wellFormed s) :
    Accurate wellFormed
      { s with queue := rest, index := if writes then some (upsertEntry (summariseRecord record) (s.index.getD [])) else s.index } := by
  have hother : ∀ {c other}, s.Pending s.queue other → c = some other → other = record ∨ s.Awaited rest other.id c := by
    intro c other hpending hc
    rcases hpending with hsaved | hqueued
    · exact Or.inr ⟨other, Or.inl hsaved, rfl, hc⟩
    · rw [hqueue] at hqueued
      rcases List.mem_cons.mp hqueued with heq | hqueued
      · exact Or.inl (IndexTask.upsert.inj heq)
      · exact Or.inr ⟨other, Or.inr hqueued, rfl, hc⟩
  apply hs.popped hqueue
  intro entries hentries
  have hsafe := hsafe record rest hqueue
  cases writes with
  | true =>
    obtain rfl := Option.some.inj hentries
    have hnodup : ((s.index.getD []).map RunsIndexEntry.id).Nodup := by
      cases hindex : s.index with
      | none => exact List.nodup_nil
      | some existing => exact hs.nodup existing hindex
    refine ⟨nodup_upsertEntry hnodup, fun e he c hc => ?_⟩
    rcases mem_upsertEntry hnodup he with rfl | ⟨hold, hne⟩
    · rcases hsafe c hc with rfl | hawaited
      · exact Or.inl ⟨record, rfl, rfl⟩
      · exact Or.inr hawaited
    · obtain ⟨existing, hindex, hmem⟩ : ∃ existing, s.index = some existing ∧ e ∈ existing := by
        cases hindex : s.index with
        | none =>
          rw [hindex] at hold
          exact absurd hold List.not_mem_nil
        | some existing =>
          rw [hindex] at hold
          exact ⟨existing, rfl, hold⟩
      refine (hs.fresh existing hindex e hmem c hc).imp_right ?_
      rintro ⟨other, hpending, hid, hcontent⟩
      rcases hother hpending hcontent with rfl | hawaited
      · exact absurd hid.symm hne
      · exact hid ▸ hawaited
  | false =>
    refine ⟨hs.nodup entries hentries, fun e he c hc => ?_⟩
    rcases hs.fresh entries hentries e he c hc with hdone | ⟨other, hpending, hid, hcontent⟩
    · exact Or.inl hdone
    · rcases hother hpending hcontent with rfl | hawaited
      · exact Or.inl ⟨other, hcontent, hsafe entries hentries e he hid.symm⟩
      · exact Or.inr (hid ▸ hawaited)

theorem Accurate.step (hs : Accurate wellFormed s) {event : RunsEvent δ} (hsafe : event.Safe wellFormed s) {s' : RunsFolder δ}
    (hstep : Step wellFormed event s s') : Accurate wellFormed s' := by
  cases event with
  | saveRun record =>
    obtain rfl := hstep
    refine hs.frame (fun other hpending => hpending.imp_left (List.mem_append_left _)) ?_ hs.listings hs.queued
    intro other written hmem
    rcases List.mem_append.mp hmem with hmem | hmem
    · exact hs.readable other written hmem
    · obtain ⟨rfl, -⟩ := Prod.mk.inj (List.mem_singleton.mp hmem)
      exact hsafe
  | saveFile i =>
    obtain ⟨before, record, after, hsaves, -, rfl⟩ := hstep
    have hreadable : readBack wellFormed record = some record :=
      hs.readable record false (hsaves ▸ List.mem_append_right _ List.mem_cons_self)
    refine hs.moved ?_ ?_ ?_
    · rintro other (hsaved | hqueued)
      · rw [hsaves] at hsaved
        rcases List.mem_append.mp hsaved with hsaved | hsaved
        · exact Or.inl (List.mem_append_left _ hsaved)
        · rcases List.mem_cons.mp hsaved with heq | hsaved
          · cases heq
          · exact Or.inl (List.mem_append_right _ (List.mem_cons_of_mem _ hsaved))
      · exact Or.inr hqueued
    · intro other written hmem
      rcases List.mem_append.mp hmem with hmem | hmem
      · exact hs.readable other written (hsaves ▸ List.mem_append_left _ hmem)
      · rcases List.mem_cons.mp hmem with heq | hmem
        · obtain ⟨rfl, -⟩ := Prod.mk.inj heq
          exact hreadable
        · exact hs.readable other written (hsaves ▸ List.mem_append_right _ (List.mem_cons_of_mem _ hmem))
    · intro id c hcontent
      by_cases hid : id = record.id
      · subst hid
        refine Or.inr ⟨record, List.mem_append_right _ List.mem_cons_self, rfl, ?_⟩
        rw [RunFiles.save_content, Function.update_self, hreadable] at hcontent
        exact (Option.some.inj hcontent).symm
      · left
        rw [RunFiles.save_content, Function.update_of_ne hid] at hcontent
        exact hcontent
  | saveDone i =>
    obtain ⟨before, record, after, hsaves, -, rfl⟩ := hstep
    have hrest : ∀ other written, (other, written) ∈ before ++ after → (other, written) ∈ s.saves := by
      intro other written hmem
      rw [hsaves]
      rcases List.mem_append.mp hmem with hmem | hmem
      · exact List.mem_append_left _ hmem
      · exact List.mem_append_right _ (List.mem_cons_of_mem _ hmem)
    refine hs.frame ?_ (fun other written hmem => hs.readable other written (hrest other written hmem)) hs.listings
      (hs.queued.append trivial)
    rintro other (hsaved | hqueued)
    · rw [hsaves] at hsaved
      rcases List.mem_append.mp hsaved with hsaved | hsaved
      · exact Or.inl (List.mem_append_left _ hsaved)
      · rcases List.mem_cons.mp hsaved with heq | hsaved
        · obtain ⟨rfl, -⟩ := Prod.mk.inj heq
          exact Or.inr (List.mem_append_right _ (List.mem_singleton_self _))
        · exact Or.inl (List.mem_append_right _ hsaved)
    · exact Or.inr (List.mem_append_left _ hqueued)
  | deleteRun id =>
    obtain rfl := hstep
    exact hs.frame (fun _ hpending => hpending) hs.readable hs.listings hs.queued
  | removeFile i =>
    obtain ⟨before, id, after, -, -, rfl⟩ := hstep
    refine hs.moved (fun _ hpending => hpending) hs.readable ?_
    intro other c hcontent
    left
    rw [RunFiles.remove_content] at hcontent
    by_cases hid : other = id
    · subst hid
      rw [Function.update_self] at hcontent
      cases hcontent
    · rw [Function.update_of_ne hid] at hcontent
      exact hcontent
  | removeDone i =>
    obtain ⟨before, id, after, -, -, rfl⟩ := hstep
    exact hs.frame (fun _ hpending => hpending.imp_right (List.mem_append_left _)) hs.readable hs.listings (hs.queued.append trivial)
  | list summary filter =>
    obtain rfl := hstep
    refine hs.frame (fun _ hpending => hpending) hs.readable ?_ hs.queued
    intro call phase hmem
    rcases List.mem_append.mp hmem with hmem | hmem
    · exact hs.listings call phase hmem
    · obtain ⟨rfl, rfl⟩ := Prod.mk.inj (List.mem_singleton.mp hmem)
      exact le_refl s.past.length
  | listFiles i fileIds =>
    obtain ⟨before, call, after, hlistings, -, hlists, rfl⟩ := hstep
    have hstart : call.start ≤ s.past.length := hs.listings call .begun (hlistings ▸ List.mem_append_right _ List.mem_cons_self)
    exact hs.advance hlistings ⟨s.files, since_now hstart, hlists⟩
  | loadIndex i =>
    obtain ⟨before, call, fileIds, after, hlistings, -, rfl⟩ := hstep
    exact hs.trust hlistings hsafe
  | answer i contents result =>
    obtain ⟨before, call, cached, since, after, hlistings, -, -, -, rfl⟩ := hstep
    exact hs.leave hlistings (fun _ htask => htask) hs.queued
  | runUpsert writes =>
    obtain ⟨record, rest, hqueue, rfl⟩ := hstep
    exact hs.upserted hqueue hsafe
  | runRemove writes =>
    obtain ⟨id, rest, hqueue, rfl⟩ := hstep
    apply hs.popped hqueue
    have htask : ∀ record : RunRecord δ, IndexTask.removeEntry id ≠ .upsert record := fun _ heq => by cases heq
    intro entries hentries
    cases writes with
    | true =>
      obtain ⟨existing, hindex, rfl⟩ := Option.map_eq_some_iff.mp hentries
      refine ⟨(hs.nodup existing hindex).sublist (List.filter_sublist.map _), fun e he => ?_⟩
      exact hs.index_rest hqueue htask hindex e (List.mem_of_mem_filter he)
    | false => exact ⟨hs.nodup entries hentries, hs.index_rest hqueue htask hentries⟩
  | beginRebuild fileIds =>
    obtain ⟨call, rest, hqueue, hlists, rfl⟩ := hstep
    have hqueued := hs.queued
    rw [hqueue] at hqueued
    have hstart : call.start ≤ s.past.length := by
      rcases hqueued.1 with hwaits | ⟨_, _, _, heq, _⟩
      · exact hwaits.1
      · cases heq
    refine hs.frame ?_ hs.readable hs.listings ⟨Or.inr ⟨call, fileIds, s.past.length, rfl, hstart, ?_, ?_⟩, hqueued.2⟩
    · intro record hpending
      rw [hqueue] at hpending
      refine (hpending.rest fun _ heq => by cases heq).imp_right (List.mem_cons_of_mem _)
    · exact ⟨s.files, since_now le_rfl, hlists⟩
    · intro files hsince id record hcontent
      obtain ⟨j, hj, hat⟩ := hsince
      have hlt := (List.getElem?_eq_some_iff.mp hat).1
      rw [List.length_append, List.length_singleton] at hlt
      obtain rfl : j = s.past.length := by omega
      obtain rfl := Option.some.inj (hat.symm.trans filesAt_now)
      exact Or.inl (lastSaved_of_content hcontent)
  | endRebuild contents writes result =>
    obtain ⟨call, fileIds, since, rest, hqueue, hreads, -, rfl⟩ := hstep
    have hqueued := hs.queued
    rw [hqueue] at hqueued
    have hscanned : s.Scanned call fileIds since := by
      rcases hqueued.1 with hwaits | ⟨_, _, _, heq, hscanned⟩
      · cases hwaits.2
      · obtain ⟨rfl, hsome⟩ := IndexTask.rebuild.inj heq
        obtain ⟨rfl, rfl⟩ := Prod.mk.inj (Option.some.inj hsome)
        exact hscanned
    apply hs.popped hqueue
    intro entries hentries
    cases writes with
    | true => exact hscanned.rebuilt hqueue hreads hentries
    | false => exact ⟨hs.nodup entries hentries, hs.index_rest hqueue (fun _ heq => by cases heq) hentries⟩
  | restart =>
    obtain rfl := hstep
    refine ⟨hs.nodup, ?_, fun _ _ hmem => absurd hmem List.not_mem_nil, fun _ _ hmem => absurd hmem List.not_mem_nil, trivial⟩
    intro entries hentries e he c hc
    rcases hs.fresh entries hentries e he c hc with hdone | ⟨record, hpending, hid, hcontent⟩
    · exact Or.inl hdone
    · exact Or.inl ⟨record, hcontent, hsafe record hpending entries hentries e he hid.symm⟩

theorem Accurate.opened {files : RunFiles δ} {index : Option (List RunsIndexEntry)}
    (hnodup : ∀ entries, index = some entries → (entries.map RunsIndexEntry.id).Nodup)
    (hindex : ∀ entries, index = some entries → ∀ e ∈ entries, ∀ c, files.content e.id = some c →
      ∃ record, c = some record ∧ e = summariseRecord record) : Accurate wellFormed (opened files index) where
  nodup := hnodup
  fresh entries hentries e he c hc := by
    refine Or.inl (hindex entries hentries e he c ?_)
    rw [← hc]
    exact Option.or_none.symm
  readable _ _ hmem := absurd hmem List.not_mem_nil
  listings _ _ hmem := absurd hmem List.not_mem_nil
  queued := trivial

theorem Accurate.fromIndex (hs : Accurate wellFormed s) {call : RunsListing} {cached : List RunsIndexEntry} {since : ℕ}
    (hmem : (call, .trusted cached since) ∈ s.listings) {contents : String → Option (Option (RunRecord δ))}
    (hreads : s.Reads since (cached.map RunsIndexEntry.id) contents)
    (hmatches : call.summary = false → ∀ e ∈ cached, matchesFilter e call.filter = true → ∀ record, contents e.id = some (some record) →
      matchesFilter (summariseRecord record) call.filter = true) : call.FullScan s (call.fromIndex cached contents) := by
  obtain ⟨hstart, hlisted, saved, hsaved⟩ := hs.listings call _ hmem
  obtain ⟨-, -, hnodup, -⟩ := id hlisted
  cases hsummary : call.summary with
  | true =>
    refine ⟨cached.map RunsIndexEntry.id, saved, hlisted, ?_, ?_⟩
    · intro id hid
      obtain ⟨e, he, rfl⟩ := List.mem_map.mp hid
      exact (hsaved e he).1
    · rw [List.filterMap_map]
      apply of_fromIndex_summary hsummary
      exact fun e he => (hsaved e he).2
  | false =>
    -- the runs that match are read for the answer, the others are as the index has them
    let read : String → Option (Option (RunRecord δ)) := fun id =>
      if id ∈ (cached.filter (matchesFilter · call.filter)).map RunsIndexEntry.id then contents id else saved id
    have hread : ∀ e ∈ cached, matchesFilter e call.filter = true → read e.id = contents e.id := by
      intro e he hp
      exact if_pos (List.mem_map_of_mem (List.mem_filter.mpr ⟨he, hp⟩))
    have hkept : ∀ e ∈ cached, matchesFilter e call.filter = false → read e.id = saved e.id := by
      intro e he hp
      refine if_neg fun hin => ?_
      obtain ⟨e', he', hid⟩ := List.mem_map.mp hin
      obtain ⟨hcached, hp'⟩ := List.mem_filter.mp he'
      rw [List.inj_on_of_nodup_map hnodup hcached he hid, hp] at hp'
      cases hp'
    refine ⟨cached.map RunsIndexEntry.id, read, hlisted, ?_, ?_⟩
    · intro id hid
      obtain ⟨e, he, rfl⟩ := List.mem_map.mp hid
      cases hp : matchesFilter e call.filter with
      | true =>
        obtain ⟨files, hsince, hcontent⟩ := hreads e.id hid
        exact ⟨files, hsince.le hstart, (hread e he hp).trans hcontent⟩
      | false =>
        obtain ⟨⟨files, hsince, hcontent⟩, -⟩ := hsaved e he
        exact ⟨files, hsince, (hkept e he hp).trans hcontent⟩
    · rw [List.filterMap_map]
      apply of_fromIndex_runs hsummary
      · intro e he hp
        exact ⟨hread e he hp, hmatches hsummary e he hp⟩
      · intro e he hp
        obtain ⟨-, record, hrecord, hentry⟩ := hsaved e he
        exact ⟨record, (hkept e he hp).trans hrecord, hentry⟩

end RunsFolder

/-! ### The index and the scan -/

/-- In a run of safe steps, over a folder whose index describes its files, each listing answers as a full scan would. -/
theorem listings_scan (wellFormed : δ → Bool) {files : RunFiles δ} {index : Option (List RunsIndexEntry)}
    (hnodup : ∀ entries, index = some entries → (entries.map RunsIndexEntry.id).Nodup)
    (hindex : ∀ entries, index = some entries → ∀ e ∈ entries, ∀ c, files.content e.id = some c →
      ∃ record, c = some record ∧ e = summariseRecord record)
    {events : List (RunsEvent δ)} {s : RunsFolder δ}
    (hsteps : Steps (fun event s s' => event.Safe wellFormed s ∧ RunsFolder.Step wellFormed event s s') events (.opened files index) s)
    {event : RunsEvent δ} {s' : RunsFolder δ} (hsafe : event.Safe wellFormed s) (hstep : RunsFolder.Step wellFormed event s s')
    {call : RunsListing} {answer : RunsAnswer δ} (hanswer : event.Answers s call answer) : call.FullScan s answer := by
  have hs : s.Accurate wellFormed := by
    refine hsteps.invariant (I := fun t => t.Accurate wellFormed) ?_ (.opened hnodup hindex)
    intro event _ t t' ht hboth
    exact ht.step hboth.1 hboth.2
  cases event with
  | answer i contents result =>
    obtain ⟨phase, hat, rfl⟩ := hanswer
    obtain ⟨before, call', cached, since, after, hlistings, rfl, hreads, rfl, -⟩ := hstep
    have hat' : s.listings[before.length]? = some (call', .trusted cached since) := by
      rw [hlistings, List.getElem?_append_right le_rfl, Nat.sub_self]
      rfl
    obtain ⟨rfl, rfl⟩ := Prod.mk.inj (Option.some.inj (hat.symm.trans hat'))
    exact hs.fromIndex (List.mem_of_getElem? hat') hreads (hsafe call cached since hat')
  | endRebuild contents writes result =>
    obtain ⟨scan, rest, hqueue, rfl⟩ := hanswer
    obtain ⟨call', fileIds, since, rest', hqueue', hreads, rfl, -⟩ := hstep
    obtain ⟨htask, -⟩ := List.cons.inj (hqueue.symm.trans hqueue')
    obtain ⟨rfl, rfl⟩ := IndexTask.rebuild.inj htask
    have hqueued := hs.queued
    rw [hqueue] at hqueued
    rcases hqueued.1 with hwaits | ⟨_, _, _, heq, hstart, ⟨listed, hsince, hlists⟩, -⟩
    · cases hwaits.2
    · obtain ⟨rfl, hsome⟩ := IndexTask.rebuild.inj heq
      obtain ⟨rfl, rfl⟩ := Prod.mk.inj (Option.some.inj hsome)
      refine ⟨fileIds, contents, ⟨listed, hsince.le hstart, hlists⟩, ?_, of_fromScan call (hreads.nodup hlists.1)⟩
      intro id hid
      obtain ⟨files, hsince, hcontent⟩ := hreads id hid
      exact ⟨files, hsince.le hstart, hcontent⟩
  | _ => exact False.elim hanswer

/-! ### A run that is paid out and then sorted into another category -/

def runRecord (category : RunCategory) : RunRecord Unit :=
  ⟨"run", "March", "", category, 1, 1, 1, "USDC", "5", none, none, [.available], ()⟩

def noRuns : RunFiles Unit := ⟨fun _ => none, fun _ _ h => by cases h⟩

def oneRun (category : RunCategory) : RunFiles Unit := noRuns.save (fun _ => true) (runRecord category).normalised

def bothRuns : RunFiles Unit := (oneRun .payroll).save (fun _ => true) (runRecord .grants).normalised

def allRuns : ListRunsFilter := ⟨none, none, none⟩

/-- Nothing under way. -/
def idle (past : List (RunFiles Unit)) (files : RunFiles Unit) (index : Option (List RunsIndexEntry)) : RunsFolder Unit :=
  ⟨past, files, index, [], [], [], []⟩

/-- A listing of summaries that has read the index. -/
def summing (past : List (RunFiles Unit)) (files : RunFiles Unit) (cached : List RunsIndexEntry) : RunsFolder Unit :=
  ⟨past, files, some cached, [], [], [], [(⟨true, allRuns, past.length⟩, .trusted cached past.length)]⟩

theorem runRecord_normalised (category : RunCategory) : (runRecord category).normalised = runRecord category := rfl

theorem readBack_runRecord (category : RunCategory) : readBack (fun _ => true) (runRecord category) = some (runRecord category) := by
  cases category <;> rfl

theorem saved_content (files : RunFiles Unit) (category : RunCategory) :
    (files.save (fun _ => true) (runRecord category).normalised).content "run" = some (some (runRecord category)) := by
  rw [RunFiles.save_content, runRecord_normalised, readBack_runRecord]
  exact Function.update_self _ _ _

theorem save_lists {files : RunFiles Unit} (hother : ∀ id, id ≠ "run" → files.content id = none) (category : RunCategory) :
    (files.save (fun _ => true) (runRecord category).normalised).Lists ["run"] := by
  refine ⟨List.nodup_singleton _, fun id => ?_⟩
  rw [List.mem_singleton]
  constructor
  · rintro rfl
    rw [saved_content]
    exact Option.some_ne_none _
  · intro hcontent
    by_contra hid
    apply hcontent
    rw [RunFiles.save_content]
    exact (Function.update_of_ne hid _ _).trans (hother id hid)

theorem oneRun_lists (category : RunCategory) : (oneRun category).Lists ["run"] := save_lists (fun _ _ => rfl) category

theorem bothRuns_lists : bothRuns.Lists ["run"] := by
  apply save_lists
  intro id hid
  by_contra hcontent
  exact hid (List.mem_singleton.mp (((oneRun_lists .payroll).2 id).mpr hcontent))

theorem steps_saveRun (past : List (RunFiles Unit)) (files : RunFiles Unit) (index : Option (List RunsIndexEntry)) (record : RunRecord Unit)
    (writes : Bool) : Steps (RunsFolder.Step fun _ => true) [.saveRun record, .saveFile 0, .saveDone 0, .runUpsert writes] (idle past files index)
      (idle (past ++ [files]) (files.save (fun _ => true) record.normalised)
        (if writes then some (upsertEntry (summariseRecord record.normalised) (index.getD [])) else index)) :=
  ⟨_, rfl, _, ⟨[], _, [], rfl, rfl, rfl⟩, _, ⟨[], _, [], rfl, rfl, rfl⟩, _, ⟨_, [], rfl, rfl⟩, rfl⟩

theorem trust_idle (past : List (RunFiles Unit)) (files : RunFiles Unit) {fileIds : List String} {cached : List RunsIndexEntry}
    (hmatches : indexMatchesFiles cached fileIds = true) :
    ({ idle past files (some cached) with listings := [(⟨true, allRuns, past.length⟩, .listed fileIds)] } : RunsFolder Unit).trust
      ⟨true, allRuns, past.length⟩ fileIds [] [] = summing past files cached := if_pos hmatches

theorem steps_summing (past : List (RunFiles Unit)) {files : RunFiles Unit} {fileIds : List String} {cached : List RunsIndexEntry}
    (hlists : files.Lists fileIds) (hmatches : indexMatchesFiles cached fileIds = true) :
    Steps (RunsFolder.Step fun _ => true) [.list true allRuns, .listFiles 0 fileIds, .loadIndex 0] (idle past files (some cached))
      (summing past files cached) := by
  refine ⟨_, rfl, _, ⟨[], _, [], rfl, rfl, hlists, rfl⟩, _, ⟨[], _, _, [], rfl, rfl, ?_⟩, rfl⟩
  exact (trust_idle past files hmatches).symm

/-- The run as the index has it. -/
def indexed (category : RunCategory) : List RunsIndexEntry := [summariseRecord (runRecord category)]

theorem indexed_matches (category : RunCategory) : indexMatchesFiles (indexed category) ["run"] = true := by
  cases category <;> decide +kernel

theorem step_summary (past : List (RunFiles Unit)) (files : RunFiles Unit) (category : RunCategory) :
    RunsFolder.Step (fun _ => true) (.answer 0 files.content (.summaries (indexed category))) (summing past files (indexed category))
      (idle past files (some (indexed category))) := by
  refine ⟨[], _, indexed category, past.length, [], rfl, rfl, fun id _ => ⟨files, RunsFolder.since_now le_rfl, rfl⟩, ?_, rfl⟩
  show RunsAnswer.summaries _ = .summaries (newestFirst _ ((indexed category).filter (matchesFilter · allRuns)))
  have hall : (indexed category).filter (matchesFilter · allRuns) = indexed category := rfl
  rw [hall, newestFirst, indexed, List.mergeSort_singleton]

def savedOnce : RunsFolder Unit := idle [noRuns] (oneRun .payroll) (some (indexed .payroll))

/-- A run that is saved and then listed. -/
theorem listings_scan_saved : (⟨true, allRuns, 1⟩ : RunsListing).FullScan (summing [noRuns] (oneRun .payroll) (indexed .payroll))
    (.summaries (indexed .payroll)) := by
  have hsteps : Steps (fun event s s' => event.Safe (fun _ => true) s ∧ RunsFolder.Step (fun _ => true) event s s')
      [.saveRun (runRecord .payroll), .saveFile 0, .saveDone 0, .runUpsert true, .list true allRuns, .listFiles 0 ["run"], .loadIndex 0]
      (.opened noRuns none) (summing [noRuns] (oneRun .payroll) (indexed .payroll)) := by
    refine ⟨_, ⟨readBack_runRecord .payroll, rfl⟩, _, ⟨trivial, [], _, [], rfl, rfl, rfl⟩, _, ⟨trivial, [], _, [], rfl, rfl, rfl⟩,
      savedOnce, ⟨?_, _, [], rfl, rfl⟩, _, ⟨trivial, rfl⟩, _, ⟨trivial, [], _, [], rfl, rfl, oneRun_lists .payroll, rfl⟩,
      _, ⟨?_, [], _, _, [], rfl, rfl, ?_⟩, rfl⟩
    · intro record rest hqueue c hc
      obtain ⟨hrecord, -⟩ := List.cons.inj hqueue
      obtain rfl := IndexTask.upsert.inj hrecord
      exact Or.inl (Option.some.inj hc).symm
    · rintro record (hsaved | hqueued)
      · exact absurd hsaved List.not_mem_nil
      · exact absurd hqueued List.not_mem_nil
    · exact (trust_idle [noRuns] (oneRun .payroll) (indexed_matches .payroll)).symm
  apply listings_scan (fun _ => true) (fun _ h => by cases h) (fun _ h => by cases h) hsteps _ (step_summary [noRuns] (oneRun .payroll) .payroll)
    ⟨_, rfl, rfl⟩
  intro call cached since hat hsummary
  obtain ⟨rfl, -⟩ := Prod.mk.inj (Option.some.inj hat)
  cases hsummary

/-- The index entry of a run that is saved again cannot be written, and no later listing tells: the ids are those of the files. -/
theorem summary_outdated : ∃ events s event s' call answer, Steps (RunsFolder.Step fun _ => true) events (.opened noRuns none) s ∧
    RunsFolder.Step (fun _ => true) event s s' ∧ event.Answers s call answer ∧ s.saves = [] ∧ s.queue = [] ∧ ¬call.FullScan s answer := by
  have hsteps : Steps (RunsFolder.Step fun _ => true)
      [.saveRun (runRecord .payroll), .saveFile 0, .saveDone 0, .runUpsert true, .saveRun (runRecord .grants), .saveFile 0, .saveDone 0,
        .runUpsert false, .list true allRuns, .listFiles 0 ["run"], .loadIndex 0]
      (.opened noRuns none) (summing [noRuns, oneRun .payroll] bothRuns (indexed .payroll)) :=
    ((steps_saveRun [] noRuns none (runRecord .payroll) true).append
      (steps_saveRun [noRuns] (oneRun .payroll) (some (indexed .payroll)) (runRecord .grants) false)).append
      (steps_summing [noRuns, oneRun .payroll] bothRuns_lists (indexed_matches .payroll))
  refine ⟨_, _, _, _, _, _, hsteps, step_summary [noRuns, oneRun .payroll] bothRuns .payroll, ⟨_, rfl, rfl⟩, rfl, rfl, ?_⟩
  rintro ⟨fileIds, contents, -, hreads, -, hperm, -⟩
  have hmem := hperm.mem_iff.mp (List.mem_singleton_self _)
  obtain ⟨record, hrecord, hsummary⟩ := List.mem_map.mp hmem
  obtain ⟨id, hid, hread⟩ := List.mem_filterMap.mp (List.mem_of_mem_filter hrecord)
  obtain ⟨files, ⟨j, hj, hat⟩, hcontent⟩ := hreads id hid
  -- since the listing began, the file is the second one
  have hlt := (List.getElem?_eq_some_iff.mp hat).1
  obtain rfl : j = 2 := Nat.le_antisymm (Nat.le_of_lt_succ hlt) hj
  obtain rfl := Option.some.inj hat
  have hfile : bothRuns.content id = some (some record) := hcontent.symm.trans (Option.join_eq_some_iff.mp hread)
  obtain rfl := List.mem_singleton.mp ((bothRuns_lists.2 id).mpr (by rw [hfile]; exact Option.some_ne_none _))
  rw [bothRuns, saved_content] at hfile
  obtain rfl := Option.some.inj (Option.some.inj hfile)
  have hcategory : RunCategory.grants = RunCategory.payroll := congrArg RunsIndexEntry.category hsummary
  cases hcategory

end Sdk

end ScatterDex
