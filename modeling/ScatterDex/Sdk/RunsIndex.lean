import ScatterDex.Library.Json
import ScatterDex.Library.Steps
import ScatterDex.Sdk.Text

/-!
# The run records of the SDK

`storage/runs.ts`: one file for each run, and an index file with a summary of each. A save or a delete changes the run's file first and the index after it, in a queue of its own; a listing trusts the index when its ids are those of the files, and scans all files otherwise.
-/

namespace ScatterDex

namespace Sdk

inductive RecipientStatus
  | claimed
  | available
  | locked
  deriving DecidableEq

inductive RunCategory
  | payroll
  | grants
  | bonus
  | contractor
  | other
  deriving DecidableEq

/-- A run record; `details` are the fields that the index leaves out. -/
structure RunRecord (δ : Type) where
  id : String
  label : String
  operatorAddress : String
  category : RunCategory
  createdAt : ℕ
  settledAt : ℕ
  chainId : ℕ
  tokenSymbol : String
  totalAmount : String
  settleGasPaid : Option String
  notes : Option String
  recipients : List RecipientStatus
  details : δ

/-- `notesPreview` is there when `hasNotes` is. -/
structure RunsIndexEntry where
  id : String
  label : String
  category : RunCategory
  chainId : ℕ
  operatorAddress : String
  createdAt : ℕ
  settledAt : ℕ
  totalAmount : String
  tokenSymbol : String
  totalRecipients : ℕ
  claimedRecipients : ℕ
  settleGasPaid : Option String
  notesPreview : Option (List CodeUnit)
  deriving DecidableEq

structure ListRunsFilter where
  chainId : Option ℕ
  category : Option RunCategory
  operatorAddress : Option String

def runNotesPreviewLimit : ℕ := 160

/-- `replace(/\s+/g, " ")` -/
def collapseWhitespace : List Char → List Char
  | [] => []
  | [c] => [if isWhitespace c then ' ' else c]
  | c :: d :: chars =>
    if isWhitespace c then
      if isWhitespace d then collapseWhitespace (d :: chars) else ' ' :: collapseWhitespace (d :: chars)
    else c :: collapseWhitespace (d :: chars)

variable {δ : Type}

def summariseRecord (record : RunRecord δ) : RunsIndexEntry :=
  let trimmedNotes := (record.notes.map trim).getD []
  { id := record.id
    label := record.label
    category := record.category
    chainId := record.chainId
    operatorAddress := record.operatorAddress
    createdAt := record.createdAt
    settledAt := record.settledAt
    totalAmount := record.totalAmount
    tokenSymbol := record.tokenSymbol
    totalRecipients := record.recipients.length
    claimedRecipients := record.recipients.count .claimed
    settleGasPaid := record.settleGasPaid
    notesPreview :=
      if trimmedNotes = [] then none
      else some (((collapseWhitespace trimmedNotes).flatMap Json.utf16).take runNotesPreviewLimit) }

def matchesFilter (e : RunsIndexEntry) (filter : ListRunsFilter) : Bool :=
  (filter.chainId.all fun chainId => e.chainId = chainId) && (filter.category.all fun category => e.category = category) &&
    filter.operatorAddress.all fun wanted => toLowerCase e.operatorAddress = toLowerCase wanted

/-- `isValidOperatorAddress`: empty, or `/^0x[0-9a-f]{40}$/`. -/
def isValidOperatorAddress (address : String) : Bool :=
  address = "" ∨ isAddress address.toList ∧ toLowerCase address = address.toList

/-- What a saved file reads back as, where `wellFormed` is what `isValidRecord` asks of the other fields. -/
def readBack (wellFormed : δ → Bool) (record : RunRecord δ) : Option (RunRecord δ) :=
  if isValidOperatorAddress record.operatorAddress ∧ wellFormed record.details then some record else none

/-- `saveRun` lowers the operator's address. -/
def RunRecord.normalised (record : RunRecord δ) : RunRecord δ :=
  { record with operatorAddress := String.ofList (toLowerCase record.operatorAddress) }

/-- The run files by their ids: no file, a file that does not parse, or a record, which is under its own id. -/
structure RunFiles (δ : Type) where
  content : String → Option (Option (RunRecord δ))
  named : ∀ id record, content id = some (some record) → record.id = id

/-- The index entries of `upsertRunsIndexEntry`: the first entry of the run is replaced, or one is added. -/
def upsertEntry (summary : RunsIndexEntry) : List RunsIndexEntry → List RunsIndexEntry
  | [] => [summary]
  | e :: existing => if e.id = summary.id then summary :: existing else e :: upsertEntry summary existing

def indexMatchesFiles (cached : List RunsIndexEntry) (fileIds : List String) : Bool :=
  cached.length = fileIds.length ∧ fileIds.dedup.length = cached.length ∧ ∀ entry ∈ cached, entry.id ∈ fileIds

/-- `sort((a, b) => b.createdAt - a.createdAt)` -/
def newestFirst {ρ : Type} (createdAt : ρ → ℕ) (list : List ρ) : List ρ :=
  list.mergeSort fun a b => createdAt b ≤ createdAt a

/-- What a listing comes back with. -/
inductive RunsAnswer (δ : Type)
  | runs (records : List (RunRecord δ))
  | summaries (entries : List RunsIndexEntry)

/-- A call of `listRuns`, or of `listRunsSummary`, with the moment it began. -/
structure RunsListing where
  summary : Bool
  filter : ListRunsFilter
  start : ℕ

namespace RunsListing

/-- The answer after a scan, from the records that parsed. -/
def fromScan (call : RunsListing) (parsed : List (RunRecord δ)) : RunsAnswer δ :=
  let index := newestFirst RunsIndexEntry.createdAt ((parsed.map summariseRecord).filter (matchesFilter · call.filter))
  if call.summary then .summaries index
  else .runs (index.filterMap fun e => parsed.reverse.find? fun record => record.id = e.id)

/-- The answer from the index, with the contents that were read for the runs it matches. -/
def fromIndex (call : RunsListing) (cached : List RunsIndexEntry) (contents : String → Option (Option (RunRecord δ))) : RunsAnswer δ :=
  let matching := cached.filter (matchesFilter · call.filter)
  if call.summary then .summaries (newestFirst RunsIndexEntry.createdAt matching)
  else .runs (newestFirst RunRecord.createdAt (matching.filterMap fun e => (contents e.id).join))

end RunsListing

/-- Where a listing is: before `listFiles`, before `loadRunsIndex`, or with a trusted index and the moment it was read. -/
inductive ListingPhase
  | begun
  | listed (fileIds : List String)
  | trusted (cached : List RunsIndexEntry) (since : ℕ)

/-- The tasks under the index lock. A rebuild has its own listing of the files, and its moment, once it runs. -/
inductive IndexTask (δ : Type)
  | upsert (record : RunRecord δ)
  | removeEntry (id : String)
  | rebuild (call : RunsListing) (scan : Option (List String × ℕ))

/-- A folder with its calls. `past` are the run files at the earlier moments; a call of `saveRun` or `deleteRun` has its file change done or not. -/
structure RunsFolder (δ : Type) where
  past : List (RunFiles δ)
  files : RunFiles δ
  index : Option (List RunsIndexEntry)
  queue : List (IndexTask δ)
  saves : List (RunRecord δ × Bool)
  deletes : List (String × Bool)
  listings : List (RunsListing × ListingPhase)

inductive RunsEvent (δ : Type)
  | saveRun (record : RunRecord δ)
  | saveFile (i : ℕ)
  | saveDone (i : ℕ)
  | deleteRun (id : String)
  | removeFile (i : ℕ)
  | removeDone (i : ℕ)
  | list (summary : Bool) (filter : ListRunsFilter)
  | listFiles (i : ℕ) (fileIds : List String)
  | loadIndex (i : ℕ)
  | answer (i : ℕ) (contents : String → Option (Option (RunRecord δ))) (result : RunsAnswer δ)
  | runUpsert (writes : Bool)
  | runRemove (writes : Bool)
  | beginRebuild (fileIds : List String)
  | endRebuild (contents : String → Option (Option (RunRecord δ))) (writes : Bool) (result : RunsAnswer δ)
  | restart

namespace RunFiles

def save (files : RunFiles δ) (wellFormed : δ → Bool) (record : RunRecord δ) : RunFiles δ where
  content := Function.update files.content record.id (some (readBack wellFormed record))
  named id other hother := by
    by_cases hid : id = record.id
    · subst hid
      rw [Function.update_self, readBack] at hother
      split at hother
      · rw [Option.some.inj (Option.some.inj hother)]
      · cases hother
    · rw [Function.update_of_ne hid] at hother
      exact files.named id other hother

def remove (files : RunFiles δ) (id : String) : RunFiles δ where
  content := Function.update files.content id none
  named other record hrecord := by
    by_cases hid : other = id
    · subst hid
      rw [Function.update_self] at hrecord
      cases hrecord
    · rw [Function.update_of_ne hid] at hrecord
      exact files.named other record hrecord

@[simp] theorem save_content (files : RunFiles δ) (wellFormed : δ → Bool) (record : RunRecord δ) :
    (files.save wellFormed record).content = Function.update files.content record.id (some (readBack wellFormed record)) := rfl

@[simp] theorem remove_content (files : RunFiles δ) (id : String) : (files.remove id).content = Function.update files.content id none := rfl

/-- The ids of all run files, in some order. -/
def Lists (files : RunFiles δ) (fileIds : List String) : Prop := fileIds.Nodup ∧ ∀ id, id ∈ fileIds ↔ files.content id ≠ none

end RunFiles

namespace RunsFolder

def opened (files : RunFiles δ) (index : Option (List RunsIndexEntry)) : RunsFolder δ := ⟨[], files, index, [], [], [], []⟩

/-- The run files at a moment. -/
def filesAt (s : RunsFolder δ) (moment : ℕ) : Option (RunFiles δ) := (s.past ++ [s.files])[moment]?

/-- The run files were so at a moment or later. -/
def Since (s : RunsFolder δ) (moment : ℕ) (files : RunFiles δ) : Prop := ∃ j ≥ moment, s.filesAt j = some files

/-- Each file of a list was read at a moment or later. -/
def Reads (s : RunsFolder δ) (moment : ℕ) (fileIds : List String) (contents : String → Option (Option (RunRecord δ))) : Prop :=
  ∀ id ∈ fileIds, ∃ files, s.Since moment files ∧ contents id = files.content id

/-- A new moment. -/
def moveOn (s : RunsFolder δ) (files : RunFiles δ) : RunsFolder δ := { s with past := s.past ++ [s.files], files := files }

/-- `listRuns` and `listRunsSummary` with the index they have read. -/
def trust (s : RunsFolder δ) (call : RunsListing) (fileIds : List String) (before after : List (RunsListing × ListingPhase)) : RunsFolder δ :=
  match s.index with
  | none => { s with listings := before ++ after, queue := s.queue ++ [.rebuild call none] }
  | some cached =>
    if indexMatchesFiles cached fileIds then { s with listings := before ++ (call, .trusted cached s.past.length) :: after }
    else { s with listings := before ++ after, queue := s.queue ++ [.rebuild call none] }

/-- What `rebuildRunsIndex` writes: no index file for no entries. -/
def rebuilt (parsed : List (RunRecord δ)) : Option (List RunsIndexEntry) :=
  if parsed = [] then none else some (parsed.map summariseRecord)

def Step (wellFormed : δ → Bool) : RunsEvent δ → RunsFolder δ → RunsFolder δ → Prop
  | .saveRun record, s, s' => s' = { s with saves := s.saves ++ [(record.normalised, false)] }
  | .saveFile i, s, s' => ∃ before record after, s.saves = before ++ (record, false) :: after ∧ before.length = i ∧
    s' = { s.moveOn (s.files.save wellFormed record) with saves := before ++ (record, true) :: after }
  | .saveDone i, s, s' => ∃ before record after, s.saves = before ++ (record, true) :: after ∧ before.length = i ∧
    s' = { s with saves := before ++ after, queue := s.queue ++ [.upsert record] }
  | .deleteRun id, s, s' => s' = { s with deletes := s.deletes ++ [(id, false)] }
  | .removeFile i, s, s' => ∃ before id after, s.deletes = before ++ (id, false) :: after ∧ before.length = i ∧
    s' = { s.moveOn (s.files.remove id) with deletes := before ++ (id, true) :: after }
  | .removeDone i, s, s' => ∃ before id after, s.deletes = before ++ (id, true) :: after ∧ before.length = i ∧
    s' = { s with deletes := before ++ after, queue := s.queue ++ [.removeEntry id] }
  | .list summary filter, s, s' => s' = { s with listings := s.listings ++ [(⟨summary, filter, s.past.length⟩, .begun)] }
  | .listFiles i fileIds, s, s' => ∃ before call after, s.listings = before ++ (call, .begun) :: after ∧ before.length = i ∧
    s.files.Lists fileIds ∧ s' = { s with listings := before ++ (call, .listed fileIds) :: after }
  | .loadIndex i, s, s' => ∃ before call fileIds after, s.listings = before ++ (call, .listed fileIds) :: after ∧ before.length = i ∧
    s' = s.trust call fileIds before after
  | .answer i contents result, s, s' => ∃ before call cached since after,
    s.listings = before ++ (call, .trusted cached since) :: after ∧ before.length = i ∧
    s.Reads since (cached.map RunsIndexEntry.id) contents ∧ result = call.fromIndex cached contents ∧
    s' = { s with listings := before ++ after }
  | .runUpsert writes, s, s' => ∃ record rest, s.queue = .upsert record :: rest ∧
    s' = { s with queue := rest, index :=
      if writes then some (upsertEntry (summariseRecord record) (s.index.getD [])) else s.index }
  | .runRemove writes, s, s' => ∃ id rest, s.queue = .removeEntry id :: rest ∧
    s' = { s with queue := rest, index := if writes then s.index.map fun existing => existing.filter fun e => e.id ≠ id else s.index }
  | .beginRebuild fileIds, s, s' => ∃ call rest, s.queue = .rebuild call none :: rest ∧ s.files.Lists fileIds ∧
    s' = { s with queue := .rebuild call (some (fileIds, s.past.length)) :: rest }
  | .endRebuild contents writes result, s, s' => ∃ call fileIds since rest, s.queue = .rebuild call (some (fileIds, since)) :: rest ∧
    s.Reads since fileIds contents ∧ result = call.fromScan (fileIds.filterMap fun id => (contents id).join) ∧
    s' = { s with queue := rest, index := if writes then rebuilt (fileIds.filterMap fun id => (contents id).join) else s.index }
  | .restart, s, s' => s' = { s with queue := [], saves := [], deletes := [], listings := [] }

end RunsFolder

end Sdk

end ScatterDex
