import Mathlib.Logic.Function.Basic
import ScatterDex.Library.Fallible
import ScatterDex.Library.Program
import ScatterDex.Sdk.ClaimLink

/-!
# The claim inbox

`storage/claimInbox.ts`: one file per app, and the shared file of the time before. A file that can be read holds its entries; every call that changes a file goes through the queue of the page.
-/

namespace ScatterDex

namespace Sdk

open Fallible Json Program

inductive ClaimInboxStatus
  | available
  | claimed
  deriving DecidableEq

structure ClaimInboxEntry where
  id : String
  addedAt : ℕ
  rawInput : List CodeUnit
  pkg : Json JsonNumber
  status : ClaimInboxStatus
  claimedAt : Option ℕ
  txHash : Option String

/-! ### Files -/

inductive InboxName
  | app
  | legacy
  deriving DecidableEq

/-- What `loadFile` finds. Malformed is a text that is no JSON, or none of the shape. -/
inductive InboxFile
  | absent
  | malformed
  | entries (entries : List ClaimInboxEntry)

abbrev InboxFiles := InboxName → InboxFile

inductive InboxOp
  | load (name : InboxName)
  | save (name : InboxName) (entries : List ClaimInboxEntry)

def InboxAnswer : InboxOp → Type
  | .load _ => InboxFile
  | .save _ _ => Unit

def inboxHandle : (o : InboxOp) → InboxFiles → InboxAnswer o × InboxFiles
  | .load name, files => (files name, files)
  | .save name entries, files => ((), Function.update files name (.entries entries))

abbrev InboxProgram := Program InboxOp InboxAnswer String

/-- What the page is set up with: the URL parser of the platform, and whether `setClaimInboxApp` named an app. -/
structure InboxSetup where
  newURL : List CodeUnit → Option (String × String)
  namespaced : Bool

def isValidEntry (setup : InboxSetup) (e : ClaimInboxEntry) : Bool := isClaimPackage setup.newURL e.pkg

/-- The entries of a file. -/
def parseInbox (setup : InboxSetup) : InboxFile → Except String (List ClaimInboxEntry)
  | .absent => .ok []
  | .malformed => .error "ClaimInboxCorruptError"
  | .entries entries => if entries.all (isValidEntry setup) then .ok entries else .error "ClaimInboxCorruptError"

def readInboxFile (setup : InboxSetup) (name : InboxName) : InboxProgram (List ClaimInboxEntry) := do
  let file : InboxFile ← call (InboxOp.load name)
  ofExcept (parseInbox setup file)

def writeInboxFile (name : InboxName) (entries : List ClaimInboxEntry) : InboxProgram Unit := do
  let _ ← call (InboxOp.save name entries)

/-- The entries of the app file and those of the shared file with other ids. -/
def union (appEntries legacyEntries : List ClaimInboxEntry) : List ClaimInboxEntry :=
  appEntries ++ legacyEntries.filter fun e => appEntries.all fun a => a.id ≠ e.id

def loadClaimInbox (setup : InboxSetup) : InboxProgram (List ClaimInboxEntry) :=
  if setup.namespaced then do
    let appEntries ← readInboxFile setup .app
    let legacyEntries ← readInboxFile setup .legacy
    return union appEntries legacyEntries
  else readInboxFile setup .legacy

def findInboxFileAndEntries (setup : InboxSetup) (id : String) : InboxProgram (Option (InboxName × List ClaimInboxEntry)) := do
  let appEntries ← (if setup.namespaced then readInboxFile setup .app else pure [])
  if appEntries.any fun e => e.id = id then return some (.app, appEntries)
  else do
    let legacy ← readInboxFile setup .legacy
    if legacy.any fun e => e.id = id then return some (.legacy, legacy) else return none

/-! ### Calls -/

/-- A call, with the id it draws and the time it sees. -/
inductive InboxCall
  | add (id : String) (now : ℕ) (rawInput : List CodeUnit) (pkg : Json JsonNumber)
  | markClaimed (id : String) (txHash : Option String) (now : ℕ)
  | remove (id : String)

/-- The claims root and the leaf index of a package -/
def claimName (pkg : Json JsonNumber) : Option (List CodeUnit × JsonNumber) :=
  match field pkg "claimsRoot", field pkg "leafIndex" with
  | some (.string claimsRoot), some (.number leafIndex) => some (claimsRoot, leafIndex)
  | _, _ => none

def sameClaim (a b : Json JsonNumber) : Bool := (claimName a).isSome ∧ claimName a = claimName b

/-- The file new entries go to. -/
def targetInbox (setup : InboxSetup) : InboxName := if setup.namespaced then .app else .legacy

def addClaimInboxEntry (setup : InboxSetup) (id : String) (now : ℕ) (rawInput : List CodeUnit) (pkg : Json JsonNumber) :
    InboxProgram (ClaimInboxEntry × Bool) := do
  let entries ← loadClaimInbox setup
  match entries.find? fun e => sameClaim e.pkg pkg with
  | some existing => return (existing, false)
  | none => do
    let entry := ⟨id, now, rawInput, pkg, .available, none, none⟩
    let targetEntries ← readInboxFile setup (targetInbox setup)
    writeInboxFile (targetInbox setup) (targetEntries ++ [entry])
    return (entry, true)

def claimEntry (txHash : Option String) (now : ℕ) (e : ClaimInboxEntry) : ClaimInboxEntry :=
  { e with status := .claimed, claimedAt := some now, txHash := if txHash.getD "" = "" then e.txHash else txHash }

def markClaimInboxEntryClaimed (setup : InboxSetup) (id : String) (txHash : Option String) (now : ℕ) : InboxProgram Unit := do
  match ← findInboxFileAndEntries setup id with
  | none => return ()
  | some (name, entries) => writeInboxFile name (entries.map fun e => if e.id = id then claimEntry txHash now e else e)

def removeClaimInboxEntry (setup : InboxSetup) (id : String) : InboxProgram Unit := do
  match ← findInboxFileAndEntries setup id with
  | none => return ()
  | some (name, entries) => writeInboxFile name (entries.filter fun e => e.id ≠ id)

/-- What a call does once it has the lock. -/
def inboxBody (setup : InboxSetup) : InboxCall → InboxProgram (Option (ClaimInboxEntry × Bool))
  | .add id now rawInput pkg => do return some (← addClaimInboxEntry setup id now rawInput pkg)
  | .markClaimed id txHash now => do
    markClaimInboxEntryClaimed setup id txHash now
    return none
  | .remove id => do
    removeClaimInboxEntry setup id
    return none

/-! ### What the calls do -/

theorem exec_readInboxFile (setup : InboxSetup) (name : InboxName) (files : InboxFiles) :
    exec inboxHandle (readInboxFile setup name) files = (parseInbox setup (files name), files) := by
  show exec inboxHandle (ofExcept (parseInbox setup (files name))) files = _
  cases parseInbox setup (files name) <;> rfl

/-- The inbox of the files. -/
def inbox (setup : InboxSetup) (files : InboxFiles) : Except String (List ClaimInboxEntry) :=
  if setup.namespaced then do
    let appEntries ← parseInbox setup (files .app)
    let legacyEntries ← parseInbox setup (files .legacy)
    return union appEntries legacyEntries
  else parseInbox setup (files .legacy)

theorem exec_loadClaimInbox (setup : InboxSetup) (files : InboxFiles) :
    exec inboxHandle (loadClaimInbox setup) files = (inbox setup files, files) := by
  unfold loadClaimInbox inbox
  split
  · rw [exec_bind, exec_readInboxFile]
    cases parseInbox setup (files .app) with
    | error e => rfl
    | ok appEntries =>
      dsimp only
      rw [exec_bind, exec_readInboxFile]
      cases parseInbox setup (files .legacy) <;> rfl
  · exact exec_readInboxFile setup .legacy files

theorem isValidEntry_of_parseInbox {setup : InboxSetup} {file : InboxFile} {entries : List ClaimInboxEntry}
    (hfile : parseInbox setup file = .ok entries) : entries.all (isValidEntry setup) = true := by
  cases file with
  | absent =>
    rw [← Except.ok.inj hfile]
    rfl
  | malformed => exact absurd hfile (by simp [parseInbox])
  | entries es =>
    rw [parseInbox] at hfile
    split at hfile
    · next hvalid =>
      rw [← Except.ok.inj hfile]
      exact hvalid
    · exact absurd hfile (by simp)

theorem parseInbox_entries {setup : InboxSetup} {entries : List ClaimInboxEntry} (hvalid : entries.all (isValidEntry setup) = true) :
    parseInbox setup (.entries entries) = .ok entries := by
  rw [parseInbox, if_pos hvalid]

theorem parseInbox_append {setup : InboxSetup} {file : InboxFile} {entries : List ClaimInboxEntry} {e : ClaimInboxEntry}
    (hfile : parseInbox setup file = .ok entries) (he : isValidEntry setup e = true) :
    parseInbox setup (.entries (entries ++ [e])) = .ok (entries ++ [e]) := by
  apply parseInbox_entries
  rw [List.all_append, isValidEntry_of_parseInbox hfile, List.all_cons, he]
  rfl

theorem exists_target_of_inbox {setup : InboxSetup} {files : InboxFiles} {entries : List ClaimInboxEntry} (hinbox : inbox setup files = .ok entries) :
    ∃ targetEntries, parseInbox setup (files (targetInbox setup)) = .ok targetEntries := by
  unfold inbox at hinbox
  unfold targetInbox
  split at hinbox
  · next hnamespaced =>
    rw [if_pos hnamespaced]
    obtain ⟨appEntries, happ, -⟩ := bind_eq_ok.mp hinbox
    exact ⟨appEntries, happ⟩
  · next hplain =>
    rw [if_neg hplain]
    exact ⟨entries, hinbox⟩

theorem exec_add_error {setup : InboxSetup} {files : InboxFiles} {e : String} (hinbox : inbox setup files = .error e)
    (id : String) (now : ℕ) (rawInput : List CodeUnit) (pkg : Json JsonNumber) :
    exec inboxHandle (addClaimInboxEntry setup id now rawInput pkg) files = (.error e, files) := by
  unfold addClaimInboxEntry
  rw [exec_bind, exec_loadClaimInbox, hinbox]

theorem exec_add_existing {setup : InboxSetup} {files : InboxFiles} {entries : List ClaimInboxEntry} {existing : ClaimInboxEntry}
    {pkg : Json JsonNumber} (hinbox : inbox setup files = .ok entries) (hfound : entries.find? (fun e => sameClaim e.pkg pkg) = some existing)
    (id : String) (now : ℕ) (rawInput : List CodeUnit) :
    exec inboxHandle (addClaimInboxEntry setup id now rawInput pkg) files = (.ok (existing, false), files) := by
  unfold addClaimInboxEntry
  rw [exec_bind, exec_loadClaimInbox, hinbox]
  dsimp only
  rw [hfound]
  rfl

theorem exec_add_new {setup : InboxSetup} {files : InboxFiles} {entries targetEntries : List ClaimInboxEntry}
    {pkg : Json JsonNumber} (hinbox : inbox setup files = .ok entries) (hfound : entries.find? (fun e => sameClaim e.pkg pkg) = none)
    (htarget : parseInbox setup (files (targetInbox setup)) = .ok targetEntries) (id : String) (now : ℕ) (rawInput : List CodeUnit) :
    exec inboxHandle (addClaimInboxEntry setup id now rawInput pkg) files =
      (.ok (⟨id, now, rawInput, pkg, .available, none, none⟩, true),
        Function.update files (targetInbox setup) (.entries (targetEntries ++ [⟨id, now, rawInput, pkg, .available, none, none⟩]))) := by
  unfold addClaimInboxEntry
  rw [exec_bind, exec_loadClaimInbox, hinbox]
  dsimp only
  rw [hfound]
  dsimp only
  rw [exec_bind, exec_readInboxFile, htarget]
  rfl

/-! ### Groups -/

structure ClaimInboxGroup where
  key : List CodeUnit
  label : Option (List CodeUnit)
  entries : List ClaimInboxEntry

/-- White space and line ends of ECMAScript. -/
def isSpaceUnit (u : CodeUnit) : Bool :=
  u.val ∈ [9, 10, 11, 12, 13, 32, 160, 5760, 8232, 8233, 8239, 8287, 12288, 65279] ∨ 8192 ≤ u.val ∧ u.val ≤ 8202

def trimUnits (s : List CodeUnit) : List CodeUnit := (s.dropWhile isSpaceUnit).rdropWhile isSpaceUnit

/-- `e.pkg.runLabel?.trim() || null` -/
def groupLabel (pkg : Json JsonNumber) : Except String (Option (List CodeUnit)) :=
  match field pkg "runLabel" with
  | none | some .null => .ok none
  | some (.string s) => .ok (if trimUnits s = [] then none else some (trimUnits s))
  | some _ => .error "e.pkg.runLabel?.trim is not a function"

def groupKey : Option (List CodeUnit) → List CodeUnit
  | none => units "untitled"
  | some label => units "t:" ++ label

/-- The entry goes to the group of its key, or opens it. -/
def pushEntry (groups : List ClaimInboxGroup) (label : Option (List CodeUnit)) (e : ClaimInboxEntry) : List ClaimInboxGroup :=
  if groups.any fun g => g.key = groupKey label then
    groups.map fun g => if g.key = groupKey label then { g with entries := g.entries ++ [e] } else g
  else groups ++ [⟨groupKey label, label, [e]⟩]

def groupClaimInbox (entries : List ClaimInboxEntry) : Except String (List ClaimInboxGroup) := do
  let all ← entries.foldlM (fun groups e => do return pushEntry groups (← groupLabel e.pkg) e) []
  return all.filter (fun g => g.label.isSome) ++ all.filter fun g => g.label.isNone

theorem exists_foldlM_pushEntry {entries : List ClaimInboxEntry} (groups : List ClaimInboxGroup) :
    (∃ groups', entries.foldlM (fun groups e => do return pushEntry groups (← groupLabel e.pkg) e) groups = .ok groups') ↔
      ∀ e ∈ entries, ∃ label, groupLabel e.pkg = .ok label := by
  induction entries generalizing groups with
  | nil => exact ⟨fun _ e he => absurd he List.not_mem_nil, fun _ => ⟨groups, rfl⟩⟩
  | cons e entries ih =>
    simp only [List.forall_mem_cons, List.foldlM_cons, bind_eq_ok, pure_eq_ok]
    constructor
    · intro h
      obtain ⟨groups', next, ⟨label, hlabel, -⟩, hrest⟩ := h
      exact ⟨⟨label, hlabel⟩, (ih next).mp ⟨groups', hrest⟩⟩
    · intro h
      obtain ⟨⟨label, hlabel⟩, hentries⟩ := h
      obtain ⟨groups', hgroups'⟩ := (ih (pushEntry groups label e)).mpr hentries
      exact ⟨groups', _, ⟨label, hlabel, rfl⟩, hgroups'⟩

/-- An inbox falls into groups when the label of every package can be trimmed. -/
theorem exists_groups {entries : List ClaimInboxEntry} :
    (∃ groups, groupClaimInbox entries = .ok groups) ↔ ∀ e ∈ entries, ∃ label, groupLabel e.pkg = .ok label := by
  rw [← exists_foldlM_pushEntry []]
  constructor
  · intro ⟨groups, hgroups⟩
    obtain ⟨all, hall, -⟩ := bind_eq_ok.mp hgroups
    exact ⟨all, hall⟩
  · intro ⟨all, hall⟩
    exact ⟨_, bind_eq_ok.mpr ⟨all, hall, rfl⟩⟩

end Sdk

end ScatterDex
