import Mathlib.Data.List.Nodup
import ScatterDex.Sdk.ClaimInbox

/-!
# Calls on the inbox files

What one call does to the entries of the two files. No id is in them twice, so a call that marks or removes touches one entry.
-/

namespace ScatterDex

namespace Sdk

open Json Program Fallible

/-! ### What is stored -/

/-- The entries of a file that can be read. -/
def readable (setup : InboxSetup) (file : InboxFile) : List ClaimInboxEntry :=
  match parseInbox setup file with
  | .ok entries => entries
  | .error _ => []

/-- The entries of one file of the inbox. -/
def part (setup : InboxSetup) (files : InboxFiles) : InboxName → List ClaimInboxEntry
  | .app => if setup.namespaced then readable setup (files .app) else []
  | .legacy => readable setup (files .legacy)

def stored (setup : InboxSetup) (files : InboxFiles) : List ClaimInboxEntry := part setup files .app ++ part setup files .legacy

/-- Ids and claims are told apart, over both files. -/
structure Kept (setup : InboxSetup) (files : InboxFiles) : Prop where
  ids : ((stored setup files).map ClaimInboxEntry.id).Nodup
  claims : (stored setup files).Pairwise fun a b => sameClaim a.pkg b.pkg = false

theorem readable_eq {setup : InboxSetup} {file : InboxFile} {entries : List ClaimInboxEntry} (hfile : parseInbox setup file = .ok entries) :
    readable setup file = entries := by
  rw [readable, hfile]

theorem union_eq {appEntries legacyEntries : List ClaimInboxEntry} (hids : ((appEntries ++ legacyEntries).map ClaimInboxEntry.id).Nodup) :
    union appEntries legacyEntries = appEntries ++ legacyEntries := by
  rw [union]
  congr 1
  rw [List.filter_eq_self]
  intro e he
  rw [List.all_eq_true]
  intro a ha
  rw [List.map_append, List.nodup_append] at hids
  exact decide_eq_true (hids.2.2 _ (List.mem_map_of_mem ha) _ (List.mem_map_of_mem he))

theorem stored_of_inbox {setup : InboxSetup} {files : InboxFiles} {entries : List ClaimInboxEntry}
    (hids : ((stored setup files).map ClaimInboxEntry.id).Nodup) (hinbox : inbox setup files = .ok entries) : entries = stored setup files := by
  unfold inbox at hinbox
  unfold stored part at hids ⊢
  dsimp only at hids ⊢
  split at hinbox
  · next hnamespaced =>
    rw [if_pos hnamespaced] at hids ⊢
    obtain ⟨appEntries, happ, hrest⟩ := bind_eq_ok.mp hinbox
    obtain ⟨legacyEntries, hlegacy, hunion⟩ := bind_eq_ok.mp hrest
    rw [readable_eq happ, readable_eq hlegacy] at hids ⊢
    rw [← pure_eq_ok.mp hunion, union_eq hids]
  · next hplain =>
    rw [if_neg hplain, readable_eq hinbox, List.nil_append]

theorem sameClaim_symm {a b : Json JsonNumber} (hab : sameClaim a b = true) : sameClaim b a = true := by
  obtain ⟨hsome, heq⟩ := of_decide_eq_true hab
  exact decide_eq_true ⟨heq ▸ hsome, heq.symm⟩

theorem sameClaim_trans {a b c : Json JsonNumber} (hab : sameClaim a b = true) (hbc : sameClaim b c = true) : sameClaim a c = true := by
  obtain ⟨hsome, heq⟩ := of_decide_eq_true hab
  exact decide_eq_true ⟨hsome, heq.trans (of_decide_eq_true hbc).2⟩

theorem sameClaim_self {newURL : List CodeUnit → Option (String × String)} {pkg : Json JsonNumber} (hpkg : isClaimPackage newURL pkg = true) :
    sameClaim pkg pkg = true := by
  obtain ⟨-, -, -, hroot, -, -, -, -, -, -, -, hpath, -⟩ := of_decide_eq_true hpkg
  obtain ⟨root, hroot⟩ := exists_of_isString hroot
  obtain ⟨-, -, leafIndex, -, -, hleaf, -⟩ := exists_path_of_hasPath hpath
  have hname : claimName pkg = some (root, .integer leafIndex) := by rw [claimName, hroot, hleaf]
  exact decide_eq_true ⟨by rw [hname]; rfl, rfl⟩

/-! ### What one call does to the entries -/

/-- One entry, at one time and at a later one. -/
structure Later (e e' : ClaimInboxEntry) : Prop where
  id : e'.id = e.id
  pkg : e'.pkg = e.pkg
  claimed : e.status = .claimed → e'.status = .claimed

theorem Later.refl (e : ClaimInboxEntry) : Later e e := ⟨rfl, rfl, fun h => h⟩

theorem Later.trans {e e' e'' : ClaimInboxEntry} (h : Later e e') (h' : Later e' e'') : Later e e'' :=
  ⟨h'.id.trans h.id, h'.pkg.trans h.pkg, fun he => h'.claimed (h.claimed he)⟩

theorem later_claimEntry (txHash : Option String) (now : ℕ) (e : ClaimInboxEntry) : Later e (claimEntry txHash now e) := ⟨rfl, rfl, fun _ => rfl⟩

/-- The entries with the id are replaced by others. -/
def rewriteId (id : String) (h : ClaimInboxEntry → List ClaimInboxEntry) (entries : List ClaimInboxEntry) : List ClaimInboxEntry :=
  entries.flatMap fun e => if e.id = id then h e else [e]

theorem rewriteId_append (id : String) (h : ClaimInboxEntry → List ClaimInboxEntry) (es fs : List ClaimInboxEntry) :
    rewriteId id h (es ++ fs) = rewriteId id h es ++ rewriteId id h fs := List.flatMap_append

theorem rewriteId_of_absent {id : String} {h : ClaimInboxEntry → List ClaimInboxEntry} {entries : List ClaimInboxEntry}
    (habsent : ∀ e ∈ entries, e.id ≠ id) : rewriteId id h entries = entries := by
  induction entries with
  | nil => rfl
  | cons e entries ih =>
    obtain ⟨he, hentries⟩ := List.forall_mem_cons.mp habsent
    have hrest := ih hentries
    unfold rewriteId at hrest ⊢
    rw [List.flatMap_cons, if_neg he, hrest]
    rfl

theorem mem_rewriteId {id : String} {h : ClaimInboxEntry → List ClaimInboxEntry} {entries : List ClaimInboxEntry} {e' : ClaimInboxEntry} :
    e' ∈ rewriteId id h entries ↔ ∃ e ∈ entries, e.id ≠ id ∧ e' = e ∨ e.id = id ∧ e' ∈ h e := by
  unfold rewriteId
  rw [List.mem_flatMap]
  apply exists_congr
  intro e
  by_cases he : e.id = id
  · simp [he]
  · simp [he]

theorem map_eq_rewriteId (id : String) (g : ClaimInboxEntry → ClaimInboxEntry) (entries : List ClaimInboxEntry) :
    (entries.map fun e => if e.id = id then g e else e) = rewriteId id (fun e => [g e]) entries := by
  rw [rewriteId, List.map_eq_flatMap]
  congr 1
  funext e
  split <;> rfl

theorem filter_eq_rewriteId (id : String) (entries : List ClaimInboxEntry) :
    (entries.filter fun e => e.id ≠ id) = rewriteId id (fun _ => []) entries := by
  induction entries with
  | nil => rfl
  | cons e entries ih =>
    unfold rewriteId at ih ⊢
    rw [List.filter_cons, List.flatMap_cons, ih]
    by_cases he : e.id = id
    · simp [he]
    · simp [he]

/-- The file with the id, and its entries -/
def homeOf (setup : InboxSetup) (files : InboxFiles) (id : String) : Except String (Option (InboxName × List ClaimInboxEntry)) := do
  let appEntries ← (if setup.namespaced then parseInbox setup (files .app) else pure [])
  if appEntries.any fun e => e.id = id then return some (.app, appEntries)
  else do
    let legacy ← parseInbox setup (files .legacy)
    if legacy.any fun e => e.id = id then return some (.legacy, legacy) else return none

theorem exec_findInboxFileAndEntries (setup : InboxSetup) (id : String) (files : InboxFiles) :
    exec inboxHandle (findInboxFileAndEntries setup id) files = (homeOf setup files id, files) := by
  have hfirst : exec inboxHandle (if setup.namespaced then readInboxFile setup .app else pure []) files =
      (if setup.namespaced then parseInbox setup (files .app) else pure [], files) := by
    split
    · exact exec_readInboxFile setup .app files
    · rfl
  unfold findInboxFileAndEntries homeOf
  rw [exec_bind, hfirst]
  cases (if setup.namespaced then parseInbox setup (files .app) else pure []) with
  | error e => rfl
  | ok appEntries =>
    show exec inboxHandle (if (appEntries.any fun e => e.id = id) = true then _ else _) files =
      ((if (appEntries.any fun e => e.id = id) = true then _ else _ : Except String _), files)
    split
    · rfl
    · rw [exec_bind, exec_readInboxFile]
      cases parseInbox setup (files .legacy) with
      | error e => rfl
      | ok legacy =>
        show exec inboxHandle (if (legacy.any fun e => e.id = id) = true then _ else _) files =
          ((if (legacy.any fun e => e.id = id) = true then _ else _ : Except String _), files)
        split <;> rfl

theorem absent_of_any {entries : List ClaimInboxEntry} {id : String} (h : ¬(entries.any fun e => e.id = id) = true) : ∀ e ∈ entries, e.id ≠ id := by
  intro e he heq
  exact h (List.any_eq_true.mpr ⟨e, he, decide_eq_true heq⟩)

theorem homeOf_some {setup : InboxSetup} {files : InboxFiles} {id : String} {name : InboxName} {entries : List ClaimInboxEntry}
    (hids : ((stored setup files).map ClaimInboxEntry.id).Nodup) (hhome : homeOf setup files id = .ok (some (name, entries))) :
    parseInbox setup (files name) = .ok entries ∧ (name = .app → setup.namespaced = true) ∧
      ∀ other, other ≠ name → ∀ e ∈ part setup files other, e.id ≠ id := by
  obtain ⟨appEntries, happ, hrest⟩ := bind_eq_ok.mp hhome
  split at hrest
  · next hany =>
    obtain ⟨rfl, rfl⟩ := Prod.mk.inj (Option.some.inj (pure_eq_ok.mp hrest))
    split at happ
    · next hnamespaced =>
      refine ⟨happ, fun _ => hnamespaced, ?_⟩
      intro other hother e he heq
      obtain ⟨a, ha, hid⟩ := List.any_eq_true.mp hany
      have hlegacy : other = .legacy := by
        cases other with
        | app => exact absurd rfl hother
        | legacy => rfl
      rw [hlegacy] at he
      unfold stored at hids
      rw [List.map_append, List.nodup_append] at hids
      have ha' : a ∈ part setup files .app := by
        rw [part, if_pos hnamespaced, readable_eq happ]
        exact ha
      exact hids.2.2 _ (List.mem_map_of_mem ha') _ (List.mem_map_of_mem he) ((of_decide_eq_true hid).trans heq.symm)
    · rw [← pure_eq_ok.mp happ] at hany
      exact absurd hany (by simp)
  · next hnone =>
    obtain ⟨legacy, hlegacy, hrest⟩ := bind_eq_ok.mp hrest
    split at hrest
    · obtain ⟨rfl, rfl⟩ := Prod.mk.inj (Option.some.inj (pure_eq_ok.mp hrest))
      refine ⟨hlegacy, fun h => absurd h (by decide), ?_⟩
      intro other hother e he
      cases other with
      | legacy => exact absurd rfl hother
      | app =>
        rw [part] at he
        split at happ
        · next hnamespaced =>
          rw [if_pos hnamespaced, readable_eq happ] at he
          exact absent_of_any hnone e he
        · next hplain =>
          rw [if_neg hplain] at he
          exact absurd he List.not_mem_nil
    · exact absurd (pure_eq_ok.mp hrest) (by simp)

theorem homeOf_none {setup : InboxSetup} {files : InboxFiles} {id : String} (hhome : homeOf setup files id = .ok none) :
    ∀ e ∈ stored setup files, e.id ≠ id := by
  obtain ⟨appEntries, happ, hrest⟩ := bind_eq_ok.mp hhome
  split at hrest
  · exact absurd (pure_eq_ok.mp hrest) (by simp)
  · next hnone =>
    obtain ⟨legacy, hlegacy, hrest⟩ := bind_eq_ok.mp hrest
    split at hrest
    · exact absurd (pure_eq_ok.mp hrest) (by simp)
    · next hnone' =>
      intro e he
      rcases List.mem_append.mp he with he | he
      · rw [part] at he
        split at he
        · next hnamespaced =>
          rw [if_pos hnamespaced] at happ
          rw [readable_eq happ] at he
          exact absent_of_any hnone e he
        · exact absurd he List.not_mem_nil
      · rw [part, readable_eq hlegacy] at he
        exact absent_of_any hnone' e he

theorem part_update {setup : InboxSetup} {files : InboxFiles} {name : InboxName} {entries : List ClaimInboxEntry}
    (hread : parseInbox setup (.entries entries) = .ok entries) (hname : name = .app → setup.namespaced = true) :
    part setup (Function.update files name (.entries entries)) name = entries := by
  cases name with
  | app => rw [part, if_pos (hname rfl), Function.update_self, readable_eq hread]
  | legacy => rw [part, Function.update_self, readable_eq hread]

theorem part_update_of_ne {setup : InboxSetup} {files : InboxFiles} {name other : InboxName} {file : InboxFile} (hother : other ≠ name) :
    part setup (Function.update files name file) other = part setup files other := by
  cases other with
  | app => rw [part, part, Function.update_of_ne hother]
  | legacy => rw [part, part, Function.update_of_ne hother]

theorem part_of_parse {setup : InboxSetup} {files : InboxFiles} {name : InboxName} {entries : List ClaimInboxEntry}
    (hparse : parseInbox setup (files name) = .ok entries) (hname : name = .app → setup.namespaced = true) : part setup files name = entries := by
  cases name with
  | app => rw [part, if_pos (hname rfl), readable_eq hparse]
  | legacy => rw [part, readable_eq hparse]

/-! ### Calls -/

/-- The inbox can be read. -/
def Readable (setup : InboxSetup) (files : InboxFiles) : Prop := ∃ entries, inbox setup files = .ok entries

theorem readable_iff {setup : InboxSetup} {files : InboxFiles} :
    Readable setup files ↔ (setup.namespaced = true → ∃ entries, parseInbox setup (files .app) = .ok entries) ∧
      ∃ entries, parseInbox setup (files .legacy) = .ok entries := by
  unfold Readable inbox
  constructor
  · intro ⟨entries, hentries⟩
    split at hentries
    · obtain ⟨appEntries, happ, hrest⟩ := bind_eq_ok.mp hentries
      obtain ⟨legacyEntries, hlegacy, -⟩ := bind_eq_ok.mp hrest
      exact ⟨fun _ => ⟨appEntries, happ⟩, legacyEntries, hlegacy⟩
    · next hplain => exact ⟨fun h => absurd h hplain, entries, hentries⟩
  · intro ⟨happ, legacyEntries, hlegacy⟩
    split
    · next hnamespaced =>
      obtain ⟨appEntries, happ⟩ := happ hnamespaced
      exact ⟨_, bind_eq_ok.mpr ⟨appEntries, happ, bind_eq_ok.mpr ⟨legacyEntries, hlegacy, rfl⟩⟩⟩
    · exact ⟨legacyEntries, hlegacy⟩

theorem Readable.update {setup : InboxSetup} {files : InboxFiles} {name : InboxName} {entries : List ClaimInboxEntry} (hfiles : Readable setup files)
    (hread : parseInbox setup (.entries entries) = .ok entries) : Readable setup (Function.update files name (.entries entries)) := by
  obtain ⟨happ, hlegacy⟩ := readable_iff.mp hfiles
  have hname : ∀ other, (∃ es, parseInbox setup (files other) = .ok es) →
      ∃ es, parseInbox setup (Function.update files name (.entries entries) other) = .ok es := by
    intro other hother
    by_cases heq : other = name
    · rw [heq, Function.update_self]
      exact ⟨entries, hread⟩
    · rwa [Function.update_of_ne heq]
  exact readable_iff.mpr ⟨fun h => hname .app (happ h), hname .legacy hlegacy⟩

/-- What marking and removing have in common: the file with the id is rewritten. -/
def rewriteHome (setup : InboxSetup) (id : String) (f : List ClaimInboxEntry → List ClaimInboxEntry) : InboxProgram Unit := do
  match ← findInboxFileAndEntries setup id with
  | none => return ()
  | some (name, entries) => writeInboxFile name (f entries)

theorem exec_rewriteHome {setup : InboxSetup} {files files' : InboxFiles} {id : String} {f : List ClaimInboxEntry → List ClaimInboxEntry}
    {h : ClaimInboxEntry → List ClaimInboxEntry} {r : Except String Unit} (hids : ((stored setup files).map ClaimInboxEntry.id).Nodup)
    (hf : ∀ entries, f entries = rewriteId id h entries) (hvalid : ∀ e, ∀ e' ∈ h e, e'.pkg = e.pkg)
    (hexec : exec inboxHandle (rewriteHome setup id f) files = (r, files')) :
    (∃ e, r = .error e ∧ files' = files) ∨
      r = .ok () ∧ (∀ name, part setup files' name = rewriteId id h (part setup files name)) ∧ (Readable setup files → Readable setup files') := by
  unfold rewriteHome at hexec
  rw [exec_bind, exec_findInboxFileAndEntries] at hexec
  cases hhome : homeOf setup files id with
  | error e =>
    rw [hhome] at hexec
    obtain ⟨hr, hfiles⟩ := Prod.mk.inj hexec
    exact Or.inl ⟨e, hr.symm, hfiles.symm⟩
  | ok home =>
    rw [hhome] at hexec
    cases home with
    | none =>
      obtain ⟨hr, hfiles⟩ := Prod.mk.inj hexec
      rw [← hfiles]
      refine Or.inr ⟨hr.symm, fun name => (rewriteId_of_absent ?_).symm, fun h => h⟩
      intro e he
      apply homeOf_none hhome e
      cases name with
      | app => exact List.mem_append_left _ he
      | legacy => exact List.mem_append_right _ he
    | some found =>
      obtain ⟨name, entries⟩ := found
      obtain ⟨hr, hmemory⟩ := Prod.mk.inj hexec
      have hfiles : Function.update files name (.entries (f entries)) = files' := hmemory
      obtain ⟨hparse, hname, hother⟩ := homeOf_some hids hhome
      have hread : parseInbox setup (.entries (f entries)) = .ok (f entries) := by
        apply parseInbox_entries
        rw [List.all_eq_true, hf]
        intro e' he'
        obtain ⟨e, he, ⟨-, rfl⟩ | ⟨-, hmem⟩⟩ := mem_rewriteId.mp he'
        · exact List.all_eq_true.mp (isValidEntry_of_parseInbox hparse) _ he
        · rw [isValidEntry, hvalid e e' hmem]
          exact List.all_eq_true.mp (isValidEntry_of_parseInbox hparse) _ he
      rw [← hfiles]
      refine Or.inr ⟨hr.symm, ?_, fun hfiles => hfiles.update hread⟩
      intro other
      by_cases heq : other = name
      · rw [heq, part_update hread hname, part_of_parse hparse hname, hf]
      · rw [part_update_of_ne heq, rewriteId_of_absent (hother other heq)]

def newEntry (id : String) (now : ℕ) (rawInput : List CodeUnit) (pkg : Json JsonNumber) : ClaimInboxEntry :=
  ⟨id, now, rawInput, pkg, .available, none, none⟩

/-- All that a call can do, to the entries of an inbox in which no id is there twice. -/
inductive Effect (setup : InboxSetup) (files : InboxFiles) : InboxCall → Except String (Option (ClaimInboxEntry × Bool)) → InboxFiles → Prop
  | failed {c : InboxCall} (e : String) : Effect setup files c (.error e) files
  | existing {id : String} {now : ℕ} {rawInput : List CodeUnit} {pkg : Json JsonNumber} {e : ClaimInboxEntry} (he : e ∈ stored setup files)
      (hsame : sameClaim e.pkg pkg = true) (hfiles : Readable setup files) :
      Effect setup files (.add id now rawInput pkg) (.ok (some (e, false))) files
  | added {id : String} {now : ℕ} {rawInput : List CodeUnit} {pkg : Json JsonNumber} {files' : InboxFiles}
      (hnone : ∀ e ∈ stored setup files, sameClaim e.pkg pkg = false)
      (hparts : ∀ name, part setup files' name =
        part setup files name ++ if name = targetInbox setup then [newEntry id now rawInput pkg] else []) (hfiles' : Readable setup files') :
      Effect setup files (.add id now rawInput pkg) (.ok (some (newEntry id now rawInput pkg, true))) files'
  | marked {id : String} {txHash : Option String} {now : ℕ} {files' : InboxFiles}
      (hparts : ∀ name, part setup files' name = rewriteId id (fun e => [claimEntry txHash now e]) (part setup files name))
      (hfiles' : Readable setup files → Readable setup files') : Effect setup files (.markClaimed id txHash now) (.ok none) files'
  | removed {id : String} {files' : InboxFiles} (hparts : ∀ name, part setup files' name = rewriteId id (fun _ => []) (part setup files name))
      (hfiles' : Readable setup files → Readable setup files') : Effect setup files (.remove id) (.ok none) files'

theorem exec_returning_none {p : InboxProgram Unit} {files files' : InboxFiles} {r : Except String (Option (ClaimInboxEntry × Bool))}
    (hexec : exec inboxHandle (do p; return none : InboxProgram _) files = (r, files')) :
    ∃ r', exec inboxHandle p files = (r', files') ∧ r = r'.map fun _ => none := by
  rw [exec_bind] at hexec
  cases hp : exec inboxHandle p files with
  | mk r' m =>
    rw [hp] at hexec
    cases r' with
    | error e =>
      obtain ⟨rfl, rfl⟩ := Prod.mk.inj hexec
      exact ⟨_, rfl, rfl⟩
    | ok u =>
      obtain ⟨rfl, rfl⟩ := Prod.mk.inj hexec
      exact ⟨_, rfl, rfl⟩

theorem effect_of_exec {setup : InboxSetup} {files files' : InboxFiles} {c : InboxCall} {r : Except String (Option (ClaimInboxEntry × Bool))}
    (hids : ((stored setup files).map ClaimInboxEntry.id).Nodup)
    (hpkg : ∀ id now rawInput pkg, c = .add id now rawInput pkg → isClaimPackage setup.newURL pkg = true)
    (hexec : exec inboxHandle (inboxBody setup c) files = (r, files')) : Effect setup files c r files' := by
  cases c with
  | add id now rawInput pkg =>
    have hvalid := hpkg id now rawInput pkg rfl
    show Effect setup files (.add id now rawInput pkg) r files'
    unfold inboxBody at hexec
    rw [exec_bind] at hexec
    cases hinbox : inbox setup files with
    | error e =>
      rw [exec_add_error hinbox] at hexec
      obtain ⟨rfl, rfl⟩ := Prod.mk.inj hexec
      exact .failed e
    | ok entries =>
      have hentries := stored_of_inbox hids hinbox
      cases hfound : entries.find? fun e => sameClaim e.pkg pkg with
      | some existing =>
        rw [exec_add_existing hinbox hfound] at hexec
        obtain ⟨rfl, rfl⟩ := Prod.mk.inj hexec
        have hsame : sameClaim existing.pkg pkg = true := by
          have h := List.find?_some hfound
          exact h
        exact .existing (hentries ▸ List.mem_of_find?_eq_some hfound) hsame ⟨entries, hinbox⟩
      | none =>
        obtain ⟨targetEntries, htarget⟩ := exists_target_of_inbox hinbox
        rw [exec_add_new hinbox hfound htarget] at hexec
        obtain ⟨rfl, rfl⟩ := Prod.mk.inj hexec
        have hread := parseInbox_append (e := newEntry id now rawInput pkg) htarget hvalid
        have hname : targetInbox setup = .app → setup.namespaced = true := by
          unfold targetInbox
          split
          · next hnamespaced => exact fun _ => hnamespaced
          · exact fun h => absurd h (by decide)
        refine .added ?_ ?_ (Readable.update ⟨entries, hinbox⟩ hread)
        · intro e he
          rw [← hentries] at he
          exact Bool.eq_false_iff.mpr (List.find?_eq_none.mp hfound e he)
        · intro name
          by_cases heq : name = targetInbox setup
          · rw [if_pos heq, heq, part_of_parse htarget hname]
            exact part_update hread hname
          · rw [if_neg heq, List.append_nil]
            exact part_update_of_ne heq
  | markClaimed id txHash now =>
    obtain ⟨r', hrewrite, rfl⟩ := exec_returning_none hexec
    obtain ⟨e, rfl, rfl⟩ | ⟨rfl, hparts, hfiles'⟩ := exec_rewriteHome hids (fun entries => map_eq_rewriteId id (claimEntry txHash now) entries)
      (fun e e' he' => by rw [List.mem_singleton.mp he']; rfl) hrewrite
    · exact .failed e
    · exact .marked hparts hfiles'
  | remove id =>
    obtain ⟨r', hrewrite, rfl⟩ := exec_returning_none hexec
    obtain ⟨e, rfl, rfl⟩ | ⟨rfl, hparts, hfiles'⟩ := exec_rewriteHome hids (fun entries => filter_eq_rewriteId id entries)
      (fun e e' he' => absurd he' List.not_mem_nil) hrewrite
    · exact .failed e
    · exact .removed hparts hfiles'

def drawnId : InboxCall → Option String
  | .add id _ _ _ => some id
  | _ => none

theorem mem_stored {setup : InboxSetup} {files : InboxFiles} {e : ClaimInboxEntry} : e ∈ stored setup files ↔ ∃ name, e ∈ part setup files name := by
  rw [stored, List.mem_append]
  constructor
  · intro h
    exact h.elim (fun h => ⟨.app, h⟩) fun h => ⟨.legacy, h⟩
  · intro ⟨name, h⟩
    cases name with
    | app => exact Or.inl h
    | legacy => exact Or.inr h

variable {setup : InboxSetup} {files files' : InboxFiles} {c : InboxCall} {r : Except String (Option (ClaimInboxEntry × Bool))}

/-- Where an entry comes from -/
theorem Effect.before (h : Effect setup files c r files') {name : InboxName} {e' : ClaimInboxEntry} (he' : e' ∈ part setup files' name) :
    (∃ e ∈ part setup files name, Later e e') ∨ drawnId c = some e'.id ∧ name = targetInbox setup := by
  cases h with
  | failed => exact Or.inl ⟨e', he', .refl e'⟩
  | existing => exact Or.inl ⟨e', he', .refl e'⟩
  | added hnone hparts =>
    rw [hparts, List.mem_append] at he'
    rcases he' with hold | hnew
    · exact Or.inl ⟨e', hold, .refl e'⟩
    · split at hnew
      · next hname =>
        rw [List.mem_singleton.mp hnew]
        exact Or.inr ⟨rfl, hname⟩
      · exact absurd hnew List.not_mem_nil
  | marked hparts =>
    rw [hparts] at he'
    obtain ⟨e, he, ⟨-, rfl⟩ | ⟨-, hmem⟩⟩ := mem_rewriteId.mp he'
    · exact Or.inl ⟨_, he, .refl _⟩
    · rw [List.mem_singleton.mp hmem]
      exact Or.inl ⟨e, he, later_claimEntry _ _ e⟩
  | removed hparts =>
    rw [hparts] at he'
    obtain ⟨e, he, ⟨-, rfl⟩ | ⟨-, hmem⟩⟩ := mem_rewriteId.mp he'
    · exact Or.inl ⟨_, he, .refl _⟩
    · exact absurd hmem List.not_mem_nil

theorem Effect.after (h : Effect setup files c r files') {name : InboxName} {e : ClaimInboxEntry} (he : e ∈ part setup files name)
    (hkeep : c ≠ .remove e.id) : ∃ e' ∈ part setup files' name, Later e e' := by
  cases h with
  | failed => exact ⟨e, he, .refl e⟩
  | existing => exact ⟨e, he, .refl e⟩
  | added hnone hparts =>
    refine ⟨e, ?_, .refl e⟩
    rw [hparts]
    exact List.mem_append_left _ he
  | @marked id txHash now _ hparts =>
    by_cases hid : e.id = id
    · refine ⟨claimEntry txHash now e, ?_, later_claimEntry _ _ e⟩
      rw [hparts]
      exact mem_rewriteId.mpr ⟨e, he, Or.inr ⟨hid, List.mem_singleton_self _⟩⟩
    · refine ⟨e, ?_, .refl e⟩
      rw [hparts]
      exact mem_rewriteId.mpr ⟨e, he, Or.inl ⟨hid, rfl⟩⟩
  | @removed id _ hparts =>
    refine ⟨e, ?_, .refl e⟩
    rw [hparts]
    exact mem_rewriteId.mpr ⟨e, he, Or.inl ⟨fun hid => hkeep (by rw [hid]), rfl⟩⟩

theorem Effect.readable (h : Effect setup files c r files') (hfiles : Readable setup files) : Readable setup files' := by
  cases h with
  | failed => exact hfiles
  | existing _ _ _ => exact hfiles
  | added _ _ hfiles' => exact hfiles'
  | marked _ hfiles' => exact hfiles' hfiles
  | removed _ hfiles' => exact hfiles' hfiles

theorem rewriteId_sublist {id : String} {entries : List ClaimInboxEntry} : (rewriteId id (fun _ => []) entries).Sublist entries := by
  rw [← filter_eq_rewriteId]
  exact List.filter_sublist

theorem stored_rewriteId {id : String} {h : ClaimInboxEntry → List ClaimInboxEntry}
    (hparts : ∀ name, part setup files' name = rewriteId id h (part setup files name)) :
    stored setup files' = rewriteId id h (stored setup files) := by
  rw [stored, hparts, hparts, stored, rewriteId_append]

theorem Effect.kept (h : Effect setup files c r files') (hkept : Kept setup files)
    (hfresh : ∀ id, drawnId c = some id → id ∉ (stored setup files).map ClaimInboxEntry.id) : Kept setup files' := by
  cases h with
  | failed => exact hkept
  | existing => exact hkept
  | @added id now rawInput pkg _ hnone hparts =>
    have hperm : (stored setup files').Perm (newEntry id now rawInput pkg :: stored setup files) := by
      unfold stored
      rw [hparts, hparts]
      cases targetInbox setup with
      | app =>
        rw [if_pos rfl, if_neg (by decide), List.append_nil, List.append_assoc]
        exact List.perm_middle
      | legacy =>
        rw [if_neg (by decide), if_pos rfl, List.append_nil, ← List.append_assoc]
        exact List.perm_append_singleton _ _
    constructor
    · rw [(hperm.map ClaimInboxEntry.id).nodup_iff, List.map_cons, List.nodup_cons]
      exact ⟨hfresh id rfl, hkept.ids⟩
    · have hsymm : ∀ {a b : ClaimInboxEntry}, sameClaim a.pkg b.pkg = false → sameClaim b.pkg a.pkg = false := by
        intro a b hab
        rw [Bool.eq_false_iff] at hab ⊢
        exact fun hba => hab (sameClaim_symm hba)
      rw [hperm.pairwise_iff hsymm, List.pairwise_cons]
      exact ⟨fun e he => hsymm (hnone e he), hkept.claims⟩
  | @marked id txHash now _ hparts =>
    have hmap := stored_rewriteId hparts
    rw [← map_eq_rewriteId] at hmap
    constructor
    · rw [hmap, List.map_map]
      have hid : (ClaimInboxEntry.id ∘ fun e => if e.id = id then claimEntry txHash now e else e) = ClaimInboxEntry.id := by
        funext e
        show (if e.id = id then claimEntry txHash now e else e).id = e.id
        split <;> rfl
      rw [hid]
      exact hkept.ids
    · rw [hmap, List.pairwise_map]
      have hpkg : ∀ e : ClaimInboxEntry, (if e.id = id then claimEntry txHash now e else e).pkg = e.pkg := by
        intro e
        split <;> rfl
      simp only [hpkg]
      exact hkept.claims
  | removed hparts =>
    have hsub : (stored setup files').Sublist (stored setup files) := by
      rw [stored_rewriteId hparts]
      exact rewriteId_sublist
    exact ⟨hkept.ids.sublist (hsub.map _), hkept.claims.sublist hsub⟩

end Sdk

end ScatterDex
