import Mathlib.Data.List.Pairwise
import ScatterDex.Sdk.InboxEffects

/-!
# One entry for one claim

Calls that add, mark and remove, in any interleaving on one page. What the inbox tells claims apart by is the claims root and the leaf index, as the packages spell them.
-/

namespace ScatterDex

namespace Protocol

open Sdk Json Program Fallible

variable {setup : InboxSetup} {files files' : InboxFiles} {c : InboxCall} {r : Except String (Option (ClaimInboxEntry × Bool))}

/-! ### Calls one after the other -/

/-- The calls draw ids that no other entry has, and add packages. -/
structure NewIds (setup : InboxSetup) (files : InboxFiles) (calls : List InboxCall) : Prop where
  distinct : (calls.filterMap drawnId).Nodup
  unused : ∀ id ∈ calls.filterMap drawnId, id ∉ (stored setup files).map ClaimInboxEntry.id
  packages : ∀ id now rawInput pkg, InboxCall.add id now rawInput pkg ∈ calls → isClaimPackage setup.newURL pkg = true

def filesAfter (setup : InboxSetup) (files : InboxFiles) (calls : List InboxCall) : InboxFiles :=
  Page.after inboxHandle (inboxBody setup) files calls

theorem effect_exec (hkept : Kept setup files) {calls : List InboxCall} (hnew : NewIds setup files (c :: calls)) :
    Effect setup files c (exec inboxHandle (inboxBody setup c) files).1 (filesAfter setup files [c]) :=
  effect_of_exec hkept.ids (fun id now rawInput pkg hc => hnew.packages id now rawInput pkg (hc ▸ List.mem_cons_self)) rfl

theorem kept_step (hkept : Kept setup files) {calls : List InboxCall} (hnew : NewIds setup files (c :: calls)) :
    Kept setup (filesAfter setup files [c]) ∧ NewIds setup (filesAfter setup files [c]) calls := by
  have heffect := effect_exec hkept hnew
  have hdrawn : ∀ id, drawnId c = some id → id ∉ (stored setup files).map ClaimInboxEntry.id ∧ id ∉ calls.filterMap drawnId := by
    intro id hid
    have hunused := hnew.unused
    have hdistinct := hnew.distinct
    rw [List.filterMap_cons_some hid] at hunused hdistinct
    exact ⟨hunused id List.mem_cons_self, (List.nodup_cons.mp hdistinct).1⟩
  have hlater : ∀ id ∈ calls.filterMap drawnId, id ∈ (c :: calls).filterMap drawnId := by
    intro id hid
    rw [List.mem_filterMap] at hid ⊢
    obtain ⟨d, hd, hid⟩ := hid
    exact ⟨d, List.mem_cons_of_mem _ hd, hid⟩
  refine ⟨heffect.kept hkept fun id hid => (hdrawn id hid).1, ?_, ?_, ?_⟩
  · exact hnew.distinct.sublist ((List.sublist_cons_self c calls).filterMap _)
  · intro id hid hmem
    obtain ⟨e', he', rfl⟩ := List.mem_map.mp hmem
    obtain ⟨name, he'⟩ := mem_stored.mp he'
    rcases heffect.before he' with ⟨e, he, hsame⟩ | ⟨hdraw, -⟩
    · exact hnew.unused _ (hlater _ hid) (hsame.id ▸ List.mem_map_of_mem (mem_stored.mpr ⟨name, he⟩))
    · exact (hdrawn _ hdraw).2 hid
  · exact fun id now rawInput pkg hmem => hnew.packages id now rawInput pkg (List.mem_cons_of_mem _ hmem)

theorem filesAfter_append (calls more : List InboxCall) :
    filesAfter setup files (calls ++ more) = filesAfter setup (filesAfter setup files calls) more := List.foldl_append

theorem kept_after {calls more : List InboxCall} (hkept : Kept setup files) (hnew : NewIds setup files (calls ++ more)) :
    Kept setup (filesAfter setup files calls) ∧ NewIds setup (filesAfter setup files calls) more := by
  induction calls generalizing files with
  | nil => exact ⟨hkept, hnew⟩
  | cons c calls ih =>
    obtain ⟨hkept', hnew'⟩ := kept_step hkept hnew
    exact ih hkept' hnew'

theorem readable_after {calls : List InboxCall} (hkept : Kept setup files) (hnew : NewIds setup files calls) (hfiles : Readable setup files) :
    Readable setup (filesAfter setup files calls) := by
  induction calls generalizing files with
  | nil => exact hfiles
  | cons c calls ih =>
    obtain ⟨hkept', hnew'⟩ := kept_step hkept hnew
    exact ih hkept' hnew' ((effect_exec hkept hnew).readable hfiles)

theorem stays {calls : List InboxCall} (hkept : Kept setup files) (hnew : NewIds setup files calls) {name : InboxName} {e : ClaimInboxEntry}
    (he : e ∈ part setup files name) (hkeep : .remove e.id ∉ calls) : ∃ e' ∈ part setup (filesAfter setup files calls) name, Later e e' := by
  induction calls generalizing files e with
  | nil => exact ⟨e, he, .refl e⟩
  | cons c calls ih =>
    obtain ⟨hkept', hnew'⟩ := kept_step hkept hnew
    obtain ⟨hc, hcalls⟩ := not_or.mp fun h => hkeep (List.mem_cons.mpr h)
    obtain ⟨e', he', hlater⟩ := (effect_exec hkept hnew).after he (Ne.symm hc)
    obtain ⟨e'', he'', hlater'⟩ := ih hkept' hnew' he' (hlater.id ▸ hcalls)
    exact ⟨e'', he'', hlater.trans hlater'⟩

/-- An entry of later files comes from an entry of the same file, or has an id that was drawn. -/
theorem origin {calls : List InboxCall} (hkept : Kept setup files) (hnew : NewIds setup files calls) {name : InboxName} {e' : ClaimInboxEntry}
    (he' : e' ∈ part setup (filesAfter setup files calls) name) :
    (∃ e ∈ part setup files name, Later e e') ∨ e'.id ∈ calls.filterMap drawnId ∧ name = targetInbox setup := by
  induction calls generalizing files with
  | nil => exact Or.inl ⟨e', he', .refl e'⟩
  | cons c calls ih =>
    obtain ⟨hkept', hnew'⟩ := kept_step hkept hnew
    rcases ih hkept' hnew' he' with ⟨e₁, he₁, hlater⟩ | ⟨hdrawn, hname⟩
    · rcases (effect_exec hkept hnew).before he₁ with ⟨e, he, hlater'⟩ | ⟨hid, hname⟩
      · exact Or.inl ⟨e, he, hlater'.trans hlater⟩
      · exact Or.inr ⟨List.mem_filterMap.mpr ⟨c, List.mem_cons_self, hid.trans (by rw [hlater.id])⟩, hname⟩
    · obtain ⟨d, hd, hid⟩ := List.mem_filterMap.mp hdrawn
      exact Or.inr ⟨List.mem_filterMap.mpr ⟨d, List.mem_cons_of_mem _ hd, hid⟩, hname⟩

theorem eq_of_id {e e' : ClaimInboxEntry} (hkept : Kept setup files) (he : e ∈ stored setup files) (he' : e' ∈ stored setup files)
    (hid : e'.id = e.id) : e' = e := List.inj_on_of_nodup_map hkept.ids he' he hid

theorem eq_of_sameClaim {e e' : ClaimInboxEntry} (hkept : Kept setup files) (he : e ∈ stored setup files) (he' : e' ∈ stored setup files)
    (hsame : sameClaim e'.pkg e.pkg = true) : e' = e := by
  by_contra hne
  let hsymm : Std.Symm fun a b : ClaimInboxEntry => sameClaim a.pkg b.pkg = false := by
    refine ⟨fun a b hab => ?_⟩
    rw [Bool.eq_false_iff] at hab ⊢
    exact fun hba => hab (sameClaim_symm hba)
  have hfalse := hkept.claims.forall he' he hne
  rw [hsame] at hfalse
  exact absurd hfalse (by decide)

/-- What has the id of an entry later is that entry. -/
theorem later_of_id {calls : List InboxCall} (hkept : Kept setup files) (hnew : NewIds setup files calls) {e e' : ClaimInboxEntry}
    (he : e ∈ stored setup files) (he' : e' ∈ stored setup (filesAfter setup files calls)) (hid : e'.id = e.id) : Later e e' := by
  obtain ⟨name, he'⟩ := mem_stored.mp he'
  rcases origin hkept hnew he' with ⟨e₀, he₀, hlater⟩ | ⟨hdrawn, -⟩
  · rw [← eq_of_id hkept he (mem_stored.mpr ⟨name, he₀⟩) (hlater.id.symm.trans hid)]
    exact hlater
  · exact absurd (List.mem_map_of_mem he) (hid ▸ hnew.unused _ hdrawn)

/-! ### What a call returns -/

theorem mem_of_add {id : String} {now : ℕ} {rawInput : List CodeUnit} {pkg : Json JsonNumber} {calls : List InboxCall} {e : ClaimInboxEntry} {b : Bool}
    (hkept : Kept setup files) (hnew : NewIds setup files (.add id now rawInput pkg :: calls))
    (hreturn : (exec inboxHandle (inboxBody setup (.add id now rawInput pkg)) files).1 = .ok (some (e, b))) :
    e ∈ stored setup (filesAfter setup files [.add id now rawInput pkg]) ∧ sameClaim e.pkg pkg = true ∧
      Readable setup (filesAfter setup files [.add id now rawInput pkg]) := by
  have heffect := effect_exec hkept hnew
  rw [hreturn] at heffect
  generalize filesAfter setup files [.add id now rawInput pkg] = files' at heffect ⊢
  cases heffect with
  | existing he hsame hfiles => exact ⟨he, hsame, hfiles⟩
  | added hnone hparts hfiles' =>
    refine ⟨mem_stored.mpr ⟨targetInbox setup, ?_⟩, sameClaim_self (hnew.packages _ _ _ _ List.mem_cons_self), hfiles'⟩
    rw [hparts, if_pos rfl]
    exact List.mem_append_right _ (List.mem_singleton_self _)

/-- Two packages with calls between them: what one entry means, and when there is one entry. -/
theorem entries_meet {id id' : String} {now now' : ℕ} {rawInput rawInput' : List CodeUnit} {pkg pkg' : Json JsonNumber} {mid : List InboxCall}
    {e e' : ClaimInboxEntry} {b b' : Bool} (hkept : Kept setup files)
    (hnew : NewIds setup files (.add id now rawInput pkg :: (mid ++ [.add id' now' rawInput' pkg'])))
    (hreturn : (exec inboxHandle (inboxBody setup (.add id now rawInput pkg)) files).1 = .ok (some (e, b)))
    (hreturn' : (exec inboxHandle (inboxBody setup (.add id' now' rawInput' pkg'))
      (filesAfter setup files (.add id now rawInput pkg :: mid))).1 = .ok (some (e', b'))) :
    (e'.id = e.id → sameClaim pkg pkg' = true) ∧ (sameClaim pkg pkg' = true → .remove e.id ∉ mid → e'.id = e.id) := by
  obtain ⟨he, hclaim, -⟩ := mem_of_add hkept hnew hreturn
  obtain ⟨hkept₁, hnew₁⟩ := kept_step hkept hnew
  obtain ⟨hkept₂, hnew₂⟩ := kept_after hkept₁ hnew₁
  obtain ⟨he', hclaim', -⟩ := mem_of_add hkept₂ hnew₂ hreturn'
  rw [← filesAfter_append] at he'
  constructor
  · intro hid
    have hlater := later_of_id hkept₁ hnew₁ he he' hid
    rw [hlater.pkg] at hclaim'
    exact sameClaim_trans (sameClaim_symm hclaim) hclaim'
  · intro hsame hkeep
    obtain ⟨name, he⟩ := mem_stored.mp he
    have hkeep' : .remove e.id ∉ mid ++ [.add id' now' rawInput' pkg'] := by
      rw [List.mem_append, List.mem_singleton]
      exact fun h => h.elim hkeep (by simp)
    obtain ⟨e'', he'', hlater⟩ := stays hkept₁ hnew₁ he hkeep'
    obtain ⟨hkept₃, -⟩ := kept_after hkept₁ (by rwa [List.append_nil] : NewIds setup _ (mid ++ [.add id' now' rawInput' pkg'] ++ []))
    have heq : e' = e'' := by
      apply eq_of_sameClaim hkept₃ (mem_stored.mpr ⟨name, he''⟩) he'
      rw [hlater.pkg]
      exact sameClaim_trans hclaim' (sameClaim_symm (sameClaim_trans hclaim hsame))
    rw [heq, hlater.id]

/-! ### What a load shows -/

/-- The app file as it was at one time, the shared file as it was at another. -/
def mixed (files files' : InboxFiles) : InboxFiles
  | .app => files .app
  | .legacy => files' .legacy

theorem readable_mixed (hfiles : Readable setup files) (hfiles' : Readable setup files') : Readable setup (mixed files files') :=
  readable_iff.mpr ⟨(readable_iff.mp hfiles).1, (readable_iff.mp hfiles').2⟩

/-- An entry that no call removed is in the inbox once, whichever of the two files was read first. -/
theorem shown_once {calls calls' : List InboxCall} {pkg : Json JsonNumber} {e : ClaimInboxEntry} (hkept : Kept setup files)
    (hfiles : Readable setup files) (hnew : NewIds setup files calls) (hnew' : NewIds setup files calls') (he : e ∈ stored setup files)
    (hclaim : sameClaim e.pkg pkg = true) (hkeep : .remove e.id ∉ calls) (hkeep' : .remove e.id ∉ calls') :
    ∃ entries, inbox setup (mixed (filesAfter setup files calls) (filesAfter setup files calls')) = .ok entries ∧
      (entries.map ClaimInboxEntry.id).Nodup ∧
      ∃ e' ∈ entries, e'.id = e.id ∧ sameClaim e'.pkg pkg = true ∧ ∀ e'' ∈ entries, sameClaim e''.pkg pkg = true → e'' = e' := by
  have hnil : ∀ {more : List InboxCall}, NewIds setup files more → NewIds setup files (more ++ []) := by
    intro more h
    rwa [List.append_nil]
  obtain ⟨hkept₁, -⟩ := kept_after hkept (hnil hnew)
  obtain ⟨hkept₂, -⟩ := kept_after hkept (hnil hnew')
  obtain ⟨entries, hinbox⟩ := readable_mixed (readable_after hkept hnew hfiles) (readable_after hkept hnew' hfiles)
  -- The ids of the app file and those of the shared file do not meet, whenever the two are read.
  have hdisjoint : ∀ a ∈ part setup (filesAfter setup files calls) .app, ∀ l ∈ part setup (filesAfter setup files calls') .legacy, a.id ≠ l.id := by
    intro a ha l hl heq
    have hnamespaced : targetInbox setup = .app := by
      rw [part] at ha
      split at ha
      · next h => rw [targetInbox, if_pos h]
      · exact absurd ha List.not_mem_nil
    rcases origin hkept hnew' hl with ⟨l₀, hl₀, hlater⟩ | ⟨-, hname⟩
    · rcases origin hkept hnew ha with ⟨a₀, ha₀, hlater'⟩ | ⟨hdrawn, -⟩
      · have hids := hkept.ids
        rw [stored, List.map_append, List.nodup_append] at hids
        exact hids.2.2 _ (List.mem_map_of_mem ha₀) _ (List.mem_map_of_mem hl₀) (hlater'.id.symm.trans (heq.trans hlater.id))
      · exact hnew.unused _ hdrawn (heq ▸ hlater.id ▸ List.mem_map_of_mem (mem_stored.mpr ⟨.legacy, hl₀⟩))
    · rw [hnamespaced] at hname
      exact absurd hname (by decide)
  have hstored : stored setup (mixed (filesAfter setup files calls) (filesAfter setup files calls')) =
      part setup (filesAfter setup files calls) .app ++ part setup (filesAfter setup files calls') .legacy := rfl
  have hids : ((stored setup (mixed (filesAfter setup files calls) (filesAfter setup files calls'))).map ClaimInboxEntry.id).Nodup := by
    rw [hstored, List.map_append, List.nodup_append]
    have happ := hkept₁.ids
    have hlegacy := hkept₂.ids
    rw [stored, List.map_append, List.nodup_append] at happ hlegacy
    refine ⟨happ.1, hlegacy.2.1, ?_⟩
    intro x hx y hy
    obtain ⟨a, ha, rfl⟩ := List.mem_map.mp hx
    obtain ⟨l, hl, rfl⟩ := List.mem_map.mp hy
    exact hdisjoint a ha l hl
  have hentries := stored_of_inbox hids hinbox
  obtain ⟨name, he⟩ := mem_stored.mp he
  obtain ⟨e₁, he₁, hlater₁⟩ := stays hkept hnew he hkeep
  obtain ⟨e₂, he₂, hlater₂⟩ := stays hkept hnew' he hkeep'
  have hshown : ∃ e' ∈ stored setup (mixed (filesAfter setup files calls) (filesAfter setup files calls')), Later e e' := by
    cases name with
    | app => exact ⟨e₁, List.mem_append_left _ he₁, hlater₁⟩
    | legacy => exact ⟨e₂, List.mem_append_right _ he₂, hlater₂⟩
  obtain ⟨e', he', hlater⟩ := hshown
  rw [hentries] at hinbox
  refine ⟨_, hinbox, hids, e', he', hlater.id, by rw [hlater.pkg]; exact hclaim, ?_⟩
  intro e'' he'' hsame
  have hid : e''.id = e.id := by
    rcases List.mem_append.mp he'' with h | h
    · have heq := eq_of_sameClaim hkept₁ (mem_stored.mpr ⟨name, he₁⟩) (mem_stored.mpr ⟨.app, h⟩)
        (by rw [hlater₁.pkg]; exact sameClaim_trans hsame (sameClaim_symm hclaim))
      rw [heq, hlater₁.id]
    · have heq := eq_of_sameClaim hkept₂ (mem_stored.mpr ⟨name, he₂⟩) (mem_stored.mpr ⟨.legacy, h⟩)
        (by rw [hlater₂.pkg]; exact sameClaim_trans hsame (sameClaim_symm hclaim))
      rw [heq, hlater₂.id]
  exact List.inj_on_of_nodup_map hids he'' he' (hid.trans hlater.id.symm)

/-! ### The page -/

theorem reads_readInboxFile (setup : InboxSetup) (name : InboxName) : Reads inboxHandle (readInboxFile setup name) := by
  apply Reads.await (fun _ => rfl)
  intro file
  show Reads inboxHandle (ofExcept (parseInbox setup file))
  cases parseInbox setup file with
  | ok entries => exact .done entries
  | error e => exact .fail e

theorem reads_loadClaimInbox (setup : InboxSetup) : Reads inboxHandle (loadClaimInbox setup) := by
  unfold loadClaimInbox
  split
  · exact (reads_readInboxFile setup .app).bind fun _ => (reads_readInboxFile setup .legacy).bind fun _ => .done _
  · exact reads_readInboxFile setup .legacy

theorem reads_findInboxFileAndEntries (setup : InboxSetup) (id : String) : Reads inboxHandle (findInboxFileAndEntries setup id) := by
  have hfirst : Reads inboxHandle (if setup.namespaced then readInboxFile setup .app else pure []) := by
    split
    · exact reads_readInboxFile setup .app
    · exact .done _
  apply hfirst.bind
  intro appEntries
  split
  · exact .done _
  · apply (reads_readInboxFile setup .legacy).bind
    intro legacy
    split
    · exact .done _
    · exact .done _

theorem writesLast_rewriteHome (setup : InboxSetup) (id : String) (f : List ClaimInboxEntry → List ClaimInboxEntry) :
    WritesLast inboxHandle (rewriteHome setup id f) := by
  apply (reads_findInboxFileAndEntries setup id).writesLast_bind
  intro found
  cases found with
  | none => exact .done _
  | some found => exact .write fun _ => ⟨_, rfl⟩

theorem writesLast_inboxBody (setup : InboxSetup) (c : InboxCall) : WritesLast inboxHandle (inboxBody setup c) := by
  cases c with
  | add id now rawInput pkg =>
    refine WritesLast.map (p := addClaimInboxEntry setup id now rawInput pkg) ?_ fun a => ⟨some a, rfl⟩
    apply (reads_loadClaimInbox setup).writesLast_bind
    intro entries
    cases entries.find? fun e => sameClaim e.pkg pkg with
    | some existing => exact .done _
    | none =>
      apply (reads_readInboxFile setup (targetInbox setup)).writesLast_bind
      intro targetEntries
      exact .write fun _ => ⟨_, rfl⟩
  | markClaimed id txHash now =>
    exact (writesLast_rewriteHome setup id fun entries => entries.map fun e => if e.id = id then claimEntry txHash now e else e).map fun _ => ⟨none, rfl⟩
  | remove id => exact (writesLast_rewriteHome setup id fun entries => entries.filter fun e => e.id ≠ id).map fun _ => ⟨none, rfl⟩

abbrev InboxPage := Page InboxCall InboxFiles InboxOp InboxAnswer String (Option (ClaimInboxEntry × Bool))

def inboxStep (setup : InboxSetup) : Page.Event InboxCall → InboxPage → InboxPage → Prop := Page.step inboxHandle (inboxBody setup)

/-- What is known of two times of one page. -/
structure InboxIdentity (setup : InboxSetup) (s t : InboxPage) : Prop where
  /-- Two packages that were added come to one entry only if they name one claim, and then always, unless that entry was removed in between. -/
  merged : ∀ i j id id' now now' rawInput rawInput' pkg pkg' e e' b b', i < j →
    t.started[i]? = some (.add id now rawInput pkg) → t.returned[i]? = some (.ok (some (e, b))) →
    t.started[j]? = some (.add id' now' rawInput' pkg') → t.returned[j]? = some (.ok (some (e', b'))) →
    (e'.id = e.id → sameClaim pkg pkg' = true) ∧ (sameClaim pkg pkg' = true → .remove e.id ∉ (t.started.take j).drop (i + 1) → e'.id = e.id)
  /-- What was added is in the inbox once, unless it was removed, also where the two files are read at different times. -/
  once : ∀ i id now rawInput pkg e b, s.started[i]? = some (.add id now rawInput pkg) → s.returned[i]? = some (.ok (some (e, b))) →
    .remove e.id ∉ t.started.drop (i + 1) → ∀ files ∈ [s.memory, t.memory, mixed s.memory t.memory, mixed t.memory s.memory],
      ∃ entries, inbox setup files = .ok entries ∧ (entries.map ClaimInboxEntry.id).Nodup ∧
        ∃ e' ∈ entries, e'.id = e.id ∧ sameClaim e'.pkg pkg = true ∧ ∀ e'' ∈ entries, sameClaim e''.pkg pkg = true → e'' = e'
  /-- A claimed entry stays claimed. -/
  claimed : ∀ entries entries', inbox setup s.memory = .ok entries → inbox setup t.memory = .ok entries' →
    ∀ e ∈ entries, e.status = .claimed → ∀ e' ∈ entries', e'.id = e.id → e'.status = .claimed

theorem NewIds.of_prefix {calls more : List InboxCall} (hnew : NewIds setup files more) (h : calls <+: more) : NewIds setup files calls := by
  obtain ⟨rest, rfl⟩ := h
  refine ⟨hnew.distinct.sublist ((List.sublist_append_left calls rest).filterMap _), ?_, ?_⟩
  · intro id hid
    apply hnew.unused
    rw [List.filterMap_append]
    exact List.mem_append_left _ hid
  · exact fun id now rawInput pkg hmem => hnew.packages id now rawInput pkg (List.mem_append_left _ hmem)

theorem mixed_self (files : InboxFiles) : mixed files files = files := by
  funext name
  cases name <;> rfl

theorem inboxIdentity_of_steps {events events' : List (Page.Event InboxCall)} {s t : InboxPage} (hkept : Kept setup files)
    (hrun : Steps (inboxStep setup) events (Page.fresh files) s) (hlater : Steps (inboxStep setup) events' s t) (hnew : NewIds setup files t.started) :
    InboxIdentity setup s t := by
  have hbody := writesLast_inboxBody setup
  have hrun' := hrun.append hlater
  obtain ⟨-, hcommitted, hstarted⟩ := Page.committed_prefix hbody (Page.serial_of_steps hbody hrun) hlater
  obtain ⟨hs, -⟩ := Page.serial hbody hrun
  obtain ⟨ht, -⟩ := Page.serial hbody hrun'
  have hnewT : NewIds setup files (Page.committed t) := hnew.of_prefix (Page.committed_prefix_started t)
  have hnewS : NewIds setup files (Page.committed s) := hnewT.of_prefix hcommitted
  refine ⟨?_, ?_, ?_⟩
  · intro i j id id' now now' rawInput rawInput' pkg pkg' e e' b b' hij hi hri hj hrj
    obtain ⟨c, -, hc, -, hexec⟩ := Page.exec_of_returned hbody hrun' hri
    obtain ⟨c', later', hc', hcommitted', hexec'⟩ := Page.exec_of_returned hbody hrun' hrj
    obtain rfl := Option.some.inj (hc.symm.trans hi)
    obtain rfl := Option.some.inj (hc'.symm.trans hj)
    -- The calls before the second one, cut at the first one
    have hcut : t.started.take j = t.started.take i ++ .add id now rawInput pkg :: (t.started.take j).drop (i + 1) := by
      have hget : (t.started.take j)[i]? = some (.add id now rawInput pkg) := by rw [List.getElem?_take_of_lt hij, hi]
      obtain ⟨hlt, hget⟩ := List.getElem?_eq_some_iff.mp hget
      have htake : (t.started.take j).take i = t.started.take i := by rw [List.take_take, Nat.min_eq_left (Nat.le_of_lt hij)]
      calc t.started.take j
        _ = (t.started.take j).take i ++ (t.started.take j).drop i := (List.take_append_drop i _).symm
        _ = t.started.take i ++ .add id now rawInput pkg :: (t.started.take j).drop (i + 1) := by rw [htake, ← List.getElem_cons_drop hlt, hget]
    have hall : NewIds setup files (t.started.take i ++ (.add id now rawInput pkg ::
        ((t.started.take j).drop (i + 1) ++ [.add id' now' rawInput' pkg']))) := by
      apply hnewT.of_prefix
      refine ⟨later', ?_⟩
      rw [hcommitted']
      conv_rhs => rw [hcut]
      simp only [List.append_assoc, List.cons_append, List.nil_append]
    obtain ⟨hkeptI, hnewI⟩ := kept_after hkept hall
    have hsecond : (exec inboxHandle (inboxBody setup (.add id' now' rawInput' pkg')) (filesAfter setup (filesAfter setup files (t.started.take i))
        (.add id now rawInput pkg :: (t.started.take j).drop (i + 1)))).1 = .ok (some (e', b')) := by
      rw [← filesAfter_append, ← hcut]
      exact hexec'
    exact entries_meet hkeptI hnewI hexec hsecond
  · intro i id now rawInput pkg e b hi hri hkeep loaded hloaded
    obtain ⟨c, later, hc, hcommittedS, hexec⟩ := Page.exec_of_returned hbody hrun hri
    obtain rfl := Option.some.inj (hc.symm.trans hi)
    obtain ⟨more, hmore⟩ := hcommitted
    have hcommittedT : Page.committed t = s.started.take i ++ .add id now rawInput pkg :: (later ++ more) := by
      rw [← hmore, hcommittedS, List.append_assoc, List.cons_append]
    rw [hcommittedS] at hnewS
    rw [hcommittedT] at hnewT
    obtain ⟨hkeptI, hnewI⟩ := kept_after hkept hnewS
    obtain ⟨-, hnewI'⟩ := kept_after hkept hnewT
    obtain ⟨hkept₁, hnew₁⟩ := kept_step hkeptI hnewI
    obtain ⟨-, hnew₁'⟩ := kept_step hkeptI hnewI'
    obtain ⟨he, hclaim, hreadable⟩ := mem_of_add hkeptI hnewI hexec
    have hkeepT : .remove e.id ∉ later ++ more := by
      obtain ⟨rest, hrest⟩ := Page.committed_prefix_started t
      have hlength : (s.started.take i).length = i := List.length_take_of_le (Nat.le_of_lt (List.getElem?_eq_some_iff.mp hi).1)
      have hdrop : t.started.drop (i + 1) = later ++ more ++ rest := by
        rw [← hrest, hcommittedT, List.append_assoc, List.cons_append, List.drop_append, hlength, Nat.add_sub_cancel_left,
          List.drop_eq_nil_of_le (by rw [hlength]; exact Nat.le_succ i)]
        rfl
      rw [hdrop] at hkeep
      exact fun h => hkeep (List.mem_append_left _ h)
    have hkeepS : .remove e.id ∉ later := fun h => hkeepT (List.mem_append_left _ h)
    have hmemoryS : s.memory = filesAfter setup (filesAfter setup (filesAfter setup files (s.started.take i)) [.add id now rawInput pkg]) later := by
      rw [hs, hcommittedS]
      exact filesAfter_append _ _
    have hmemoryT : t.memory =
        filesAfter setup (filesAfter setup (filesAfter setup files (s.started.take i)) [.add id now rawInput pkg]) (later ++ more) := by
      rw [ht, hcommittedT]
      exact filesAfter_append _ _
    simp only [List.mem_cons, List.not_mem_nil, or_false] at hloaded
    rcases hloaded with rfl | rfl | rfl | rfl
    · rw [← mixed_self s.memory, hmemoryS]
      exact shown_once hkept₁ hreadable hnew₁ hnew₁ he hclaim hkeepS hkeepS
    · rw [← mixed_self t.memory, hmemoryT]
      exact shown_once hkept₁ hreadable hnew₁' hnew₁' he hclaim hkeepT hkeepT
    · rw [hmemoryS, hmemoryT]
      exact shown_once hkept₁ hreadable hnew₁ hnew₁' he hclaim hkeepS hkeepT
    · rw [hmemoryS, hmemoryT]
      exact shown_once hkept₁ hreadable hnew₁' hnew₁ he hclaim hkeepT hkeepS
  · intro entries entries' hinbox hinbox' e he hclaimed e' he' hid
    obtain ⟨more, hmore⟩ := hcommitted
    rw [← hmore] at hnewT
    obtain ⟨hkeptS, hnewS'⟩ := kept_after hkept hnewT
    have hkeptT : Kept setup t.memory := by
      obtain ⟨hkept', -⟩ := kept_after hkeptS (by rwa [List.append_nil] : NewIds setup _ (more ++ []))
      rw [ht, ← hmore]
      rwa [← filesAfter_append] at hkept'
    have hmemory : t.memory = filesAfter setup s.memory more := by
      rw [ht, hs, ← hmore]
      exact filesAfter_append _ _
    have hkeptS' : Kept setup s.memory := by
      rw [hs]
      exact hkeptS
    rw [stored_of_inbox hkeptS'.ids hinbox] at he
    rw [stored_of_inbox hkeptT.ids hinbox', hmemory] at he'
    refine (later_of_id hkeptS' ?_ he he' hid).claimed hclaimed
    rw [hs]
    exact hnewS'

/-- Whatever calls a page makes, the inbox holds one entry for one claims root and leaf index, and a call that fails leaves both files as they were. -/
theorem inbox_identity {events events' : List (Page.Event InboxCall)} {s t : InboxPage} (hkept : Kept setup files)
    (hrun : Steps (inboxStep setup) events (Page.fresh files) s) (hlater : Steps (inboxStep setup) events' s t) (hnew : NewIds setup files t.started) :
    InboxIdentity setup s t ∧
      ∀ c before after e, exec inboxHandle (inboxBody setup c) before = (.error e, after) → after = before :=
  ⟨inboxIdentity_of_steps hkept hrun hlater hnew, fun c _ _ _ hexec => (writesLast_inboxBody setup c).memory_of_error hexec⟩

/-! ### One claims root on two chains -/

/-- A package for a chain -/
def packageOn (chainId : ℤ) : Json JsonNumber :=
  .object [(units "version", .number (.integer 1)), (units "chainId", .number (.integer chainId)),
    (units "settlementAddress", .string (units "0x" ++ List.replicate 40 (unit 0x30))), (units "claimsRoot", .string (units "0x" ++ List.replicate 64 (unit 0x31))),
    (units "recipient", .string (units "0x" ++ List.replicate 40 (unit 0x30))), (units "token", .string (units "0x" ++ List.replicate 40 (unit 0x30))),
    (units "tokenSymbol", .string (units "USDC")), (units "tokenDecimals", .number (.integer 6)), (units "amount", .string (units "1000000")),
    (units "releaseTime", .string (units "0")), (units "secret", .string (units "7")), (units "leafIndex", .number (.integer 3)),
    (units "pathElements", .array (List.replicate 4 (.string (units "0")))), (units "pathIndices", .array (List.replicate 4 (.number (.integer 0))))]

def plainInbox : InboxSetup := ⟨fun _ => none, false⟩

def twoChains : List InboxCall := [.add "a1" 0 [] (packageOn 1), .add "b2" 1 [] (packageOn 2)]

/-- Claims of two chains come to one entry, and the second package is not kept. -/
theorem twoChains_merge :
    (Page.results inboxHandle (inboxBody plainInbox) (fun _ => .absent) twoChains).map (fun r => r.map fun x => x.map fun y => (y.1.id, y.2)) =
        [.ok (some ("a1", true)), .ok (some ("a1", false))] ∧
      isClaimPackage plainInbox.newURL (packageOn 1) = true ∧ isClaimPackage plainInbox.newURL (packageOn 2) = true := by
  decide +kernel

theorem isClaimPackage_packageOn : ∀ chainId ∈ [1, 2], isClaimPackage plainInbox.newURL (packageOn chainId) = true := by decide +kernel

/-- A page before and after the second claim was added -/
theorem inbox_identity_added :
    ∃ s t : InboxPage, s.returned = [.ok (some (newEntry "a1" 0 [] (packageOn 1), true))] ∧
      t.returned = [.ok (some (newEntry "a1" 0 [] (packageOn 1), true)), .ok (some (newEntry "a1" 0 [] (packageOn 1), false))] ∧
      InboxIdentity plainInbox s t := by
  have hrun : ∃ s : InboxPage, Steps (inboxStep plainInbox)
      [.call (.add "a1" 0 [] (packageOn 1)), .start, .turn, .turn, .turn, .turn] (Page.fresh fun _ => .absent) s ∧
      s.returned = [.ok (some (newEntry "a1" 0 [] (packageOn 1), true))] ∧
      ∃ t : InboxPage, Steps (inboxStep plainInbox) [.call (.add "b2" 1 [] (packageOn 2)), .start, .turn, .turn] s t ∧
        t.returned = [.ok (some (newEntry "a1" 0 [] (packageOn 1), true)), .ok (some (newEntry "a1" 0 [] (packageOn 1), false))] ∧
        t.started = twoChains :=
    ⟨_, ⟨_, rfl, _, ⟨_, _, rfl, rfl, rfl⟩, _, ⟨_, rfl, rfl⟩, _, ⟨_, rfl, rfl⟩, _, ⟨_, rfl, rfl⟩, _, ⟨_, rfl, rfl⟩, rfl⟩, rfl,
      _, ⟨_, rfl, _, ⟨_, _, rfl, rfl, rfl⟩, _, ⟨_, rfl, rfl⟩, _, ⟨_, rfl, rfl⟩, rfl⟩, rfl, rfl⟩
  obtain ⟨s, hrun, hreturned, t, hlater, hreturned', hstarted⟩ := hrun
  have hkept : Kept plainInbox fun _ => .absent := ⟨List.nodup_nil, List.Pairwise.nil⟩
  have hnew : NewIds plainInbox (fun _ => .absent) t.started := by
    rw [hstarted]
    refine ⟨by decide, fun _ _ h => absurd h List.not_mem_nil, ?_⟩
    intro id now rawInput pkg hmem
    rcases List.mem_cons.mp hmem with hadd | hmem
    · rw [(InboxCall.add.inj hadd).2.2.2]
      exact isClaimPackage_packageOn 1 (by decide)
    · rw [(InboxCall.add.inj (List.mem_singleton.mp hmem)).2.2.2]
      exact isClaimPackage_packageOn 2 (by decide)
  exact ⟨s, t, hreturned, hreturned', (inbox_identity hkept hrun hlater hnew).1⟩

end Protocol

end ScatterDex
