import ScatterDex.Library.Steps
import ScatterDex.Relayer.OrderText
import ScatterDex.Sdk.FolderNotes

/-!
# Durable notes

A folder promises the latest version of each note that was put, and the absence of each note that was removed. An adapter knows only the files it saw itself, and two files of a note are told apart by what they hold; the promises are kept as long as no write takes the name of a file that is about to go or belongs to another note, every older file that stays is a version the new one wins against, and a removal reaches all files of its note.
-/

namespace ScatterDex

namespace Sdk

variable {δ : Type} {opts : FolderAdapterOpts}

/-! ### What a listing shows -/

theorem idForCommitment_inj {a b : ℕ} (heq : idForCommitment a = idForCommitment b) : a = b := by
  have hdigits := (List.cons.inj (List.cons.inj heq).2).2
  have hread := congrArg (readDigits 16) hdigits
  rw [Relayer.readDigits_toDigits (by decide) le_rfl, Relayer.readDigits_toDigits (by decide) le_rfl] at hread
  exact Option.some.inj hread

namespace FolderAdapterOpts

theorem newer_asymm {note prev : FolderNote δ} (hnewer : newer note prev = true) : newer prev note = false := by
  rw [newer, decide_eq_true_eq] at hnewer
  rw [newer, decide_eq_false_iff_not]
  omega

theorem keepNewer_spec (byCommitment : List (FolderNote δ)) (note : FolderNote δ)
    (hnodup : (byCommitment.map FolderNote.commitment).Nodup) :
    ((keepNewer byCommitment note).map FolderNote.commitment).Nodup ∧
      ∀ u ∈ keepNewer byCommitment note, u ∈ byCommitment ∨ u = note := by
  rw [keepNewer]
  split
  · next hfind =>
    rw [List.find?_eq_none] at hfind
    constructor
    · rw [List.map_append, List.nodup_append]
      refine ⟨hnodup, List.nodup_singleton _, ?_⟩
      intro a ha b hb
      obtain ⟨prev, hprev, rfl⟩ := List.mem_map.mp ha
      obtain rfl := List.mem_singleton.mp hb
      exact fun heq => hfind prev hprev (decide_eq_true heq)
    · intro u hu
      rcases List.mem_append.mp hu with hu | hu
      · exact Or.inl hu
      · exact Or.inr (List.mem_singleton.mp hu)
  · split
    · constructor
      · have hsame : (byCommitment.map fun n => if n.commitment = note.commitment then note else n).map
            FolderNote.commitment = byCommitment.map FolderNote.commitment := by
          rw [List.map_map]
          apply List.map_congr_left
          intro n _
          rw [Function.comp_apply]
          split
          · next heq => exact heq.symm
          · rfl
        rw [hsame]
        exact hnodup
      · intro u hu
        obtain ⟨n, hn, rfl⟩ := List.mem_map.mp hu
        split
        · exact Or.inr rfl
        · exact Or.inl hn
    · exact ⟨hnodup, fun u hu => Or.inl hu⟩

/-- A note that wins against all others of its commitment is kept, whether it was there or comes now. -/
theorem mem_keepNewer {byCommitment : List (FolderNote δ)} {note v : FolderNote δ}
    (hnodup : (byCommitment.map FolderNote.commitment).Nodup)
    (hwins : ∀ u, u ∈ byCommitment ∨ u = note → u.commitment = v.commitment → u = v ∨ newer v u = true)
    (hv : v ∈ byCommitment ∨ v = note) : v ∈ keepNewer byCommitment note := by
  rw [keepNewer]
  split
  · next hfind =>
    rw [List.find?_eq_none] at hfind
    rcases hv with hv | rfl
    · exact List.mem_append_left _ hv
    · exact List.mem_append_right _ (List.mem_singleton_self _)
  · next prev hfind =>
    have hcommitment : prev.commitment = note.commitment := by simpa using List.find?_some hfind
    have hprev := List.mem_of_find?_eq_some hfind
    split
    · next hnewer =>
      by_cases hsame : v.commitment = note.commitment
      · -- the note that comes wins against `prev`, so `prev` is not `v`
        have hnote : note = v := by
          rcases hwins note (Or.inr rfl) hsame.symm with heq | hbeaten
          · exact heq
          · rcases hv with hv | rfl
            · have hsamePrev : prev = v :=
                List.inj_on_of_nodup_map hnodup hprev hv (hcommitment.trans hsame.symm)
              rw [hsamePrev, newer_asymm hbeaten] at hnewer
              exact absurd hnewer Bool.false_ne_true
            · rfl
        rw [← hnote]
        exact List.mem_map.mpr ⟨prev, hprev, if_pos hcommitment⟩
      · rcases hv with hv | rfl
        · exact List.mem_map.mpr ⟨v, hv, if_neg hsame⟩
        · exact absurd rfl hsame
    · next hnewer =>
      rcases hv with hv | rfl
      · exact hv
      · rcases hwins prev (Or.inl hprev) hcommitment with heq | hbeaten
        · rwa [← heq]
        · exact absurd hbeaten hnewer

theorem foldl_keepNewer {notes byCommitment : List (FolderNote δ)} {v : FolderNote δ}
    (hnodup : (byCommitment.map FolderNote.commitment).Nodup)
    (hwins : ∀ u, u ∈ byCommitment ∨ u ∈ notes → u.commitment = v.commitment → u = v ∨ newer v u = true)
    (hv : v ∈ byCommitment ∨ v ∈ notes) :
    v ∈ notes.foldl keepNewer byCommitment ∧ ∀ u ∈ notes.foldl keepNewer byCommitment, u.commitment = v.commitment → u = v := by
  induction notes generalizing byCommitment with
  | nil =>
    rcases hv with hv | hv
    · exact ⟨hv, fun u hu heq => List.inj_on_of_nodup_map hnodup hu hv heq⟩
    · exact absurd hv List.not_mem_nil
  | cons note notes ih =>
    obtain ⟨hnodup', hsub⟩ := keepNewer_spec byCommitment note hnodup
    rw [List.foldl_cons]
    apply ih hnodup'
    · intro u hu
      apply hwins
      rcases hu with hu | hu
      · exact (hsub u hu).imp_right fun heq => by rw [heq]; exact List.mem_cons_self
      · exact Or.inr (List.mem_cons_of_mem _ hu)
    · have hmem : v ∈ byCommitment ∨ v = note → v ∈ keepNewer byCommitment note := by
        apply mem_keepNewer hnodup
        intro u hu
        exact hwins u (hu.imp_right fun heq => by rw [heq]; exact List.mem_cons_self)
      rcases hv with hv | hv
      · exact Or.inl (hmem (Or.inl hv))
      · rcases List.mem_cons.mp hv with rfl | hv
        · exact Or.inl (hmem (Or.inr rfl))
        · exact Or.inr hv

theorem mem_foldl_keepNewer {notes byCommitment : List (FolderNote δ)} {u : FolderNote δ}
    (hnodup : (byCommitment.map FolderNote.commitment).Nodup) (hu : u ∈ notes.foldl keepNewer byCommitment) :
    u ∈ byCommitment ∨ u ∈ notes := by
  induction notes generalizing byCommitment with
  | nil => exact Or.inl hu
  | cons note notes ih =>
    obtain ⟨hnodup', hsub⟩ := keepNewer_spec byCommitment note hnodup
    rcases ih hnodup' hu with hkept | hlater
    · exact (hsub u hkept).imp_right fun heq => by rw [heq]; exact List.mem_cons_self
    · exact Or.inr (List.mem_cons_of_mem _ hlater)

theorem readNote_eq_some {files : Folder δ} {name : FileName} {u : FolderNote δ} :
    opts.readNote files name = some u ↔ files name = some (some u) ∧ opts.inScope u = true := by
  rw [readNote, Option.filter_eq_some_iff, Option.join_eq_some_iff]

theorem holds_iff {files : Folder δ} {id : List Char} {name : FileName} :
    opts.holds files id name = true ↔ ∃ u, opts.readNote files name = some u ∧ u.id = id := by
  rw [holds, Option.any_eq_true]
  simp only [decide_eq_true_eq]

end FolderAdapterOpts

theorem isNoteFile_noteFilename (leafIndex : ℤ) (now : ℕ) (id : List Char) :
    isNoteFile (noteFilename leafIndex now id) = true := by
  rw [isNoteFile, noteFilename, Bool.and_eq_true, List.isPrefixOf_iff_prefix, List.isSuffixOf_iff_suffix]
  exact ⟨List.prefix_append_of_prefix (List.prefix_append _ _), List.suffix_append _ _⟩

/-! ### The folder's promises -/

/-- What is promised of an id: nothing, the latest version put, or that it is gone. -/
inductive Promise (δ : Type)
  | nothing
  | latest (note : FolderNote δ)
  | removed

/-- The listing of a folder in some order. -/
def Lists (files : Folder δ) (order : List FileName) : Prop :=
  order.Nodup ∧ ∀ name, name ∈ order ↔ isNoteFile name = true ∧ (files name).isSome = true

/-- A promise is met: some file holds the version, and every `loadAll` returns it, or nothing under the id. -/
def Promise.Met (opts : FolderAdapterOpts) (files : Folder δ) (id : List Char) : Promise δ → Prop
  | .nothing => True
  | .latest v => (∃ name, isNoteFile name = true ∧ files name = some (some v)) ∧
    ∀ order, Lists files order →
      v ∈ opts.loadedNotes files order ∧ ∀ u ∈ opts.loadedNotes files order, u.id = id → u = v
  | .removed => ∀ order, Lists files order → ∀ u ∈ opts.loadedNotes files order, u.id ≠ id

structure DurableWorld (δ : Type) where
  state : FolderState δ
  promise : List Char → Promise δ

/-- Adapters that have seen nothing, over any folder. -/
def DurableWorld.fresh (files : Folder δ) : DurableWorld δ := ⟨⟨files, fun _ _ => none⟩, fun _ => .nothing⟩

/-- A call on one of the adapters. -/
inductive FolderCall (δ : Type)
  | put (adapter : ℕ) (note : FolderNote δ) (now : ℕ) (fails : FileName → Bool)
  | loadAll (adapter : ℕ) (order : List FileName)
  | remove (adapter : ℕ) (id : List Char) (fails : FileName → Bool)

/-- A call and what it promises. A removal that throws takes back what was promised. -/
def FolderCall.Step (opts : FolderAdapterOpts) : FolderCall δ → DurableWorld δ → DurableWorld δ → Prop
  | .put adapter note now fails, w, w' =>
    w' = ⟨opts.put adapter note now fails w.state, Function.update w.promise note.id (.latest (opts.stamped note))⟩
  | .loadAll adapter order, w, w' =>
    Lists w.state.files order ∧ w' = ⟨(opts.loadAll adapter order w.state).1, w.promise⟩
  | .remove adapter id fails, w, w' =>
    ((opts.remove adapter id fails w.state).2 ∧
        w' = ⟨(opts.remove adapter id fails w.state).1, Function.update w.promise id .removed⟩) ∨
      (¬(opts.remove adapter id fails w.state).2 ∧
        w' = ⟨(opts.remove adapter id fails w.state).1, Function.update w.promise id .nothing⟩)

/-- A file that shows a note of another id. -/
def ShowsOther (opts : FolderAdapterOpts) (files : Folder δ) (id : List Char) (name : FileName) : Prop :=
  ∃ u, opts.readNote files name = some u ∧ u.id ≠ id

/-- A `put` the folder survives. The note belongs to the adapter; its file name is not one the adapter is about to remove, nor that of another note; what the adapter removes is not another note's; and the version wins against every older file of the note that stays. -/
structure PutSafe (opts : FolderAdapterOpts) (s : FolderState δ) (adapter : ℕ) (note : FolderNote δ) (now : ℕ)
    (fails : FileName → Bool) : Prop where
  inScope : opts.inScope (opts.stamped note) = true
  unlisted : noteFilename note.leafIndex now note.id ∈ (s.filenamesById adapter note.id).getD [] →
    fails (noteFilename note.leafIndex now note.id) = true
  free : ¬ShowsOther opts s.files note.id (noteFilename note.leafIndex now note.id)
  own : ∀ name ∈ (s.filenamesById adapter note.id).getD [], fails name = false → ¬ShowsOther opts s.files note.id name
  wins : ∀ name u, isNoteFile name = true → opts.readNote s.files name = some u → u.id = note.id →
    name ≠ noteFilename note.leafIndex now note.id →
    (name ∈ (s.filenamesById adapter note.id).getD [] → fails name = true) →
    u = opts.stamped note ∨ FolderAdapterOpts.newer (opts.stamped note) u = true

/-- A `remove` the folder survives: an adapter that remembers files of the note removes all of them, and no file of another note. -/
structure RemoveSafe (opts : FolderAdapterOpts) (s : FolderState δ) (adapter : ℕ) (id : List Char)
    (fails : FileName → Bool) : Prop where
  own : ∀ cached, s.filenamesById adapter id = some cached → ∀ name ∈ cached, fails name = false →
    ¬ShowsOther opts s.files id name
  reaches : ∀ cached, s.filenamesById adapter id = some cached → ∀ name u, isNoteFile name = true →
    opts.readNote s.files name = some u → u.id = id → name ∈ cached ∧ fails name = false

def FolderCall.Safe (opts : FolderAdapterOpts) (s : FolderState δ) : FolderCall δ → Prop
  | .put adapter note now fails => PutSafe opts s adapter note now fails
  | .loadAll _ _ => True
  | .remove adapter id fails => RemoveSafe opts s adapter id fails

/-! ### What the folder keeps -/

/-- A promise is kept by the files alone: a file holds the version, and it wins against all others of its id. -/
def Promise.Kept (opts : FolderAdapterOpts) (files : Folder δ) (id : List Char) : Promise δ → Prop
  | .nothing => True
  | .latest v => v.id = id ∧ opts.inScope v = true ∧ (∃ name, isNoteFile name = true ∧ files name = some (some v)) ∧
    ∀ name u, isNoteFile name = true → opts.readNote files name = some u → u.id = id →
      u = v ∨ FolderAdapterOpts.newer v u = true
  | .removed => ∀ name u, isNoteFile name = true → opts.readNote files name = some u → u.id ≠ id

theorem mem_loadedNotes {files : Folder δ} {order : List FileName} (hlists : Lists files order) {u : FolderNote δ}
    (hu : u ∈ opts.loadedNotes files order) : ∃ name, isNoteFile name = true ∧ opts.readNote files name = some u := by
  rw [FolderAdapterOpts.loadedNotes, List.mem_mergeSort] at hu
  have hsource := FolderAdapterOpts.mem_foldl_keepNewer (by rw [List.map_nil]; exact List.nodup_nil) hu
  rcases hsource with hnone | hread
  · exact absurd hnone List.not_mem_nil
  · obtain ⟨name, hname, hread⟩ := List.mem_filterMap.mp hread
    exact ⟨name, ((hlists.2 name).mp hname).1, hread⟩

theorem Promise.Kept.met {files : Folder δ} {id : List Char} {promise : Promise δ} (hkept : promise.Kept opts files id) :
    promise.Met opts files id := by
  cases promise with
  | nothing => trivial
  | latest v =>
    obtain ⟨hid, hscope, ⟨name, hname, hfile⟩, hwins⟩ := hkept
    refine ⟨⟨name, hname, hfile⟩, ?_⟩
    intro order hlists
    have hmem : v ∈ order.filterMap (opts.readNote files) :=
      List.mem_filterMap.mpr ⟨name, (hlists.2 name).mpr ⟨hname, by rw [hfile]; rfl⟩,
        FolderAdapterOpts.readNote_eq_some.mpr ⟨hfile, hscope⟩⟩
    obtain ⟨hkeeps, hunique⟩ : v ∈ (order.filterMap (opts.readNote files)).foldl FolderAdapterOpts.keepNewer [] ∧
        ∀ u ∈ (order.filterMap (opts.readNote files)).foldl FolderAdapterOpts.keepNewer [],
          u.commitment = v.commitment → u = v := by
      apply FolderAdapterOpts.foldl_keepNewer (by rw [List.map_nil]; exact List.nodup_nil) _ (Or.inr hmem)
      intro u hu hcommitment
      rcases hu with hu | hu
      · exact absurd hu List.not_mem_nil
      · obtain ⟨name', hname', hread⟩ := List.mem_filterMap.mp hu
        apply hwins name' u ((hlists.2 name').mp hname').1 hread
        rw [← hid, FolderNote.id, FolderNote.id, hcommitment]
    rw [FolderAdapterOpts.loadedNotes]
    refine ⟨List.mem_mergeSort.mpr hkeeps, ?_⟩
    intro u hu hsame
    exact hunique u (List.mem_mergeSort.mp hu) (idForCommitment_inj (hsame.trans hid.symm))
  | removed =>
    intro order hlists u hu
    obtain ⟨name, hname, hread⟩ := mem_loadedNotes hlists hu
    exact hkept name u hname hread

theorem Promise.Kept.of_files {files files' : Folder δ} {id : List Char} {promise : Promise δ} (hkept : promise.Kept opts files id)
    (hstays : ∀ name u, opts.readNote files name = some u → u.id = id → files' name = files name)
    (hcomes : ∀ name u, opts.readNote files' name = some u → u.id = id → opts.readNote files name = some u) :
    promise.Kept opts files' id := by
  cases promise with
  | nothing => trivial
  | latest v =>
    obtain ⟨hid, hscope, ⟨name, hname, hfile⟩, hwins⟩ := hkept
    have hread := FolderAdapterOpts.readNote_eq_some.mpr ⟨hfile, hscope⟩
    refine ⟨hid, hscope, ⟨name, hname, by rw [hstays name v hread hid, hfile]⟩, ?_⟩
    intro name' u hname' hu hsame
    exact hwins name' u hname' (hcomes name' u hu hsame) hsame
  | removed =>
    intro name u hname hu hsame
    exact hkept name u hname (hcomes name u hu hsame) hsame

theorem readNote_removeFiles {files : Folder δ} {names fails : FileName → Bool} {name : FileName} {u : FolderNote δ}
    (hu : opts.readNote (removeFiles files names fails) name = some u) :
    ¬(names name = true ∧ fails name = false) ∧ opts.readNote files name = some u := by
  obtain ⟨hfile, hscope⟩ := FolderAdapterOpts.readNote_eq_some.mp hu
  rw [removeFiles] at hfile
  split at hfile
  · exact absurd hfile (by simp)
  · next hkeep =>
    rw [Bool.not_eq_true] at hkeep
    exact ⟨hkeep, FolderAdapterOpts.readNote_eq_some.mpr ⟨hfile, hscope⟩⟩

/-- A removal of files of one id keeps what is promised of the others. -/
theorem Promise.Kept.of_removeFiles {files : Folder δ} {names fails : FileName → Bool} {id other : List Char}
    {promise : Promise δ} (hkept : promise.Kept opts files other) (hne : other ≠ id)
    (hown : ∀ name, names name = true → fails name = false → ¬ShowsOther opts files id name) :
    promise.Kept opts (removeFiles files names fails) other := by
  apply hkept.of_files
  · intro name u hread hid
    rw [removeFiles, if_neg]
    intro hgone
    rw [Bool.not_eq_true] at hgone
    exact hown name hgone.1 hgone.2 ⟨u, hread, by rw [hid]; exact hne⟩
  · intro name u hread _
    exact (readNote_removeFiles hread).2

/-- Every promise of a world is kept. -/
def DurableWorld.Kept (opts : FolderAdapterOpts) (w : DurableWorld δ) : Prop :=
  ∀ id, (w.promise id).Kept opts w.state.files id

theorem DurableWorld.Kept.put {w : DurableWorld δ} (hkept : w.Kept opts) {adapter : ℕ} {note : FolderNote δ} {now : ℕ}
    {fails : FileName → Bool} (hsafe : PutSafe opts w.state adapter note now fails) :
    DurableWorld.Kept opts
      ⟨opts.put adapter note now fails w.state, Function.update w.promise note.id (.latest (opts.stamped note))⟩ := by
  intro id
  have hfiles : (opts.put adapter note now fails w.state).files = removeFiles
      (Function.update w.state.files (noteFilename note.leafIndex now note.id) (some (some (opts.stamped note))))
      (· ∈ (w.state.filenamesById adapter note.id).getD []) fails := rfl
  have hid : (opts.stamped note).id = note.id := rfl
  dsimp only
  rw [hfiles]
  by_cases hsame : id = note.id
  · subst hsame
    rw [Function.update_self]
    refine ⟨hid, hsafe.inScope, ⟨noteFilename note.leafIndex now note.id, isNoteFile_noteFilename _ _ _, ?_⟩, ?_⟩
    · rw [removeFiles, if_neg, Function.update_self]
      intro hgone
      rw [Bool.not_eq_true, decide_eq_true_eq] at hgone
      rw [hsafe.unlisted hgone.1] at hgone
      exact absurd hgone.2 (by decide)
    · intro name u hname hread hu
      obtain ⟨hstays, hread⟩ := readNote_removeFiles hread
      by_cases hnew : name = noteFilename note.leafIndex now note.id
      · subst hnew
        obtain ⟨hfile, -⟩ := FolderAdapterOpts.readNote_eq_some.mp hread
        rw [Function.update_self] at hfile
        exact Or.inl (Option.some.inj (Option.some.inj hfile)).symm
      · rw [FolderAdapterOpts.readNote, Function.update_of_ne hnew] at hread
        apply hsafe.wins name u hname hread hu hnew
        intro hlisted
        rw [decide_eq_true_eq, not_and, Bool.not_eq_false] at hstays
        exact hstays hlisted
  · rw [Function.update_of_ne hsame]
    have hwritten : (w.promise id).Kept opts
        (Function.update w.state.files (noteFilename note.leafIndex now note.id) (some (some (opts.stamped note)))) id := by
      apply (hkept id).of_files
      · intro name u hread hu
        apply Function.update_of_ne
        intro hnew
        subst hnew
        exact hsafe.free ⟨u, hread, by rw [hu]; exact hsame⟩
      · intro name u hread hu
        by_cases hnew : name = noteFilename note.leafIndex now note.id
        · subst hnew
          obtain ⟨hfile, -⟩ := FolderAdapterOpts.readNote_eq_some.mp hread
          rw [Function.update_self] at hfile
          obtain rfl := Option.some.inj (Option.some.inj hfile)
          exact absurd hu.symm hsame
        · rwa [FolderAdapterOpts.readNote, Function.update_of_ne hnew] at hread
    apply hwritten.of_removeFiles hsame
    intro name hlisted hremoved hother
    obtain ⟨u, hread, hu⟩ := hother
    by_cases hnew : name = noteFilename note.leafIndex now note.id
    · subst hnew
      obtain ⟨hfile, -⟩ := FolderAdapterOpts.readNote_eq_some.mp hread
      rw [Function.update_self] at hfile
      obtain rfl := Option.some.inj (Option.some.inj hfile)
      exact hu hid
    · rw [FolderAdapterOpts.readNote, Function.update_of_ne hnew] at hread
      exact hsafe.own name (of_decide_eq_true hlisted) hremoved ⟨u, hread, hu⟩

theorem DurableWorld.Kept.remove {w : DurableWorld δ} (hkept : w.Kept opts) {adapter : ℕ} {id : List Char}
    {fails : FileName → Bool} (hsafe : RemoveSafe opts w.state adapter id fails) {promise : Promise δ}
    (hpromise : promise = .nothing ∨ promise = .removed ∧ (opts.remove adapter id fails w.state).2) :
    DurableWorld.Kept opts ⟨(opts.remove adapter id fails w.state).1, Function.update w.promise id promise⟩ := by
  have hremoved : ∃ names : FileName → Bool, (opts.remove adapter id fails w.state).1.files = removeFiles w.state.files names fails ∧
      (∀ name, names name = true → fails name = false → ¬ShowsOther opts w.state.files id name) ∧
      ((opts.remove adapter id fails w.state).2 → ∀ name u, isNoteFile name = true →
        opts.readNote w.state.files name = some u → u.id = id → names name = true ∧ fails name = false) := by
    cases hcached : w.state.filenamesById adapter id with
    | some cached =>
      refine ⟨(· ∈ cached), by rw [FolderAdapterOpts.remove, hcached], ?_, ?_⟩
      · intro name hname
        exact hsafe.own cached hcached name (of_decide_eq_true hname)
      · intro _ name u hname hread hu
        obtain ⟨hmem, hgone⟩ := hsafe.reaches cached hcached name u hname hread hu
        exact ⟨decide_eq_true hmem, hgone⟩
    | none =>
      refine ⟨fun name => isNoteFile name && opts.holds w.state.files id name, by rw [FolderAdapterOpts.remove, hcached], ?_, ?_⟩
      · intro name hname _ hother
        obtain ⟨u, hread, hu⟩ := hother
        rw [Bool.and_eq_true, FolderAdapterOpts.holds_iff] at hname
        obtain ⟨-, u', hread', hu'⟩ := hname
        obtain rfl := Option.some.inj (hread.symm.trans hread')
        exact hu hu'
      · intro hreturned name u hname hread hu
        rw [FolderAdapterOpts.remove, hcached] at hreturned
        have hfound : (isNoteFile name && opts.holds w.state.files id name) = true := by
          rw [Bool.and_eq_true, FolderAdapterOpts.holds_iff]
          exact ⟨hname, u, hread, hu⟩
        exact ⟨hfound, hreturned name hfound⟩
  obtain ⟨names, hfiles, hown, hreaches⟩ := hremoved
  intro other
  dsimp only
  rw [hfiles]
  by_cases hsame : other = id
  · subst hsame
    rw [Function.update_self]
    rcases hpromise with rfl | ⟨rfl, hreturned⟩
    · trivial
    · intro name u hname hread hu
      obtain ⟨hstays, hread⟩ := readNote_removeFiles hread
      exact hstays (hreaches hreturned name u hname hread hu)
  · rw [Function.update_of_ne hsame]
    exact (hkept other).of_removeFiles hsame hown

/-- **Each safe call keeps every promise.** -/
theorem FolderCall.Step.kept {call : FolderCall δ} {w w' : DurableWorld δ} (hkept : w.Kept opts)
    (hsafe : call.Safe opts w.state) (hstep : call.Step opts w w') : w'.Kept opts := by
  cases call with
  | put adapter note now fails =>
    obtain rfl := hstep
    exact hkept.put hsafe
  | loadAll adapter order =>
    obtain ⟨-, rfl⟩ := hstep
    exact hkept
  | remove adapter id fails =>
    rcases hstep with ⟨hreturned, rfl⟩ | ⟨-, rfl⟩
    · exact hkept.remove hsafe (Or.inr ⟨rfl, hreturned⟩)
    · exact hkept.remove hsafe (Or.inl rfl)

/-- **Durability.** After a run of safe calls, on any adapters over any folder, every promise is met. -/
theorem notes_durable (opts : FolderAdapterOpts) {calls : List (FolderCall δ)} {files : Folder δ} {w : DurableWorld δ}
    (hrun : Steps (fun call w w' => call.Safe opts w.state ∧ FolderCall.Step opts call w w') calls (DurableWorld.fresh files) w) :
    ∀ id, (w.promise id).Met opts w.state.files id := by
  have hstart : (DurableWorld.fresh files).Kept opts := fun _ => trivial
  have hkept : w.Kept opts :=
    hrun.invariant (I := DurableWorld.Kept opts) (fun call _ s s' hs hcall => hcall.2.kept hs hcall.1) hstart
  exact fun id => (hkept id).met

/-! ### Two versions in a millisecond -/

def anyAdapter : FolderAdapterOpts := ⟨none, none⟩

/-- A deposit that waits for its place in the tree. -/
def pendingNote : FolderNote String := ⟨1, -1, 5, none, none, "pending"⟩

def failedNote : FolderNote String := { pendingNote with details := "failed" }

def confirmedNote : FolderNote String := { pendingNote with leafIndex := 3 }

def putAt (note : FolderNote String) (now : ℕ) : FolderCall String := .put 0 note now fun _ => false

/-- The folder and the adapter after a first `put`. -/
def afterFirst (note : FolderNote String) (now : ℕ) : FolderState String :=
  anyAdapter.put 0 note now (fun _ => false) (DurableWorld.fresh fun _ => none).state

theorem afterFirst_files (note : FolderNote String) (now : ℕ) : (afterFirst note now).files =
    Function.update (fun _ => none) (noteFilename note.leafIndex now note.id) (some (some (anyAdapter.stamped note))) := by
  funext name
  rw [afterFirst, FolderAdapterOpts.put]
  dsimp only
  rw [removeFiles, if_neg]
  · rfl
  · intro hgone
    exact absurd (of_decide_eq_true hgone.1) List.not_mem_nil

theorem afterFirst_names (note : FolderNote String) (now : ℕ) :
    (afterFirst note now).filenamesById 0 note.id = some [noteFilename note.leafIndex now note.id] :=
  Function.update_self _ _ _

/-- Versions of one millisecond share a file name, and the second `put` removes the file it wrote. -/
theorem same_millisecond : ∃ w, Steps (FolderCall.Step anyAdapter) [putAt pendingNote 1000, putAt failedNote 1000]
    (DurableWorld.fresh fun _ => none) w ∧ w.promise failedNote.id = .latest failedNote ∧
    ∀ name, w.state.files name = none := by
  refine ⟨_, ⟨_, rfl, _, rfl, rfl⟩, ?_, ?_⟩
  · dsimp only
    rw [Function.update_self]
    rfl
  intro name
  change removeFiles (Function.update (afterFirst pendingNote 1000).files _ _)
    (· ∈ ((afterFirst pendingNote 1000).filenamesById 0 pendingNote.id).getD []) (fun _ => false) name = none
  rw [afterFirst_files, afterFirst_names, removeFiles]
  by_cases hsame : name = noteFilename pendingNote.leafIndex 1000 pendingNote.id
  · rw [hsame, if_pos (by simp)]
  · have hsame' : name ≠ noteFilename failedNote.leafIndex 1000 failedNote.id := hsame
    rw [Function.update_of_ne hsame', Function.update_of_ne hsame, ite_self]

/-- The place in the tree found a millisecond later. -/
theorem notes_durable_confirmed : ∃ w : DurableWorld String,
    (w.promise confirmedNote.id).Met anyAdapter w.state.files confirmedNote.id ∧
      w.promise confirmedNote.id = .latest confirmedNote := by
  have hempty : ∀ name (u : FolderNote String), anyAdapter.readNote (fun _ => none) name ≠ some u := by
    intro name u hread
    exact absurd (FolderAdapterOpts.readNote_eq_some.mp hread).1 (by simp)
  have hfirst : PutSafe anyAdapter (DurableWorld.fresh fun _ => none).state 0 pendingNote 1000 fun _ => false := by
    refine ⟨by decide, fun hlisted => absurd hlisted List.not_mem_nil, ?_, fun _ hlisted => absurd hlisted List.not_mem_nil,
      fun name u _ hread => absurd hread (hempty name u)⟩
    intro hother
    obtain ⟨u, hread, -⟩ := hother
    exact hempty _ u hread
  have hread : ∀ name (u : FolderNote String), anyAdapter.readNote (afterFirst pendingNote 1000).files name = some u →
      name = noteFilename pendingNote.leafIndex 1000 pendingNote.id ∧ u = pendingNote := by
    intro name u hread
    obtain ⟨hfile, -⟩ := FolderAdapterOpts.readNote_eq_some.mp hread
    rw [afterFirst_files, Function.update_apply] at hfile
    split at hfile
    · next hname => exact ⟨hname, (Option.some.inj (Option.some.inj hfile)).symm⟩
    · exact absurd hfile (by simp)
  have hnew : noteFilename confirmedNote.leafIndex 1001 confirmedNote.id ≠
      noteFilename pendingNote.leafIndex 1000 pendingNote.id := by decide +kernel
  have hother : ∀ name, ¬ShowsOther anyAdapter (afterFirst pendingNote 1000).files confirmedNote.id name := by
    intro name hother
    obtain ⟨u, hu, hne⟩ := hother
    obtain ⟨-, rfl⟩ := hread name u hu
    exact hne rfl
  have hlist : (afterFirst pendingNote 1000).filenamesById 0 confirmedNote.id =
      some [noteFilename pendingNote.leafIndex 1000 pendingNote.id] := afterFirst_names pendingNote 1000
  have hsecond : PutSafe anyAdapter (afterFirst pendingNote 1000) 0 confirmedNote 1001 fun _ => false := by
    refine ⟨by decide, ?_, hother _, fun name _ _ => hother name, ?_⟩
    · intro hlisted
      rw [hlist] at hlisted
      exact absurd (List.mem_singleton.mp hlisted) hnew
    · intro name u _ hu _ _ hkept
      obtain ⟨rfl, -⟩ := hread name u hu
      rw [hlist] at hkept
      exact absurd (hkept (List.mem_singleton_self _)) Bool.false_ne_true
  have hrun : ∃ w, Steps (fun call w w' => FolderCall.Safe anyAdapter w.state call ∧ FolderCall.Step anyAdapter call w w')
      [putAt pendingNote 1000, putAt confirmedNote 1001] (DurableWorld.fresh fun _ => none) w ∧
      w.promise confirmedNote.id = .latest confirmedNote := by
    refine ⟨_, ⟨_, ⟨hfirst, rfl⟩, _, ⟨hsecond, rfl⟩, rfl⟩, ?_⟩
    dsimp only
    rw [Function.update_self]
    rfl
  obtain ⟨w, hrun, hpromise⟩ := hrun
  exact ⟨w, notes_durable anyAdapter hrun _, hpromise⟩

end Sdk

end ScatterDex
