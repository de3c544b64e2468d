import ScatterDex.Sdk.VaultProvider

/-!
# The vault mirrors its storage

Each call says what its note should come to. Calls on one note do not queue behind one another, and a hydration may bring back what a call has already changed; where neither happens, every adapter ends up with what the calls said, and the list with what the active adapter holds.
-/

namespace ScatterDex

namespace Sdk

variable {A δ : Type}

/-! ### What the calls asked for -/

/-- A vault, and what the calls so far make of the notes of each adapter. -/
structure VaultWorld (A δ : Type) where
  vault : Vault A δ
  intended : A → String → Option (VaultNote δ)

namespace VaultWorld

def mounted (storage : A → String → Option (VaultNote δ)) (adapter : A) (chainId : ℕ) : VaultWorld A δ :=
  ⟨.mounted storage adapter chainId, storage⟩

variable [DecidableEq A]

def intend (w : VaultWorld A δ) (adapter : A) (id : String) (note : Option (VaultNote δ)) : A → String → Option (VaultNote δ) :=
  Function.update w.intended adapter (Function.update (w.intended adapter) id note)

/-- An `add` asks for its note, a `remove` for its absence, and a patch that finds its note for the patched note. -/
def intendedAfter (w : VaultWorld A δ) : VaultEvent A δ → A → String → Option (VaultNote δ)
  | .add adapter id chainId createdAt details => w.intend adapter id (some ⟨id, -1, none, some chainId, createdAt, details⟩)
  | .remove adapter id => w.intend adapter id none
  | .patch adapter id p => (w.vault.patchTarget id p).elim w.intended fun _ => w.intend adapter id ((w.intended adapter id).map p.patch)
  | _ => w.intended

def Step (keeps : ℕ → VaultNote δ → Bool) (event : VaultEvent A δ) (w w' : VaultWorld A δ) : Prop :=
  w.vault.Step keeps event w'.vault ∧ w'.intended = w.intendedAfter event

end VaultWorld

/-! ### When a step is safe -/

/-- A call about a note of an adapter. -/
def VaultCall.On (c : VaultCall A δ) (adapter : A) (id : String) : Prop := c.adapter = adapter ∧ c.write.id = id

/-- What must hold before a step for the vault to stay in line with its adapters. -/
def VaultEvent.Safe (keeps : ℕ → VaultNote δ → Bool) (s : Vault A δ) : VaultEvent A δ → Prop
  -- no patch is left behind that would bring back a note after its removal
  | .switch _ _ => ∀ c ∈ s.calls, c.write.IsPatch → c.startGen = s.generation → c.write.id ∈ s.removedIds →
    c.landed = true ∧ (s.storage c.adapter c.write.id = none ∨
      ∃ c' ∈ s.calls, c'.On c.adapter c.write.id ∧ c'.write.value = none ∧ c'.landed = false)
  -- the adapter has the notes and patches of earlier generations
  | .loadAll _ => ∀ c ∈ s.calls, c.adapter = s.adapter → c.startGen ≠ s.generation → c.landed = true ∨ c.write.IsRemove
  -- no note of the list is dropped, about to be added or patched since, or removed since
  | .merge => ∀ list, s.hydration = .merging list → ∀ n ∈ list, keeps s.chainId n = true ∧
    (∀ c ∈ s.calls, c.On s.adapter n.id → c.startGen = s.generation → ¬c.write.IsAdd) ∧
    ((∃ c ∈ s.calls, c.On s.adapter n.id ∧ c.write.IsRemove) ∨ n.id ∉ s.removedIds ∧ (s.storage s.adapter n.id = some n ∨
      ∃ c ∈ s.calls, c.On s.adapter n.id ∧ c.startGen = s.generation ∧ c.write.IsPatch))
  -- the note is new
  | .add adapter id _ _ _ => adapter = s.adapter ∧ s.storage adapter id = none ∧ ∀ c ∈ s.calls, ¬c.On adapter id
  -- its `add` has returned, and no patch of an earlier generation is still to land
  | .remove adapter id => adapter = s.adapter ∧ ∀ c ∈ s.calls, c.On adapter id →
    ¬c.write.IsAdd ∧ (c.write.IsPatch → c.startGen ≠ s.generation → c.landed = true)
  -- no other call on the note is on its way, and `notesRef` has the version that the list, its render and the adapter have
  | .patch adapter id p => ∀ target, s.patchTarget id p = some target → adapter = s.adapter ∧ (∀ c ∈ s.calls, ¬c.On adapter id) ∧
    target ∈ s.rendered ∧ target ∈ s.notes ∧ s.storage adapter id = some target
  -- a removal of another vault meets no note of this one
  | .finish i => ∀ c, s.calls[i]? = some c → c.write.IsRemove → c.adapter = s.adapter ∨ c.write.id ∉ s.notes.map VaultNote.id
  | _ => True

/-! ### The invariant -/

/-- The notes that `loadAll` read for the hydration on its way; nothing is known of them before it has. -/
def Hydration.read : Hydration δ → Option (List (VaultNote δ))
  | .loading => none
  | .merging list => some list
  | .done => some []

theorem VaultWrite.isAdd_or_isPatch {write : VaultWrite δ} {v : VaultNote δ} (hvalue : write.value = some v) :
    write.IsAdd ∨ write.IsPatch := by
  cases write with
  | add note => exact Or.inl trivial
  | patch next => exact Or.inr trivial
  | remove id => cases hvalue
  | revert id => cases hvalue

theorem VaultWrite.IsRemove.value_eq_none {write : VaultWrite δ} (hremove : write.IsRemove) : write.value = none := by
  cases write with
  | remove id => rfl
  | _ => cases hremove

/-- How the vault, its calls and the notes they ask for hang together. -/
structure Vault.Coherent (s : Vault A δ) (intended : A → String → Option (VaultNote δ)) : Prop where
  startGen_le : ∀ c ∈ s.calls, c.startGen ≤ s.generation
  adapter_eq : ∀ c ∈ s.calls, c.startGen = s.generation → c.adapter = s.adapter
  adds_once : s.calls.Pairwise fun c c' => c.write.IsAdd → c'.write.IsAdd → ¬(c.adapter = c'.adapter ∧ c.write.id = c'.write.id)
  /-- All calls on a note that is asked for write it. -/
  writes : ∀ c ∈ s.calls, ∀ v, intended c.adapter c.write.id = some v → c.write.value = some v
  stored : ∀ a id v, intended a id = some v → s.storage a id = some v ∨ ∃ c ∈ s.calls, c.On a id ∧ c.landed = false
  /-- A patch of a note that is not asked for knows of its removal, or has landed before it. -/
  removed : ∀ c ∈ s.calls, intended c.adapter c.write.id = none → ¬c.write.IsAdd ∧ (c.write.IsPatch →
    (c.startGen = s.generation → c.write.id ∈ s.removedIds) ∧ (c.startGen ≠ s.generation → c.landed = true))
  absent : ∀ a id, intended a id = none → s.storage a id = none ∨ ∃ c ∈ s.calls, c.On a id ∧
    (c.write.value = none ∧ c.landed = false ∨ c.write.IsPatch ∧ c.landed = true ∧ c.startGen = s.generation)
  marked : ∀ c ∈ s.calls, c.startGen = s.generation → c.write.value = none → c.write.id ∈ s.removedIds
  /-- `patchNote` will find the note it started from. -/
  found : ∀ c ∈ s.calls, c.startGen = s.generation → c.write.IsPatch → intended c.adapter c.write.id ≠ none →
    c.write.id ∉ s.removedIds ∧ c.write.id ∈ s.notes.map VaultNote.id ∧
      c.write.id ∈ s.rendered.map VaultNote.id ∧ c.write.id ∈ s.notesRef.map VaultNote.id
  caughtUp : s.hydration ≠ .loading → ∀ c ∈ s.calls, c.adapter = s.adapter → c.startGen ≠ s.generation →
    c.landed = true ∨ c.write.IsRemove
  nodup : (s.notes.map VaultNote.id).Nodup
  shown : ∀ n ∈ s.notes,
    (intended s.adapter n.id = none → ∃ c ∈ s.calls, c.On s.adapter n.id ∧ c.write.IsRemove) ∧
    ∀ v, intended s.adapter n.id = some v → n = v ∨
      ∃ c ∈ s.calls, c.On s.adapter n.id ∧ c.startGen = s.generation ∧ c.write.IsPatch
  hidden : ∀ c ∈ s.calls, c.startGen = s.generation → c.write.IsAdd → c.write.id ∉ s.notes.map VaultNote.id
  complete : ∀ list, s.hydration.read = some list → ∀ v, intended s.adapter v.id = some v →
    (∃ c ∈ s.calls, c.On s.adapter v.id ∧ c.startGen = s.generation ∧ c.write.IsAdd) ∨
      v.id ∈ s.notes.map VaultNote.id ∨ v.id ∈ list.map VaultNote.id
  list_nodup : ∀ list, s.hydration = .merging list → (list.map VaultNote.id).Nodup

namespace Vault

variable {s : Vault A δ} {m : A → String → Option (VaultNote δ)}

theorem Coherent.mounted (storage : A → String → Option (VaultNote δ)) (adapter : A) (chainId : ℕ) :
    (Vault.mounted storage adapter chainId).Coherent storage where
  startGen_le c hc := absurd hc List.not_mem_nil
  adapter_eq c hc := absurd hc List.not_mem_nil
  adds_once := List.Pairwise.nil
  writes c hc := absurd hc List.not_mem_nil
  stored a id v hv := Or.inl hv
  removed c hc := absurd hc List.not_mem_nil
  absent a id hnone := Or.inl hnone
  marked c hc := absurd hc List.not_mem_nil
  found c hc := absurd hc List.not_mem_nil
  caughtUp hloading := absurd rfl hloading
  nodup := List.nodup_nil
  shown n hn := absurd hn List.not_mem_nil
  hidden c hc := absurd hc List.not_mem_nil
  complete list hread := by cases hread
  list_nodup list hmerging := by cases hmerging

theorem Coherent.settled (hs : s.Coherent m) (hsettled : s.Settled) :
    s.storage = m ∧ (s.rendered.map VaultNote.id).Nodup ∧ ∀ n, n ∈ s.rendered ↔ s.storage s.adapter n.id = some n := by
  have hnone : ∀ c, c ∉ s.calls := by
    rw [hsettled.calls]
    exact fun c => List.not_mem_nil
  have hstorage : s.storage = m := by
    funext a id
    cases hm : m a id with
    | none => exact (hs.absent a id hm).resolve_right fun ⟨c, hc, _⟩ => hnone c hc
    | some v => exact (hs.stored a id v hm).resolve_right fun ⟨c, hc, _⟩ => hnone c hc
  have hshown : ∀ n ∈ s.notes, ∀ v, m s.adapter n.id = some v → n = v := fun n hn v hv =>
    ((hs.shown n hn).2 v hv).resolve_right fun ⟨c, hc, _⟩ => hnone c hc
  rw [hsettled.rendered, hstorage]
  refine ⟨rfl, hs.nodup, fun n => ⟨fun hn => ?_, fun hn => ?_⟩⟩
  · cases hm : m s.adapter n.id with
    | none =>
      obtain ⟨c, hc, -⟩ := (hs.shown n hn).1 hm
      exact absurd hc (hnone c)
    | some v => rw [hshown n hn v hm]
  · rcases hs.complete [] (by rw [hsettled.hydration, Hydration.read]) n hn with hadd | hid | hid
    · obtain ⟨c, hc, -⟩ := hadd
      exact absurd hc (hnone c)
    · obtain ⟨u, hu, hid⟩ := List.mem_map.mp hid
      rwa [← hshown u hu n (hid ▸ hn)]
    · exact absurd hid List.not_mem_nil

theorem Coherent.intended_eq_stored (hs : s.Coherent m) {a : A} {id : String} (hfree : ∀ c ∈ s.calls, ¬c.On a id) :
    m a id = s.storage a id := by
  cases hm : m a id with
  | none => exact ((hs.absent a id hm).resolve_right fun ⟨c, hc, hon, _⟩ => hfree c hc hon).symm
  | some v => exact ((hs.stored a id v hm).resolve_right fun ⟨c, hc, hon, _⟩ => hfree c hc hon).symm

/-! ### Steps that touch no call -/

theorem Coherent.render (hs : s.Coherent m) : Coherent { s with rendered := s.notes } m :=
  { hs with
    found := fun c hc hgen hpatch hm =>
      have hfound := hs.found c hc hgen hpatch hm
      ⟨hfound.1, hfound.2.1, hfound.2.1, hfound.2.2.2⟩ }

theorem Coherent.mirror (hs : s.Coherent m) : Coherent { s with notesRef := s.rendered } m :=
  { hs with
    found := fun c hc hgen hpatch hm =>
      have hfound := hs.found c hc hgen hpatch hm
      ⟨hfound.1, hfound.2.1, hfound.2.2.1, hfound.2.2.1⟩ }

/-- What `loadAll` reads has every note that is asked for and that no call is to bring into the list. -/
theorem Coherent.loadAll (hs : s.Coherent m) {list : List (VaultNote δ)} (hlist : Listing (s.storage s.adapter) list)
    (hsafe : ∀ c ∈ s.calls, c.adapter = s.adapter → c.startGen ≠ s.generation → c.landed = true ∨ c.write.IsRemove) :
    Coherent { s with hydration := .merging list } m :=
  { hs with
    caughtUp := fun _ => hsafe
    list_nodup := by
      intro list' heq
      obtain rfl := Hydration.merging.inj heq
      exact hlist.nodup
    complete := by
      intro list' heq v hv
      obtain rfl := Option.some.inj heq
      rcases hs.stored _ _ v hv with hstored | ⟨c, hc, hon, hlanded⟩
      · exact Or.inr (Or.inr (List.mem_map_of_mem ((hlist.mem_iff v).mpr hstored)))
      · have hm : m c.adapter c.write.id = some v := by rw [hon.1, hon.2]; exact hv
        have hvalue := hs.writes c hc v hm
        have hgen : c.startGen = s.generation := by
          by_contra hold
          rcases hsafe c hc hon.1 hold with hlanded' | hremove
          · exact absurd (hlanded.symm.trans hlanded') (by decide)
          · exact absurd (hremove.value_eq_none.symm.trans hvalue) (by simp)
        rcases VaultWrite.isAdd_or_isPatch hvalue with hadd | hpatch
        · exact Or.inl ⟨c, hc, hon, hgen, hadd⟩
        · have hfound := hs.found c hc hgen hpatch (by rw [hm]; exact Option.some_ne_none v)
          rw [hon.2] at hfound
          exact Or.inr (Or.inl hfound.2.1) }

/-- The calls of the last generation are left behind. -/
theorem Coherent.switch (hs : s.Coherent m) (adapter : A) (chainId : ℕ)
    (hsafe : ∀ c ∈ s.calls, c.write.IsPatch → c.startGen = s.generation → c.write.id ∈ s.removedIds →
      c.landed = true ∧ (s.storage c.adapter c.write.id = none ∨
        ∃ c' ∈ s.calls, c'.On c.adapter c.write.id ∧ c'.write.value = none ∧ c'.landed = false)) :
    Coherent { s with adapter := adapter, chainId := chainId, generation := s.generation + 1, hydration := .loading
                      notes := [], notesRef := s.rendered, removedIds := [] } m := by
  have hold : ∀ c ∈ s.calls, c.startGen ≠ s.generation + 1 := fun c hc => by
    have hle := hs.startGen_le c hc
    omega
  exact {
    startGen_le := fun c hc => Nat.le_succ_of_le (hs.startGen_le c hc)
    adapter_eq := fun c hc hgen => absurd hgen (hold c hc)
    adds_once := hs.adds_once
    writes := hs.writes
    stored := hs.stored
    removed := fun c hc hm => by
      refine ⟨(hs.removed c hc hm).1, fun hpatch => ⟨fun hgen => absurd hgen (hold c hc), fun _ => ?_⟩⟩
      obtain ⟨hcurrent, hlanded⟩ := (hs.removed c hc hm).2 hpatch
      by_cases hgen : c.startGen = s.generation
      · exact (hsafe c hc hpatch hgen (hcurrent hgen)).1
      · exact hlanded hgen
    absent := fun a id hm => by
      rcases hs.absent a id hm with hnone | ⟨c, hc, hon, hpending | ⟨hpatch, -, hgen⟩⟩
      · exact Or.inl hnone
      · exact Or.inr ⟨c, hc, hon, Or.inl hpending⟩
      · obtain ⟨rfl, rfl⟩ := hon
        have hmarked := ((hs.removed c hc hm).2 hpatch).1 hgen
        rcases (hsafe c hc hpatch hgen hmarked).2 with hnone | ⟨c', hc', hon', hpending⟩
        · exact Or.inl hnone
        · exact Or.inr ⟨c', hc', hon', Or.inl hpending⟩
    marked := fun c hc hgen => absurd hgen (hold c hc)
    found := fun c hc hgen => absurd hgen (hold c hc)
    caughtUp := fun hloading => absurd rfl hloading
    nodup := List.nodup_nil
    shown := fun n hn => absurd hn List.not_mem_nil
    hidden := fun c hc hgen => absurd hgen (hold c hc)
    complete := fun list hread => by cases hread
    list_nodup := fun list hmerging => by cases hmerging }

/-! ### Calls that start -/

variable [DecidableEq A]

theorem intended_of_ne {a a' : A} {id id' : String} {note : Option (VaultNote δ)} (hne : ¬(a' = a ∧ id' = id)) :
    Function.update m a (Function.update (m a) id note) a' id' = m a' id' := by
  by_cases ha : a' = a
  · subst ha
    rw [Function.update_self, Function.update_of_ne fun hid => hne ⟨rfl, hid⟩]
  · rw [Function.update_of_ne ha]

theorem intended_self {a : A} {id : String} {note : Option (VaultNote δ)} :
    Function.update m a (Function.update (m a) id note) a id = note := by
  rw [Function.update_self, Function.update_self]

/-- When a call may start: a note that is to be written has no other call on its way, is not shown yet when it is new, and is shown everywhere when it is patched; a removal comes after the `add`, and after the patches of earlier generations. -/
structure Startable (s : Vault A δ) (write : VaultWrite δ) : Prop where
  alone : write.value ≠ none → ∀ c ∈ s.calls, ¬c.On s.adapter write.id
  remove : write.value = none → write.IsRemove ∧ ∀ c ∈ s.calls, c.On s.adapter write.id →
    ¬c.write.IsAdd ∧ (c.write.IsPatch → c.startGen ≠ s.generation → c.landed = true)
  patch : write.IsPatch → write.id ∉ s.removedIds ∧ write.id ∈ s.notes.map VaultNote.id ∧
    write.id ∈ s.rendered.map VaultNote.id ∧ write.id ∈ s.notesRef.map VaultNote.id
  add : write.IsAdd → write.id ∉ s.notes.map VaultNote.id

/-- A call starts, and its write is what is asked for from now on. -/
theorem Coherent.start (hs : s.Coherent m) {write : VaultWrite δ} {removedIds : List String} (hstart : s.Startable write)
    (hremoved : ∀ id, id ∈ removedIds ↔ id ∈ s.removedIds ∨ id = write.id ∧ write.value = none) :
    Coherent { s.start s.adapter write with removedIds := removedIds }
      (Function.update m s.adapter (Function.update (m s.adapter) write.id write.value)) := by
  have hcalls : ∀ c, c ∈ (s.start s.adapter write).calls ↔ c ∈ s.calls ∨ c = ⟨s.adapter, s.generation, write, false⟩ := by
    intro c
    rw [Vault.start, List.mem_append, List.mem_singleton]
  have hnew : (⟨s.adapter, s.generation, write, false⟩ : VaultCall A δ) ∈ (s.start s.adapter write).calls := (hcalls _).mpr (Or.inr rfl)
  have hold : ∀ c ∈ s.calls, c ∈ (s.start s.adapter write).calls := fun c hc => (hcalls c).mpr (Or.inl hc)
  -- a call on the note is on its way only when the note is removed
  have hon : ∀ c ∈ s.calls, c.On s.adapter write.id → write.value = none := by
    intro c hc hon
    by_contra hvalue
    exact hstart.alone hvalue c hc hon
  refine ⟨?_, ?_, ?_, ?_, ?_, ?_, ?_, ?_, ?_, ?_, hs.nodup, ?_, ?_, ?_, hs.list_nodup⟩
  · intro c hc
    rcases (hcalls c).mp hc with hc | rfl
    · exact hs.startGen_le c hc
    · exact le_rfl
  · intro c hc hgen
    rcases (hcalls c).mp hc with hc | rfl
    · exact hs.adapter_eq c hc hgen
    · rfl
  · rw [Vault.start, List.pairwise_append]
    refine ⟨hs.adds_once, List.pairwise_singleton _ _, ?_⟩
    intro c hc c' hc' hadd _ heq
    rw [List.mem_singleton.mp hc'] at heq
    exact ((hstart.remove (hon c hc heq)).2 c hc heq).1 hadd
  · intro c hc v hv
    rcases (hcalls c).mp hc with hc | rfl
    · by_cases hsame : c.On s.adapter write.id
      · rw [hsame.1, hsame.2, intended_self, hon c hc hsame] at hv
        cases hv
      · rw [intended_of_ne hsame] at hv
        exact hs.writes c hc v hv
    · exact intended_self.symm.trans hv
  · intro a id v hv
    by_cases hsame : a = s.adapter ∧ id = write.id
    · obtain ⟨rfl, rfl⟩ := hsame
      exact Or.inr ⟨_, hnew, ⟨rfl, rfl⟩, rfl⟩
    · rw [intended_of_ne hsame] at hv
      rcases hs.stored a id v hv with hstored | ⟨c, hc, hpending⟩
      · exact Or.inl hstored
      · exact Or.inr ⟨c, hold c hc, hpending⟩
  · intro c hc hdead
    rcases (hcalls c).mp hc with hc | rfl
    · by_cases hsame : c.On s.adapter write.id
      · have hvalue := hon c hc hsame
        obtain ⟨hadd, hpatch⟩ := (hstart.remove hvalue).2 c hc hsame
        exact ⟨hadd, fun h => ⟨fun _ => (hremoved _).mpr (Or.inr ⟨hsame.2, hvalue⟩), hpatch h⟩⟩
      · rw [intended_of_ne hsame] at hdead
        obtain ⟨hadd, hpatch⟩ := hs.removed c hc hdead
        exact ⟨hadd, fun h => ⟨fun hgen => (hremoved _).mpr (Or.inl ((hpatch h).1 hgen)), (hpatch h).2⟩⟩
    · have hvalue : write.value = none := intended_self.symm.trans hdead
      have hremove := (hstart.remove hvalue).1
      cases write with
      | remove id => exact ⟨fun h => h, fun h => absurd h fun h => h⟩
      | _ => cases hremove
  · intro a id hdead
    by_cases hsame : a = s.adapter ∧ id = write.id
    · obtain ⟨rfl, rfl⟩ := hsame
      exact Or.inr ⟨_, hnew, ⟨rfl, rfl⟩, Or.inl ⟨intended_self.symm.trans hdead, rfl⟩⟩
    · rw [intended_of_ne hsame] at hdead
      rcases hs.absent a id hdead with hstored | ⟨c, hc, hpending⟩
      · exact Or.inl hstored
      · exact Or.inr ⟨c, hold c hc, hpending⟩
  · intro c hc hgen hvalue
    rcases (hcalls c).mp hc with hc | rfl
    · exact (hremoved _).mpr (Or.inl (hs.marked c hc hgen hvalue))
    · exact (hremoved _).mpr (Or.inr ⟨rfl, hvalue⟩)
  · intro c hc hgen hpatch hasked
    rcases (hcalls c).mp hc with hc | rfl
    · by_cases hsame : c.On s.adapter write.id
      · rw [hsame.1, hsame.2, intended_self] at hasked
        exact absurd (hon c hc hsame) hasked
      · rw [intended_of_ne hsame] at hasked
        obtain ⟨hmark, hshown⟩ := hs.found c hc hgen hpatch hasked
        refine ⟨fun hin => ?_, hshown⟩
        rcases (hremoved _).mp hin with hin | ⟨hid, -⟩
        · exact hmark hin
        · exact hsame ⟨hs.adapter_eq c hc hgen, hid⟩
    · obtain ⟨hmark, hshown⟩ := hstart.patch hpatch
      refine ⟨fun hin => ?_, hshown⟩
      rcases (hremoved _).mp hin with hin | ⟨-, hvalue⟩
      · exact hmark hin
      · exact hasked (intended_self.trans hvalue)
  · intro hloading c hc hadapter hgen
    rcases (hcalls c).mp hc with hc | rfl
    · exact hs.caughtUp hloading c hc hadapter hgen
    · exact absurd rfl hgen
  · intro n hn
    by_cases hid : n.id = write.id
    · refine ⟨fun hdead => ?_, fun v hv => ?_⟩
      · have hvalue : write.value = none := by
          rw [hid] at hdead
          exact intended_self.symm.trans hdead
        exact ⟨_, hnew, ⟨rfl, hid.symm⟩, (hstart.remove hvalue).1⟩
      · have hvalue : write.value = some v := by
          rw [hid] at hv
          exact intended_self.symm.trans hv
        rcases VaultWrite.isAdd_or_isPatch hvalue with hadd | hpatch
        · exact absurd (hid ▸ List.mem_map_of_mem hn) (hstart.add hadd)
        · exact Or.inr ⟨_, hnew, ⟨rfl, hid.symm⟩, rfl, hpatch⟩
    · have hother : Function.update m s.adapter (Function.update (m s.adapter) write.id write.value) s.adapter n.id =
        m s.adapter n.id := intended_of_ne fun heq => hid heq.2
      refine ⟨fun hdead => ?_, fun v hv => ?_⟩
      · obtain ⟨c, hc, hremove⟩ := (hs.shown n hn).1 (hother.symm.trans hdead)
        exact ⟨c, hold c hc, hremove⟩
      · rcases (hs.shown n hn).2 v (hother.symm.trans hv) with heq | ⟨c, hc, hpatch⟩
        · exact Or.inl heq
        · exact Or.inr ⟨c, hold c hc, hpatch⟩
  · intro c hc hgen hadd
    rcases (hcalls c).mp hc with hc | rfl
    · exact hs.hidden c hc hgen hadd
    · exact hstart.add hadd
  · intro list hread v hv
    by_cases hid : v.id = write.id
    · have hvalue : write.value = some v := by
        rw [hid] at hv
        exact intended_self.symm.trans hv
      rcases VaultWrite.isAdd_or_isPatch hvalue with hadd | hpatch
      · exact Or.inl ⟨_, hnew, ⟨rfl, hid.symm⟩, rfl, hadd⟩
      · rw [hid]
        exact Or.inr (Or.inl (hstart.patch hpatch).2.1)
    · have hother : Function.update m s.adapter (Function.update (m s.adapter) write.id write.value) s.adapter v.id =
        m s.adapter v.id := intended_of_ne fun heq => hid heq.2
      rcases hs.complete list hread v (hother.symm.trans hv) with ⟨c, hc, hadd⟩ | hin
      · exact Or.inl ⟨c, hold c hc, hadd⟩
      · exact Or.inr hin

theorem Coherent.add (hs : s.Coherent m) (note : VaultNote δ) (hnone : s.storage s.adapter note.id = none)
    (hfree : ∀ c ∈ s.calls, ¬c.On s.adapter note.id) :
    (s.start s.adapter (.add note)).Coherent (Function.update m s.adapter (Function.update (m s.adapter) note.id (some note))) := by
  have hstart : s.Startable (.add note) := {
    alone := fun _ => hfree
    remove := fun hvalue => by cases hvalue
    patch := fun hpatch => absurd hpatch fun h => h
    add := fun _ hin => by
      obtain ⟨n, hn, hid⟩ := List.mem_map.mp hin
      obtain ⟨c, hc, hon, -⟩ := (hs.shown n hn).1 (by rw [hid]; exact (hs.intended_eq_stored hfree).trans hnone)
      rw [hid] at hon
      exact hfree c hc hon }
  exact hs.start hstart fun id => (or_iff_left fun h => by cases h.2).symm

theorem Coherent.remove (hs : s.Coherent m) (id : String) (hsafe : ∀ c ∈ s.calls, c.On s.adapter id →
    ¬c.write.IsAdd ∧ (c.write.IsPatch → c.startGen ≠ s.generation → c.landed = true)) :
    Coherent { s.start s.adapter (.remove id) with removedIds := id :: s.removedIds }
      (Function.update m s.adapter (Function.update (m s.adapter) id none)) := by
  have hstart : s.Startable (.remove id) := {
    alone := fun hvalue => absurd rfl hvalue
    remove := fun _ => ⟨trivial, hsafe⟩
    patch := fun hpatch => absurd hpatch fun h => h
    add := fun hadd => absurd hadd fun h => h }
  refine hs.start hstart fun id' => ?_
  rw [List.mem_cons, or_comm]
  exact or_congr_right (and_iff_left rfl).symm

theorem Coherent.patch (hs : s.Coherent m) {id : String} {p : VaultPatch} {target : VaultNote δ}
    (htarget : s.patchTarget id p = some target) (hfree : ∀ c ∈ s.calls, ¬c.On s.adapter id) (hrendered : target ∈ s.rendered)
    (hnotes : target ∈ s.notes) (hstored : s.storage s.adapter id = some target) :
    (s.start s.adapter (.patch (p.patch target))).Coherent
      (Function.update m s.adapter (Function.update (m s.adapter) id ((m s.adapter id).map p.patch))) := by
  rw [patchTarget] at htarget
  split at htarget
  · cases htarget
  · next hmark =>
    have hfind := (Option.filter_eq_some_iff.mp htarget).1
    have hid : target.id = id := by simpa using List.find?_some hfind
    subst hid
    have hstart : s.Startable (.patch (p.patch target)) := {
      alone := fun _ => by rw [VaultWrite.id, VaultPatch.patch_id]; exact hfree
      remove := fun hvalue => by cases hvalue
      patch := fun _ => by
        rw [VaultWrite.id, VaultPatch.patch_id]
        exact ⟨hmark, List.mem_map_of_mem hnotes, List.mem_map_of_mem hrendered,
          List.mem_map_of_mem (List.mem_of_find?_eq_some hfind)⟩
      add := fun hadd => absurd hadd fun h => h }
    have hasked : (m s.adapter target.id).map p.patch = some (p.patch target) := by
      rw [hs.intended_eq_stored hfree, hstored, Option.map_some]
    have hid : (VaultWrite.patch (p.patch target)).id = target.id := p.patch_id target
    rw [hasked, ← hid]
    exact hs.start hstart fun id => (or_iff_left fun h => by cases h.2).symm

/-! ### Writes that land -/

theorem Coherent.land (hs : s.Coherent m) {before after : List (VaultCall A δ)} {c : VaultCall A δ}
    (hcalls : s.calls = before ++ c :: after) (hlanded : c.landed = false) :
    Coherent { s with
      calls := before ++ { c with landed := true } :: after
      storage := Function.update s.storage c.adapter (Function.update (s.storage c.adapter) c.write.id c.write.value) } m := by
  have hc : c ∈ s.calls := by
    rw [hcalls]
    exact List.mem_append_right _ List.mem_cons_self
  -- the calls before and after the step differ in `landed` only
  have hback : ∀ d ∈ before ++ { c with landed := true } :: after, d ∈ s.calls ∨ d = { c with landed := true } := by
    intro d hd
    rw [hcalls]
    rcases List.mem_append.mp hd with hd | hd
    · exact Or.inl (List.mem_append_left _ hd)
    · rcases List.mem_cons.mp hd with hd | hd
      · exact Or.inr hd
      · exact Or.inl (List.mem_append_right _ (List.mem_cons_of_mem _ hd))
  have hforth : ∀ d ∈ s.calls, d = c ∨ d ∈ before ++ { c with landed := true } :: after := by
    intro d hd
    rw [hcalls] at hd
    rcases List.mem_append.mp hd with hd | hd
    · exact Or.inr (List.mem_append_left _ hd)
    · rcases List.mem_cons.mp hd with hd | hd
      · exact Or.inl hd
      · exact Or.inr (List.mem_append_right _ (List.mem_cons_of_mem _ hd))
  have hself : { c with landed := true } ∈ before ++ { c with landed := true } :: after :=
    List.mem_append_right _ List.mem_cons_self
  have hkind : ∀ (P : A → ℕ → VaultWrite δ → Prop), (∃ d ∈ s.calls, P d.adapter d.startGen d.write) →
      ∃ d ∈ before ++ { c with landed := true } :: after, P d.adapter d.startGen d.write := by
    intro P hex
    obtain ⟨d, hd, hP⟩ := hex
    rcases hforth d hd with rfl | hd
    · exact ⟨_, hself, hP⟩
    · exact ⟨d, hd, hP⟩
  refine ⟨?_, ?_, ?_, ?_, ?_, ?_, ?_, ?_, ?_, ?_, hs.nodup, ?_, ?_, ?_, hs.list_nodup⟩
  · intro d hd
    rcases hback d hd with hd | rfl
    · exact hs.startGen_le d hd
    · exact hs.startGen_le c hc
  · intro d hd hgen
    rcases hback d hd with hd | rfl
    · exact hs.adapter_eq d hd hgen
    · exact hs.adapter_eq c hc hgen
  · have hadds := hs.adds_once
    rw [hcalls, List.pairwise_append, List.pairwise_cons] at hadds
    obtain ⟨hbefore, ⟨hafter, hafters⟩, hcross⟩ := hadds
    refine List.pairwise_append.mpr ⟨hbefore, List.pairwise_cons.mpr ⟨hafter, hafters⟩, ?_⟩
    intro d hd d' hd'
    rcases List.mem_cons.mp hd' with rfl | hd'
    · exact hcross d hd c List.mem_cons_self
    · exact hcross d hd d' (List.mem_cons_of_mem _ hd')
  · intro d hd v hv
    rcases hback d hd with hd | rfl
    · exact hs.writes d hd v hv
    · exact hs.writes c hc v hv
  · intro a id v hv
    by_cases hon : a = c.adapter ∧ id = c.write.id
    · obtain ⟨rfl, rfl⟩ := hon
      exact Or.inl (intended_self.trans (hs.writes c hc v hv))
    · dsimp only
      rw [intended_of_ne hon]
      rcases hs.stored a id v hv with hstored | ⟨d, hd, hond, hpending⟩
      · exact Or.inl hstored
      · rcases hforth d hd with rfl | hd
        · exact absurd ⟨hond.1.symm, hond.2.symm⟩ hon
        · exact Or.inr ⟨d, hd, hond, hpending⟩
  · intro d hd hdead
    rcases hback d hd with hd | rfl
    · exact hs.removed d hd hdead
    · obtain ⟨hadd, hpatch⟩ := hs.removed c hc hdead
      exact ⟨hadd, fun h => ⟨(hpatch h).1, fun _ => rfl⟩⟩
  · intro a id hdead
    by_cases hon : a = c.adapter ∧ id = c.write.id
    · obtain ⟨rfl, rfl⟩ := hon
      obtain ⟨hadd, hpatch⟩ := hs.removed c hc hdead
      cases hvalue : c.write.value with
      | none => exact Or.inl intended_self
      | some v =>
        have hispatch := (VaultWrite.isAdd_or_isPatch hvalue).resolve_left hadd
        have hgen : c.startGen = s.generation := by
          by_contra hold
          exact absurd (hlanded.symm.trans ((hpatch hispatch).2 hold)) (by decide)
        exact Or.inr ⟨_, hself, ⟨rfl, rfl⟩, Or.inr ⟨hispatch, rfl, hgen⟩⟩
    · dsimp only
      rw [intended_of_ne hon]
      rcases hs.absent a id hdead with hstored | ⟨d, hd, hond, hpending⟩
      · exact Or.inl hstored
      · rcases hforth d hd with rfl | hd
        · exact absurd ⟨hond.1.symm, hond.2.symm⟩ hon
        · exact Or.inr ⟨d, hd, hond, hpending⟩
  · intro d hd hgen hvalue
    rcases hback d hd with hd | rfl
    · exact hs.marked d hd hgen hvalue
    · exact hs.marked c hc hgen hvalue
  · intro d hd hgen hpatch hasked
    rcases hback d hd with hd | rfl
    · exact hs.found d hd hgen hpatch hasked
    · exact hs.found c hc hgen hpatch hasked
  · intro hloading d hd hadapter hgen
    rcases hback d hd with hd | rfl
    · exact hs.caughtUp hloading d hd hadapter hgen
    · exact Or.inl rfl
  · intro n hn
    refine ⟨fun hdead => ?_, fun v hv => ?_⟩
    · exact hkind (fun a _ write => (a = s.adapter ∧ write.id = n.id) ∧ write.IsRemove) ((hs.shown n hn).1 hdead)
    · rcases (hs.shown n hn).2 v hv with heq | hpatch
      · exact Or.inl heq
      · exact Or.inr (hkind (fun a gen write => (a = s.adapter ∧ write.id = n.id) ∧ gen = s.generation ∧ write.IsPatch) hpatch)
  · intro d hd hgen hadd
    rcases hback d hd with hd | rfl
    · exact hs.hidden d hd hgen hadd
    · exact hs.hidden c hc hgen hadd
  · intro list hread v hv
    rcases hs.complete list hread v hv with hadd | hin
    · exact Or.inl (hkind (fun a gen write => (a = s.adapter ∧ write.id = v.id) ∧ gen = s.generation ∧ write.IsAdd) hadd)
    · exact Or.inr hin

/-! ### Calls that return -/

omit [DecidableEq A] in
theorem eq_or_mem_of_mem {calls before after : List (VaultCall A δ)} {c d : VaultCall A δ} (hcalls : calls = before ++ c :: after)
    (hd : d ∈ calls) : d = c ∨ d ∈ before ++ after := by
  rw [hcalls] at hd
  rcases List.mem_append.mp hd with hd | hd
  · exact Or.inr (List.mem_append_left _ hd)
  · exact (List.mem_cons.mp hd).imp_right (List.mem_append_right _)

omit [DecidableEq A] in
theorem Coherent.returned (hs : s.Coherent m) {before after : List (VaultCall A δ)} {c : VaultCall A δ} {notes : List (VaultNote δ)}
    (hcalls : s.calls = before ++ c :: after) (hlanded : c.landed = true)
    (hpatch : c.write.IsPatch → c.startGen = s.generation → m c.adapter c.write.id ≠ none)
    (hadd : c.write.IsAdd → c.startGen = s.generation → c.write.id ∈ notes.map VaultNote.id)
    (hkeep : ∀ id, m s.adapter id ≠ none → id ∈ s.notes.map VaultNote.id → id ∈ notes.map VaultNote.id)
    (hnodup : (notes.map VaultNote.id).Nodup)
    (hshown : ∀ n ∈ notes, (m s.adapter n.id = none → ∃ d ∈ before ++ after, d.On s.adapter n.id ∧ d.write.IsRemove) ∧
      ∀ v, m s.adapter n.id = some v → n = v ∨
        ∃ d ∈ before ++ after, d.On s.adapter n.id ∧ d.startGen = s.generation ∧ d.write.IsPatch)
    (hhidden : ∀ d ∈ before ++ after, d.startGen = s.generation → d.write.IsAdd → d.write.id ∉ notes.map VaultNote.id) :
    Coherent { s with calls := before ++ after, notes := notes } m := by
  have hsub : ∀ d ∈ before ++ after, d ∈ s.calls := by
    intro d hd
    rw [hcalls]
    exact List.mem_append.mpr ((List.mem_append.mp hd).imp_right (List.mem_cons_of_mem _))
  have hleft : ∀ d ∈ s.calls, d = c ∨ d ∈ before ++ after := fun d => eq_or_mem_of_mem hcalls
  refine ⟨fun d hd => hs.startGen_le d (hsub d hd), fun d hd => hs.adapter_eq d (hsub d hd), ?_, fun d hd => hs.writes d (hsub d hd), ?_,
    fun d hd => hs.removed d (hsub d hd), ?_, fun d hd => hs.marked d (hsub d hd), ?_,
    fun hloading d hd => hs.caughtUp hloading d (hsub d hd), hnodup, hshown, hhidden, ?_, hs.list_nodup⟩
  · have hsublist : (before ++ after).Sublist (before ++ c :: after) := (List.Sublist.refl _).append (List.sublist_cons_self _ _)
    have hadds := hs.adds_once
    rw [hcalls] at hadds
    exact hadds.sublist hsublist
  · intro a id v hv
    rcases hs.stored a id v hv with hstored | ⟨d, hd, hon, hpending⟩
    · exact Or.inl hstored
    · rcases hleft d hd with rfl | hd
      · exact absurd (hlanded.symm.trans hpending) (by decide)
      · exact Or.inr ⟨d, hd, hon, hpending⟩
  · intro a id hdead
    rcases hs.absent a id hdead with hstored | ⟨d, hd, hon, hpending⟩
    · exact Or.inl hstored
    · rcases hleft d hd with rfl | hd
      · obtain ⟨rfl, rfl⟩ := hon
        rcases hpending with ⟨-, hpending⟩ | ⟨hispatch, -, hgen⟩
        · exact absurd (hlanded.symm.trans hpending) (by decide)
        · exact absurd hdead (hpatch hispatch hgen)
      · exact Or.inr ⟨d, hd, hon, hpending⟩
  · intro d hd hgen hispatch hasked
    obtain ⟨hmark, hin, hrendered, href⟩ := hs.found d (hsub d hd) hgen hispatch hasked
    rw [hs.adapter_eq d (hsub d hd) hgen] at hasked
    exact ⟨hmark, hkeep _ hasked hin, hrendered, href⟩
  · intro list hread v hv
    rcases hs.complete list hread v hv with ⟨d, hd, hon, hgen, hisadd⟩ | hin | hin
    · rcases hleft d hd with rfl | hd
      · rw [← hon.2]
        exact Or.inr (Or.inl (hadd hisadd hgen))
      · exact Or.inl ⟨d, hd, hon, hgen, hisadd⟩
    · exact Or.inr (Or.inl (hkeep _ (by rw [hv]; exact Option.some_ne_none v) hin))
    · exact Or.inr (Or.inr hin)

omit [DecidableEq A] in
theorem Coherent.shown_without (hs : s.Coherent m) {before after : List (VaultCall A δ)} {c : VaultCall A δ}
    (hcalls : s.calls = before ++ c :: after) {n : VaultNote δ} (hn : n ∈ s.notes)
    (hremove : c.On s.adapter n.id → ¬c.write.IsRemove)
    (hpatch : c.On s.adapter n.id → c.startGen = s.generation → ¬c.write.IsPatch) :
    (m s.adapter n.id = none → ∃ d ∈ before ++ after, d.On s.adapter n.id ∧ d.write.IsRemove) ∧
      ∀ v, m s.adapter n.id = some v → n = v ∨
        ∃ d ∈ before ++ after, d.On s.adapter n.id ∧ d.startGen = s.generation ∧ d.write.IsPatch := by
  have hleft : ∀ d ∈ s.calls, d = c ∨ d ∈ before ++ after := fun d => eq_or_mem_of_mem hcalls
  refine ⟨fun hdead => ?_, fun v hv => ?_⟩
  · obtain ⟨d, hd, hon, hisremove⟩ := (hs.shown n hn).1 hdead
    rcases hleft d hd with rfl | hd
    · exact absurd hisremove (hremove hon)
    · exact ⟨d, hd, hon, hisremove⟩
  · rcases (hs.shown n hn).2 v hv with heq | ⟨d, hd, hon, hgen, hispatch⟩
    · exact Or.inl heq
    · rcases hleft d hd with rfl | hd
      · exact absurd hispatch (hpatch hon hgen)
      · exact Or.inr ⟨d, hd, hon, hgen, hispatch⟩

omit [DecidableEq A] in
/-- A `patchNote` that does not find its note takes its write back. -/
theorem Coherent.reverted (hs : s.Coherent m) {before after : List (VaultCall A δ)} {c : VaultCall A δ} {next : VaultNote δ}
    (hcalls : s.calls = before ++ c :: after) (hlanded : c.landed = true) (hwrite : c.write = .patch next)
    (hgen : c.startGen = s.generation) (hdead : m c.adapter next.id = none) :
    Coherent { s with calls := before ++ ⟨c.adapter, c.startGen, .revert next.id, false⟩ :: after } m := by
  have hc : c ∈ s.calls := by
    rw [hcalls]
    exact List.mem_append_right _ List.mem_cons_self
  have hispatch : c.write.IsPatch := by rw [hwrite]; trivial
  have hid : c.write.id = next.id := by rw [hwrite]; rfl
  have hleft : ∀ d ∈ s.calls, d = c ∨ d ∈ before ++ after := fun d => eq_or_mem_of_mem hcalls
  have hmem : ∀ d, d ∈ before ++ ⟨c.adapter, c.startGen, .revert next.id, false⟩ :: after ↔
      d = ⟨c.adapter, c.startGen, .revert next.id, false⟩ ∨ d ∈ before ++ after := by
    intro d
    rw [List.mem_append, List.mem_cons, List.mem_append]
    exact or_left_comm
  have hsub : ∀ d ∈ before ++ after, d ∈ s.calls := by
    intro d hd
    rw [hcalls]
    exact List.mem_append.mpr ((List.mem_append.mp hd).imp_right (List.mem_cons_of_mem _))
  have hmark := ((hs.removed c hc (by rw [hid]; exact hdead)).2 hispatch).1 hgen
  rw [hid] at hmark
  refine ⟨?_, ?_, ?_, ?_, ?_, ?_, ?_, ?_, ?_, ?_, hs.nodup, ?_, ?_, ?_, hs.list_nodup⟩
  · intro d hd
    rcases (hmem d).mp hd with rfl | hd
    · exact hs.startGen_le c hc
    · exact hs.startGen_le d (hsub d hd)
  · intro d hd hcurrent
    rcases (hmem d).mp hd with rfl | hd
    · exact hs.adapter_eq c hc hcurrent
    · exact hs.adapter_eq d (hsub d hd) hcurrent
  · have hadds := hs.adds_once
    rw [hcalls, List.pairwise_append, List.pairwise_cons] at hadds
    obtain ⟨hbefore, ⟨-, hafters⟩, hcross⟩ := hadds
    refine List.pairwise_append.mpr ⟨hbefore, List.pairwise_cons.mpr ⟨fun d _ hadd => absurd hadd fun h => h, hafters⟩, ?_⟩
    intro d hd d' hd' hadd hadd'
    rcases List.mem_cons.mp hd' with rfl | hd'
    · exact absurd hadd' fun h => h
    · exact hcross d hd d' (List.mem_cons_of_mem _ hd') hadd hadd'
  · intro d hd v hv
    rcases (hmem d).mp hd with rfl | hd
    · exact absurd (hdead.symm.trans hv) (by simp)
    · exact hs.writes d (hsub d hd) v hv
  · intro a id v hv
    rcases hs.stored a id v hv with hstored | ⟨d, hd, hon, hpending⟩
    · exact Or.inl hstored
    · rcases hleft d hd with rfl | hd
      · exact absurd (hlanded.symm.trans hpending) (by decide)
      · exact Or.inr ⟨d, (hmem d).mpr (Or.inr hd), hon, hpending⟩
  · intro d hd hdead'
    rcases (hmem d).mp hd with rfl | hd
    · exact ⟨fun h => h, fun h => absurd h fun h => h⟩
    · exact hs.removed d (hsub d hd) hdead'
  · intro a id hdead'
    rcases hs.absent a id hdead' with hstored | ⟨d, hd, hon, hpending⟩
    · exact Or.inl hstored
    · rcases hleft d hd with rfl | hd
      · exact Or.inr ⟨_, (hmem _).mpr (Or.inl rfl), ⟨hon.1, hid.symm.trans hon.2⟩, Or.inl ⟨rfl, rfl⟩⟩
      · exact Or.inr ⟨d, (hmem d).mpr (Or.inr hd), hon, hpending⟩
  · intro d hd hcurrent hvalue
    rcases (hmem d).mp hd with rfl | hd
    · exact hmark
    · exact hs.marked d (hsub d hd) hcurrent hvalue
  · intro d hd hcurrent hpatch hasked
    rcases (hmem d).mp hd with rfl | hd
    · exact absurd hpatch fun h => h
    · exact hs.found d (hsub d hd) hcurrent hpatch hasked
  · intro hloading d hd hadapter hold
    rcases (hmem d).mp hd with rfl | hd
    · exact absurd hgen hold
    · exact hs.caughtUp hloading d (hsub d hd) hadapter hold
  · intro n hn
    refine ⟨fun hdead' => ?_, fun v hv => ?_⟩
    · obtain ⟨d, hd, hon, hremove⟩ := (hs.shown n hn).1 hdead'
      rcases hleft d hd with rfl | hd
      · rw [hwrite] at hremove
        exact absurd hremove fun h => h
      · exact ⟨d, (hmem d).mpr (Or.inr hd), hon, hremove⟩
    · rcases (hs.shown n hn).2 v hv with heq | ⟨d, hd, hon, hpatch⟩
      · exact Or.inl heq
      · rcases hleft d hd with rfl | hd
        · rw [← hid, hon.1, hon.2, hv] at hdead
          cases hdead
        · exact Or.inr ⟨d, (hmem d).mpr (Or.inr hd), hon, hpatch⟩
  · intro d hd hcurrent hadd
    rcases (hmem d).mp hd with rfl | hd
    · exact absurd hadd fun h => h
    · exact hs.hidden d (hsub d hd) hcurrent hadd
  · intro list hread v hv
    rcases hs.complete list hread v hv with ⟨d, hd, hon, hcurrent, hadd⟩ | hin
    · rcases hleft d hd with rfl | hd
      · rw [hwrite] at hadd
        exact absurd hadd fun h => h
      · exact Or.inl ⟨d, (hmem d).mpr (Or.inr hd), hon, hcurrent, hadd⟩
    · exact Or.inr hin

omit [DecidableEq A] in
theorem Coherent.finish (hs : s.Coherent m) {before after : List (VaultCall A δ)} {c : VaultCall A δ}
    (hcalls : s.calls = before ++ c :: after) (hlanded : c.landed = true)
    (hsafe : c.write.IsRemove → c.adapter = s.adapter ∨ c.write.id ∉ s.notes.map VaultNote.id) :
    (s.finish before c after).Coherent m := by
  have hc : c ∈ s.calls := by
    rw [hcalls]
    exact List.mem_append_right _ List.mem_cons_self
  have hsub : ∀ d ∈ before ++ after, d ∈ s.calls := by
    intro d hd
    rw [hcalls]
    exact List.mem_append.mpr ((List.mem_append.mp hd).imp_right (List.mem_cons_of_mem _))
  have hids : ∀ {kept : VaultNote δ → Prop} [DecidablePred kept] {id : String}, id ∈ s.notes.map VaultNote.id →
      (∀ n ∈ s.notes, n.id = id → kept n) → id ∈ (s.notes.filter fun n => kept n).map VaultNote.id := by
    intro kept _ id hid hkept
    obtain ⟨n, hn, rfl⟩ := List.mem_map.mp hid
    exact List.mem_map_of_mem (List.mem_filter.mpr ⟨hn, decide_eq_true (hkept n hn rfl)⟩)
  rw [Vault.finish]
  cases hwrite : c.write with
  | add note =>
    have hasked : m c.adapter note.id = some note := by
      have hremoved := hs.removed c hc
      have hwrites := hs.writes c hc
      rw [hwrite] at hremoved hwrites
      cases hm : m c.adapter note.id with
      | none => exact absurd trivial (hremoved hm).1
      | some v => exact (hwrites v hm).symm
    have hnotpatch : ¬c.write.IsPatch := by rw [hwrite]; exact fun h => h
    have hnotremove : ¬c.write.IsRemove := by rw [hwrite]; exact fun h => h
    dsimp only
    by_cases hgen : c.startGen = s.generation
    · rw [if_pos hgen]
      have hadapter := hs.adapter_eq c hc hgen
      have hhidden := hs.hidden c hc hgen (by rw [hwrite]; trivial)
      rw [hwrite] at hhidden
      apply hs.returned hcalls hlanded
      · exact fun hpatch => absurd hpatch hnotpatch
      · intro _ _
        rw [hwrite]
        exact List.mem_cons_self
      · exact fun id _ hin => List.mem_cons_of_mem _ hin
      · exact List.nodup_cons.mpr ⟨hhidden, hs.nodup⟩
      · intro n hn
        rcases List.mem_cons.mp hn with rfl | hn
        · rw [← hadapter, hasked]
          exact ⟨fun hdead => (by cases hdead), fun v hv => Or.inl (Option.some.inj hv)⟩
        · exact hs.shown_without hcalls hn (fun _ => hnotremove) fun _ _ => hnotpatch
      · intro d hd hcurrent hadd hin
        rcases List.mem_cons.mp hin with hid | hin
        · -- no other `add` of the note is on its way
          have hadds := hs.adds_once
          rw [hcalls, List.pairwise_append, List.pairwise_cons] at hadds
          have hisadd : c.write.IsAdd := by rw [hwrite]; trivial
          have hsame : d.adapter = c.adapter ∧ d.write.id = c.write.id :=
            ⟨(hs.adapter_eq d (hsub d hd) hcurrent).trans hadapter.symm, by rw [hwrite]; exact hid⟩
          rcases List.mem_append.mp hd with hd | hd
          · exact hadds.2.2 d hd c List.mem_cons_self hadd hisadd hsame
          · exact hadds.2.1.1 d hd hisadd hadd ⟨hsame.1.symm, hsame.2.symm⟩
        · exact hs.hidden d (hsub d hd) hcurrent hadd hin
    · rw [if_neg hgen]
      exact hs.returned hcalls hlanded (fun _ h => absurd h hgen) (fun _ h => absurd h hgen) (fun _ _ hin => hin) hs.nodup
        (fun n hn => hs.shown_without hcalls hn (fun _ => hnotremove) fun _ _ => hnotpatch) fun d hd => hs.hidden d (hsub d hd)
  | remove id =>
    have hisremove : c.write.IsRemove := by rw [hwrite]; trivial
    have hid : c.write.id = id := by rw [hwrite]; rfl
    have hnotpatch : ¬c.write.IsPatch := by rw [hwrite]; exact fun h => h
    apply hs.returned hcalls hlanded
    · exact fun hpatch => absurd hpatch hnotpatch
    · intro hadd
      rw [hwrite] at hadd
      exact absurd hadd fun h => h
    · intro id' hasked hin
      apply hids hin
      rintro n hn rfl heq
      rcases hsafe hisremove with hadapter | hnotin
      · cases hm : m s.adapter n.id with
        | none => exact hasked hm
        | some v =>
          have hwrites := hs.writes c hc v (by rw [hadapter, hid, ← heq]; exact hm)
          rw [hisremove.value_eq_none] at hwrites
          cases hwrites
      · rw [hid, ← heq] at hnotin
        exact hnotin (List.mem_map_of_mem hn)
    · exact hs.nodup.sublist (List.filter_sublist.map _)
    · intro n hn
      obtain ⟨hn, hne⟩ := List.mem_filter.mp hn
      exact hs.shown_without hcalls hn (fun hon => absurd (hid ▸ hon.2.symm) (of_decide_eq_true hne)) fun _ _ => hnotpatch
    · intro d hd hcurrent hadd hin
      exact hs.hidden d (hsub d hd) hcurrent hadd (List.filter_sublist.map _ |>.subset hin)
  | patch next =>
    have hispatch : c.write.IsPatch := by rw [hwrite]; trivial
    have hid : c.write.id = next.id := by rw [hwrite]; rfl
    have hnotremove : ¬c.write.IsRemove := by rw [hwrite]; exact fun h => h
    have hnotadd : ¬c.write.IsAdd := by rw [hwrite]; exact fun h => h
    dsimp only
    by_cases hgen : c.startGen = s.generation
    · rw [if_neg (not_not_intro hgen)]
      cases hm : m c.adapter next.id with
      | none =>
        have hmark := ((hs.removed c hc (by rw [hid]; exact hm)).2 hispatch).1 hgen
        rw [hid] at hmark
        rw [if_pos (Or.inl hmark)]
        exact hs.reverted hcalls hlanded hwrite hgen hm
      | some v =>
        have hasked : m c.adapter c.write.id ≠ none := by rw [hid, hm]; exact Option.some_ne_none v
        obtain ⟨hmark, hin, -, href⟩ := hs.found c hc hgen hispatch hasked
        rw [hid] at hmark hin href
        rw [if_neg (not_or.mpr ⟨hmark, not_not_intro href⟩)]
        have hv : next = v := by
          have hwrites := hs.writes c hc v (by rw [hid]; exact hm)
          rw [hwrite] at hwrites
          exact Option.some.inj hwrites
        have hadapter := hs.adapter_eq c hc hgen
        have hsame : (s.notes.map fun n => if n.id = next.id then next else n).map VaultNote.id = s.notes.map VaultNote.id := by
          rw [List.map_map]
          apply List.map_congr_left
          intro n _
          show (if n.id = next.id then next else n).id = n.id
          split
          · next heq => exact heq.symm
          · rfl
        apply hs.returned hcalls hlanded
        · exact fun _ _ => hasked
        · exact fun hadd => absurd hadd hnotadd
        · intro id _ hin
          rw [hsame]
          exact hin
        · rw [hsame]
          exact hs.nodup
        · intro n hn
          obtain ⟨u, hu, rfl⟩ := List.mem_map.mp hn
          split
          · rw [← hadapter, hm]
            exact ⟨fun hdead => (by cases hdead), fun w hw => Or.inl (hv.trans (Option.some.inj hw))⟩
          · next hne =>
            exact hs.shown_without hcalls hu (fun _ => hnotremove) fun hon _ => absurd (hid ▸ hon.2.symm) hne
        · intro d hd
          rw [hsame]
          exact hs.hidden d (hsub d hd)
    · rw [if_pos hgen]
      exact hs.returned hcalls hlanded (fun _ h => absurd h hgen) (fun _ h => absurd h hgen) (fun _ _ hin => hin) hs.nodup
        (fun n hn => hs.shown_without hcalls hn (fun _ => hnotremove) fun _ h => absurd h hgen) fun d hd => hs.hidden d (hsub d hd)
  | revert id =>
    have hnotpatch : ¬c.write.IsPatch := by rw [hwrite]; exact fun h => h
    have hnotremove : ¬c.write.IsRemove := by rw [hwrite]; exact fun h => h
    have hnotadd : ¬c.write.IsAdd := by rw [hwrite]; exact fun h => h
    exact hs.returned hcalls hlanded (fun h => absurd h hnotpatch) (fun h => absurd h hnotadd) (fun _ _ hin => hin) hs.nodup
      (fun n hn => hs.shown_without hcalls hn (fun _ => hnotremove) fun _ _ => hnotpatch) fun d hd => hs.hidden d (hsub d hd)

/-! ### The hydration merges -/

omit [DecidableEq A] in
theorem mem_mergeNotes {prev filtered : List (VaultNote δ)} {n : VaultNote δ} :
    n ∈ mergeNotes prev filtered ↔ n ∈ filtered ∨ n ∈ prev ∧ n.id ∉ filtered.map VaultNote.id := by
  rw [mergeNotes]
  split
  · next hprev =>
    subst hprev
    exact (or_iff_left fun h => absurd h.1 List.not_mem_nil).symm
  · dsimp only
    split
    · next hfresh =>
      refine (or_iff_left fun h => ?_).symm
      exact absurd (hfresh ▸ List.mem_filter.mpr ⟨h.1, decide_eq_true h.2⟩) List.not_mem_nil
    · rw [List.mem_mergeSort, List.mem_append, List.mem_filter, decide_eq_true_eq, or_comm]

omit [DecidableEq A] in
theorem nodup_mergeNotes {prev filtered : List (VaultNote δ)} (hprev : (prev.map VaultNote.id).Nodup)
    (hfiltered : (filtered.map VaultNote.id).Nodup) : ((mergeNotes prev filtered).map VaultNote.id).Nodup := by
  rw [mergeNotes]
  split
  · exact hfiltered
  · dsimp only
    split
    · exact hfiltered
    · rw [((List.mergeSort_perm _ _).map VaultNote.id).nodup_iff, List.map_append, List.nodup_append]
      refine ⟨hprev.sublist (List.filter_sublist.map _), hfiltered, ?_⟩
      intro id hid id' hid' heq
      obtain ⟨n, hn, rfl⟩ := List.mem_map.mp hid
      subst heq
      exact of_decide_eq_true (List.mem_filter.mp hn).2 hid'

omit [DecidableEq A] in
theorem Coherent.merge (hs : s.Coherent m) {keeps : ℕ → VaultNote δ → Bool} {list : List (VaultNote δ)}
    (hmerging : s.hydration = .merging list)
    (hsafe : ∀ n ∈ list, keeps s.chainId n = true ∧
      (∀ c ∈ s.calls, c.On s.adapter n.id → c.startGen = s.generation → ¬c.write.IsAdd) ∧
      ((∃ c ∈ s.calls, c.On s.adapter n.id ∧ c.write.IsRemove) ∨ n.id ∉ s.removedIds ∧ (s.storage s.adapter n.id = some n ∨
        ∃ c ∈ s.calls, c.On s.adapter n.id ∧ c.startGen = s.generation ∧ c.write.IsPatch))) :
    Coherent { s with hydration := .done, notes := mergeNotes s.notes (list.reverse.filter (keeps s.chainId)) } m := by
  have hfilter : list.reverse.filter (keeps s.chainId) = list.reverse :=
    List.filter_eq_self.mpr fun n hn => (hsafe n (List.mem_reverse.mp hn)).1
  have hloading : s.hydration ≠ .loading := by
    rw [hmerging]
    exact fun h => by cases h
  rw [hfilter]
  have hmem : ∀ n, n ∈ mergeNotes s.notes list.reverse → n ∈ list ∨ n ∈ s.notes := fun n hn =>
    (mem_mergeNotes.mp hn).imp List.mem_reverse.mp And.left
  have hids : ∀ id, id ∈ s.notes.map VaultNote.id ∨ id ∈ list.map VaultNote.id →
      id ∈ (mergeNotes s.notes list.reverse).map VaultNote.id := by
    intro id hid
    by_cases hlist : id ∈ list.map VaultNote.id
    · obtain ⟨n, hn, rfl⟩ := List.mem_map.mp hlist
      exact List.mem_map_of_mem (mem_mergeNotes.mpr (Or.inl (List.mem_reverse.mpr hn)))
    · obtain ⟨n, hn, rfl⟩ := List.mem_map.mp (hid.resolve_right hlist)
      refine List.mem_map_of_mem (mem_mergeNotes.mpr (Or.inr ⟨hn, ?_⟩))
      rw [List.map_reverse, List.mem_reverse]
      exact hlist
  refine { hs with found := ?_, caughtUp := fun _ => hs.caughtUp hloading, nodup := ?_, shown := ?_, hidden := ?_, complete := ?_, list_nodup := ?_ }
  · intro c hc hgen hpatch hasked
    obtain ⟨hmark, hin, hshown⟩ := hs.found c hc hgen hpatch hasked
    exact ⟨hmark, hids _ (Or.inl hin), hshown⟩
  · apply nodup_mergeNotes hs.nodup
    rw [List.map_reverse, List.nodup_reverse]
    exact hs.list_nodup list hmerging
  · intro n hn
    rcases hmem n hn with hn | hn
    · obtain ⟨-, hadd, hread⟩ := hsafe n hn
      refine ⟨fun hdead => ?_, fun v hv => ?_⟩
      · rcases hread with hremove | ⟨hmark, hstored | ⟨c, hc, hon, hgen, hpatch⟩⟩
        · exact hremove
        · rcases hs.absent _ _ hdead with hnone | ⟨c, hc, hon, ⟨hvalue, hpending⟩ | ⟨hpatch, -, hgen⟩⟩
          · rw [hnone] at hstored
            cases hstored
          · by_cases hgen : c.startGen = s.generation
            · exact absurd (hon.2 ▸ hs.marked c hc hgen hvalue) hmark
            · rcases hs.caughtUp hloading c hc hon.1 hgen with hlanded | hremove
              · exact absurd (hpending.symm.trans hlanded) (by decide)
              · exact ⟨c, hc, hon, hremove⟩
          · have hdead' : m c.adapter c.write.id = none := by rw [hon.1, hon.2]; exact hdead
            exact absurd (hon.2 ▸ ((hs.removed c hc hdead').2 hpatch).1 hgen) hmark
        · have hdead' : m c.adapter c.write.id = none := by rw [hon.1, hon.2]; exact hdead
          exact absurd (hon.2 ▸ ((hs.removed c hc hdead').2 hpatch).1 hgen) hmark
      · rcases hread with ⟨c, hc, hon, hremove⟩ | ⟨-, hstored | hpatch⟩
        · have hwrites := hs.writes c hc v (by rw [hon.1, hon.2]; exact hv)
          rw [hremove.value_eq_none] at hwrites
          cases hwrites
        · rcases hs.stored _ _ v hv with hstored' | ⟨c, hc, hon, hpending⟩
          · exact Or.inl (Option.some.inj (hstored.symm.trans hstored'))
          · have hvalue := hs.writes c hc v (by rw [hon.1, hon.2]; exact hv)
            have hgen : c.startGen = s.generation := by
              by_contra hold
              rcases hs.caughtUp hloading c hc hon.1 hold with hlanded | hremove
              · exact absurd (hpending.symm.trans hlanded) (by decide)
              · exact absurd (hremove.value_eq_none.symm.trans hvalue) (by simp)
            rcases VaultWrite.isAdd_or_isPatch hvalue with hisadd | hispatch
            · exact absurd hisadd (hadd c hc hon hgen)
            · exact Or.inr ⟨c, hc, hon, hgen, hispatch⟩
        · exact Or.inr hpatch
    · exact hs.shown n hn
  · intro c hc hgen hadd hin
    obtain ⟨n, hn, hid⟩ := List.mem_map.mp hin
    rcases hmem n hn with hn | hn
    · exact (hsafe n hn).2.1 c hc ⟨hs.adapter_eq c hc hgen, hid.symm⟩ hgen hadd
    · exact hs.hidden c hc hgen hadd (hid ▸ List.mem_map_of_mem hn)
  · intro list' hread v hv
    rcases hs.complete list (by rw [hmerging]; rfl) v hv with hadd | hin
    · exact Or.inl hadd
    · exact Or.inr (Or.inl (hids _ hin))
  · intro list' hmerging'
    cases hmerging'

end Vault

variable [DecidableEq A] {keeps : ℕ → VaultNote δ → Bool}

/-- **Each safe step keeps the vault in line.** -/
theorem VaultWorld.Step.coherent {event : VaultEvent A δ} {w w' : VaultWorld A δ} (hs : w.vault.Coherent w.intended)
    (hsafe : event.Safe keeps w.vault) (hstep : w.Step keeps event w') : w'.vault.Coherent w'.intended := by
  obtain ⟨hvault, hintended⟩ := hstep
  rw [hintended]
  cases event with
  | switch adapter chainId =>
    rw [hvault]
    exact hs.switch adapter chainId hsafe
  | loadAll list =>
    obtain ⟨-, hlist, heq⟩ := hvault
    rw [heq]
    exact hs.loadAll hlist hsafe
  | merge =>
    obtain ⟨list, hmerging, heq⟩ := hvault
    rw [heq]
    exact hs.merge hmerging (hsafe list hmerging)
  | add adapter id chainId createdAt details =>
    obtain ⟨rfl, hnone, hfree⟩ := hsafe
    rw [hvault]
    exact hs.add ⟨id, -1, none, some chainId, createdAt, details⟩ hnone hfree
  | remove adapter id =>
    obtain ⟨rfl, hcalls⟩ := hsafe
    rw [hvault]
    exact hs.remove id hcalls
  | patch adapter id p =>
    rw [Vault.Step] at hvault
    rw [hvault, VaultWorld.intendedAfter]
    cases htarget : w.vault.patchTarget id p with
    | none => exact hs
    | some target =>
      obtain ⟨rfl, hfree, hrendered, hnotes, hstored⟩ := hsafe target htarget
      exact hs.patch htarget hfree hrendered hnotes hstored
  | land i =>
    obtain ⟨before, c, after, hcalls, -, hlanded, heq⟩ := hvault
    rw [heq]
    exact hs.land hcalls hlanded
  | finish i =>
    obtain ⟨before, c, after, hcalls, rfl, hlanded, heq⟩ := hvault
    rw [heq]
    apply hs.finish hcalls hlanded
    apply hsafe c
    rw [hcalls, List.getElem?_append_right le_rfl, Nat.sub_self]
    rfl
  | render =>
    rw [hvault]
    exact hs.render
  | mirror =>
    rw [hvault]
    exact hs.mirror

/-- **Vault memory mirrors storage.** After a run of safe steps, over any adapters, a settled vault has in each adapter what the calls asked for, and lists each note of the active adapter once. -/
theorem vault_mirrors_storage {storage : A → String → Option (VaultNote δ)} {adapter : A} {chainId : ℕ}
    {events : List (VaultEvent A δ)} {w : VaultWorld A δ}
    (hrun : Steps (fun event w w' => event.Safe keeps w.vault ∧ VaultWorld.Step keeps event w w') events
      (.mounted storage adapter chainId) w)
    (hsettled : w.vault.Settled) :
    w.vault.storage = w.intended ∧ (w.vault.rendered.map VaultNote.id).Nodup ∧
      ∀ n, n ∈ w.vault.rendered ↔ w.vault.storage w.vault.adapter n.id = some n := by
  have hcoherent : w.vault.Coherent w.intended :=
    hrun.invariant (I := fun w => w.vault.Coherent w.intended) (fun event _ w w' hs hevent => hevent.2.coherent hs hevent.1)
      (Vault.Coherent.mounted storage adapter chainId)
  exact hcoherent.settled hsettled

/-! ### One note -/

def deposited : VaultNote Unit := ⟨"n1", -1, none, some 1, 10, ()⟩

/-- Adapters that hold nothing, and adapters that hold the note. -/
def noNote : ℕ → String → Option (VaultNote Unit) := fun _ _ => none

def oneNote : ℕ → String → Option (VaultNote Unit) := fun _ id => if id = "n1" then some deposited else none

theorem noNote_listing : Listing (noNote 0) [] where
  nodup := List.nodup_nil
  mem_iff n := ⟨fun hn => absurd hn List.not_mem_nil, fun hn => by cases hn⟩
  sorted := List.Pairwise.nil

theorem listing_deposited {stored : String → Option (VaultNote Unit)}
    (hstored : ∀ id, stored id = if id = "n1" then some deposited else none) : Listing stored [deposited] where
  nodup := List.nodup_singleton _
  mem_iff n := by
    rw [List.mem_singleton, hstored]
    constructor
    · intro hn
      rw [hn]
      exact if_pos rfl
    · intro hn
      split at hn
      · exact (Option.some.inj hn).symm
      · cases hn
  sorted := List.pairwise_singleton _ _

def keepsAll : ℕ → VaultNote Unit → Bool := fun _ _ => true

/-- A deposit in a vault that was empty. -/
theorem vault_mirrors_storage_deposit : ∃ w : VaultWorld ℕ Unit, w.vault.rendered = [deposited] ∧
    w.vault.storage = w.intended ∧ (w.vault.rendered.map VaultNote.id).Nodup ∧
      ∀ n, n ∈ w.vault.rendered ↔ w.vault.storage w.vault.adapter n.id = some n := by
  have hrun : ∃ w : VaultWorld ℕ Unit, Steps (fun event w w' => event.Safe keepsAll w.vault ∧ VaultWorld.Step keepsAll event w w')
      [.loadAll [], .merge, .add 0 "n1" 1 10 (), .land 0, .finish 0, .render] (.mounted noNote 0 1) w ∧
      w.vault.rendered = [deposited] ∧ w.vault.Settled :=
    ⟨⟨_, _⟩, ⟨⟨_, _⟩, ⟨fun c hc => absurd hc List.not_mem_nil, ⟨rfl, noNote_listing, rfl⟩, rfl⟩,
      ⟨_, _⟩, ⟨fun list heq n hn => (by cases heq; exact absurd hn List.not_mem_nil), ⟨_, rfl, rfl⟩, rfl⟩,
      ⟨_, _⟩, ⟨⟨rfl, rfl, fun c hc => absurd hc List.not_mem_nil⟩, rfl, rfl⟩,
      ⟨_, _⟩, ⟨trivial, ⟨[], _, [], rfl, rfl, rfl, rfl⟩, rfl⟩,
      ⟨_, _⟩, ⟨fun c hc hremove => (by cases hc; cases hremove), ⟨[], _, [], rfl, rfl, rfl, rfl⟩, rfl⟩,
      ⟨_, _⟩, ⟨trivial, rfl, rfl⟩, rfl⟩, rfl, ⟨rfl, rfl, rfl⟩⟩
  obtain ⟨w, hrun, hrendered, hsettled⟩ := hrun
  exact ⟨w, hrendered, vault_mirrors_storage hrun hsettled⟩

/-- Two patches that lose a field, an `add` that is listed twice, and a removed note that comes back. -/
theorem vault_out_of_line :
    (∃ w : VaultWorld ℕ Unit, Steps (VaultWorld.Step keepsAll)
      [.loadAll [deposited], .merge, .render, .mirror, .patch 0 "n1" (.setLeafIndex 3), .patch 0 "n1" (.markFailed 20),
        .land 0, .finish 0, .land 0, .finish 0, .render] (.mounted oneNote 0 1) w ∧ w.vault.Settled ∧
      w.intended 0 "n1" = some { deposited with leafIndex := 3, failed := some 20 } ∧
      w.vault.storage 0 "n1" = some { deposited with failed := some 20 }) ∧
    (∃ w : VaultWorld ℕ Unit, Steps (VaultWorld.Step keepsAll)
      [.add 0 "n1" 1 10 (), .land 0, .loadAll [deposited], .merge, .finish 0, .render] (.mounted noNote 0 1) w ∧ w.vault.Settled ∧
      w.vault.rendered = [deposited, deposited]) ∧
    ∃ w : VaultWorld ℕ Unit, Steps (VaultWorld.Step keepsAll)
      [.loadAll [deposited], .remove 0 "n1", .land 0, .finish 0, .merge, .render] (.mounted oneNote 0 1) w ∧ w.vault.Settled ∧
      w.vault.storage 0 "n1" = none ∧ w.vault.rendered = [deposited] := by
  refine ⟨⟨⟨_, _⟩, ⟨⟨_, _⟩, ⟨⟨rfl, listing_deposited (fun _ => rfl), rfl⟩, rfl⟩, ⟨_, _⟩, ⟨⟨_, rfl, rfl⟩, rfl⟩, ⟨_, _⟩, ⟨rfl, rfl⟩, ⟨_, _⟩, ⟨rfl, rfl⟩,
      ⟨_, _⟩, ⟨rfl, rfl⟩, ⟨_, _⟩, ⟨rfl, rfl⟩,
      ⟨_, _⟩, ⟨⟨[], ⟨0, 1, .patch { deposited with leafIndex := 3 }, false⟩, [⟨0, 1, .patch { deposited with failed := some 20 }, false⟩],
        rfl, rfl, rfl, rfl⟩, rfl⟩,
      ⟨_, _⟩, ⟨⟨[], _, _, rfl, rfl, rfl, rfl⟩, rfl⟩,
      ⟨_, _⟩, ⟨⟨[], ⟨0, 1, .patch { deposited with failed := some 20 }, false⟩, [], rfl, rfl, rfl, rfl⟩, rfl⟩,
      ⟨_, _⟩, ⟨⟨[], ⟨0, 1, .patch { deposited with failed := some 20 }, true⟩, [], rfl, rfl, rfl, rfl⟩, rfl⟩,
      ⟨_, _⟩, ⟨rfl, rfl⟩, rfl⟩, ⟨rfl, rfl, rfl⟩, rfl, rfl⟩,
    ⟨⟨_, _⟩, ⟨⟨_, _⟩, ⟨rfl, rfl⟩, ⟨_, _⟩, ⟨⟨[], _, [], rfl, rfl, rfl, rfl⟩, rfl⟩, ⟨_, _⟩, ⟨⟨rfl, listing_deposited (fun id => ?_), rfl⟩, rfl⟩, ⟨_, _⟩, ⟨⟨_, rfl, rfl⟩, rfl⟩,
      ⟨_, _⟩, ⟨⟨[], _, [], rfl, rfl, rfl, rfl⟩, rfl⟩, ⟨_, _⟩, ⟨rfl, rfl⟩, rfl⟩, ⟨rfl, rfl, rfl⟩, rfl⟩,
    ⟨⟨_, _⟩, ⟨⟨_, _⟩, ⟨⟨rfl, listing_deposited (fun _ => rfl), rfl⟩, rfl⟩, ⟨_, _⟩, ⟨rfl, rfl⟩, ⟨_, _⟩, ⟨⟨[], _, [], rfl, rfl, rfl, rfl⟩, rfl⟩,
      ⟨_, _⟩, ⟨⟨[], _, [], rfl, rfl, rfl, rfl⟩, rfl⟩, ⟨_, _⟩, ⟨⟨_, rfl, rfl⟩, rfl⟩, ⟨_, _⟩, ⟨rfl, rfl⟩, rfl⟩, ⟨rfl, rfl, rfl⟩, rfl, rfl⟩⟩
  show Function.update noNote 0 (Function.update (noNote 0) "n1" (some deposited)) 0 id = _
  rw [Function.update_self, Function.update_apply, noNote]

end Sdk

end ScatterDex
