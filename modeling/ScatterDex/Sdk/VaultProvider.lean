import Mathlib.Data.List.Sort
import Mathlib.Logic.Function.Basic
import ScatterDex.Library.Steps

/-!
# The vault provider

`createVaultProvider`: the notes of the active adapter in React state, with calls that write to an adapter first and update the state when that write has returned. State updates queue up, a render takes them in, and an effect after it copies the list to `notesRef`.
-/

namespace ScatterDex

namespace Sdk

/-- A stored note. `failed` is `status` with `failedAt`, which are set together. -/
structure VaultNote (δ : Type) where
  id : String
  leafIndex : ℤ
  failed : Option ℕ
  chainId : Option ℕ
  createdAt : ℕ
  details : δ

/-- The two ways to patch a note. -/
inductive VaultPatch
  | setLeafIndex (leafIndex : ℤ)
  | markFailed (now : ℕ)

/-- What a call does to an adapter; a `revert` is the `adapter.remove` at the end of `patchNote`. -/
inductive VaultWrite (δ : Type)
  | add (note : VaultNote δ)
  | remove (id : String)
  | patch (next : VaultNote δ)
  | revert (id : String)

/-- A call that has not returned: the adapter of its closure, `startGen`, and whether the adapter has done its write. -/
structure VaultCall (A δ : Type) where
  adapter : A
  startGen : ℕ
  write : VaultWrite δ
  landed : Bool

/-- Where the hydration of the current generation is: before `loadAll` has read, or before the list it read is merged. -/
inductive Hydration (δ : Type)
  | loading
  | merging (list : List (VaultNote δ))
  | done

/-- The adapters and the provider. `notes` is the state after all queued updates, `rendered` the state of the last render. -/
structure Vault (A δ : Type) where
  storage : A → String → Option (VaultNote δ)
  adapter : A
  chainId : ℕ
  generation : ℕ
  hydration : Hydration δ
  notes : List (VaultNote δ)
  rendered : List (VaultNote δ)
  notesRef : List (VaultNote δ)
  removedIds : List String
  calls : List (VaultCall A δ)

/-- What happens next. The adapter of a call is that of the render it was taken from. -/
inductive VaultEvent (A δ : Type)
  | switch (adapter : A) (chainId : ℕ)
  | loadAll (list : List (VaultNote δ))
  | merge
  | add (adapter : A) (id : String) (chainId createdAt : ℕ) (details : δ)
  | remove (adapter : A) (id : String)
  | patch (adapter : A) (id : String) (patch : VaultPatch)
  | land (i : ℕ)
  | finish (i : ℕ)
  | render
  | mirror

variable {A δ : Type}

namespace VaultPatch

def skipIf : VaultPatch → VaultNote δ → Bool
  | .setLeafIndex leafIndex, n => n.leafIndex = leafIndex
  | .markFailed _, n => n.failed.isSome

def patch : VaultPatch → VaultNote δ → VaultNote δ
  | .setLeafIndex leafIndex, n => { n with leafIndex := leafIndex }
  | .markFailed now, n => { n with failed := some now }

@[simp] theorem patch_id (p : VaultPatch) (n : VaultNote δ) : (p.patch n).id = n.id := by
  cases p with
  | setLeafIndex leafIndex => rfl
  | markFailed now => rfl

end VaultPatch

namespace VaultWrite

def id : VaultWrite δ → String
  | .add note => note.id
  | .remove id => id
  | .patch next => next.id
  | .revert id => id

/-- What the adapter holds under the id afterwards. -/
def value : VaultWrite δ → Option (VaultNote δ)
  | .add note => some note
  | .remove _ => none
  | .patch next => some next
  | .revert _ => none

def IsAdd : VaultWrite δ → Prop
  | .add _ => True
  | _ => False

def IsRemove : VaultWrite δ → Prop
  | .remove _ => True
  | _ => False

def IsPatch : VaultWrite δ → Prop
  | .patch _ => True
  | _ => False

end VaultWrite

/-- A list of all notes an adapter holds, oldest first. -/
structure Listing (stored : String → Option (VaultNote δ)) (list : List (VaultNote δ)) : Prop where
  nodup : (list.map VaultNote.id).Nodup
  mem_iff : ∀ n, n ∈ list ↔ stored n.id = some n
  sorted : list.Pairwise fun a b => a.createdAt ≤ b.createdAt

/-- The updater of `hydrate`: what `add` inserted before stays. -/
def mergeNotes (prev filtered : List (VaultNote δ)) : List (VaultNote δ) :=
  if prev = [] then filtered
  else
    let fresh := prev.filter fun n => n.id ∉ filtered.map VaultNote.id
    if fresh = [] then filtered
    else (fresh ++ filtered).mergeSort fun a b => b.createdAt ≤ a.createdAt

namespace Vault

/-- The effect of the first render, over adapters that hold some notes. -/
def mounted (storage : A → String → Option (VaultNote δ)) (adapter : A) (chainId : ℕ) : Vault A δ :=
  ⟨storage, adapter, chainId, 1, .loading, [], [], [], [], []⟩

/-- The note that `patchNote` starts from, if it gets to its `put`. -/
def patchTarget (s : Vault A δ) (id : String) (p : VaultPatch) : Option (VaultNote δ) :=
  if id ∈ s.removedIds then none
  else (s.notesRef.find? fun n => n.id = id).filter fun n => !p.skipIf n

/-- A call starts its write. -/
def start (s : Vault A δ) (adapter : A) (write : VaultWrite δ) : Vault A δ :=
  { s with calls := s.calls ++ [⟨adapter, s.generation, write, false⟩] }

/-- What a call does once its write has returned; `before` and `after` are the other calls. -/
def finish (s : Vault A δ) (before : List (VaultCall A δ)) (c : VaultCall A δ) (after : List (VaultCall A δ)) : Vault A δ :=
  match c.write with
  | .add note => { s with calls := before ++ after, notes := if c.startGen = s.generation then note :: s.notes else s.notes }
  | .remove id => { s with calls := before ++ after, notes := s.notes.filter fun n => n.id ≠ id }
  | .patch next =>
    if c.startGen ≠ s.generation then { s with calls := before ++ after }
    else if next.id ∈ s.removedIds ∨ next.id ∉ s.notesRef.map VaultNote.id then
      { s with calls := before ++ ⟨c.adapter, c.startGen, .revert next.id, false⟩ :: after }
    else { s with calls := before ++ after, notes := s.notes.map fun n => if n.id = next.id then next else n }
  | .revert _ => { s with calls := before ++ after }

end Vault

variable [DecidableEq A]

/-- `filterHydrated` keeps the notes that `keeps` accepts for a chain; a hydration that a later one replaces is cancelled and changes nothing. -/
def Vault.Step (keeps : ℕ → VaultNote δ → Bool) : VaultEvent A δ → Vault A δ → Vault A δ → Prop
  | .switch adapter chainId, s, s' => s' =
    { s with adapter := adapter, chainId := chainId, generation := s.generation + 1, hydration := .loading
             notes := [], notesRef := s.rendered, removedIds := [] }
  | .loadAll list, s, s' => s.hydration = .loading ∧ Listing (s.storage s.adapter) list ∧ s' = { s with hydration := .merging list }
  | .merge, s, s' => ∃ list, s.hydration = .merging list ∧
    s' = { s with hydration := .done, notes := mergeNotes s.notes (list.reverse.filter (keeps s.chainId)) }
  | .add adapter id chainId createdAt details, s, s' => s' = s.start adapter (.add ⟨id, -1, none, some chainId, createdAt, details⟩)
  | .remove adapter id, s, s' => s' = { s.start adapter (.remove id) with removedIds := id :: s.removedIds }
  | .patch adapter id p, s, s' => s' = (s.patchTarget id p).elim s fun target => s.start adapter (.patch (p.patch target))
  | .land i, s, s' => ∃ before c after, s.calls = before ++ c :: after ∧ before.length = i ∧ c.landed = false ∧
    s' = { s with
      calls := before ++ { c with landed := true } :: after
      storage := Function.update s.storage c.adapter (Function.update (s.storage c.adapter) c.write.id c.write.value) }
  | .finish i, s, s' => ∃ before c after, s.calls = before ++ c :: after ∧ before.length = i ∧ c.landed = true ∧
    s' = s.finish before c after
  | .render, s, s' => s' = { s with rendered := s.notes }
  | .mirror, s, s' => s' = { s with notesRef := s.rendered }

/-- Nothing is on its way, and the last render has everything. -/
structure Vault.Settled (s : Vault A δ) : Prop where
  calls : s.calls = []
  hydration : s.hydration = .done
  rendered : s.rendered = s.notes

end Sdk

end ScatterDex
