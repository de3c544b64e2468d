import Mathlib.Data.List.Sort
import ScatterDex.Sdk.Text

/-!
# The notes folder of the SDK

`folderAdapter.ts`: every version of a note is a file of its own, named after the time it was written, and an adapter remembers under which names it last saw each note. A file that cannot be read as a note is there without one. Which removals fail, what the clock says and in which order the folder lists its files are parameters.
-/

namespace ScatterDex

namespace Sdk

abbrev FileName := List Char

/-- A note of the vault; `details` are the fields the adapter only passes on. -/
structure FolderNote (δ : Type) where
  commitment : ℕ
  leafIndex : ℤ
  createdAt : ℤ
  chainId : Option ℕ
  account : Option (List Char)
  details : δ
  deriving DecidableEq

/-- `idForCommitment` -/
def idForCommitment (commitment : ℕ) : List Char := 'c' :: '-' :: Nat.toDigits 16 commitment

structure FolderAdapterOpts where
  chainId : Option ℕ
  accountKey : Option (List Char)

/-- `/^0x[0-9a-f]{40}$/` -/
def isLowerAddress : List Char → Bool
  | '0' :: 'x' :: digits => digits.length = 40 ∧ digits.all fun c => isDigit c ∨ 'a' ≤ c ∧ c ≤ 'f'
  | _ => false

def FolderAdapterOpts.accountFilter (opts : FolderAdapterOpts) : Option (List Char) :=
  (opts.accountKey.map fun key => key.map Char.toLower).filter isLowerAddress

def notePrefix : List Char := "zkscatter-note-".toList

def noteExtension : List Char := ".json".toList

/-- The files the adapter looks at. -/
def isNoteFile (name : FileName) : Bool := notePrefix.isPrefixOf name && noteExtension.isSuffixOf name

/-- The characters of `[a-zA-Z0-9_-]`. -/
def isNameChar (c : Char) : Bool := isDigit c ∨ 'a' ≤ c ∧ c ≤ 'z' ∨ 'A' ≤ c ∧ c ≤ 'Z' ∨ c = '_' ∨ c = '-'

/-- The name of the file a version is written to. -/
def noteFilename (leafIndex : ℤ) (now : ℕ) (id : List Char) : FileName :=
  notePrefix ++ ((toString leafIndex).toList ++ '-' :: (toString now).toList ++ '-' :: (id.filter isNameChar).take 12) ++
    noteExtension

variable {δ : Type}

def FolderNote.id (note : FolderNote δ) : List Char := idForCommitment note.commitment

/-- The chain and the account of a note are those of the adapter, where both are known. -/
def FolderAdapterOpts.inScope (opts : FolderAdapterOpts) (note : FolderNote δ) : Bool :=
  (opts.chainId = none ∨ note.chainId = none ∨ note.chainId = opts.chainId) ∧
    (opts.accountFilter = none ∨ note.account = none ∨ note.account = opts.accountFilter)

/-- The files by their names: none, one that is no note, or a note. -/
abbrev Folder (δ : Type) := FileName → Option (Option (FolderNote δ))

/-- The folder, and what each adapter over it remembers. -/
structure FolderState (δ : Type) where
  files : Folder δ
  filenamesById : ℕ → List Char → Option (List FileName)

/-- What `put` writes: the note under the wallet of the adapter, with the address in lower case. -/
def FolderAdapterOpts.stamped (opts : FolderAdapterOpts) (note : FolderNote δ) : FolderNote δ :=
  { note with account := (note.account <|> opts.accountFilter).map fun account => account.map Char.toLower }

/-- Remove the files of a list, but for those whose removal fails. -/
def removeFiles (files : Folder δ) (names : FileName → Bool) (fails : FileName → Bool) : Folder δ :=
  fun name => if names name ∧ ¬fails name then none else files name

namespace FolderAdapterOpts

variable (opts : FolderAdapterOpts)

/-- The note of a file the adapter shows. -/
def readNote (files : Folder δ) (name : FileName) : Option (FolderNote δ) := (files name).join.filter opts.inScope

/-- The file holds the note of an id. -/
def holds (files : Folder δ) (id : List Char) (name : FileName) : Bool :=
  (opts.readNote files name).any fun note => note.id = id

/-- A later version: one with a place in the tree over one without, else the one created later. -/
def newer (note prev : FolderNote δ) : Bool :=
  ¬prev.leafIndex ≥ 0 ∧ note.leafIndex ≥ 0 ∨
    (prev.leafIndex ≥ 0 ↔ note.leafIndex ≥ 0) ∧ note.createdAt > prev.createdAt

/-- One file of the loop of `loadAll`: the notes so far, one of each commitment. -/
def keepNewer (byCommitment : List (FolderNote δ)) (note : FolderNote δ) : List (FolderNote δ) :=
  match byCommitment.find? fun prev => prev.commitment = note.commitment with
  | none => byCommitment ++ [note]
  | some prev =>
    if newer note prev then byCommitment.map fun n => if n.commitment = note.commitment then note else n
    else byCommitment

/-- The notes `loadAll` returns of a folder that lists its files in an order. -/
def loadedNotes (files : Folder δ) (order : List FileName) : List (FolderNote δ) :=
  ((order.filterMap (opts.readNote files)).foldl keepNewer []).mergeSort fun a b => a.createdAt ≤ b.createdAt

/-- The names `loadAll` remembers. -/
def loadedNames (files : Folder δ) (order : List FileName) (id : List Char) : Option (List FileName) :=
  let names := order.filter (opts.holds files id)
  if names = [] then none else some names

def loadAll (adapter : ℕ) (order : List FileName) (s : FolderState δ) : FolderState δ × List (FolderNote δ) :=
  ({ s with filenamesById := Function.update s.filenamesById adapter (opts.loadedNames s.files order) },
    opts.loadedNotes s.files order)

/-- `put`: the new file first, then the files the adapter remembers. -/
def put (adapter : ℕ) (note : FolderNote δ) (now : ℕ) (fails : FileName → Bool) (s : FolderState δ) : FolderState δ :=
  let filename := noteFilename note.leafIndex now note.id
  let written := Function.update s.files filename (some (some (opts.stamped note)))
  let stale := (s.filenamesById adapter note.id).getD []
  { files := removeFiles written (· ∈ stale) fails
    filenamesById := Function.update s.filenamesById adapter
      (Function.update (s.filenamesById adapter) note.id (some [filename])) }

/-- `remove`, and whether it returns: on the cold path a removal that fails is thrown. -/
def remove (adapter : ℕ) (id : List Char) (fails : FileName → Bool) (s : FolderState δ) : FolderState δ × Prop :=
  match s.filenamesById adapter id with
  | some cached =>
    ({ files := removeFiles s.files (· ∈ cached) fails
       filenamesById := Function.update s.filenamesById adapter (Function.update (s.filenamesById adapter) id none) }, True)
  | none =>
    let found := fun name => isNoteFile name && opts.holds s.files id name
    ({ s with files := removeFiles s.files found fails }, ∀ name, found name = true → fails name = false)

end FolderAdapterOpts

end Sdk

end ScatterDex
