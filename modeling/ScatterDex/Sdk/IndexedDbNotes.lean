import ScatterDex.Library.Steps
import ScatterDex.Library.WriteBehind

/-!
# The note database of the SDK

`indexedDbAdapter.ts`, with encryption: a note is in memory at once, its record is encrypted, and only then the write transaction is opened. Transactions apply in the order they are opened. The key path of the object store is the id of the note.
-/

namespace ScatterDex

namespace Sdk

variable (ν : Type)

/-- `encrypt` and `decrypt` of the options, on the wire form of a note; a cipher depends on a nonce as well. -/
structure NoteCipher where
  id : ν → String
  encrypt : ℕ → ν → String
  decrypt : String → Option ν
  decrypt_encrypt : ∀ nonce note, decrypt (encrypt nonce note) = some note

/-- A call of the adapter that changes it. -/
inductive NoteDatabaseCall
  | put (note : ν)
  | remove (id : String)
  | clear

/-- The adapter: its map, its calls on the way to a transaction, the transactions that were opened, and the records. -/
structure NoteDatabase where
  mem : String → Option ν
  inFlight : List (NoteDatabaseCall ν)
  transactions : List (Write String String)
  records : String → Option String

/-- What happens next: a call gets past `ready`, a call with its record made opens its transaction, or the first transaction applies. -/
inductive NoteDatabaseEvent
  | call (call : NoteDatabaseCall ν)
  | openTransaction (i nonce : ℕ)
  | commit

variable {ν} (cipher : NoteCipher ν)

namespace NoteDatabaseCall

/-- What a call does to the map. -/
def write : NoteDatabaseCall ν → Write String ν
  | .put note => .put (cipher.id note) note
  | .remove id => .remove id
  | .clear => .clear

/-- What the transaction of a call does, with `toRecord` for a note. -/
def transaction (nonce : ℕ) : NoteDatabaseCall ν → Write String String
  | .put note => .put (cipher.id note) (cipher.encrypt nonce note)
  | .remove id => .remove id
  | .clear => .clear

end NoteDatabaseCall

/-- `recordToWire`: nothing for a record the key cannot open, or one that is bound to another id. -/
def recordToWire (id enc : String) : Option ν := (cipher.decrypt enc).filter fun wire => cipher.id wire = id

/-- The map after a reload. -/
def loadIntoMem (records : String → Option String) (id : String) : Option ν := (records id).bind (recordToWire cipher id)

namespace NoteDatabase

/-- A database that was loaded. -/
def loaded (records : String → Option String) : NoteDatabase ν := ⟨loadIntoMem cipher records, [], [], records⟩

def Step : NoteDatabaseEvent ν → NoteDatabase ν → NoteDatabase ν → Prop
  | .call call, s, s' => s' = { s with mem := (call.write cipher).apply s.mem, inFlight := s.inFlight ++ [call] }
  | .openTransaction i nonce, s, s' => ∃ call, s.inFlight[i]? = some call ∧
    s' = { s with inFlight := s.inFlight.eraseIdx i, transactions := s.transactions ++ [call.transaction cipher nonce] }
  | .commit, s, s' => ∃ t rest, s.transactions = t :: rest ∧
    s' = { s with transactions := rest, records := t.apply s.records }

/-- All calls have returned. -/
def Settled (s : NoteDatabase ν) : Prop := s.inFlight = [] ∧ s.transactions = []

end NoteDatabase

end Sdk

end ScatterDex
