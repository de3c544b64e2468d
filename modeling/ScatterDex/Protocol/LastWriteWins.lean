import Mathlib.Data.List.InsertIdx
import ScatterDex.Pro.FolderOrders
import ScatterDex.Sdk.IndexedDbNotes

/-!
# The last write

The note database and the orders folder are write-behind stores: what a reload would find takes the place of the store. Their calls do not queue behind one another, and the last write wins as long as none overtakes an earlier one about the same entry.
-/

namespace ScatterDex

namespace Sdk

variable {ν : Type} {cipher : NoteCipher ν}

theorem recordToWire_encrypt (nonce : ℕ) (note : ν) : recordToWire cipher (cipher.id note) (cipher.encrypt nonce note) = some note := by
  rw [recordToWire, cipher.decrypt_encrypt, Option.filter_some, if_pos (decide_eq_true rfl)]

/-- A transaction changes what a reload finds the way its call changed the map. -/
theorem loadIntoMem_transaction (call : NoteDatabaseCall ν) (nonce : ℕ) (records : String → Option String) :
    loadIntoMem cipher ((call.transaction cipher nonce).apply records) = (call.write cipher).apply (loadIntoMem cipher records) := by
  funext id
  cases call with
  | put note =>
    show ((Function.update records _ _) id).bind _ = Function.update (loadIntoMem cipher records) _ _ id
    by_cases hid : id = cipher.id note
    · subst hid
      rw [Function.update_self, Function.update_self]
      exact recordToWire_encrypt nonce note
    · rw [Function.update_of_ne hid, Function.update_of_ne hid]
      rfl
  | remove removed =>
    show ((Function.update records _ _) id).bind _ = Function.update (loadIntoMem cipher records) _ _ id
    by_cases hid : id = removed
    · subst hid
      rw [Function.update_self, Function.update_self]
      rfl
    · rw [Function.update_of_ne hid, Function.update_of_ne hid]
      rfl
  | clear => rfl

namespace NoteDatabase

variable {s s' : NoteDatabase ν}

variable (cipher) in
/-- The store of a database is what a reload finds once the opened transactions have applied. -/
def view (s : NoteDatabase ν) : WriteBehind.State String ν where
  mem := s.mem
  inFlight := s.inFlight.map fun call => call.write cipher
  store := loadIntoMem cipher (WriteBehind.replay s.transactions s.records)

variable (cipher) in
/-- No transaction is opened before that of an earlier call about the same note. -/
def InOrder (s : NoteDatabase ν) : NoteDatabaseEvent ν → Prop
  | .openTransaction i _ => WriteBehind.InOrder (s.view cipher).inFlight i
  | _ => True

theorem view_loaded (records : String → Option String) : WriteBehind.Coherent ((loaded cipher records).view cipher) := rfl

theorem Step.coherent {event : NoteDatabaseEvent ν} (hs : WriteBehind.Coherent (s.view cipher)) (horder : s.InOrder cipher event)
    (hstep : Step cipher event s s') : WriteBehind.Coherent (s'.view cipher) := by
  cases event with
  | call call =>
    obtain rfl := hstep
    have hview : view cipher { s with mem := (call.write cipher).apply s.mem, inFlight := s.inFlight ++ [call] } =
        (s.view cipher).call (call.write cipher) := by
      rw [view, List.map_append]
      rfl
    rw [hview]
    exact hs.call _
  | openTransaction i nonce =>
    obtain ⟨call, hcall, rfl⟩ := hstep
    have hwrite : (s.view cipher).inFlight[i]? = some (call.write cipher) := by
      rw [view, List.getElem?_map, hcall]
      rfl
    have hland := hs.land hwrite horder
    rw [WriteBehind.State.land, view] at hland
    rw [view, WriteBehind.replay_append, ← List.eraseIdx_map]
    show WriteBehind.Coherent ⟨_, _, loadIntoMem cipher ((call.transaction cipher nonce).apply _)⟩
    rw [loadIntoMem_transaction]
    exact hland
  | commit =>
    obtain ⟨t, rest, hopened, rfl⟩ := hstep
    have hview : view cipher { s with transactions := rest, records := t.apply s.records } = s.view cipher := by
      rw [view, view, hopened]
      rfl
    rw [hview]
    exact hs

end NoteDatabase

end Sdk

namespace Pro

variable {ο : Type} {filePrefix : String} {orderId : ο → String}

namespace OrderFiles

theorem replay_filter_ne (orderId : ο → String) (entries : List (String × ο)) (id : String) (m : String → Option ο) :
    WriteBehind.replay ((entries.filter fun file => orderId file.2 ≠ id).map fun file => .put (orderId file.2) file.2)
      (Function.update m id none) =
    Function.update (WriteBehind.replay (entries.map fun file => .put (orderId file.2) file.2) m) id none := by
  induction entries generalizing m with
  | nil => rfl
  | cons file entries ih =>
    show _ = Function.update (WriteBehind.replay _ (Function.update m (orderId file.2) (some file.2))) id none
    rw [← ih]
    by_cases hid : orderId file.2 = id
    · rw [List.filter_cons_of_neg (by simpa using hid), hid, Function.update_idem]
    · rw [List.filter_cons_of_pos (by simpa using hid), ← Function.update_comm (Ne.symm hid)]
      rfl

theorem loadAll_removeFile (files : OrderFiles filePrefix orderId) (id : String) :
    (files.removeFile id).loadAll = Function.update files.loadAll id none := by
  have hentries : (files.removeFile id).entries = files.entries.filter fun file => orderId file.2 ≠ id := by
    apply List.filter_congr
    intro file hfile
    rw [files.named file hfile, decide_eq_decide, (fileFor_injective filePrefix).ne_iff]
  have hnone : Function.update (fun _ => none) id none = fun _ : String => (none : Option ο) := Function.update_eq_self id _
  have hreplay := replay_filter_ne orderId files.entries id fun _ => none
  rw [hnone, ← hentries] at hreplay
  exact hreplay

theorem loadAll_saveFile (files : OrderFiles filePrefix orderId) (order : ο) :
    (files.saveFile order).loadAll = Function.update files.loadAll (orderId order) (some order) := by
  rw [loadAll, saveFile, List.map_append, WriteBehind.replay_append]
  show Function.update (files.removeFile (orderId order)).loadAll (orderId order) (some order) = _
  rw [loadAll_removeFile, Function.update_idem]

end OrderFiles

theorem loadAll_writeFile (call : OrdersCall ο) (files : OrderFiles filePrefix orderId) :
    (call.writeFile files).loadAll = (call.write orderId).apply files.loadAll := by
  cases call with
  | put order => exact files.loadAll_saveFile order
  | remove id => exact files.loadAll_removeFile id

namespace OrdersFolder

variable {s s' : OrdersFolder filePrefix orderId}

/-- The store of a folder is what a reload finds. -/
def view (s : OrdersFolder filePrefix orderId) : WriteBehind.State String ο where
  mem := s.mem
  inFlight := s.inFlight.map (OrdersCall.write orderId)
  store := s.files.loadAll

/-- No file operation takes effect before that of an earlier call about the same order. -/
def InOrder (s : OrdersFolder filePrefix orderId) : OrdersEvent ο → Prop
  | .land i => WriteBehind.InOrder s.view.inFlight i
  | .call _ => True

theorem view_loaded (files : OrderFiles filePrefix orderId) : WriteBehind.Coherent (loaded files).view := rfl

theorem Step.coherent {event : OrdersEvent ο} (hs : WriteBehind.Coherent s.view) (horder : s.InOrder event)
    (hstep : Step event s s') : WriteBehind.Coherent s'.view := by
  cases event with
  | call call =>
    obtain rfl := hstep
    have hview : view { s with mem := (call.write orderId).apply s.mem, inFlight := s.inFlight ++ [call] } =
        s.view.call (call.write orderId) := by
      rw [view, List.map_append]
      rfl
    rw [hview]
    exact hs.call _
  | land i =>
    obtain ⟨call, hcall, rfl⟩ := hstep
    have hwrite : s.view.inFlight[i]? = some (call.write orderId) := by
      rw [view, List.getElem?_map, hcall]
      rfl
    have hland := hs.land hwrite horder
    rw [WriteBehind.State.land, view] at hland
    rw [view, ← List.eraseIdx_map, loadAll_writeFile]
    exact hland

end OrdersFolder

end Pro

/-- **The last write wins.** After a run in which no write overtakes an earlier one about the same entry, a settled store holds what is in memory. -/
theorem last_write_wins {ν ο : Type} {filePrefix : String} {orderId : ο → String} (cipher : Sdk.NoteCipher ν)
    (records : String → Option String) (files : Pro.OrderFiles filePrefix orderId) :
    (∀ (events : List (Sdk.NoteDatabaseEvent ν)) (s : Sdk.NoteDatabase ν),
      Steps (fun event s s' => s.InOrder cipher event ∧ Sdk.NoteDatabase.Step cipher event s s') events
        (.loaded cipher records) s →
      s.Settled → Sdk.loadIntoMem cipher s.records = s.mem) ∧
    ∀ (events : List (Pro.OrdersEvent ο)) (s : Pro.OrdersFolder filePrefix orderId),
      Steps (fun event s s' => s.InOrder event ∧ Pro.OrdersFolder.Step event s s') events (.loaded files) s →
      s.Settled → s.files.loadAll = s.mem := by
  constructor
  · intro events s hrun hsettled
    have hcoherent : WriteBehind.Coherent (s.view cipher) :=
      hrun.invariant (I := fun s => WriteBehind.Coherent (Sdk.NoteDatabase.view cipher s))
        (fun event _ s s' hs hevent => hevent.2.coherent hs hevent.1) (Sdk.NoteDatabase.view_loaded records)
    have hstore := hcoherent.settled (List.map_eq_nil_iff.mpr hsettled.1)
    rw [Sdk.NoteDatabase.view, hsettled.2] at hstore
    exact hstore
  · intro events s hrun hsettled
    have hcoherent : WriteBehind.Coherent s.view :=
      hrun.invariant (I := fun s => WriteBehind.Coherent (Pro.OrdersFolder.view s))
        (fun event _ s s' hs hevent => hevent.2.coherent hs hevent.1) (Pro.OrdersFolder.view_loaded files)
    exact hcoherent.settled (List.map_eq_nil_iff.mpr hsettled)

/-! ### Two versions of a note, and two of an order -/

/-- A cipher that marks what it has sealed. The first two letters of a note are its id. -/
def sealing : Sdk.NoteCipher String where
  id note := String.ofList (note.toList.take 2)
  encrypt _ note := "sealed:" ++ note
  decrypt enc := if enc.toList.take 7 = "sealed:".toList then some (String.ofList (enc.toList.drop 7)) else none
  decrypt_encrypt nonce note := by
    have hmark : "sealed:".toList.length = 7 := by decide
    rw [String.toList_append, List.take_left' hmark, if_pos rfl, List.drop_left' hmark, String.ofList_toList]

def noRecords : String → Option String := fun _ => none

def noFiles : Pro.OrderFiles "order-" (Prod.fst : String × ℕ → String) := ⟨[], by simp⟩

/-- The first version, the second, and their transactions or file operations in the order of a list. -/
def twoNotes (places : List ℕ) : List (Sdk.NoteDatabaseEvent String) :=
  [.call (.put "n1 pending"), .call (.put "n1 failed")] ++ places.map (.openTransaction · 0) ++ [.commit, .commit]

def twoOrders (places : List ℕ) : List (Pro.OrdersEvent (String × ℕ)) :=
  [.call (.put ("o1", 1)), .call (.put ("o1", 2))] ++ places.map .land

theorem last_write_wins_twice :
    (∃ s, Steps (Sdk.NoteDatabase.Step sealing) (twoNotes [0, 0]) (.loaded sealing noRecords) s ∧ s.Settled ∧
      Sdk.loadIntoMem sealing s.records = s.mem) ∧
    ∃ s, Steps Pro.OrdersFolder.Step (twoOrders [0, 0]) (.loaded noFiles) s ∧ s.Settled ∧ s.files.loadAll = s.mem := by
  constructor
  · refine ⟨_, ⟨_, rfl, _, rfl, _, ⟨_, rfl, rfl⟩, _, ⟨_, rfl, rfl⟩, _, ⟨_, _, rfl, rfl⟩, _, ⟨_, _, rfl, rfl⟩, rfl⟩, ⟨rfl, rfl⟩,
      (last_write_wins sealing noRecords noFiles).1 (twoNotes [0, 0]) _
        ⟨_, ⟨trivial, rfl⟩, _, ⟨trivial, rfl⟩, _, ⟨WriteBehind.inOrder_zero _, _, rfl, rfl⟩, _, ⟨WriteBehind.inOrder_zero _, _, rfl, rfl⟩,
          _, ⟨trivial, _, _, rfl, rfl⟩, _, ⟨trivial, _, _, rfl, rfl⟩, rfl⟩ ⟨rfl, rfl⟩⟩
  · refine ⟨_, ⟨_, rfl, _, rfl, _, ⟨_, rfl, rfl⟩, _, ⟨_, rfl, rfl⟩, rfl⟩, rfl,
      (last_write_wins sealing noRecords noFiles).2 (twoOrders [0, 0]) _
        ⟨_, ⟨trivial, rfl⟩, _, ⟨trivial, rfl⟩, _, ⟨WriteBehind.inOrder_zero _, _, rfl, rfl⟩, _, ⟨WriteBehind.inOrder_zero _, _, rfl, rfl⟩,
          rfl⟩ rfl⟩

/-- The second version is ready first, and the first version is what a reload finds. -/
theorem first_write_wins :
    (∃ s, Steps (Sdk.NoteDatabase.Step sealing) (twoNotes [1, 0]) (.loaded sealing noRecords) s ∧ s.Settled ∧
      s.mem "n1" = some "n1 failed" ∧ Sdk.loadIntoMem sealing s.records "n1" = some "n1 pending") ∧
    (∃ s, Steps Pro.OrdersFolder.Step (twoOrders [1, 0]) (.loaded noFiles) s ∧ s.Settled ∧
      s.mem "o1" = some ("o1", 2) ∧ s.files.loadAll "o1" = some ("o1", 1)) ∧
    -- a note that is removed while it is encrypted
    ∃ s, Steps (Sdk.NoteDatabase.Step sealing)
      [.call (.put "n1 pending"), .call (.remove "n1"), .openTransaction 1 0, .openTransaction 0 0, .commit, .commit]
      (.loaded sealing noRecords) s ∧ s.Settled ∧ s.mem "n1" = none ∧ Sdk.loadIntoMem sealing s.records "n1" = some "n1 pending" := by
  refine ⟨⟨_, ⟨_, rfl, _, rfl, _, ⟨_, rfl, rfl⟩, _, ⟨_, rfl, rfl⟩, _, ⟨_, _, rfl, rfl⟩, _, ⟨_, _, rfl, rfl⟩, rfl⟩, ⟨rfl, rfl⟩, ?_, ?_⟩,
    ⟨_, ⟨_, rfl, _, rfl, _, ⟨_, rfl, rfl⟩, _, ⟨_, rfl, rfl⟩, rfl⟩, rfl, ?_, ?_⟩,
    ⟨_, ⟨_, rfl, _, rfl, _, ⟨_, rfl, rfl⟩, _, ⟨_, rfl, rfl⟩, _, ⟨_, _, rfl, rfl⟩, _, ⟨_, _, rfl, rfl⟩, rfl⟩, ⟨rfl, rfl⟩, ?_, ?_⟩⟩
  all_goals decide +kernel

end ScatterDex
