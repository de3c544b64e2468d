import ScatterDex.Library.Steps
import ScatterDex.Library.WriteBehind

/-!
# The orders folder of Pro

`createFolderOrdersAdapter`: one file for each order. A `put` or a `remove` is in memory at once, and its file is written or removed some time later.
-/

namespace ScatterDex

namespace Pro

/-- `fileFor` -/
def fileFor (filePrefix orderId : String) : String := filePrefix ++ orderId ++ ".json"

theorem fileFor_injective (filePrefix : String) : Function.Injective (fileFor filePrefix) := by
  intro a b heq
  have hlist := congrArg String.toList heq
  simp only [fileFor, String.toList_append, List.append_assoc] at hlist
  exact String.toList_inj.mp (List.append_cancel_right (List.append_cancel_left hlist))

variable {ο : Type}

/-- The files that the adapter lists, with the orders in them: each is named for its order. -/
structure OrderFiles (filePrefix : String) (orderId : ο → String) where
  entries : List (String × ο)
  named : ∀ file ∈ entries, file.1 = fileFor filePrefix (orderId file.2)

/-- A call of the adapter that changes it. -/
inductive OrdersCall (ο : Type)
  | put (order : ο)
  | remove (id : String)

/-- What happens next: a call gets past `ensureLoaded`, or the file operation of a call takes effect. -/
inductive OrdersEvent (ο : Type)
  | call (call : OrdersCall ο)
  | land (i : ℕ)

variable {filePrefix : String} {orderId : ο → String}

namespace OrderFiles

/-- `removeFile` of an order's file. -/
def removeFile (files : OrderFiles filePrefix orderId) (id : String) : OrderFiles filePrefix orderId where
  entries := files.entries.filter fun file => file.1 ≠ fileFor filePrefix id
  named file hfile := files.named file (List.mem_of_mem_filter hfile)

/-- `saveFile` of an order: a file of that name is replaced. -/
def saveFile (files : OrderFiles filePrefix orderId) (order : ο) : OrderFiles filePrefix orderId where
  entries := (files.removeFile (orderId order)).entries ++ [(fileFor filePrefix (orderId order), order)]
  named file hfile := by
    rcases List.mem_append.mp hfile with hold | hnew
    · exact (files.removeFile (orderId order)).named file hold
    · rw [List.mem_singleton.mp hnew]

/-- The map after a reload: the order of each file, in turn. -/
def loadAll (files : OrderFiles filePrefix orderId) : String → Option ο :=
  WriteBehind.replay (files.entries.map fun file => .put (orderId file.2) file.2) fun _ => none

end OrderFiles

namespace OrdersCall

/-- What a call does to the map. -/
def write (orderId : ο → String) : OrdersCall ο → Write String ο
  | .put order => .put (orderId order) order
  | .remove id => .remove id

/-- What the file operation of a call does. -/
def writeFile : OrdersCall ο → OrderFiles filePrefix orderId → OrderFiles filePrefix orderId
  | .put order, files => files.saveFile order
  | .remove id, files => files.removeFile id

end OrdersCall

/-- The adapter: its map, the calls whose file operation is on the way, and the files. -/
structure OrdersFolder (filePrefix : String) (orderId : ο → String) where
  mem : String → Option ο
  inFlight : List (OrdersCall ο)
  files : OrderFiles filePrefix orderId

namespace OrdersFolder

/-- A folder that was loaded. -/
def loaded (files : OrderFiles filePrefix orderId) : OrdersFolder filePrefix orderId := ⟨files.loadAll, [], files⟩

def Step : OrdersEvent ο → OrdersFolder filePrefix orderId → OrdersFolder filePrefix orderId → Prop
  | .call call, s, s' => s' = { s with mem := (call.write orderId).apply s.mem, inFlight := s.inFlight ++ [call] }
  | .land i, s, s' => ∃ call, s.inFlight[i]? = some call ∧
    s' = { s with inFlight := s.inFlight.eraseIdx i, files := call.writeFile s.files }

/-- All calls have returned. -/
def Settled (s : OrdersFolder filePrefix orderId) : Prop := s.inFlight = []

end OrdersFolder

end Pro

end ScatterDex
