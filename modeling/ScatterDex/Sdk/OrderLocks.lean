import Mathlib.Data.Nat.Size
import Mathlib.Data.Rat.Defs
import ScatterDex.Sdk.FolderNotes

/-!
# Notes that the orders of other apps lock

`storage/orderLocks.ts`: the order files of all apps for one chain and account, read without trust in what is in them.
-/

namespace ScatterDex

namespace Sdk

/-! ### Number -/

/-- A number that is an integer, or infinite. -/
inductive JsNumber
  | finite (n : ℤ)
  | infinite (negative : Bool)
  deriving DecidableEq

/-- The double nearest to a natural number, and the even one of two; nothing where it is infinite. -/
def toDouble (n : ℕ) : Option ℕ :=
  let unit := 2 ^ (n.size - 53)
  let low := n / unit
  let rest := n % unit
  let rounded := if 2 * rest < unit ∨ 2 * rest = unit ∧ low % 2 = 0 then low else low + 1
  if rounded * unit < 2 ^ 1024 then some (rounded * unit) else none

namespace JsNumber

/-- `Number(n)` -/
def ofInt (n : ℤ) : JsNumber :=
  match toDouble n.natAbs with
  | some m => .finite (n.sign * m)
  | none => .infinite (n < 0)

def isFinite : JsNumber → Bool
  | .finite _ => true
  | .infinite _ => false

/-- `x * 1000` -/
def thousandfold : JsNumber → JsNumber
  | .finite n => ofInt (n * 1000)
  | .infinite negative => .infinite negative

/-- `x <= nowMs` -/
def le (nowMs : ℚ) : JsNumber → Bool
  | .finite n => (n : ℚ) ≤ nowMs
  | .infinite negative => negative

end JsNumber

/-- The value of a string that `/^0x[0-9a-fA-F]+$/` matches. -/
def cleanHex (s : String) : Option ℕ :=
  match s.toList with
  | '0' :: 'x' :: digits => if digits ≠ [] ∧ digits.all isHexDigit then readDigits 16 (digits.map Char.toLower) else none
  | _ => none

/-! ### orderLocks.ts -/

/-- What is read of an order file. A field is `none` when it is missing or no string. -/
structure OrderLockRow where
  status : Option String
  noteId : Option String
  expiryHex : Option String
  changeCommitmentHex : Option String
  deriving DecidableEq

def isOrderExpiredHex (expiryHex : Option String) (nowMs : ℚ) : Bool :=
  match expiryHex.bind cleanHex with
  | none => false
  | some value =>
    let sec := JsNumber.ofInt value
    if !sec.isFinite then false else sec.thousandfold.le nowMs

def OPEN_ORDER_STATUSES : List String := ["matching", "claimable"]

namespace OrderLockRow

def expiredMatching (row : OrderLockRow) (nowMs : ℚ) : Bool := row.status = some "matching" ∧ isOrderExpiredHex row.expiryHex nowMs

def orderRowLocksNote (row : OrderLockRow) (nowMs : ℚ) : Bool :=
  if row.noteId = none ∨ row.noteId = some "" then false
  else if !row.status.any (· ∈ OPEN_ORDER_STATUSES) then false
  else if row.expiredMatching nowMs then false
  else true

end OrderLockRow

def noteIdForCommitmentHex (hex : Option String) : Option String :=
  (hex.bind cleanHex).map fun value => String.ofList (idForCommitment value)

/-- `.` of a pattern -/
def isDot (c : Char) : Bool := c ≠ '\n' ∧ c ≠ '\r' ∧ c.toNat ≠ 8232 ∧ c.toNat ≠ 8233

/-- `[a-z0-9]` -/
def isSlugChar (c : Char) : Bool := 'a' ≤ c ∧ c ≤ 'z' ∨ '0' ≤ c ∧ c ≤ '9'

/-- The app in a file name, when the pattern of the order files of a chain and an account matches it. -/
def orderFileApp (chainId : ℕ) (acct filename : String) : Option String :=
  let chars := filename.toList.drop "zkscatter-".length
  let app := chars.takeWhile isSlugChar
  let rest := chars.dropWhile isSlugChar
  let middle := ("-order-" ++ toString chainId ++ "-" ++ acct ++ "-").toList
  let body := rest.drop middle.length
  let id := body.take (body.length - ".json".length)
  if "zkscatter-".toList <+: filename.toList ∧ app ≠ [] ∧ middle <+: rest ∧ ".json".toList <:+ body ∧ id ≠ [] ∧ id.all isDot then
    some (String.ofList app)
  else none

structure CrossAppNoteStates where
  lockedNoteIds : List String
  discardedNoteIds : List String
  deriving DecidableEq

/-- A file of the folder, with the row in it; `none` when it cannot be read as an object. -/
abbrev FolderRow := String × Option OrderLockRow

/-- The rows of the files of the apps that are not excluded. The folder is `none` when it is not available. -/
def orderRows (chainId : ℕ) (accountKey : String) (excludeApp : Option String) (folder : Option (List FolderRow)) : List OrderLockRow :=
  let exclude := excludeApp.map fun app => (String.ofList (trim app)).toLower
  let acct := String.ofList (toLowerCase accountKey)
  let entries := (folder.getD []).filter fun file => (orderFileApp chainId acct file.1).any fun app => some app ≠ exclude
  entries.filterMap Prod.snd

def loadCrossAppNoteStates (chainId : ℕ) (accountKey : String) (excludeApp : Option String) (nowMs : ℚ) (folder : Option (List FolderRow)) :
    CrossAppNoteStates :=
  let rows := orderRows chainId accountKey excludeApp folder
  { lockedNoteIds := (rows.filter fun row => row.orderRowLocksNote nowMs).filterMap OrderLockRow.noteId
    discardedNoteIds := (rows.filter fun row => row.expiredMatching nowMs).filterMap fun row => noteIdForCommitmentHex row.changeCommitmentHex }

end Sdk

end ScatterDex
