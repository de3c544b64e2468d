import Mathlib.Data.List.DropRight
import ScatterDex.Sdk.Commitment

/-!
# Text fields

The string operations of the clients: white space, the patterns that decimal amounts and addresses have to match, and the comparison of addresses. A matched string is a list of characters.
-/

namespace ScatterDex

namespace Sdk

/-- White space and line ends of ECMAScript. -/
def isWhitespace (c : Char) : Bool :=
  c.toNat ∈ [9, 10, 11, 12, 13, 32, 160, 5760, 8232, 8233, 8239, 8287, 12288, 65279] ∨
    8192 ≤ c.toNat ∧ c.toNat ≤ 8202

def trim (s : String) : List Char := (s.toList.dropWhile isWhitespace).rdropWhile isWhitespace

/-- The UTF-16 code units that a character takes. -/
def utf16Size (c : Char) : ℕ := if c.toNat < 0x10000 then 1 else 2

/-- `length` -/
def utf16Length (chars : List Char) : ℕ := (chars.map utf16Size).sum

/-- `slice(0, n)` of a text that goes to a database: half of a pair is kept as a replacement character. -/
def sliceChars : ℕ → List Char → List Char
  | _, [] => []
  | n, c :: chars =>
    if utf16Size c ≤ n then c :: sliceChars (n - utf16Size c) chars
    else if 0 < n then ['\uFFFD'] else []

def isDigit (c : Char) : Bool := '0' ≤ c ∧ c ≤ '9'

def isHexDigit (c : Char) : Bool := isDigit c ∨ 'a' ≤ c ∧ c ≤ 'f' ∨ 'A' ≤ c ∧ c ≤ 'F'

/-- `/^\d+(\.\d+)?$/` -/
def isDecimal (chars : List Char) : Bool :=
  let whole := chars.takeWhile (· ≠ '.')
  let point := chars.dropWhile (· ≠ '.')
  let frac := point.drop 1
  whole ≠ [] ∧ whole.all isDigit ∧ frac.all isDigit ∧ (point ≠ [] → frac ≠ [])

/-- `/^0x[a-fA-F0-9]{40}$/` -/
def isAddress : List Char → Bool
  | '0' :: 'x' :: digits => digits.length = 40 ∧ digits.all isHexDigit
  | _ => false

/-- `eqAddr`: the same address, in any spelling. -/
def eqAddr (a b : String) : Bool := a ≠ "" ∧ b ≠ "" ∧ toLowerCase a = toLowerCase b

/-- `toBytes32Hex` -/
def toBytes32Hex (value : ℕ) : String := "0x" ++ String.ofList ((Nat.toDigits 16 value).leftpad 64 '0')

theorem isHexDigit_digitValue {c : Char} (hc : isHexDigit c = true) :
    ∃ d, digitValue c.toLower = some d ∧ d < 16 := by
  have hlt : c.toNat < 103 := by
    simp only [isHexDigit, isDigit, Bool.decide_or, Bool.decide_and, Bool.or_eq_true, Bool.and_eq_true, decide_eq_true_eq,
      Char.le_def, UInt32.le_iff_toNat_le] at hc
    change c.val.toNat < 103
    rcases hc with ⟨-, hc⟩ | ⟨-, hc⟩ | ⟨-, hc⟩ <;> exact Nat.lt_of_le_of_lt hc (by decide)
  have hall : ∀ n < 103, isHexDigit (Char.ofNat n) = true →
      (digitValue (Char.ofNat n).toLower).any (· < 16) = true := by decide
  have hany := hall c.toNat hlt (by rwa [Char.ofNat_toNat])
  rw [Char.ofNat_toNat, Option.any_eq_true] at hany
  obtain ⟨d, hd, hbelow⟩ := hany
  exact ⟨d, hd, of_decide_eq_true hbelow⟩

theorem isWhitespace_of_isHexDigit {c : Char} (hc : isHexDigit c = true) : isWhitespace c = false := by
  have hlt : c.toNat < 103 := by
    simp only [isHexDigit, isDigit, Bool.decide_or, Bool.decide_and, Bool.or_eq_true, Bool.and_eq_true, decide_eq_true_eq,
      Char.le_def, UInt32.le_iff_toNat_le] at hc
    change c.val.toNat < 103
    rcases hc with ⟨-, hc⟩ | ⟨-, hc⟩ | ⟨-, hc⟩ <;> exact Nat.lt_of_le_of_lt hc (by decide)
  have hall : ∀ n < 103, isHexDigit (Char.ofNat n) = true → isWhitespace (Char.ofNat n) = false := by decide
  have hspace := hall c.toNat hlt (by rwa [Char.ofNat_toNat])
  rwa [Char.ofNat_toNat] at hspace

theorem trim_eq_toList {s : String} (hs : ∀ c ∈ s.toList, isWhitespace c = false) : trim s = s.toList := by
  have hdrop : s.toList.dropWhile isWhitespace = s.toList := by
    rw [List.dropWhile_eq_self_iff]
    intro hl hspace
    exact absurd (hs _ (List.getElem_mem hl)) (by rw [hspace]; decide)
  rw [trim, hdrop, List.rdropWhile_eq_self_iff]
  intro hl hspace
  exact absurd (hs _ (List.getLast_mem hl)) (by rw [hspace]; decide)

theorem foldlM_digits (base : ℕ) (digits : List Char) (hdigits : ∀ c ∈ digits, ∃ d, digitValue c = some d ∧ d < base)
    (value : ℕ) : ∃ n, digits.foldlM (fun value c => do
      let digit ← digitValue c
      if digit < base then some (value * base + digit) else none) value = some n := by
  induction digits generalizing value with
  | nil => exact ⟨value, rfl⟩
  | cons c digits ih =>
    obtain ⟨⟨d, hd, hbelow⟩, hrest⟩ := List.forall_mem_cons.mp hdigits
    obtain ⟨n, hn⟩ := ih hrest (value * base + d)
    refine ⟨n, ?_⟩
    rw [List.foldlM_cons, hd]
    simpa [hbelow] using hn

/-- `BigInt` reads every address the form lets through. -/
theorem bigInt_of_isAddress {s : String} (hs : isAddress s.toList = true) : ∃ n, bigInt s = .ok n := by
  unfold isAddress at hs
  split at hs
  · next digits heq =>
    simp only [decide_eq_true_eq, List.all_eq_true] at hs
    obtain ⟨hlength, hhex⟩ := hs
    have hlower : toLowerCase s = '0' :: 'x' :: digits.map Char.toLower := by
      rw [toLowerCase, heq]
      rfl
    obtain ⟨n, hn⟩ := foldlM_digits 16 (digits.map Char.toLower) (by
      intro c hc
      obtain ⟨c', hc', rfl⟩ := List.mem_map.mp hc
      exact isHexDigit_digitValue (hhex c' hc')) 0
    refine ⟨n, ?_⟩
    have hne : digits.map Char.toLower ≠ [] := by
      intro hnil
      rw [List.map_eq_nil_iff] at hnil
      rw [hnil] at hlength
      exact absurd hlength (by decide)
    rw [bigInt, hlower]
    simp only [if_neg hne, readDigits, hn]
  · exact absurd hs Bool.false_ne_true

theorem bigInt_congr {s t : String} {n : ℕ} (heq : toLowerCase s = toLowerCase t) (hs : bigInt s = .ok n) : bigInt t = .ok n := by
  unfold bigInt at hs ⊢
  rw [← heq]
  dsimp only at hs ⊢
  split at hs
  · exact hs
  · exact absurd hs (by simp)

theorem toLowerCase_eq_nil {s : String} : toLowerCase s = [] ↔ s = "" := by
  rw [toLowerCase, List.map_eq_nil_iff, String.toList_eq_nil_iff]

theorem eqAddr_congr {a b address : String} (hlower : toLowerCase a = toLowerCase b) : eqAddr a address = eqAddr b address := by
  have hempty : a ≠ "" ↔ b ≠ "" := by
    rw [ne_eq, ne_eq, ← toLowerCase_eq_nil, ← toLowerCase_eq_nil, hlower]
  simp only [eqAddr, hempty, hlower]

end Sdk

end ScatterDex
