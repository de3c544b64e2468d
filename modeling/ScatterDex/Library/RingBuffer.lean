import Mathlib.Data.List.GetD
import Mathlib.Logic.Function.Basic
import Mathlib.Order.Nat

/-!
# Ring buffers

A ring of slots with a cursor at the newest entry. The slot of an age lies that many steps behind the cursor, wrapping at zero; pushing moves the cursor one slot on. A ring holds the entries of a history up to its size, and a scan walks it backwards until it is back where it began.
-/

namespace RingBuffer

/-- One slot back. -/
def prev (size i : ℕ) : ℕ := (if i = 0 then size else i) - 1

/-- Where the entry of an age is. -/
def slot (size cursor age : ℕ) : ℕ := if age ≤ cursor then cursor - age else cursor + size - age

variable {size cursor age : ℕ}

@[simp] theorem slot_zero : slot size cursor 0 = cursor := rfl

theorem prev_slot (hcursor : cursor < size) (hage : age < size) :
    prev size (slot size cursor age) = slot size cursor (age + 1) := by
  unfold prev slot
  split <;> split <;> split <;> omega

theorem slot_eq_cursor_iff (hcursor : cursor < size) (hpos : 0 < age) (hage : age ≤ size) :
    slot size cursor age = cursor ↔ age = size := by
  unfold slot
  split <;> omega

/-- After a push every entry is one older. -/
theorem slot_advance (hcursor : cursor < size) (hage : age < size) :
    slot size ((cursor + 1) % size) (age + 1) = slot size cursor age := by
  have hnext : (cursor + 1) % size = if cursor + 1 = size then 0 else cursor + 1 := by
    split
    · rename_i hwrap
      rw [hwrap, Nat.mod_self]
    · exact Nat.mod_eq_of_lt (by omega)
  rw [hnext]
  unfold slot
  split <;> split <;> split <;> omega

/-! ### Contents -/

variable {α : Type*} {slots : ℕ → α} {empty value : α} {history : List α}

/-- The slots hold the newest entries of a history, newest first; those never written are empty. -/
def Holds (size cursor : ℕ) (slots : ℕ → α) (empty : α) (history : List α) : Prop :=
  ∀ age < size, slots (slot size cursor age) = history.getD age empty

theorem holds_singleton (hcursor : cursor < size) :
    Holds size cursor (Function.update (fun _ => empty) cursor value) empty [value] := by
  intro age hage
  by_cases hnew : age = 0
  · subst hnew
    rw [slot_zero, Function.update_self]
    rfl
  · have hother := (slot_eq_cursor_iff hcursor (Nat.pos_of_ne_zero hnew) hage.le).not.mpr hage.ne
    rw [Function.update_of_ne hother, List.getD_eq_default _ _ (by simpa using Nat.one_le_iff_ne_zero.mpr hnew)]

theorem Holds.push (hholds : Holds size cursor slots empty history) (hcursor : cursor < size) (value : α) :
    Holds size ((cursor + 1) % size) (Function.update slots ((cursor + 1) % size) value) empty (value :: history) := by
  have hnext : (cursor + 1) % size < size := Nat.mod_lt _ (by omega)
  intro age hage
  cases age with
  | zero =>
    rw [slot_zero, Function.update_self]
    rfl
  | succ age =>
    have hother := (slot_eq_cursor_iff hnext age.succ_pos hage.le).not.mpr hage.ne
    rw [Function.update_of_ne hother, slot_advance hcursor (by omega), hholds age (by omega), List.getD_cons_succ]

/-- What is found in the ring is what the latest entries of the history have. -/
theorem Holds.exists_iff (hholds : Holds size cursor slots empty history) (hvalue : value ≠ empty) :
    (∃ age < size, slots (slot size cursor age) = value) ↔ value ∈ history.take size := by
  rw [List.mem_take_iff_getElem]
  constructor
  · rintro ⟨age, hage, hslot⟩
    rw [hholds age hage] at hslot
    by_cases hlength : age < history.length
    · exact ⟨age, by omega, by rw [← hslot, List.getD_eq_getElem _ _ hlength]⟩
    · rw [List.getD_eq_default _ _ (by omega)] at hslot
      exact absurd hslot.symm hvalue
  · rintro ⟨age, hage, hget⟩
    refine ⟨age, by omega, ?_⟩
    rw [hholds age (by omega), List.getD_eq_getElem _ _ (by omega)]
    exact hget

/-! ### Scans -/

/-- The backward walk from a slot as long as it takes: it stops at a hit, or when the next slot is the cursor. -/
inductive Scan (size cursor : ℕ) (hit : ℕ → Prop) : ℕ → Bool → Prop
  | found {i : ℕ} : hit i → Scan size cursor hit i true
  | back {i : ℕ} : ¬hit i → prev size i = cursor → Scan size cursor hit i false
  | step {i : ℕ} {found : Bool} : ¬hit i → prev size i ≠ cursor → Scan size cursor hit (prev size i) found →
    Scan size cursor hit i found

/-- A walk around the ring ends, wherever the cursor is. -/
theorem scan_total (hit : ℕ → Prop) (hcursor : cursor < size) : ∃ found, Scan size cursor hit cursor found := by
  have hrest : ∀ remaining age, age + remaining = size → 0 < remaining →
      ∃ found, Scan size cursor hit (slot size cursor age) found := by
    intro remaining
    induction remaining with
    | zero => exact fun _ _ hpos => absurd hpos (lt_irrefl 0)
    | succ remaining ih =>
      intro age hage _
      by_cases hhit : hit (slot size cursor age)
      · exact ⟨true, .found hhit⟩
      · have hprev := prev_slot hcursor (show age < size by omega)
        have hcursor_iff := slot_eq_cursor_iff hcursor age.succ_pos (show age + 1 ≤ size by omega)
        by_cases hlast : age + 1 = size
        · exact ⟨false, .back hhit (hprev.trans (hcursor_iff.mpr hlast))⟩
        · obtain ⟨found, hscan⟩ := ih (age + 1) (by omega) (by omega)
          exact ⟨found, .step hhit (hprev ▸ hcursor_iff.not.mpr hlast) (hprev ▸ hscan)⟩
  exact hrest size 0 (Nat.zero_add _) (by omega)

/-- A walk from an age finds what is in the slots from that age on. -/
theorem Scan.found_iff {hit : ℕ → Prop} {i : ℕ} {found : Bool} (hscan : Scan size cursor hit i found)
    (hcursor : cursor < size) (hage : age < size) (hi : i = slot size cursor age) :
    found = true ↔ ∃ later, age ≤ later ∧ later < size ∧ hit (slot size cursor later) := by
  induction hscan generalizing age with
  | found hhit => exact ⟨fun _ => ⟨age, le_rfl, hage, hi ▸ hhit⟩, fun _ => rfl⟩
  | back hmiss hback =>
    rw [hi, prev_slot hcursor hage, slot_eq_cursor_iff hcursor age.succ_pos hage] at hback
    refine ⟨fun h => absurd h Bool.false_ne_true, ?_⟩
    rintro ⟨later, hle, hlt, hhit⟩
    obtain rfl : later = age := by omega
    exact absurd (hi ▸ hhit) hmiss
  | step hmiss hnext _ ih =>
    rw [hi, prev_slot hcursor hage] at hnext ih
    have hlast : age + 1 ≠ size := (slot_eq_cursor_iff hcursor age.succ_pos hage).not.mp hnext
    rw [ih (show age + 1 < size by omega) rfl]
    constructor
    · rintro ⟨later, hle, hlt, hhit⟩
      exact ⟨later, by omega, hlt, hhit⟩
    · rintro ⟨later, hle, hlt, hhit⟩
      rcases Nat.eq_or_lt_of_le hle with rfl | hlater
      · exact absurd (hi ▸ hhit) hmiss
      · exact ⟨later, hlater, hlt, hhit⟩

end RingBuffer
