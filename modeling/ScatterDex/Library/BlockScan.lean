import Mathlib.Data.List.Basic
import Mathlib.Order.Nat
import Mathlib.Data.Rat.Floor

/-!
# Scans over the blocks of a chain

A chain is the list of events of each block. A scan reads a range of blocks in windows of bounded size, one after another, and may stop at any window. What it has read by then is the events of the blocks before its cursor.
-/

namespace BlockScan

variable {α : Type*} (events : ℕ → List α)

/-- The events of the blocks from `lo` up to but not including `hi`. -/
def between (lo hi : ℕ) : List α := (List.range' lo (hi - lo)).flatMap events

/-- A window size that is not a number of at least one counts as a fallback. -/
def windowSize (fallback : ℕ) : Option ℚ → ℕ
  | some size => if 1 ≤ size then ⌊size⌋₊ else fallback
  | none => fallback

/-- A scan of the blocks from `start` to `tip`: where its next window begins, and what it has read. -/
structure Scan (α : Type*) where
  start : ℕ
  tip : ℕ
  cursor : ℕ
  out : List α

def Scan.begin (start tip : ℕ) : Scan α := ⟨start, tip, start, []⟩

/-- The last block of the next window. -/
def Scan.windowEnd (size : ℕ) (s : Scan α) : ℕ := min (s.cursor + size - 1) s.tip

/-- A window read. -/
def Scan.push (size : ℕ) (logs : List α) (s : Scan α) : Scan α :=
  { s with
    cursor := s.cursor + size
    out := s.out ++ logs }

/-- The scan has read the blocks before its cursor. -/
structure Scan.Sound (s : Scan α) : Prop where
  start_le : s.start ≤ s.cursor
  out : s.out = between events s.start (min s.cursor (s.tip + 1))

variable {events} {lo mid hi : ℕ}

theorem windowSize_pos {fallback : ℕ} (hpos : 0 < fallback) (size : Option ℚ) : 0 < windowSize fallback size := by
  unfold windowSize
  split
  · split
    · exact Nat.floor_pos.mpr (by assumption)
    · exact hpos
  · exact hpos

theorem between_self : between events lo lo = [] := by
  simp [between]

theorem between_append (hlo : lo ≤ mid) (hhi : mid ≤ hi) :
    between events lo mid ++ between events mid hi = between events lo hi := by
  have hrange : List.range' lo (mid - lo) ++ List.range' mid (hi - mid) = List.range' lo (hi - lo) := by
    have happend := List.range'_append_1 (s := lo) (m := mid - lo) (n := hi - mid)
    rw [show lo + (mid - lo) = mid by omega, show mid - lo + (hi - mid) = hi - lo by omega] at happend
    exact happend
  rw [between, between, between, ← List.flatMap_append, hrange]

theorem mem_between {a : α} : a ∈ between events lo hi ↔ ∃ block, lo ≤ block ∧ block < hi ∧ a ∈ events block := by
  simp only [between, List.mem_flatMap, List.mem_range'_1]
  constructor
  · rintro ⟨block, hblock, ha⟩
    exact ⟨block, hblock.1, by omega, ha⟩
  · rintro ⟨block, hlo, hhi, ha⟩
    exact ⟨block, ⟨hlo, by omega⟩, ha⟩

theorem Scan.begin_sound {start tip : ℕ} : (Scan.begin start tip : Scan α).Sound events where
  start_le := le_rfl
  out := by
    change [] = between events start (min start (tip + 1))
    rw [between, Nat.sub_eq_zero_of_le (min_le_left _ _)]
    rfl

theorem Scan.Sound.push {s : Scan α} (hs : s.Sound events) {size : ℕ} (hsize : 0 < size) (hlive : s.cursor ≤ s.tip) :
    (s.push size (between events s.cursor (s.windowEnd size + 1))).Sound events where
  start_le := hs.start_le.trans (Nat.le_add_right _ _)
  out := by
    have hend : s.windowEnd size + 1 = min (s.cursor + size) (s.tip + 1) := by
      unfold Scan.windowEnd
      omega
    change s.out ++ _ = between events s.start (min (s.cursor + size) (s.tip + 1))
    rw [hs.out, hend, min_eq_left (by omega)]
    exact between_append hs.start_le (by omega)

theorem Scan.Sound.done {s : Scan α} (hs : s.Sound events) (hdone : s.tip < s.cursor) :
    s.out = between events s.start (s.tip + 1) := by
  rw [hs.out, min_eq_right hdone]

end BlockScan
