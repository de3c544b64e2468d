import Mathlib.Data.List.Basic
import Mathlib.Logic.Function.Basic

/-!
# Write-behind stores

A map in memory is updated at once and its writes land in a store later. The memory is always the store with the writes in flight replayed over it, as long as no write overtakes an earlier one that touches the same entry; once nothing is in flight, the two are equal.
-/

/-- A change of a map. -/
inductive Write (κ ν : Type)
  | put (key : κ) (value : ν)
  | remove (key : κ)
  | clear

namespace Write

variable {κ ν ρ : Type}

/-- The entries a change is about. -/
def Touches : Write κ ν → κ → Prop
  | .put key _, k => k = key
  | .remove key, k => k = key
  | .clear, _ => True

def Overlaps (w w' : Write κ ν) : Prop := ∃ k, w.Touches k ∧ w'.Touches k

/-- The same change of another kind of value. -/
def map (f : κ → ν → ρ) : Write κ ν → Write κ ρ
  | .put key value => .put key (f key value)
  | .remove key => .remove key
  | .clear => .clear

variable [DecidableEq κ]

def apply : Write κ ν → (κ → Option ν) → κ → Option ν
  | .put key value, m => Function.update m key (some value)
  | .remove key, m => Function.update m key none
  | .clear, _ => fun _ => none

theorem apply_of_not_touches {w : Write κ ν} {m : κ → Option ν} {k : κ} (hk : ¬w.Touches k) : w.apply m k = m k := by
  cases w with
  | put key value => exact Function.update_of_ne hk _ _
  | remove key => exact Function.update_of_ne hk _ _
  | clear => exact absurd trivial hk

theorem apply_of_touches {w : Write κ ν} {k : κ} (hk : w.Touches k) (m m' : κ → Option ν) : w.apply m k = w.apply m' k := by
  cases w with
  | put key value =>
    obtain rfl := hk
    rw [apply, apply, Function.update_self, Function.update_self]
  | remove key =>
    obtain rfl := hk
    rw [apply, apply, Function.update_self, Function.update_self]
  | clear => rfl

theorem apply_comm {w w' : Write κ ν} (hdisjoint : ¬w.Overlaps w') (m : κ → Option ν) :
    w.apply (w'.apply m) = w'.apply (w.apply m) := by
  funext k
  by_cases hk : w.Touches k
  · have hk' : ¬w'.Touches k := fun htouches => hdisjoint ⟨k, hk, htouches⟩
    rw [apply_of_not_touches hk']
    exact apply_of_touches hk _ _
  · rw [apply_of_not_touches hk]
    by_cases hk' : w'.Touches k
    · exact apply_of_touches hk' _ _
    · rw [apply_of_not_touches hk', apply_of_not_touches hk', apply_of_not_touches hk]

end Write

namespace WriteBehind

variable {κ ν : Type} [DecidableEq κ]

/-- Changes one after another. -/
def replay (ws : List (Write κ ν)) (m : κ → Option ν) : κ → Option ν := ws.foldl (fun m w => w.apply m) m

theorem replay_append (ws ws' : List (Write κ ν)) (m : κ → Option ν) : replay (ws ++ ws') m = replay ws' (replay ws m) :=
  List.foldl_append

theorem replay_cons_of_disjoint {ws : List (Write κ ν)} {w : Write κ ν} (hdisjoint : ∀ w' ∈ ws, ¬w'.Overlaps w)
    (m : κ → Option ν) : w.apply (replay ws m) = replay ws (w.apply m) := by
  induction ws generalizing m with
  | nil => rfl
  | cons w' ws ih =>
    obtain ⟨hw, hws⟩ := List.forall_mem_cons.mp hdisjoint
    show w.apply (replay ws (w'.apply m)) = replay ws (w'.apply (w.apply m))
    rw [ih hws, Write.apply_comm hw]

/-- The memory, the writes that have not landed, and the store as a reader finds it. -/
structure State (κ ν : Type) where
  mem : κ → Option ν
  inFlight : List (Write κ ν)
  store : κ → Option ν

/-- The memory is the store with the writes in flight over it. -/
def Coherent (s : State κ ν) : Prop := s.mem = replay s.inFlight s.store

/-- A change of the memory, whose write starts. -/
def State.call (s : State κ ν) (w : Write κ ν) : State κ ν := { s with mem := w.apply s.mem, inFlight := s.inFlight ++ [w] }

/-- The write at a place lands. -/
def State.land (s : State κ ν) (i : ℕ) (w : Write κ ν) : State κ ν :=
  { s with inFlight := s.inFlight.eraseIdx i, store := w.apply s.store }

/-- No earlier write in flight touches an entry of the one at a place. -/
def InOrder (inFlight : List (Write κ ν)) (i : ℕ) : Prop :=
  ∀ j < i, ∀ w w', inFlight[j]? = some w → inFlight[i]? = some w' → ¬w.Overlaps w'

omit [DecidableEq κ] in
theorem inOrder_zero (inFlight : List (Write κ ν)) : InOrder inFlight 0 := fun _ hj => absurd hj (Nat.not_lt_zero _)

variable {s : State κ ν}

theorem Coherent.call (hs : Coherent s) (w : Write κ ν) : Coherent (s.call w) := by
  show w.apply s.mem = replay (s.inFlight ++ [w]) s.store
  rw [replay_append, hs]
  rfl

theorem Coherent.land (hs : Coherent s) {i : ℕ} {w : Write κ ν} (hw : s.inFlight[i]? = some w) (horder : InOrder s.inFlight i) :
    Coherent (s.land i w) := by
  obtain ⟨hi, rfl⟩ := List.getElem?_eq_some_iff.mp hw
  have hsplit : s.inFlight = s.inFlight.take i ++ s.inFlight[i] :: s.inFlight.drop (i + 1) := by
    rw [List.getElem_cons_drop, List.take_append_drop]
  have hbefore : ∀ w ∈ s.inFlight.take i, ¬w.Overlaps s.inFlight[i] := by
    intro w hmem
    obtain ⟨j, hj, rfl⟩ := List.mem_take_iff_getElem.mp hmem
    exact horder j (by omega) _ _ (List.getElem?_eq_getElem _) hw
  show s.mem = replay (s.inFlight.eraseIdx i) (s.inFlight[i].apply s.store)
  rw [hs, List.eraseIdx_eq_take_drop_succ, replay_append, ← replay_cons_of_disjoint hbefore]
  exact (congrArg (replay · s.store) hsplit).trans (replay_append _ _ _)

/-- **A settled store holds the memory.** -/
theorem Coherent.settled (hs : Coherent s) (hnone : s.inFlight = []) : s.store = s.mem := by
  rw [hs, hnone]
  rfl

end WriteBehind
