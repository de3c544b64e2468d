import Mathlib.Data.List.Forall2

/-!
# Guards and results

A fallible function returns `Except`. The lemmas read a successful run backwards: a guard that passed held, and a sequence succeeded because each part did.
-/

namespace Fallible

variable {ε α β : Type}

/-- A guard that fails with an error unless its condition holds. -/
def require (condition : Prop) [Decidable condition] (error : ε) : Except ε Unit :=
  if condition then .ok () else .error error

@[simp] theorem require_eq_ok {condition : Prop} [Decidable condition] {error : ε} {u : Unit} :
    require condition error = .ok u ↔ condition := by
  unfold require
  split <;> simp_all

@[simp] theorem bind_eq_ok {x : Except ε α} {f : α → Except ε β} {b : β} :
    (x >>= f) = .ok b ↔ ∃ a, x = .ok a ∧ f a = .ok b := by
  cases x with
  | error e => exact ⟨fun h => (by cases h), fun ⟨_, h, _⟩ => (by cases h)⟩
  | ok a => exact ⟨fun h => ⟨a, rfl, h⟩, fun ⟨_, rfl, h⟩ => h⟩

@[simp] theorem require_eq_error {condition : Prop} [Decidable condition] {error e : ε} :
    require condition error = .error e ↔ ¬condition ∧ error = e := by
  unfold require
  split <;> simp_all

@[simp] theorem bind_eq_error {x : Except ε α} {f : α → Except ε β} {e : ε} :
    (x >>= f) = .error e ↔ x = .error e ∨ ∃ a, x = .ok a ∧ f a = .error e := by
  cases x with
  | error e' =>
    constructor
    · intro h
      exact Or.inl (congrArg Except.error (Except.error.inj h))
    · rintro (h | ⟨_, h, _⟩)
      · exact congrArg Except.error (Except.error.inj h)
      · cases h
  | ok a => exact ⟨fun h => Or.inr ⟨a, rfl, h⟩, fun h => h.elim (fun h => (by cases h)) fun ⟨_, rfl, h⟩ => h⟩

@[simp] theorem pure_eq_ok {a b : α} : (pure a : Except ε α) = .ok b ↔ a = b := by
  change (Except.ok a = Except.ok b) ↔ _
  simp

@[simp] theorem mapError_eq_ok {ε' : Type} {x : Except ε α} {f : ε → ε'} {a : α} :
    x.mapError f = .ok a ↔ x = .ok a := by
  cases x <;> simp [Except.mapError]

@[simp] theorem mapError_eq_error {ε' : Type} {x : Except ε α} {f : ε → ε'} {e : ε'} :
    x.mapError f = .error e ↔ ∃ e', x = .error e' ∧ f e' = e := by
  cases x <;> simp [Except.mapError]

theorem map_eq_ok {f : α → β} {x : Except ε α} {b : β} : x.map f = .ok b ↔ ∃ a, x = .ok a ∧ f a = b := by
  cases x <;> simp [Except.map]

/-- A value that has to be there. -/
def orError (x : Option α) (error : ε) : Except ε α :=
  match x with
  | some a => .ok a
  | none => .error error

@[simp] theorem orError_eq_ok {x : Option α} {error : ε} {a : α} : orError x error = .ok a ↔ x = some a := by
  cases x <;> simp [orError]

theorem mapM_eq_ok {f : α → Except ε β} {xs : List α} {ys : List β} :
    xs.mapM f = .ok ys ↔ List.Forall₂ (fun x y => f x = .ok y) xs ys := by
  induction xs generalizing ys with
  | nil =>
    rw [List.mapM_nil, pure_eq_ok, List.forall₂_nil_left_iff]
    exact eq_comm
  | cons x xs ih =>
    simp only [List.mapM_cons, bind_eq_ok, pure_eq_ok, ih, List.forall₂_cons_left_iff, eq_comm (b := ys),
      exists_and_left]

theorem optionMapM_eq_ok {f : α → Except ε β} {x : Option α} {y : Option β} :
    x.mapM f = .ok y ↔ Option.Rel (fun a b => f a = .ok b) x y := by
  cases x with
  | none =>
    constructor
    · intro h
      cases h
      exact Option.Rel.none
    · intro h
      cases h
      rfl
  | some a =>
    rw [Option.mapM_some]
    constructor
    · intro h
      obtain ⟨b, hb, rfl⟩ := map_eq_ok.mp h
      exact Option.Rel.some hb
    · intro h
      cases h with
      | some hb => exact map_eq_ok.mpr ⟨_, hb, rfl⟩

theorem forIn_eq_ok {f : α → Except ε Unit} {xs : List α} {u : PUnit} :
    (forIn xs PUnit.unit fun x _ => do
      f x
      pure (ForInStep.yield PUnit.unit)) = .ok u ↔ ∀ x ∈ xs, f x = .ok () := by
  induction xs with
  | nil => simp
  | cons x xs ih =>
    rw [List.forIn_cons, List.forall_mem_cons, ← ih]
    cases f x <;> simp

theorem exists_mapM {f : α → Except ε β} {xs : List α} (hall : ∀ x ∈ xs, ∃ y, f x = .ok y) :
    ∃ ys, xs.mapM f = .ok ys := by
  induction xs with
  | nil => exact ⟨[], rfl⟩
  | cons x xs ih =>
    obtain ⟨⟨y, hy⟩, hrest⟩ := List.forall_mem_cons.mp hall
    obtain ⟨ys, hys⟩ := ih hrest
    exact ⟨y :: ys, mapM_eq_ok.mpr (.cons hy (mapM_eq_ok.mp hys))⟩

theorem exists_of_isOk {x : Except ε α} (hok : x.isOk = true) : ∃ a, x = .ok a := by
  cases x with
  | error e => exact absurd hok Bool.false_ne_true
  | ok a => exact ⟨a, rfl⟩

end Fallible
