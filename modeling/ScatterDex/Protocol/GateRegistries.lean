import ScatterDex.Contract.IdentityGate

/-!
# The registries of the gate

The list of registries and the mapping agree after any calls, and the list has one to ten entries, each once. A registry that reverts is passed over in any order; one whose answer does not decode takes the gate down with it.
-/

namespace ScatterDex

open Fallible

namespace IdentityGate

variable {gate gate' : IdentityGate}

/-- A set of one to ten registries, kept twice. -/
structure WellKept (gate : IdentityGate) : Prop where
  initialized : gate.initialized = true
  nodup : gate.registries.Nodup
  exists_iff : ∀ registry, gate.registryExists registry = true ↔ registry ∈ gate.registries
  one_le : 1 ≤ gate.registries.length
  le_max : gate.registries.length ≤ maxRegistries

theorem WellKept.congr (hgate : gate.WellKept) (hinitialized : gate'.initialized = gate.initialized)
    (hregistries : gate'.registries = gate.registries) (hexists : gate'.registryExists = gate.registryExists) : gate'.WellKept where
  initialized := hinitialized.trans hgate.initialized
  nodup := hregistries ▸ hgate.nodup
  exists_iff registry := by
    rw [hregistries, hexists]
    exact hgate.exists_iff registry
  one_le := hregistries ▸ hgate.one_le
  le_max := hregistries ▸ hgate.le_max

theorem wellKept_initializeGate {initialOwner initialRegistry : Address}
    (hinit : blank.initializeGate initialOwner initialRegistry = .ok gate) : gate.WellKept := by
  simp only [initializeGate, bind_eq_ok, require_eq_ok, pure_eq_ok] at hinit
  obtain ⟨-, -, -, -, -, -, rfl⟩ := hinit
  refine ⟨rfl, List.nodup_singleton _, fun registry => ?_, Nat.le_refl 1, Nat.le_add_left 1 9⟩
  show Function.update (fun _ => false) initialRegistry true registry = true ↔ registry ∈ [initialRegistry]
  rw [List.mem_singleton]
  by_cases hregistry : registry = initialRegistry
  · rw [hregistry, Function.update_self]
    exact ⟨fun _ => rfl, fun _ => rfl⟩
  · rw [Function.update_of_ne hregistry]
    exact ⟨fun h => (by cases h), fun h => absurd h hregistry⟩

theorem WellKept.addRegistry (hgate : gate.WellKept) {sender registry : Address}
    (hadd : gate.addRegistry sender registry = .ok gate') : gate'.WellKept := by
  simp only [IdentityGate.addRegistry, bind_eq_ok, require_eq_ok, pure_eq_ok] at hadd
  obtain ⟨-, -, -, -, -, hnew, -, hroom, rfl⟩ := hadd
  have hnot : registry ∉ gate.registries := by
    rw [← hgate.exists_iff registry, hnew]
    exact Bool.false_ne_true
  have hlength : (gate.registries ++ [registry]).length = gate.registries.length + 1 := List.length_append
  refine ⟨hgate.initialized, ?_, fun other => ?_, ?_, ?_⟩
  · exact List.nodup_append_comm.mp (List.nodup_cons.mpr ⟨hnot, hgate.nodup⟩)
  · show Function.update gate.registryExists registry true other = true ↔ other ∈ gate.registries ++ [registry]
    rw [List.mem_append, List.mem_singleton]
    by_cases hother : other = registry
    · rw [hother, Function.update_self]
      exact ⟨fun _ => Or.inr rfl, fun _ => rfl⟩
    · rw [Function.update_of_ne hother, hgate.exists_iff other]
      exact ⟨Or.inl, fun h => h.resolve_right hother⟩
  · exact hlength ▸ Nat.le_add_left 1 _
  · exact hlength ▸ hroom

theorem WellKept.removeRegistry (hgate : gate.WellKept) {sender registry : Address}
    (hremove : gate.removeRegistry sender registry = .ok gate') : gate'.WellKept := by
  simp only [IdentityGate.removeRegistry, bind_eq_ok, require_eq_ok] at hremove
  obtain ⟨-, -, -, -, -, hseveral, hremove⟩ := hremove
  split at hremove
  · next i hfind =>
    obtain rfl := pure_eq_ok.mp hremove
    obtain ⟨hlt, hget, -⟩ := List.findIdx?_eq_some_iff_getElem.mp hfind
    have hi : gate.registries[i]? = some registry := by
      rw [List.getElem?_eq_getElem hlt, of_decide_eq_true hget]
    have hlength := SwapPop.length_removeAt hi
    have hone := hgate.one_le
    refine ⟨hgate.initialized, SwapPop.nodup_removeAt hi hgate.nodup, fun other => ?_, ?_, ?_⟩
    · show Function.update gate.registryExists registry false other = true ↔ other ∈ SwapPop.removeAt gate.registries i
      rw [SwapPop.mem_removeAt hi hgate.nodup]
      by_cases hother : other = registry
      · rw [hother, Function.update_self]
        exact ⟨fun h => (by cases h), fun h => absurd rfl h.2⟩
      · rw [Function.update_of_ne hother, hgate.exists_iff other]
        exact ⟨fun h => ⟨h, hother⟩, fun h => h.1⟩
    · show 1 ≤ (SwapPop.removeAt gate.registries i).length
      omega
    · have hmax := hgate.le_max
      show (SwapPop.removeAt gate.registries i).length ≤ maxRegistries
      omega
  · cases hremove

theorem WellKept.run (hgate : gate.WellKept) {call : Address × Call} (hrun : IdentityGate.run call gate = .ok gate') : gate'.WellKept := by
  obtain ⟨sender, call⟩ := call
  cases call with
  | initializeGate initialOwner initialRegistry =>
    simp only [IdentityGate.run, IdentityGate.initializeGate, bind_eq_ok, require_eq_ok] at hrun
    obtain ⟨-, hblank, -⟩ := hrun
    rw [hgate.initialized] at hblank
    cases hblank
  | addRegistry registry => exact hgate.addRegistry hrun
  | removeRegistry registry => exact hgate.removeRegistry hrun
  | transferOwnership newOwner =>
    simp only [IdentityGate.run, bind_eq_ok, pure_eq_ok] at hrun
    obtain ⟨-, -, rfl⟩ := hrun
    exact hgate.congr rfl rfl rfl
  | acceptOwnership =>
    simp only [IdentityGate.run, bind_eq_ok, require_eq_ok, pure_eq_ok] at hrun
    obtain ⟨-, -, rfl⟩ := hrun
    exact hgate.congr rfl rfl rfl
  | renounceOwnership => cases hrun

/-! ### The answer of the gate -/

variable {answer : Address → Answer} {registries : List Address}

theorem isVerified_true (hverified : isVerified answer registries = .ok true) : ∃ registry ∈ registries, answer registry = .returned true := by
  induction registries with
  | nil => cases hverified
  | cons first rest ih =>
    rw [isVerified] at hverified
    split at hverified
    · next hfirst => exact ⟨first, List.mem_cons_self, hfirst⟩
    · obtain ⟨registry, hmem, hyes⟩ := ih hverified
      exact ⟨registry, List.mem_cons_of_mem _ hmem, hyes⟩
    · obtain ⟨registry, hmem, hyes⟩ := ih hverified
      exact ⟨registry, List.mem_cons_of_mem _ hmem, hyes⟩
    · cases hverified

theorem isVerified_of_decodable (hdecodable : ∀ registry ∈ registries, answer registry ≠ .undecodable)
    (hyes : ∃ registry ∈ registries, answer registry = .returned true) : isVerified answer registries = .ok true := by
  induction registries with
  | nil =>
    obtain ⟨_, hmem, -⟩ := hyes
    exact absurd hmem List.not_mem_nil
  | cons first rest ih =>
    have hrest (hno : answer first ≠ .returned true) : isVerified answer rest = .ok true := by
      apply ih fun registry hmem => hdecodable registry (List.mem_cons_of_mem _ hmem)
      obtain ⟨registry, hmem, hregistry⟩ := hyes
      rcases List.mem_cons.mp hmem with rfl | hmem
      · exact absurd hregistry hno
      · exact ⟨registry, hmem, hregistry⟩
    rw [isVerified]
    split
    · rfl
    · next hfirst => exact hrest (by rw [hfirst]; decide)
    · next hfirst => exact hrest (by rw [hfirst]; decide)
    · next hfirst => exact absurd hfirst (hdecodable first List.mem_cons_self)

/-- The gate finds the user verified when some registry does, in any order, except where one registry verifies the user and the answer of another does not decode. -/
theorem isVerified_perm_iff : (∀ order, order.Perm registries →
      (isVerified answer order = .ok true ↔ ∃ registry ∈ registries, answer registry = .returned true)) ↔
    ¬((∃ registry ∈ registries, answer registry = .returned true) ∧ ∃ registry ∈ registries, answer registry = .undecodable) := by
  constructor
  · rintro hall ⟨hyes, registry, hmem, hundecodable⟩
    obtain ⟨before, after, rfl⟩ := List.append_of_mem hmem
    have hfirst := (hall (registry :: (before ++ after)) List.perm_middle.symm).mpr hyes
    rw [isVerified, hundecodable] at hfirst
    cases hfirst
  · intro hnot order hperm
    constructor
    · intro hverified
      obtain ⟨registry, hmem, hyes⟩ := isVerified_true hverified
      exact ⟨registry, hperm.mem_iff.mp hmem, hyes⟩
    · intro hyes
      apply isVerified_of_decodable
      · exact fun registry hmem hundecodable => hnot ⟨hyes, registry, hperm.mem_iff.mp hmem, hundecodable⟩
      · obtain ⟨registry, hmem, hregistry⟩ := hyes
        exact ⟨registry, hperm.mem_iff.mpr hmem, hregistry⟩

/-- **The set of registries.** After any calls, the list and the mapping are one set of one to ten registries; and the gate verifies a user, in any order of the registries, just when some registry does, unless one verifies the user and the answer of another does not decode. -/
theorem gate_registries {initialOwner initialRegistry : Address} {gate : IdentityGate}
    (hinit : blank.initializeGate initialOwner initialRegistry = .ok gate) (calls : List (Address × Call)) :
    let reached := Transactions.after IdentityGate.run gate calls
    reached.registries.Nodup ∧ (∀ registry, reached.registryExists registry = true ↔ registry ∈ reached.registries) ∧
      1 ≤ reached.registries.length ∧ reached.registries.length ≤ 10 ∧
      ∀ answer : Address → Answer,
        (∀ order, order.Perm reached.registries →
          (isVerified answer order = .ok true ↔ ∃ registry ∈ reached.registries, answer registry = .returned true)) ↔
        ¬((∃ registry ∈ reached.registries, answer registry = .returned true) ∧
          ∃ registry ∈ reached.registries, answer registry = .undecodable) := by
  have hreached : (Transactions.after IdentityGate.run gate calls).WellKept :=
    Transactions.invariant (I := WellKept) (fun _ _ _ _ hgate hrun => hgate.run hrun) (wellKept_initializeGate hinit)
  exact ⟨hreached.nodup, hreached.exists_iff, hreached.one_le, hreached.le_max, fun answer => isVerified_perm_iff⟩

/-! ### A registry without code -/

def gateCalls : List (Address × Call) := [(7, .addRegistry 2), (7, .addRegistry 3), (8, .removeRegistry 2), (7, .removeRegistry 1)]

theorem gate_registries_swapped : (Transactions.after IdentityGate.run ⟨true, 7, 0, [1], Function.update (fun _ => false) 1 true⟩ gateCalls).registries.Nodup := by
  have hinit : blank.initializeGate 7 1 = .ok ⟨true, 7, 0, [1], Function.update (fun _ => false) 1 true⟩ := rfl
  exact (gate_registries hinit gateCalls).1

/-- The first registry has no code, the second verifies the user. -/
def answerWithoutCode (registry : Address) : Answer := if registry = 2 then .returned true else .undecodable

theorem gate_without_code : ∃ gate, blank.initializeGate 7 1 = .ok gate ∧
    (2 ∈ (Transactions.after IdentityGate.run gate [(7, .addRegistry 2)]).registries ∧ answerWithoutCode 2 = .returned true) ∧
    isVerified answerWithoutCode (Transactions.after IdentityGate.run gate [(7, .addRegistry 2)]).registries = .error .decoding :=
  ⟨_, rfl, by decide, by decide⟩

end IdentityGate

end ScatterDex
