import ScatterDex.Contract.IncrementalMerkleTree
import ScatterDex.Library.RingBuffer
import ScatterDex.Library.Transactions
import Mathlib.Data.List.Infix

/-!
# The window of known roots

The roots a tree has had are recorded beside its storage, newest first. The ring holds the latest of them, and `isKnownRoot` finds a root exactly when it is among these.
-/

namespace ScatterDex

open Fallible RingBuffer

namespace IncrementalMerkleTree

variable (P : Poseidon)

/-- An insertion, with the root it leaves. -/
def insertRecorded (leaf : ℕ) (s : IncrementalMerkleTree × List ℕ) : Except Error (IncrementalMerkleTree × List ℕ) := do
  let (t, _) ← s.1.insert P leaf
  return (t, t.getLastRoot :: s.2)

variable {P} {t t' : IncrementalMerkleTree} {levels rootHistorySize leaf index root : ℕ} {rootsHad : List ℕ}

/-- The ring holds the latest roots. -/
structure Window (t : IncrementalMerkleTree) (rootHistorySize : ℕ) (rootsHad : List ℕ) : Prop where
  size : t.rootHistorySize = rootHistorySize
  cursor : t.currentRootIndex < rootHistorySize
  holds : Holds rootHistorySize t.currentRootIndex t.roots 0 rootsHad

theorem init_window (hinit : init P levels rootHistorySize = .ok t) : Window t rootHistorySize [t.getLastRoot] := by
  simp only [init, bind_eq_ok, require_eq_ok, pure_eq_ok] at hinit
  obtain ⟨-, -, -, hsize, rfl⟩ := hinit
  have hpos : 0 < rootHistorySize := Nat.pos_of_ne_zero hsize
  refine ⟨rfl, hpos, ?_⟩
  rw [getLastRoot, fresh]
  dsimp only
  rw [Function.update_self]
  exact holds_singleton hpos

theorem insert_window (ht : Window t rootHistorySize rootsHad) (hinsert : t.insert P leaf = .ok (t', index)) :
    Window t' rootHistorySize (t'.getLastRoot :: rootsHad) := by
  simp only [insert, bind_eq_ok, pure_eq_ok, Prod.mk.injEq] at hinsert
  obtain ⟨-, -, ⟨filledSubtrees, currentHash⟩, -, rfl, -⟩ := hinsert
  have hpos : 0 < rootHistorySize := Nat.zero_lt_of_lt ht.cursor
  refine ⟨ht.size, ?_, ?_⟩
  · rw [← ht.size] at hpos ⊢
    exact Nat.mod_lt _ hpos
  · rw [getLastRoot]
    dsimp only
    rw [Function.update_self, ht.size]
    exact ht.holds.push ht.cursor currentHash

/-! ### The scan -/

theorem scan_knownRootLoop (hcursor : t.currentRootIndex < t.rootHistorySize) (root : ℕ) (remaining age : ℕ)
    (hage : age + remaining = t.rootHistorySize) (hpos : 0 < remaining) :
    Scan t.rootHistorySize t.currentRootIndex (fun i => t.roots i = root) (slot t.rootHistorySize t.currentRootIndex age)
      (t.knownRootLoop root remaining (slot t.rootHistorySize t.currentRootIndex age)) := by
  induction remaining generalizing age with
  | zero => exact absurd hpos (lt_irrefl 0)
  | succ remaining ih =>
    have hprev := prev_slot hcursor (show age < t.rootHistorySize by omega)
    have hback := slot_eq_cursor_iff hcursor age.succ_pos (show age + 1 ≤ t.rootHistorySize by omega)
    rw [knownRootLoop]
    change Scan _ _ _ _ (if t.roots _ = root then true else
      if prev t.rootHistorySize (slot t.rootHistorySize t.currentRootIndex age) ≠ t.currentRootIndex then
        t.knownRootLoop root remaining (prev t.rootHistorySize (slot t.rootHistorySize t.currentRootIndex age)) else false)
    split
    · rename_i hhit
      exact .found hhit
    · rename_i hmiss
      split
      · rename_i hnext
        have hlast : age + 1 ≠ t.rootHistorySize := hback.not.mp (hprev ▸ hnext)
        refine .step hmiss hnext ?_
        rw [hprev]
        exact ih (age + 1) (by omega) (by omega)
      · rename_i hnext
        exact .back hmiss (not_not.mp hnext)

theorem Window.scan (ht : Window t rootHistorySize rootsHad) (hroot : root ≠ 0) :
    Scan rootHistorySize t.currentRootIndex (fun i => t.roots i = root) t.currentRootIndex (t.isKnownRoot root) := by
  obtain ⟨rfl, hcursor, -⟩ := ht
  rw [isKnownRoot, if_neg hroot]
  exact scan_knownRootLoop hcursor root t.rootHistorySize 0 (Nat.zero_add _) (Nat.zero_lt_of_lt hcursor)

theorem Window.isKnownRoot_iff (ht : Window t rootHistorySize rootsHad) :
    t.isKnownRoot root = true ↔ root ≠ 0 ∧ root ∈ rootsHad.take rootHistorySize := by
  by_cases hroot : root = 0
  · simp [isKnownRoot, hroot]
  · rw [(ht.scan hroot).found_iff ht.cursor (Nat.zero_lt_of_lt ht.cursor) rfl, ← ht.holds.exists_iff hroot]
    simp [hroot]

/-! ### Which roots these are -/

/-- A run of insertions stores the leaves that fit, and its roots are those of their prefixes. -/
theorem insertRecorded_roots (hzeros : P.ZeroTable zeroTable) (ht : Tracks P t []) {leaves : List ℕ}
    {s : IncrementalMerkleTree × List ℕ} (hs : s = Transactions.after (insertRecorded P) (t, [t.getLastRoot]) leaves) :
    Tracks P s.1 (leaves.take (2 ^ t.levels)) ∧ s.1.levels = t.levels ∧
      s.2 = ((leaves.take (2 ^ t.levels)).inits.map (MerkleTree.root P.hashWords 0 t.levels)).reverse := by
  induction leaves using List.reverseRecOn generalizing s with
  | nil =>
    subst hs
    refine ⟨by rwa [List.take_nil], rfl, ?_⟩
    rw [List.take_nil]
    exact congrArg (fun root => [root]) ht.lastRoot
  | append_singleton leaves leaf ih =>
    rw [Transactions.after_append] at hs
    obtain ⟨htracks, hlevels, hroots⟩ := ih rfl
    generalize Transactions.after (insertRecorded P) (t, [t.getLastRoot]) leaves = s₀ at hs htracks hlevels hroots
    replace hs : s = Transactions.transact (insertRecorded P) s₀ leaf := hs
    have hroom := insert_ok_iff htracks leaf
    rw [hlevels, List.length_take] at hroom
    by_cases hfull : 2 ^ t.levels ≤ leaves.length
    · -- a full tree refuses the leaf
      have hrefused : ∀ r, s₀.1.insert P leaf ≠ .ok r := fun r hr => by
        have hfits := hroom.mp ⟨r, hr⟩
        omega
      have hsame : s = s₀ := by
        rw [hs, Transactions.transact]
        split
        · rename_i s' hstep
          simp only [insertRecorded, bind_eq_ok] at hstep
          obtain ⟨r, hr, -⟩ := hstep
          exact absurd hr (hrefused r)
        · rfl
      rw [hsame, List.take_append_of_le_length hfull]
      exact ⟨htracks, hlevels, hroots⟩
    · have hfits : leaves.length < 2 ^ t.levels := not_le.mp hfull
      obtain ⟨⟨t', index⟩, hinsert⟩ := hroom.mpr (by omega)
      obtain ⟨htracks', -, hlevels', -⟩ := insert_tracks hzeros htracks hinsert
      have hstep : insertRecorded P leaf s₀ = .ok (t', t'.getLastRoot :: s₀.2) := by
        rw [insertRecorded, hinsert]
        rfl
      have hall : leaves.take (2 ^ t.levels) = leaves := List.take_of_length_le hfits.le
      have hall' : (leaves ++ [leaf]).take (2 ^ t.levels) = leaves ++ [leaf] :=
        List.take_of_length_le (by simpa using hfits)
      rw [hall] at htracks' hroots
      rw [hs, Transactions.transact_ok hstep, hall']
      refine ⟨htracks', hlevels'.trans hlevels, ?_⟩
      rw [htracks'.lastRoot, hlevels', hlevels, hroots, List.inits_append]
      simp

/-- **The known roots are a sliding window.** After any insertions, refused ones included, a root is known exactly when it is not zero and among the last `rootHistorySize` roots the tree has had, the initial one included; these are the roots of the leaf list as it grew. The scan behind it ends from any cursor of the ring. -/
theorem isKnownRoot_iff_window (hinit : init P levels rootHistorySize = .ok t) {leaves : List ℕ}
    {s : IncrementalMerkleTree × List ℕ}
    (hs : s = Transactions.after (insertRecorded P) (t, [t.getLastRoot]) leaves) :
    (∀ root, s.1.isKnownRoot root = true ↔ root ≠ 0 ∧ root ∈ s.2.take rootHistorySize) ∧
      (P.ZeroTable zeroTable →
        s.2 = ((leaves.take (2 ^ levels)).inits.map (MerkleTree.root P.hashWords 0 levels)).reverse) ∧
      (∀ root ≠ 0, Scan rootHistorySize s.1.currentRootIndex (fun i => s.1.roots i = root) s.1.currentRootIndex
        (s.1.isKnownRoot root)) ∧
      ∀ cursor < rootHistorySize, ∀ root, ∃ found, Scan rootHistorySize cursor (fun i => s.1.roots i = root) cursor found := by
  have hwindow : Window s.1 rootHistorySize s.2 := by
    rw [hs]
    refine Transactions.invariant (I := fun s => Window s.1 rootHistorySize s.2) (s := (t, [t.getLastRoot]))
      (fun leaf _ s s' hs hstep => ?_) (init_window hinit)
    simp only [insertRecorded, bind_eq_ok, pure_eq_ok] at hstep
    obtain ⟨⟨t', index⟩, hinsert, rfl⟩ := hstep
    exact insert_window hs hinsert
  refine ⟨fun _ => hwindow.isKnownRoot_iff, fun hzeros => ?_, fun _ => hwindow.scan, fun _ hcursor _ =>
    scan_total _ hcursor⟩
  obtain ⟨htracks, hlevels, -⟩ := init_tracks hinit
  rw [hs, ← hlevels]
  exact (insertRecorded_roots hzeros htracks rfl).2.2

/-- The hashes of two leaves `5` and `6`. -/
def twoLeafPoseidon : Poseidon :=
  .ofTable [([0, 0], 14744269619966411208579211824598458697587494354926760081771325075741142829156),
    ([5, 0], 14715744141351469745078640018556777045717071602313402267792898687731436145768),
    ([5, 6], 1879402270149794212432036740081454186623842057661213288749068713224962094903)] (by decide +kernel)
    (by decide +kernel)

/-- Two leaves and one too many, in a ring of two: the initial root has just been pushed out. -/
theorem isKnownRoot_iff_window_twoLeaves : ∃ t, init twoLeafPoseidon 1 2 = .ok t ∧
    let s := Transactions.after (insertRecorded twoLeafPoseidon) (t, [t.getLastRoot]) [5, 6, 7]
    s.2.length = 3 ∧ s.1.isKnownRoot t.getLastRoot = false ∧
      ∀ root, s.1.isKnownRoot root = true ↔ root ≠ 0 ∧ root ∈ s.2.take 2 := by
  obtain ⟨t, hinit⟩ : ∃ t, init twoLeafPoseidon 1 2 = .ok t := init_ok (by decide) (by decide) (by decide)
  have ht := Except.ok.inj (hinit.symm.trans (rfl : init twoLeafPoseidon 1 2 = .ok _))
  refine ⟨t, hinit, ?_, ?_, (isKnownRoot_iff_window hinit rfl).1⟩
  · rw [ht]
    decide +kernel
  · rw [ht]
    decide +kernel

end IncrementalMerkleTree

end ScatterDex
