import ScatterDex.Library.Bn254
import ScatterDex.Library.MerkleTree
import Mathlib.Data.List.Nodup
import Mathlib.Data.Set.Function

/-!
# The Poseidon hash

Poseidon is a third-party permutation, so it is a parameter here. No function from lists of field elements to a finite field is injective; what the protocol relies on is that the inputs hashed so far do not collide. A `Poseidon` therefore carries the set of inputs that were asked, and separates their digests from each other and from zero, the value of an empty leaf. Inputs of different arities are different lists, so this includes separation between arities and between tags.
-/

namespace ScatterDex

open Bn254

/-- Poseidon, with the inputs that have been hashed and no collision among them. -/
structure Poseidon where
  hash : List Scalar → Scalar
  asked : Set (List Scalar)
  injOn : Set.InjOn hash asked
  ne_zero : ∀ xs ∈ asked, hash xs ≠ 0

namespace Poseidon

variable (P : Poseidon)

/-- A digest somebody computed. -/
def Digest (xs : List Scalar) (y : Scalar) : Prop := xs ∈ P.asked ∧ P.hash xs = y

/-- The two-to-one hash of the Merkle trees. -/
def hashPair (left right : Scalar) : Scalar := P.hash [left, right]

/-- The same hash on machine words and `bigint`s, which the implementations reduce into the field first. -/
def hashWords (left right : ℕ) : ℕ := (P.hash [left, right]).val

/-- The pairs among the inputs that were hashed. -/
def askedPairs : Set (Scalar × Scalar) := {p | [p.1, p.2] ∈ P.asked}

variable {P}

theorem Digest.ne_zero {xs : List Scalar} {y : Scalar} (hdigest : P.Digest xs y) : y ≠ 0 :=
  hdigest.2 ▸ P.ne_zero xs hdigest.1

theorem Digest.inj {xs ys : List Scalar} {y : Scalar} (hx : P.Digest xs y) (hy : P.Digest ys y) :
    xs = ys :=
  P.injOn hx.1 hy.1 (hx.2.trans hy.2.symm)

theorem Digest.eq {xs : List Scalar} {y z : Scalar} (hy : P.Digest xs y) (hz : P.Digest xs z) :
    y = z :=
  hy.2.symm.trans hz.2

variable (P)

theorem hashPair_injOn : Set.InjOn (fun p : Scalar × Scalar => P.hashPair p.1 p.2) P.askedPairs := by
  intro p hp q hq heq
  have hlist : [p.1, p.2] = [q.1, q.2] := P.injOn hp hq heq
  simp only [List.cons.injEq, and_true] at hlist
  exact Prod.ext hlist.1 hlist.2

theorem cast_hashWords (left right : ℕ) :
    (P.hashWords left right : Scalar) = P.hashPair left right :=
  ZMod.natCast_zmod_val _

theorem cast_node (leaf : ℕ → ℕ) (level index : ℕ) :
    ((MerkleTree.node P.hashWords leaf level index : ℕ) : Scalar) =
      MerkleTree.node P.hashPair (fun i => (leaf i : Scalar)) level index := by
  induction level generalizing index with
  | zero => rfl
  | succ level ih => rw [MerkleTree.node_succ, MerkleTree.node_succ, P.cast_hashWords, ih, ih]

theorem cast_climb (right : ℕ → Bool) (sibling : ℕ → ℕ) (leaf level : ℕ) :
    ((MerkleTree.climb P.hashWords right sibling leaf level : ℕ) : Scalar) =
      MerkleTree.climb P.hashPair right (fun i => (sibling i : Scalar)) leaf level := by
  induction level with
  | zero => rfl
  | succ level ih =>
    rw [MerkleTree.climb, MerkleTree.climb]
    split <;> rw [P.cast_hashWords, ih]

theorem hashWords_lt (left right : ℕ) : P.hashWords left right < modulus :=
  ZMod.val_lt _

/-- A precomputed table holds the iterated hashes of the empty leaf. -/
def ZeroTable (table : List ℕ) : Prop :=
  ∀ i, i + 1 < table.length → P.hashWords (table.getD i 0) (table.getD i 0) = table.getD (i + 1) 0

variable {P}

theorem ZeroTable.getD {table : List ℕ} (htable : P.ZeroTable table) (hzero : table.getD 0 0 = 0) {i : ℕ}
    (hi : i < table.length) : table.getD i 0 = MerkleTree.emptyRoot P.hashWords 0 i := by
  induction i with
  | zero => exact hzero
  | succ i ih => rw [← htable i hi, ih (by omega), MerkleTree.emptyRoot_succ]

private theorem mem_of_lookup {table : List (List Scalar × Scalar)} {xs : List Scalar} {y : Scalar}
    (hlookup : table.lookup xs = some y) : (xs, y) ∈ table := by
  obtain ⟨before, after, rfl, -⟩ := List.lookup_eq_some_iff.mp hlookup
  simp

/-- Poseidon on finitely many known inputs. -/
def ofTable (table : List (List Scalar × Scalar)) (hnodup : (table.map Prod.snd).Nodup)
    (hzero : (0 : Scalar) ∉ table.map Prod.snd) : Poseidon where
  hash xs := (table.lookup xs).getD 0
  asked := {xs | (table.lookup xs).isSome}
  injOn := by
    intro xs hxs ys hys heq
    obtain ⟨x, hx⟩ := Option.isSome_iff_exists.mp hxs
    obtain ⟨y, hy⟩ := Option.isSome_iff_exists.mp hys
    have hxy : x = y := by simpa [hx, hy] using heq
    have hmem : (xs, x) ∈ table := mem_of_lookup hx
    have hmem' : (ys, x) ∈ table := hxy ▸ mem_of_lookup hy
    exact congrArg Prod.fst (List.inj_on_of_nodup_map hnodup hmem hmem' rfl)
  ne_zero := by
    intro xs hxs heq
    obtain ⟨x, hx⟩ := Option.isSome_iff_exists.mp hxs
    have hx0 : x = 0 := by simpa [hx] using heq
    exact hzero (List.mem_map.mpr ⟨(xs, x), mem_of_lookup hx, hx0⟩)

instance [DecidablePred (· ∈ P.asked)] (xs : List Scalar) (y : Scalar) : Decidable (P.Digest xs y) :=
  inferInstanceAs (Decidable (xs ∈ P.asked ∧ P.hash xs = y))

instance [DecidablePred (· ∈ P.asked)] (p : Scalar × Scalar) : Decidable (p ∈ P.askedPairs) :=
  inferInstanceAs (Decidable ([p.1, p.2] ∈ P.asked))

instance (table : List (List Scalar × Scalar)) (hnodup : (table.map Prod.snd).Nodup)
    (hzero : (0 : Scalar) ∉ table.map Prod.snd) (xs : List Scalar) :
    Decidable (xs ∈ (ofTable table hnodup hzero).asked) :=
  inferInstanceAs (Decidable ((table.lookup xs).isSome = true))

theorem digest_ofTable {table : List (List Scalar × Scalar)} {hnodup : (table.map Prod.snd).Nodup}
    {hzero : (0 : Scalar) ∉ table.map Prod.snd} {xs : List Scalar} {y : Scalar}
    (hlookup : table.lookup xs = some y) : (ofTable table hnodup hzero).Digest xs y :=
  ⟨Option.isSome_of_eq_some hlookup, congrArg (·.getD 0) hlookup⟩

end Poseidon

end ScatterDex
