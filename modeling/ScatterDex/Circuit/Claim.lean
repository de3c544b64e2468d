import ScatterDex.Circuit.Completeness

/-!
# The claim circuit

A claim opens one leaf of a claims tree. The leaf names who is paid what and when, and the nullifier reads the secret of the leaf, its position and the root, so a leaf has one nullifier wherever its proof comes from.

The tree was built by an authorize proof; what that proof says about its leaves is read off the root alone.
-/

namespace ScatterDex

open Bn254

namespace Circuit

variable (C : Circomlib) (P : Poseidon)

/-- The membership template under its name in `claim_template.circom`. -/
abbrev PoseidonMerkleProofClaim (levels : ℕ) := MerkleProof C P levels

structure ClaimSignals where
  claimsRoot : Scalar
  nullifier : Scalar
  amount : Scalar
  token : Scalar
  recipient : Scalar
  releaseTime : Scalar
  secret : Scalar
  leafIndex : Scalar
  pathElements : ℕ → Scalar
  pathIndices : ℕ → Scalar

namespace ClaimSignals

variable (c : ClaimSignals)

def leaf : List Scalar := [c.secret, c.recipient, c.token, c.amount, c.releaseTime]

def nullifierPreimage : List Scalar := [tagClaimNull, c.secret, c.leafIndex, c.claimsRoot]

def publicInputs : List Scalar :=
  [c.claimsRoot, c.nullifier, c.amount, c.token, c.recipient, c.releaseTime]

end ClaimSignals

/-- `Claim(depth)`. -/
structure Claim (depth : ℕ) (c : ClaimSignals) : Prop where
  merkle : ∃ leafHash, P.Digest c.leaf leafHash ∧
    PoseidonMerkleProofClaim C P depth leafHash c.pathElements c.pathIndices c.claimsRoot
  leafIndex : c.leafIndex = ∑ i ∈ Finset.range depth, c.pathIndices i * 2 ^ i
  nullifier : P.Digest c.nullifierPreimage c.nullifier

variable {C P}

/-! ### The position of a claim -/

theorem sum_pathIndices {pathIndices : ℕ → Scalar} {depth : ℕ}
    (hbits : ∀ i < depth, pathIndices i = 0 ∨ pathIndices i = 1) :
    ∑ i ∈ Finset.range depth, pathIndices i * 2 ^ i = (MerkleTree.position (direction pathIndices) depth : ℕ) := by
  induction depth with
  | zero => simp [MerkleTree.position]
  | succ depth ih =>
    rw [Finset.sum_range_succ, ih fun i hi => hbits i (by omega), MerkleTree.position, Nat.cast_add, direction]
    rcases hbits depth (Nat.lt_succ_self depth) with hbit | hbit <;> simp [hbit]

theorem cast_inj_of_lt {i j : ℕ} (hi : i < 2 ^ 128) (hj : j < 2 ^ 128) (heq : (i : Scalar) = j) : i = j := by
  have hvi : (i : Scalar).val = i := Authorize.val_natCast_of_lt (hi.trans (by decide))
  have hvj : (j : Scalar).val = j := Authorize.val_natCast_of_lt (hj.trans (by decide))
  rw [← hvi, heq, hvj]

/-! ### The tree of an authorize proof -/

/-- The rows of the claims tree component are the levels of a tree over asked pairs. -/
theorem AuthClaimsRoot.tree {maxLeaves depth : ℕ} (hmax : maxLeaves = 2 ^ depth) {leaves : ℕ → Scalar} {root : Scalar}
    (hroot : AuthClaimsRoot P maxLeaves depth leaves root) :
    root = MerkleTree.node P.hashPair leaves depth 0 ∧ MerkleTree.PairsIn P.hashPair P.askedPairs leaves depth 0 := by
  obtain ⟨nodes, hleaves, hlevels, rfl⟩ := hroot
  have hrows : ∀ level ≤ depth, ∀ i < 2 ^ (depth - level), nodes level i = MerkleTree.node P.hashPair leaves level i ∧
      MerkleTree.PairsIn P.hashPair P.askedPairs leaves level i := by
    intro level
    induction level with
    | zero => exact fun _ i hi => ⟨hleaves i (by rwa [hmax]), trivial⟩
    | succ level ih =>
      intro hlevel i hi
      have hhalf : 2 ^ (depth - level) = 2 * 2 ^ (depth - (level + 1)) := by
        rw [← pow_succ', show depth - level = depth - (level + 1) + 1 by omega]
      have hwidth : maxLeaves / 2 ^ level / 2 = 2 ^ (depth - (level + 1)) := by
        rw [hmax, Nat.pow_div (by omega) (by decide), hhalf, Nat.mul_div_cancel_left _ (by decide)]
      have hdigest := (hlevels level (by omega)).1 i (by rwa [hwidth])
      obtain ⟨hleft, hleftPairs⟩ := ih (by omega) (2 * i) (by omega)
      obtain ⟨hright, hrightPairs⟩ := ih (by omega) (2 * i + 1) (by omega)
      rw [hleft, hright] at hdigest
      exact ⟨hdigest.2.symm, hdigest.1, hleftPairs, hrightPairs⟩
  exact hrows depth le_rfl 0 (Nat.two_pow_pos _)

/-- A path under the root of an authorize proof that starts at the digest of five elements, whatever its depth, starts at a leaf the proof uses. -/
theorem Authorize.opened {commitTreeDepth maxClaimsPerSide claimsTreeDepth depth : ℕ} {s : AuthorizeSignals}
    (hmax : maxClaimsPerSide = 2 ^ claimsTreeDepth) (htier : maxClaimsPerSide ≤ 128)
    (hs : Authorize C P commitTreeDepth maxClaimsPerSide claimsTreeDepth s) {leaf : List Scalar} {leafHash : Scalar}
    (hfive : leaf.length = 5) (hleaf : P.Digest leaf leafHash) {pathElements pathIndices : ℕ → Scalar}
    (hmerkle : PoseidonMerkleProofClaim C P depth leafHash pathElements pathIndices s.claimsRoot) :
    ∃ i < s.claimCount.val, leaf = s.claimLeaf i ∧
      ∑ j ∈ Finset.range depth, pathIndices j * 2 ^ j = (i : Scalar) := by
  obtain ⟨hbits, hpairs, hend⟩ := merkleProof_iff.mp hmerkle
  obtain ⟨hnode, htree⟩ := hs.claimsRoot.tree hmax
  rw [hnode] at hend
  have hpreimage : ∀ left right, [left, right] ∈ P.asked → leafHash ≠ P.hash [left, right] := by
    -- five elements are not a pair
    intro left right hasked heq
    rw [Poseidon.Digest.inj hleaf ⟨hasked, heq.symm⟩] at hfive
    simp at hfive
  rcases lt_trichotomy depth claimsTreeDepth with hlt | heq | hgt
  · obtain ⟨above, rfl⟩ : ∃ above, claimsTreeDepth = above + 1 + depth := ⟨claimsTreeDepth - depth - 1, by omega⟩
    obtain ⟨left, right, hasked, heq⟩ := MerkleTree.pair_of_short_climb P.hashPair_injOn hpairs htree hend
    exact absurd heq (hpreimage left right hasked)
  · subst heq
    have hstart := MerkleTree.leaf_of_climb P.hashPair_injOn hpairs htree hend
    have hposition := MerkleTree.position_lt (direction pathIndices) depth
    have hsum := sum_pathIndices hbits
    generalize MerkleTree.position (direction pathIndices) depth = i at hstart hposition hsum
    have hused : i < s.claimCount.val := by
      by_contra hunused
      rw [(hs.unused_claim htier (by omega) (not_lt.mp hunused)).1] at hstart
      exact hleaf.ne_zero hstart
    have hdigest := (hs.used_claim htier hused).1
    rw [← hstart] at hdigest
    exact ⟨i, hused, Poseidon.Digest.inj hleaf hdigest, hsum⟩
  · -- the climb passes through a leaf of the tree, which is then a pair
    obtain ⟨start, rfl⟩ : ∃ start, depth = start + 1 + claimsTreeDepth := ⟨depth - claimsTreeDepth - 1, by omega⟩
    have hbelow := MerkleTree.climb_start_of_node P.hashPair_injOn hpairs htree hend
    have hasked := hpairs start (by omega)
    rw [MerkleTree.climb_succ, Nat.zero_mul, Nat.zero_add] at hbelow
    have hposition := MerkleTree.position_lt (fun i => direction pathIndices (start + 1 + i)) claimsTreeDepth
    generalize MerkleTree.position (fun i => direction pathIndices (start + 1 + i)) claimsTreeDepth = i
      at hbelow hposition
    rcases Nat.lt_or_ge i s.claimCount.val with hused | hunused
    · have hdigest := (hs.used_claim htier hused).1
      rw [← hbelow] at hdigest
      have hlists := Poseidon.Digest.inj hdigest ⟨hasked, rfl⟩
      simp [AuthorizeSignals.claimLeaf] at hlists
    · rw [(hs.unused_claim htier (by omega) hunused).1] at hbelow
      exact absurd hbelow (P.ne_zero _ hasked)

/-- **A claim opens a used leaf.** Whatever depth its proof has, a claim under the root of an authorize proof sits at a position below the claim count, repeats the claim the proof lists there, and its nullifier is that of the position. -/
theorem Claim.opens {commitTreeDepth maxClaimsPerSide claimsTreeDepth depth : ℕ} {s : AuthorizeSignals}
    {c : ClaimSignals} (hmax : maxClaimsPerSide = 2 ^ claimsTreeDepth) (htier : maxClaimsPerSide ≤ 128)
    (hs : Authorize C P commitTreeDepth maxClaimsPerSide claimsTreeDepth s) (hc : Claim C P depth c)
    (hroot : c.claimsRoot = s.claimsRoot) :
    ∃ i < s.claimCount.val, c.leaf = s.claimLeaf i ∧
      P.Digest [tagClaimNull, s.claimSecrets i, (i : Scalar), s.claimsRoot] c.nullifier := by
  obtain ⟨leafHash, hleaf, hmerkle⟩ := hc.merkle
  rw [hroot] at hmerkle
  obtain ⟨i, hused, hsame, hposition⟩ := hs.opened hmax htier rfl hleaf hmerkle
  have hsecret : c.secret = s.claimSecrets i := (List.cons.inj hsame).1
  refine ⟨i, hused, hsame, ?_⟩
  have hnullifier := hc.nullifier
  rwa [ClaimSignals.nullifierPreimage, hsecret, hc.leafIndex, hposition, hroot] at hnullifier

theorem claimNullifier_inj {secret secret' root root' nullifier : Scalar} {i j : ℕ} (hi : i < 2 ^ 128) (hj : j < 2 ^ 128)
    (hfirst : P.Digest [tagClaimNull, secret, (i : Scalar), root] nullifier)
    (hsecond : P.Digest [tagClaimNull, secret', (j : Scalar), root'] nullifier) : root = root' ∧ i = j := by
  have hlists := Poseidon.Digest.inj hfirst hsecond
  simp only [List.cons.injEq, and_true, true_and] at hlists
  exact ⟨hlists.2.2, cast_inj_of_lt hi hj hlists.2.1⟩

/-! ### Every used leaf can be claimed -/

/-- The claim of a position, with the siblings of its leaf for a path. -/
def AuthorizeSignals.claimAt (P : Poseidon) (s : AuthorizeSignals) (i : ℕ) : ClaimSignals where
  claimsRoot := s.claimsRoot
  nullifier := P.hash [tagClaimNull, s.claimSecrets i, (i : Scalar), s.claimsRoot]
  amount := s.claimAmounts i
  token := s.claimTokens i
  recipient := s.claimRecipients i
  releaseTime := s.claimReleaseTimes i
  secret := s.claimSecrets i
  leafIndex := (i : Scalar)
  pathElements := MerkleTree.siblings P.hashPair s.leaves i
  pathIndices := fun level => if i.testBit level then 1 else 0

theorem Authorize.claimAt_merkle {commitTreeDepth maxClaimsPerSide claimsTreeDepth : ℕ} {s : AuthorizeSignals}
    (hmax : maxClaimsPerSide = 2 ^ claimsTreeDepth) (htier : maxClaimsPerSide ≤ 128)
    (hs : Authorize C P commitTreeDepth maxClaimsPerSide claimsTreeDepth s) {i : ℕ} (hused : i < s.claimCount.val) :
    P.Digest (s.claimLeaf i) (s.leaves i) ∧
      PoseidonMerkleProofClaim C P claimsTreeDepth (s.leaves i) (s.claimAt P i).pathElements (s.claimAt P i).pathIndices
        s.claimsRoot ∧
      ∑ j ∈ Finset.range claimsTreeDepth, (s.claimAt P i).pathIndices j * 2 ^ j = (i : Scalar) := by
  obtain ⟨hnode, htree⟩ := hs.claimsRoot.tree hmax
  have hlt : i < 2 ^ claimsTreeDepth := lt_of_lt_of_le hused (hmax ▸ hs.claimCount_le htier)
  have hbits : ∀ level < claimsTreeDepth, (s.claimAt P i).pathIndices level = 0 ∨ (s.claimAt P i).pathIndices level = 1 := by
    intro level _
    rw [AuthorizeSignals.claimAt]
    dsimp only
    split
    · exact Or.inr rfl
    · exact Or.inl rfl
  have hdirection : direction (s.claimAt P i).pathIndices = i.testBit := by
    funext level
    rw [direction, AuthorizeSignals.claimAt]
    cases hbit : i.testBit level <;> simp [hbit]
  refine ⟨(hs.used_claim htier hused).1, merkleProof_iff.mpr ⟨hbits, ?_, ?_⟩, ?_⟩
  · rw [hdirection]
    exact MerkleTree.climbPair_siblings_mem htree hlt
  · rw [hdirection]
    have hclimb := MerkleTree.climb_siblings P.hashPair s.leaves i claimsTreeDepth
    rw [Nat.div_eq_of_lt hlt, ← hnode] at hclimb
    exact hclimb
  · rw [sum_pathIndices hbits, hdirection, MerkleTree.position_testBit, Nat.mod_eq_of_lt hlt]

/-- **Claim is complete**: a used leaf has a satisfying assignment at the depth of its tree, once its nullifier was hashed. -/
theorem Authorize.claimAt_claim {commitTreeDepth maxClaimsPerSide claimsTreeDepth : ℕ} {s : AuthorizeSignals}
    (hmax : maxClaimsPerSide = 2 ^ claimsTreeDepth) (htier : maxClaimsPerSide ≤ 128)
    (hs : Authorize C P commitTreeDepth maxClaimsPerSide claimsTreeDepth s) {i : ℕ} (hused : i < s.claimCount.val)
    (hasked : [tagClaimNull, s.claimSecrets i, (i : Scalar), s.claimsRoot] ∈ P.asked) :
    Claim C P claimsTreeDepth (s.claimAt P i) := by
  obtain ⟨hdigest, hmerkle, hposition⟩ := hs.claimAt_merkle hmax htier hused
  exact ⟨⟨s.leaves i, hdigest, hmerkle⟩, hposition.symm, hasked, rfl⟩

/-! ### Claims trees of different tokens -/

theorem Authorize.buyToken_eq_of_claimsRoot {commitTreeDepth commitTreeDepth' maxClaimsPerSide maxClaimsPerSide'
    claimsTreeDepth claimsTreeDepth' : ℕ} {s s' : AuthorizeSignals} (hmax : maxClaimsPerSide = 2 ^ claimsTreeDepth)
    (htier : maxClaimsPerSide ≤ 128) (hmax' : maxClaimsPerSide' = 2 ^ claimsTreeDepth')
    (htier' : maxClaimsPerSide' ≤ 128) (hs : Authorize C P commitTreeDepth maxClaimsPerSide claimsTreeDepth s)
    (hs' : Authorize C P commitTreeDepth' maxClaimsPerSide' claimsTreeDepth' s') (hroot : s.claimsRoot = s'.claimsRoot)
    (hlocked : s.totalLocked ≠ 0) : s.buyToken = s'.buyToken := by
  have hcount : 0 < s.claimCount.val := by
    apply Nat.pos_of_ne_zero
    intro hzero
    have hsum := hs.sum_claimAmounts htier
    rw [hzero, Finset.range_zero, Finset.sum_empty] at hsum
    exact hlocked ((ZMod.val_eq_zero _).mp hsum.symm)
  obtain ⟨hdigest, hmerkle, -⟩ := hs.claimAt_merkle hmax htier hcount
  rw [hroot] at hmerkle
  obtain ⟨i, hused, hleaf, -⟩ := hs'.opened hmax' htier' rfl hdigest hmerkle
  simp only [AuthorizeSignals.claimLeaf, List.cons.injEq] at hleaf
  rw [← (hs.used_claim htier hcount).2, hleaf.2.2.1, (hs'.used_claim htier' hused).2]

end Circuit

end ScatterDex
