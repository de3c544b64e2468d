import ScatterDex.Circuit.Escrow
import Mathlib.Algebra.BigOperators.Fin

/-!
# The authorize circuit

One side of a trade: it spends a note, commits to the residual, and lists the claims that are paid from what the side buys. All comparisons of the circuit are between field elements, through comparators of limited width; the theorems here read its signals as natural numbers and show that no operand left the width of its comparator and that no sum or product wrapped.
-/

namespace ScatterDex

open Bn254

namespace Circuit

variable (C : Circomlib) (P : Poseidon)

/-- The membership template under its name in `authorize_template.circom`. -/
abbrev AuthMerkleProof (levels : ℕ) := MerkleProof C P levels

/-- `AuthClaimsRoot(maxLeaves, depth)`: each level hashes the pairs of the level below and zeroes the rest of its row. -/
def AuthClaimsRoot (maxLeaves depth : ℕ) (leaves : ℕ → Scalar) (root : Scalar) : Prop :=
  ∃ nodes : ℕ → ℕ → Scalar, (∀ i < maxLeaves, nodes 0 i = leaves i) ∧
    (∀ level < depth,
      (∀ i < maxLeaves / 2 ^ level / 2,
        P.Digest [nodes level (2 * i), nodes level (2 * i + 1)] (nodes (level + 1) i)) ∧
      ∀ i, maxLeaves / 2 ^ level / 2 ≤ i → i < maxLeaves → nodes (level + 1) i = 0) ∧
    root = nodes depth 0

/-- The signals of `Authorize`. Arrays are read below their declared length. -/
structure AuthorizeSignals where
  pubKeyBind : Scalar
  commitmentRoot : Scalar
  nullifier : Scalar
  nonceNullifier : Scalar
  newCommitment : Scalar
  sellToken : Scalar
  buyToken : Scalar
  sellAmount : Scalar
  buyAmount : Scalar
  maxFee : Scalar
  expiry : Scalar
  claimsRoot : Scalar
  totalLocked : Scalar
  relayer : Scalar
  orderHash : Scalar
  secret : Scalar
  balance : Scalar
  salt : Scalar
  path : ℕ → Scalar
  pathIdx : ℕ → Scalar
  nonce : Scalar
  newSalt : Scalar
  pubKeyAx : Scalar
  pubKeyAy : Scalar
  sigS : Scalar
  sigR8x : Scalar
  sigR8y : Scalar
  claimSecrets : ℕ → Scalar
  claimRecipients : ℕ → Scalar
  claimTokens : ℕ → Scalar
  claimAmounts : ℕ → Scalar
  claimReleaseTimes : ℕ → Scalar
  claimCount : Scalar
  newBalance : Scalar
  computedLeaves : ℕ → Scalar
  claimUsed : ℕ → Scalar
  amountAcc : ℕ → Scalar
  -- the ports `claimsRootComp.leaves`
  leaves : ℕ → Scalar
  lockedScaled : Scalar
  minReceiveScaled : Scalar
deriving Inhabited

namespace AuthorizeSignals

variable (s : AuthorizeSignals)

def note : Note := ⟨s.secret, s.sellToken, s.balance, s.salt, s.pubKeyAx, s.pubKeyAy⟩

/-- The note the new commitment is meant to hide. -/
def residual : Note := ⟨s.secret, s.sellToken, s.newBalance, s.newSalt, s.pubKeyAx, s.pubKeyAy⟩

def claimLeaf (i : ℕ) : List Scalar :=
  [s.claimSecrets i, s.claimRecipients i, s.claimTokens i, s.claimAmounts i, s.claimReleaseTimes i]

/-- The public signals in the order of the verifier's array. -/
def publicInputs : List Scalar :=
  [s.pubKeyBind, s.commitmentRoot, s.nullifier, s.nonceNullifier, s.newCommitment, s.sellToken, s.buyToken,
    s.sellAmount, s.buyAmount, s.maxFee, s.expiry, s.claimsRoot, s.totalLocked, s.relayer, s.orderHash]

end AuthorizeSignals

/-- `Authorize(commitTreeDepth, maxClaimsPerSide, claimsTreeDepth)`. -/
structure Authorize (commitTreeDepth maxClaimsPerSide claimsTreeDepth : ℕ) (s : AuthorizeSignals) : Prop where
  rcSell : C.num2Bits 126 s.sellAmount
  rcBuy : C.num2Bits 126 s.buyAmount
  rcBalance : C.num2Bits 128 s.balance
  rcTotalLocked : C.num2Bits 128 s.totalLocked
  rcMaxFee : C.num2Bits 16 s.maxFee
  maxFeeUpper : C.lessEqThan 16 s.maxFee 10000 1
  rcClaimCount : C.num2Bits 8 s.claimCount
  claimCountBound : C.lessEqThan 8 s.claimCount maxClaimsPerSide 1
  rcClaimAmount : ∀ i < maxClaimsPerSide, C.num2Bits 128 (s.claimAmounts i)
  membership : ∃ leaf, P.Digest s.note.preimage leaf ∧
    AuthMerkleProof C P commitTreeDepth leaf s.path s.pathIdx s.commitmentRoot
  nullifier : P.Digest s.note.nullifierPreimage s.nullifier
  nonceNullifier : P.Digest [tagNonceNull, s.secret, s.nonce] s.nonceNullifier
  balCheck : C.lessEqThan 128 s.sellAmount s.balance 1
  newBalance : s.newBalance = s.balance - s.sellAmount
  newCommitment : ∃ newCommitHash newIsZero, P.Digest s.residual.preimage newCommitHash ∧
    C.isZero s.newBalance newIsZero ∧ s.newCommitment = (1 - newIsZero) * newCommitHash
  computedLeaves : ∀ i < maxClaimsPerSide, P.Digest (s.claimLeaf i) (s.computedLeaves i)
  claimUsed : ∀ i < maxClaimsPerSide, C.lessThan 8 i s.claimCount (s.claimUsed i)
  unusedAmount : ∀ i < maxClaimsPerSide, (1 - s.claimUsed i) * s.claimAmounts i = 0
  usedToken : ∀ i < maxClaimsPerSide, s.claimUsed i * (s.claimTokens i - s.buyToken) = 0
  amountAccZero : s.amountAcc 0 = 0
  amountAccSucc : ∀ i < maxClaimsPerSide, s.amountAcc (i + 1) = s.amountAcc i + s.claimAmounts i
  totalLocked : s.totalLocked = s.amountAcc maxClaimsPerSide
  leaves : ∀ i < maxClaimsPerSide, s.leaves i = s.computedLeaves i * s.claimUsed i
  claimsRoot : AuthClaimsRoot P maxClaimsPerSide claimsTreeDepth s.leaves s.claimsRoot
  lockedScaled : s.lockedScaled = s.totalLocked * 10000
  minReceiveScaled : s.minReceiveScaled = s.buyAmount * (10000 - s.maxFee)
  receiveCheck : C.lessEqThan 144 s.minReceiveScaled s.lockedScaled 1
  orderHash : P.Digest [s.sellToken, s.buyToken, s.sellAmount, s.buyAmount, s.maxFee, s.expiry, s.nonce,
    s.claimsRoot, s.relayer] s.orderHash
  signature : C.eddsaPoseidonVerifier 1 s.pubKeyAx s.pubKeyAy s.sigS s.sigR8x s.sigR8y s.orderHash
  pubKeyBind : P.Digest [s.pubKeyAx, s.pubKeyAy, s.nullifier] s.pubKeyBind

namespace Authorize

variable {C P} {commitTreeDepth maxClaimsPerSide claimsTreeDepth : ℕ} {s : AuthorizeSignals}

/-! ### Comparators within their width -/

theorem le_of_lessEqThan {n : ℕ} (hn : n ≤ 252) {a b : Scalar} (ha : a.val < 2 ^ n) (hb : b.val < 2 ^ n)
    (hcheck : C.lessEqThan n a b 1) : a.val ≤ b.val := by
  rw [C.lessEqThan_iff n hn a b 1 ha hb] at hcheck
  by_contra hlt
  rw [if_neg hlt] at hcheck
  exact one_ne_zero hcheck

theorem val_natCast_of_lt {n : ℕ} (hn : n < 2 ^ 144) : ((n : Scalar)).val = n := by
  have hbig : 2 ^ 144 ≤ modulus := by decide
  exact ZMod.val_natCast_of_lt (by omega)

theorem val_mul_of_lt {a b : Scalar} (hab : a.val * b.val < modulus) : (a * b).val = a.val * b.val :=
  ZMod.val_mul_of_lt hab

variable (hs : Authorize C P commitTreeDepth maxClaimsPerSide claimsTreeDepth s)
include hs

theorem maxFee_le : s.maxFee.val ≤ 10000 := by
  have hfee := (C.num2Bits_iff 16 (by decide) _).mp hs.rcMaxFee
  have hten : (10000 : Scalar).val = 10000 := val_natCast_of_lt (by decide)
  have hle := le_of_lessEqThan (by decide) hfee (by rw [hten]; decide) hs.maxFeeUpper
  rwa [hten] at hle

theorem sellAmount_le : s.sellAmount.val ≤ s.balance.val := by
  have hsell := (C.num2Bits_iff 126 (by decide) _).mp hs.rcSell
  have hbalance := (C.num2Bits_iff 128 (by decide) _).mp hs.rcBalance
  exact le_of_lessEqThan (by decide) (by omega) hbalance hs.balCheck

theorem newBalance_val : s.newBalance.val = s.balance.val - s.sellAmount.val := by
  rw [hs.newBalance]
  exact ZMod.val_sub hs.sellAmount_le

theorem newCommitment_spec : (s.newCommitment = 0 ↔ s.newBalance = 0) ∧
    (s.newCommitment ≠ 0 → P.Commits s.residual s.newCommitment) := by
  obtain ⟨newCommitHash, newIsZero, hhash, hisZero, hnew⟩ := hs.newCommitment
  obtain ⟨hzero, hkept⟩ := masked_commitment hhash.ne_zero hisZero hnew
  refine ⟨hzero, fun hne => ?_⟩
  rw [hkept (mt hzero.mpr hne)]
  exact hhash

theorem newBalance_eq_zero_iff : s.newBalance = 0 ↔ s.sellAmount.val = s.balance.val := by
  have hle := hs.sellAmount_le
  rw [← ZMod.val_eq_zero, hs.newBalance_val]
  omega

/-! ### The claims -/

variable (htier : maxClaimsPerSide ≤ 128)
include htier

theorem claimCount_le : s.claimCount.val ≤ maxClaimsPerSide := by
  have hcount := (C.num2Bits_iff 8 (by decide) _).mp hs.rcClaimCount
  have hmax : (maxClaimsPerSide : Scalar).val = maxClaimsPerSide := val_natCast_of_lt (by omega)
  have hle := le_of_lessEqThan (by decide) hcount (by rw [hmax]; omega) hs.claimCountBound
  rwa [hmax] at hle

theorem claimUsed_eq {i : ℕ} (hi : i < maxClaimsPerSide) :
    s.claimUsed i = if i < s.claimCount.val then 1 else 0 := by
  have hcount := (C.num2Bits_iff 8 (by decide) _).mp hs.rcClaimCount
  have hval : (i : Scalar).val = i := val_natCast_of_lt (by omega)
  have hused := (C.lessThan_iff 8 (by decide) _ _ _ (by rw [hval]; omega) hcount).mp (hs.claimUsed i hi)
  rwa [hval] at hused

theorem unused_claim {i : ℕ} (hi : i < maxClaimsPerSide) (hunused : s.claimCount.val ≤ i) :
    s.leaves i = 0 ∧ s.claimAmounts i = 0 := by
  have hused := hs.claimUsed_eq htier hi
  rw [if_neg (not_lt.mpr hunused)] at hused
  refine ⟨by rw [hs.leaves i hi, hused, mul_zero], ?_⟩
  have hamount := hs.unusedAmount i hi
  rwa [hused, sub_zero, one_mul] at hamount

theorem used_claim {i : ℕ} (hused : i < s.claimCount.val) :
    P.Digest (s.claimLeaf i) (s.leaves i) ∧ s.claimTokens i = s.buyToken := by
  have hi : i < maxClaimsPerSide := lt_of_lt_of_le hused (hs.claimCount_le htier)
  have hone := hs.claimUsed_eq htier hi
  rw [if_pos hused] at hone
  refine ⟨?_, ?_⟩
  · rw [hs.leaves i hi, hone, mul_one]
    exact hs.computedLeaves i hi
  · have htoken := hs.usedToken i hi
    rwa [hone, one_mul, sub_eq_zero] at htoken

/-- The accumulator is the sum of the amounts as naturals: at most `128` summands of `128` bits. -/
theorem amountAcc_val {k : ℕ} (hk : k ≤ maxClaimsPerSide) :
    (s.amountAcc k).val = ∑ i ∈ Finset.range k, (s.claimAmounts i).val ∧
      (s.amountAcc k).val ≤ k * 2 ^ 128 := by
  induction k with
  | zero =>
    rw [hs.amountAccZero, ZMod.val_zero]
    exact ⟨rfl, Nat.zero_le _⟩
  | succ k ih =>
    obtain ⟨hsum, hbound⟩ := ih (by omega)
    have hamount := (C.num2Bits_iff 128 (by decide) _).mp (hs.rcClaimAmount k (by omega))
    have hmodulus : 129 * 2 ^ 128 ≤ modulus := by decide
    have hnext : (s.amountAcc (k + 1)).val = (s.amountAcc k).val + (s.claimAmounts k).val := by
      rw [hs.amountAccSucc k (by omega)]
      exact ZMod.val_add_of_lt (by omega)
    rw [hnext, hsum, Finset.sum_range_succ]
    exact ⟨rfl, by omega⟩

/-- **The used claims sum to the locked total**, as naturals. -/
theorem sum_claimAmounts :
    ∑ i ∈ Finset.range s.claimCount.val, (s.claimAmounts i).val = s.totalLocked.val := by
  rw [hs.totalLocked, (hs.amountAcc_val htier le_rfl).1]
  refine Finset.sum_subset (Finset.range_mono (hs.claimCount_le htier)) fun i hi hunused => ?_
  rw [Finset.mem_range] at hi hunused
  rw [(hs.unused_claim htier hi (not_lt.mp hunused)).2, ZMod.val_zero]

omit htier in
theorem min_receive : s.buyAmount.val * (10000 - s.maxFee.val) ≤ s.totalLocked.val * 10000 := by
  have hbuy := (C.num2Bits_iff 126 (by decide) _).mp hs.rcBuy
  have hlocked := (C.num2Bits_iff 128 (by decide) _).mp hs.rcTotalLocked
  have hmodulus : 2 ^ 144 ≤ modulus := by decide
  have hten : (10000 : Scalar).val = 10000 := val_natCast_of_lt (by decide)
  have hfee : (10000 - s.maxFee : Scalar).val = 10000 - s.maxFee.val := by
    rw [ZMod.val_sub (by rw [hten]; exact hs.maxFee_le), hten]
  have hproduct : s.buyAmount.val * (10000 - s.maxFee.val) ≤ 2 ^ 126 * 10000 :=
    Nat.mul_le_mul hbuy.le (Nat.sub_le _ _)
  have hmin : s.minReceiveScaled.val = s.buyAmount.val * (10000 - s.maxFee.val) := by
    rw [hs.minReceiveScaled, val_mul_of_lt (by rw [hfee]; omega), hfee]
  have hscaled : s.lockedScaled.val = s.totalLocked.val * 10000 := by
    rw [hs.lockedScaled, val_mul_of_lt (by rw [hten]; omega), hten]
  have hle := le_of_lessEqThan (by decide) (by rw [hmin]; omega) (by rw [hscaled]; omega) hs.receiveCheck
  rwa [hmin, hscaled] at hle

/-! ### Soundness -/

end Authorize

/-- What a satisfying assignment says when its signals are read as canonical naturals. -/
structure NaturalReading (P : Poseidon) (maxClaimsPerSide : ℕ) (s : AuthorizeSignals) : Prop where
  maxFee_le : s.maxFee.val ≤ 10000
  sellAmount_le : s.sellAmount.val ≤ s.balance.val
  newCommitment_eq_zero_iff : s.newCommitment = 0 ↔ s.sellAmount.val = s.balance.val
  newCommitment_hash : s.newCommitment ≠ 0 → P.Digest [tagCommitmentV2, s.secret, s.sellToken,
    ((s.balance.val - s.sellAmount.val : ℕ) : Scalar), s.newSalt, s.pubKeyAx, s.pubKeyAy] s.newCommitment
  claimCount_le : s.claimCount.val ≤ maxClaimsPerSide
  sum_claimAmounts : ∑ i ∈ Finset.range s.claimCount.val, (s.claimAmounts i).val = s.totalLocked.val
  unused_leaf : ∀ i < maxClaimsPerSide, s.claimCount.val ≤ i → s.leaves i = 0
  used_leaf : ∀ i < s.claimCount.val, P.Digest (s.claimLeaf i) (s.leaves i)
  used_token : ∀ i < s.claimCount.val, s.claimTokens i = s.buyToken
  min_receive : s.buyAmount.val * (10000 - s.maxFee.val) ≤ s.totalLocked.val * 10000

/-- **Authorize is sound over the naturals**, at every tier of at most 128 claims and every pair of tree depths. -/
theorem Authorize.naturalReading {C : Circomlib} {P : Poseidon}
    {commitTreeDepth maxClaimsPerSide claimsTreeDepth : ℕ} {s : AuthorizeSignals}
    (htier : maxClaimsPerSide ≤ 128)
    (hs : Authorize C P commitTreeDepth maxClaimsPerSide claimsTreeDepth s) :
    NaturalReading P maxClaimsPerSide s where
  maxFee_le := hs.maxFee_le
  sellAmount_le := hs.sellAmount_le
  newCommitment_eq_zero_iff := hs.newCommitment_spec.1.trans hs.newBalance_eq_zero_iff
  newCommitment_hash := by
    intro hne
    have hbalance : ((s.balance.val - s.sellAmount.val : ℕ) : Scalar) = s.newBalance := by
      rw [← hs.newBalance_val, ZMod.natCast_zmod_val]
    rw [hbalance]
    exact hs.newCommitment_spec.2 hne
  claimCount_le := hs.claimCount_le htier
  sum_claimAmounts := hs.sum_claimAmounts htier
  unused_leaf := fun i hi hunused => (hs.unused_claim htier hi hunused).1
  used_leaf := fun i hused => (hs.used_claim htier hused).1
  used_token := fun i hused => (hs.used_claim htier hused).2
  min_receive := hs.min_receive

/-- The Poseidon inputs of a trade with one claim in a tier of two, over a tree of two leaves. -/
def smallTable : List (List Scalar × Scalar) :=
  [([3, 1001, 0x1111111111111111111111111111111111111111, 1000, 2002,
      0x1bf0df2dafb6d7417853e4cabbed99cfd1f63bf341767c320eb4251c14424fc0,
          0x65ac093413a4c58960bcc5d5e258ae77c6e1eb0307f9e0d964170fc1a7f6e09],
      0x28d7039d298e2bbbcd89d57a651bec001c8ae753c148eb7f11fa5ff01788dade),
    ([0x28d7039d298e2bbbcd89d57a651bec001c8ae753c148eb7f11fa5ff01788dade, 0],
      0x8d621a9e88ef9a595ff06a8f4e83d7a341edea288f08056b2b5baf1153bc63c),
    ([0, 1001, 2002],
      0x15443db41121806522b1cdbad25bbf303dfa3f839c04382c40ce17d96da4fbef),
    ([1, 1001, 7],
      0x1ff51643963e4cb04e177accbed5d22e95b3e7291307938c0089cb934bcf4b77),
    ([3, 1001, 0x1111111111111111111111111111111111111111, 600, 3003,
        0x1bf0df2dafb6d7417853e4cabbed99cfd1f63bf341767c320eb4251c14424fc0,
            0x65ac093413a4c58960bcc5d5e258ae77c6e1eb0307f9e0d964170fc1a7f6e09],
      0x2f493fb3ecd59cb23b0ac6c726c72e59f1fad8d234ec5ddd5545aec43d0e2ab7),
    ([5005, 0x4444444444444444444444444444444444444444, 0x2222222222222222222222222222222222222222, 297,
        1700000000],
      0x227c17c3d98aa5f6bfd54fbff8007e3cac605f68c40a56f67e05dc5f17bb9db7),
    ([0, 0, 0, 0, 0],
      0x2066be41bebe6caf7e079360abe14fbf9118c62eabc42e2fe75e342b160a95bc),
    ([0x227c17c3d98aa5f6bfd54fbff8007e3cac605f68c40a56f67e05dc5f17bb9db7, 0],
      0x6d18e4dd0c93bd5ca53aae04d809596c531ae46254366e464a1c1c9df307405),
    ([0x1111111111111111111111111111111111111111, 0x2222222222222222222222222222222222222222, 400, 300,
        100, 1800000000, 7, 0x6d18e4dd0c93bd5ca53aae04d809596c531ae46254366e464a1c1c9df307405,
            0x3333333333333333333333333333333333333333],
      0xd89494fc8ef53af899e429b220a6cd14c090f2628a3ed692be1f15d94e43ad2),
    ([0x1bf0df2dafb6d7417853e4cabbed99cfd1f63bf341767c320eb4251c14424fc0,
        0x65ac093413a4c58960bcc5d5e258ae77c6e1eb0307f9e0d964170fc1a7f6e09,
            0x15443db41121806522b1cdbad25bbf303dfa3f839c04382c40ce17d96da4fbef],
      0xbfc96ad5b5921747b1102c994d791d19787aade2f0c8d8094efaa4851a84435)]

def smallPoseidon : Poseidon := Poseidon.ofTable smallTable (by decide +kernel) (by decide +kernel)

/-- A trade of 400 out of a note of 1000, for at least 297 of the other token. -/
def smallSignals : AuthorizeSignals where
  pubKeyBind := 0xbfc96ad5b5921747b1102c994d791d19787aade2f0c8d8094efaa4851a84435
  commitmentRoot := 0x8d621a9e88ef9a595ff06a8f4e83d7a341edea288f08056b2b5baf1153bc63c
  nullifier := 0x15443db41121806522b1cdbad25bbf303dfa3f839c04382c40ce17d96da4fbef
  nonceNullifier := 0x1ff51643963e4cb04e177accbed5d22e95b3e7291307938c0089cb934bcf4b77
  newCommitment := 0x2f493fb3ecd59cb23b0ac6c726c72e59f1fad8d234ec5ddd5545aec43d0e2ab7
  sellToken := 0x1111111111111111111111111111111111111111
  buyToken := 0x2222222222222222222222222222222222222222
  sellAmount := 400
  buyAmount := 300
  maxFee := 100
  expiry := 1800000000
  claimsRoot := 0x6d18e4dd0c93bd5ca53aae04d809596c531ae46254366e464a1c1c9df307405
  totalLocked := 297
  relayer := 0x3333333333333333333333333333333333333333
  orderHash := 0xd89494fc8ef53af899e429b220a6cd14c090f2628a3ed692be1f15d94e43ad2
  secret := 1001
  balance := 1000
  salt := 2002
  path := fun i => [0].getD i 0
  pathIdx := fun i => [0].getD i 0
  nonce := 7
  newSalt := 3003
  pubKeyAx := 0x1bf0df2dafb6d7417853e4cabbed99cfd1f63bf341767c320eb4251c14424fc0
  pubKeyAy := 0x65ac093413a4c58960bcc5d5e258ae77c6e1eb0307f9e0d964170fc1a7f6e09
  sigS := 0x33daf2e44fc5629d024640aef9077769001a1dacd18bc1ecbb25c8d42ece64f
  sigR8x := 0x85ed469c9a9f102b6d4f6f909b8ceaf6ca49b39759ac2e0feb7e0aada8b7111
  sigR8y := 0x245e25ab2bd42f0280a5ade750828dd6868f5225ae798d6b51c676f519c8f4e8
  claimSecrets := fun i => [5005, 0].getD i 0
  claimRecipients := fun i => [0x4444444444444444444444444444444444444444, 0].getD i 0
  claimTokens := fun i => [0x2222222222222222222222222222222222222222, 0].getD i 0
  claimAmounts := fun i => [297, 0].getD i 0
  claimReleaseTimes := fun i => [1700000000, 0].getD i 0
  claimCount := 1
  newBalance := 600
  computedLeaves := fun i => [0x227c17c3d98aa5f6bfd54fbff8007e3cac605f68c40a56f67e05dc5f17bb9db7, 0x2066be41bebe6caf7e079360abe14fbf9118c62eabc42e2fe75e342b160a95bc].getD i 0
  claimUsed := fun i => [1, 0].getD i 0
  amountAcc := fun i => [0, 297, 297].getD i 0
  leaves := fun i => [0x227c17c3d98aa5f6bfd54fbff8007e3cac605f68c40a56f67e05dc5f17bb9db7, 0].getD i 0
  lockedScaled := 2970000
  minReceiveScaled := 2970000

def smallCircomlib : Circomlib :=
  Circomlib.withSignatures [[smallSignals.pubKeyAx, smallSignals.pubKeyAy, smallSignals.sigS, smallSignals.sigR8x,
    smallSignals.sigR8y, smallSignals.orderHash]]

theorem smallSignals_authorize : Authorize smallCircomlib smallPoseidon 1 2 1 smallSignals where
  rcSell := (by decide +kernel : smallSignals.sellAmount.val < 2 ^ 126)
  rcBuy := (by decide +kernel : smallSignals.buyAmount.val < 2 ^ 126)
  rcBalance := (by decide +kernel : smallSignals.balance.val < 2 ^ 128)
  rcTotalLocked := (by decide +kernel : smallSignals.totalLocked.val < 2 ^ 128)
  rcMaxFee := (by decide +kernel : smallSignals.maxFee.val < 2 ^ 16)
  maxFeeUpper := (by decide +kernel : (1 : Scalar) = if smallSignals.maxFee.val ≤ (10000 : Scalar).val then 1 else 0)
  rcClaimCount := (by decide +kernel : smallSignals.claimCount.val < 2 ^ 8)
  claimCountBound := (by decide +kernel : (1 : Scalar) = if smallSignals.claimCount.val ≤ ((2 : ℕ) : Scalar).val then 1 else 0)
  rcClaimAmount := (by decide +kernel : ∀ i < 2, (smallSignals.claimAmounts i).val < 2 ^ 128)
  membership := ⟨0x28d7039d298e2bbbcd89d57a651bec001c8ae753c148eb7f11fa5ff01788dade, Poseidon.digest_ofTable (by decide +kernel),
    merkleProof_iff.mpr ⟨by decide +kernel,
      (by decide +kernel : ∀ i < 1, (smallTable.lookup
        [(MerkleTree.climbPair smallPoseidon.hashPair (direction smallSignals.pathIdx) smallSignals.path 0x28d7039d298e2bbbcd89d57a651bec001c8ae753c148eb7f11fa5ff01788dade i).1,
          (MerkleTree.climbPair smallPoseidon.hashPair (direction smallSignals.pathIdx) smallSignals.path 0x28d7039d298e2bbbcd89d57a651bec001c8ae753c148eb7f11fa5ff01788dade i).2]).isSome = true),
      by decide +kernel⟩⟩
  nullifier := Poseidon.digest_ofTable (by decide +kernel)
  nonceNullifier := Poseidon.digest_ofTable (by decide +kernel)
  balCheck := (by decide +kernel : (1 : Scalar) = if smallSignals.sellAmount.val ≤ smallSignals.balance.val then 1 else 0)
  newBalance := by decide +kernel
  newCommitment := ⟨0x2f493fb3ecd59cb23b0ac6c726c72e59f1fad8d234ec5ddd5545aec43d0e2ab7, 0, Poseidon.digest_ofTable (by decide +kernel),
    (by decide +kernel : (0 : Scalar) = if smallSignals.newBalance = 0 then 1 else 0), by decide +kernel⟩
  computedLeaves := fun i hi => Poseidon.digest_ofTable ((by decide +kernel : ∀ i < 2,
    smallTable.lookup (smallSignals.claimLeaf i) = some (smallSignals.computedLeaves i)) i hi)
  claimUsed := (by decide +kernel : ∀ i < 2, smallSignals.claimUsed i =
    if ((i : ℕ) : Scalar).val < smallSignals.claimCount.val then 1 else 0)
  unusedAmount := by decide +kernel
  usedToken := by decide +kernel
  amountAccZero := by decide +kernel
  amountAccSucc := by decide +kernel
  totalLocked := by decide +kernel
  leaves := by decide +kernel
  claimsRoot := by
    refine ⟨fun level i => if level = 0 then smallSignals.leaves i else if i = 0 then smallSignals.claimsRoot else 0,
      fun _ _ => rfl, fun level hlevel => ?_, rfl⟩
    obtain rfl : level = 0 := by omega
    refine ⟨fun i hi => Poseidon.digest_ofTable ?_, by decide +kernel⟩
    obtain rfl : i = 0 := by omega
    decide +kernel
  lockedScaled := by decide +kernel
  minReceiveScaled := by decide +kernel
  receiveCheck := (by decide +kernel :
    (1 : Scalar) = if smallSignals.minReceiveScaled.val ≤ smallSignals.lockedScaled.val then 1 else 0)
  orderHash := Poseidon.digest_ofTable (by decide +kernel)
  signature := Or.inr (List.mem_singleton.mpr rfl)
  pubKeyBind := Poseidon.digest_ofTable (by decide +kernel)

theorem naturalReading_smallSignals : NaturalReading smallPoseidon 2 smallSignals :=
  Authorize.naturalReading (by decide) smallSignals_authorize

end Circuit

end ScatterDex
