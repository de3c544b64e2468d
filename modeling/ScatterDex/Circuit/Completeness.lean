import ScatterDex.Circuit.Authorize

/-!
# Orders and withdrawals that can be proved

Circom computes the inner signals of a circuit from its inputs. Inputs that make sense as an order, or as a withdrawal, lead to an assignment that satisfies every constraint, so the circuits do not reject what they should accept.
-/

namespace ScatterDex

open Bn254

namespace Circuit

/-- The inner signals as the witness generator assigns them; the inputs stay. -/
def AuthorizeSignals.assign (P : Poseidon) (s : AuthorizeSignals) : AuthorizeSignals :=
  { s with
    newBalance := s.balance - s.sellAmount
    computedLeaves := fun i => P.hash (s.claimLeaf i)
    claimUsed := fun i => if i < s.claimCount.val then 1 else 0
    amountAcc := fun i => ∑ j ∈ Finset.range i, s.claimAmounts j
    leaves := fun i => if i < s.claimCount.val then P.hash (s.claimLeaf i) else 0
    lockedScaled := s.totalLocked * 10000
    minReceiveScaled := s.buyAmount * (10000 - s.maxFee) }

/-- The leaves of the claims tree of an order. -/
def AuthorizeSignals.claimsLeaf (P : Poseidon) (s : AuthorizeSignals) (i : ℕ) : Scalar :=
  if i < s.claimCount.val then P.hash (s.claimLeaf i) else 0

/-- Inputs that make sense as an order: amounts in range, a note that covers them and is in the tree, claims in the bought token that sum to the locked total, and a signature. Every input of a hash was asked. -/
structure ValidOrder (C : Circomlib) (P : Poseidon) (commitTreeDepth maxClaimsPerSide claimsTreeDepth : ℕ)
    (s : AuthorizeSignals) : Prop where
  sellAmount_lt : s.sellAmount.val < 2 ^ 126
  buyAmount_lt : s.buyAmount.val < 2 ^ 126
  balance_lt : s.balance.val < 2 ^ 128
  totalLocked_lt : s.totalLocked.val < 2 ^ 128
  maxFee_le : s.maxFee.val ≤ 10000
  claimCount_le : s.claimCount.val ≤ maxClaimsPerSide
  claimAmount_lt : ∀ i < maxClaimsPerSide, (s.claimAmounts i).val < 2 ^ 128
  sellAmount_le : s.sellAmount.val ≤ s.balance.val
  unusedAmount : ∀ i < maxClaimsPerSide, s.claimCount.val ≤ i → s.claimAmounts i = 0
  usedToken : ∀ i < s.claimCount.val, s.claimTokens i = s.buyToken
  totalLocked : s.totalLocked = ∑ i ∈ Finset.range maxClaimsPerSide, s.claimAmounts i
  minReceive : s.buyAmount.val * (10000 - s.maxFee.val) ≤ s.totalLocked.val * 10000
  note : s.note.preimage ∈ P.asked
  pathIdx : ∀ i < commitTreeDepth, s.pathIdx i = 0 ∨ s.pathIdx i = 1
  pathPairs : ∀ i < commitTreeDepth,
    MerkleTree.climbPair P.hashPair (direction s.pathIdx) s.path (P.hash s.note.preimage) i ∈ P.askedPairs
  commitmentRoot : MerkleTree.climb P.hashPair (direction s.pathIdx) s.path (P.hash s.note.preimage)
    commitTreeDepth = s.commitmentRoot
  nullifier : P.Digest s.note.nullifierPreimage s.nullifier
  nonceNullifier : P.Digest [tagNonceNull, s.secret, s.nonce] s.nonceNullifier
  residual : (s.assign P).residual.preimage ∈ P.asked
  newCommitment : s.newCommitment = if s.balance - s.sellAmount = 0 then 0 else P.hash (s.assign P).residual.preimage
  claimLeaf : ∀ i < maxClaimsPerSide, s.claimLeaf i ∈ P.asked
  claimsPairs : ∀ level < claimsTreeDepth, ∀ i < maxClaimsPerSide / 2 ^ level / 2,
    (MerkleTree.node P.hashPair (s.claimsLeaf P) level (2 * i),
      MerkleTree.node P.hashPair (s.claimsLeaf P) level (2 * i + 1)) ∈ P.askedPairs
  claimsRoot : s.claimsRoot = MerkleTree.node P.hashPair (s.claimsLeaf P) claimsTreeDepth 0
  orderHash : P.Digest [s.sellToken, s.buyToken, s.sellAmount, s.buyAmount, s.maxFee, s.expiry, s.nonce,
    s.claimsRoot, s.relayer] s.orderHash
  signature : C.eddsaPoseidonVerifier 1 s.pubKeyAx s.pubKeyAy s.sigS s.sigR8x s.sigR8y s.orderHash
  pubKeyBind : P.Digest [s.pubKeyAx, s.pubKeyAy, s.nullifier] s.pubKeyBind

variable {C : Circomlib} {P : Poseidon}

theorem lessEqThan_of_le {n : ℕ} (hn : n ≤ 252) {a b : Scalar} (ha : a.val < 2 ^ n) (hb : b.val < 2 ^ n)
    (hle : a.val ≤ b.val) : C.lessEqThan n a b 1 := by
  rw [C.lessEqThan_iff n hn a b 1 ha hb, if_pos hle]

/-- A full binary tree over asked pairs is what the claims tree component accepts. -/
theorem authClaimsRoot_node {maxLeaves depth : ℕ} (hmax : maxLeaves = 2 ^ depth) (leaves : ℕ → Scalar)
    (hpairs : ∀ level < depth, ∀ i < maxLeaves / 2 ^ level / 2,
      (MerkleTree.node P.hashPair leaves level (2 * i), MerkleTree.node P.hashPair leaves level (2 * i + 1)) ∈
        P.askedPairs) : AuthClaimsRoot P maxLeaves depth leaves (MerkleTree.node P.hashPair leaves depth 0) := by
  refine ⟨fun level i => if i < maxLeaves / 2 ^ level then MerkleTree.node P.hashPair leaves level i else 0,
    fun i hi => ?_, fun level hlevel => ⟨fun i hi => ?_, fun i hi _ => ?_⟩, ?_⟩
  · dsimp only
    rw [pow_zero, Nat.div_one, if_pos hi, MerkleTree.node_zero]
  · have hhalf : maxLeaves / 2 ^ (level + 1) = maxLeaves / 2 ^ level / 2 := by
      rw [Nat.div_div_eq_div_mul, pow_succ]
    dsimp only
    rw [if_pos (by omega), if_pos (by omega), if_pos (by omega)]
    exact ⟨hpairs level hlevel i hi, rfl⟩
  · apply if_neg
    rw [Nat.div_div_eq_div_mul, ← pow_succ] at hi
    omega
  · dsimp only
    rw [hmax, Nat.div_self (Nat.two_pow_pos depth), if_pos Nat.one_pos]

theorem claimUsed_cases (s : AuthorizeSignals) (i : ℕ) :
    i < s.claimCount.val ∧ (s.assign P).claimUsed i = 1 ∨ s.claimCount.val ≤ i ∧ (s.assign P).claimUsed i = 0 := by
  rcases Nat.lt_or_ge i s.claimCount.val with hlt | hge
  · exact Or.inl ⟨hlt, if_pos hlt⟩
  · exact Or.inr ⟨hge, if_neg (not_lt.mpr hge)⟩

/-- **Authorize is complete**: a valid order has a satisfying assignment, the one circom computes. -/
theorem ValidOrder.authorize {commitTreeDepth maxClaimsPerSide claimsTreeDepth : ℕ} {s : AuthorizeSignals}
    (htier : maxClaimsPerSide = 2 ^ claimsTreeDepth) (hsmall : maxClaimsPerSide ≤ 128)
    (hs : ValidOrder C P commitTreeDepth maxClaimsPerSide claimsTreeDepth s) :
    Authorize C P commitTreeDepth maxClaimsPerSide claimsTreeDepth (s.assign P) := by
  have hcount : s.claimCount.val < 2 ^ 8 := by
    have hle := hs.claimCount_le
    omega
  have hmax : (maxClaimsPerSide : Scalar).val = maxClaimsPerSide := Authorize.val_natCast_of_lt (by omega)
  have hten : (10000 : Scalar).val = 10000 := Authorize.val_natCast_of_lt (by decide)
  have hmaxFee := hs.maxFee_le
  have hfee : (10000 - s.maxFee : Scalar).val = 10000 - s.maxFee.val := by
    rw [ZMod.val_sub (by rw [hten]; exact hmaxFee), hten]
  have hmodulus : 2 ^ 144 ≤ modulus := by decide
  have hbuy := hs.buyAmount_lt
  have hlocked := hs.totalLocked_lt
  have hproduct : s.buyAmount.val * (10000 - s.maxFee.val) ≤ 2 ^ 126 * 10000 :=
    Nat.mul_le_mul hbuy.le (Nat.sub_le _ _)
  have hmin : (s.buyAmount * (10000 - s.maxFee)).val = s.buyAmount.val * (10000 - s.maxFee.val) := by
    rw [Authorize.val_mul_of_lt (by rw [hfee]; omega), hfee]
  have hscaled : (s.totalLocked * 10000).val = s.totalLocked.val * 10000 := by
    rw [Authorize.val_mul_of_lt (by rw [hten]; omega), hten]
  have hsell := hs.sellAmount_lt
  constructor
  case rcSell => exact (C.num2Bits_iff 126 (by decide) _).mpr hsell
  case rcBuy => exact (C.num2Bits_iff 126 (by decide) _).mpr hbuy
  case rcBalance => exact (C.num2Bits_iff 128 (by decide) _).mpr hs.balance_lt
  case rcTotalLocked => exact (C.num2Bits_iff 128 (by decide) _).mpr hlocked
  case rcMaxFee => exact (C.num2Bits_iff 16 (by decide) _).mpr (lt_of_le_of_lt hmaxFee (by decide))
  case maxFeeUpper =>
    exact lessEqThan_of_le (by decide) (lt_of_le_of_lt hmaxFee (by decide)) (by rw [hten]; decide) (by rwa [hten])
  case rcClaimCount => exact (C.num2Bits_iff 8 (by decide) _).mpr hcount
  case claimCountBound =>
    exact lessEqThan_of_le (by decide) hcount (by rw [hmax]; omega) (by rw [hmax]; exact hs.claimCount_le)
  case rcClaimAmount => exact fun i hi => (C.num2Bits_iff 128 (by decide) _).mpr (hs.claimAmount_lt i hi)
  case membership =>
    exact ⟨P.hash s.note.preimage, ⟨hs.note, rfl⟩, merkleProof_iff.mpr ⟨hs.pathIdx, hs.pathPairs, hs.commitmentRoot⟩⟩
  case nullifier => exact hs.nullifier
  case nonceNullifier => exact hs.nonceNullifier
  case balCheck => exact lessEqThan_of_le (by decide) (hsell.trans (by decide)) hs.balance_lt hs.sellAmount_le
  case newBalance => rfl
  case newCommitment =>
    refine ⟨_, if s.balance - s.sellAmount = 0 then 1 else 0, ⟨hs.residual, rfl⟩, (C.isZero_iff _ _).mpr rfl, ?_⟩
    change s.newCommitment = _
    rw [hs.newCommitment]
    split
    · rw [sub_self, zero_mul]
    · rw [sub_zero, one_mul]
  case computedLeaves => exact fun i hi => ⟨hs.claimLeaf i hi, rfl⟩
  case claimUsed =>
    intro i hi
    have hval : (i : Scalar).val = i := Authorize.val_natCast_of_lt (by omega)
    apply (C.lessThan_iff 8 (by decide) _ _ _ (by rw [hval]; omega) hcount).mpr
    rw [hval]
    rfl
  case unusedAmount =>
    intro i hi
    rcases claimUsed_cases (P := P) s i with ⟨-, hused⟩ | ⟨hunused, -⟩
    · rw [hused, sub_self, zero_mul]
    · exact mul_eq_zero_of_right _ (hs.unusedAmount i hi hunused)
  case usedToken =>
    intro i _
    rcases claimUsed_cases (P := P) s i with ⟨hlt, -⟩ | ⟨-, hunused⟩
    · exact mul_eq_zero_of_right _ (sub_eq_zero.mpr (hs.usedToken i hlt))
    · rw [hunused, zero_mul]
  case amountAccZero => rfl
  case amountAccSucc => exact fun i _ => Finset.sum_range_succ _ i
  case totalLocked => exact hs.totalLocked
  case leaves =>
    intro i _
    rcases claimUsed_cases (P := P) s i with ⟨hlt, hused⟩ | ⟨hge, hunused⟩
    · rw [hused, mul_one]
      exact if_pos hlt
    · rw [hunused, mul_zero]
      exact if_neg (not_lt.mpr hge)
  case claimsRoot =>
    have hroot := authClaimsRoot_node htier (s.claimsLeaf P) hs.claimsPairs
    rw [← hs.claimsRoot] at hroot
    exact hroot
  case lockedScaled => rfl
  case minReceiveScaled => rfl
  case receiveCheck =>
    change C.lessEqThan 144 (s.buyAmount * (10000 - s.maxFee)) (s.totalLocked * 10000) 1
    apply lessEqThan_of_le (by decide)
    · rw [hmin]
      omega
    · rw [hscaled]
      omega
    · rw [hmin, hscaled]
      exact hs.minReceive
  case orderHash => exact hs.orderHash
  case signature => exact hs.signature
  case pubKeyBind => exact hs.pubKeyBind

/-! ### Withdrawals -/

/-- Inputs that make sense as a withdrawal: a note in the tree, an amount and a change in range, and the owner's signature over the recipient. -/
structure ValidWithdrawal (C : Circomlib) (P : Poseidon) (levels : ℕ) (s : WithdrawSignals) : Prop where
  amount_lt : s.amount.val < 2 ^ 128
  change_lt : (s.amount - s.withdrawAmount).val < 2 ^ 128
  note : s.note.preimage ∈ P.asked
  pathIndices : ∀ i < levels, s.pathIndices i = 0 ∨ s.pathIndices i = 1
  pathPairs : ∀ i < levels,
    MerkleTree.climbPair P.hashPair (direction s.pathIndices) s.pathElements (P.hash s.note.preimage) i ∈ P.askedPairs
  root : MerkleTree.climb P.hashPair (direction s.pathIndices) s.pathElements (P.hash s.note.preimage) levels = s.root
  nullifierHash : P.Digest s.note.nullifierPreimage s.nullifierHash
  tokenHash : P.Digest [s.token] s.tokenHash
  change : s.change.preimage ∈ P.asked
  newCommitment : s.newCommitment = if s.amount - s.withdrawAmount = 0 then 0 else P.hash s.change.preimage
  message : [s.nullifierHash, s.recipient] ∈ P.asked
  signature : C.eddsaPoseidonVerifier 1 s.pubKeyAx s.pubKeyAy s.sigS s.sigR8x s.sigR8y
    (P.hash [s.nullifierHash, s.recipient])

/-- **Withdraw is complete.** -/
theorem ValidWithdrawal.withdraw {levels : ℕ} {s : WithdrawSignals} (hs : ValidWithdrawal C P levels s) :
    Withdraw C P levels s where
  membership := ⟨P.hash s.note.preimage, ⟨hs.note, rfl⟩, merkleProof_iff.mpr ⟨hs.pathIndices, hs.pathPairs, hs.root⟩⟩
  nullifier := hs.nullifierHash
  tokenHash := hs.tokenHash
  rcAmount := (C.num2Bits_iff 128 (by decide) _).mpr hs.amount_lt
  rcDiff := (C.num2Bits_iff 128 (by decide) _).mpr hs.change_lt
  change := by
    refine ⟨_, if s.amount - s.withdrawAmount = 0 then 1 else 0, ⟨hs.change, rfl⟩, (C.isZero_iff _ _).mpr rfl, ?_⟩
    rw [hs.newCommitment]
    split
    · rw [sub_self, zero_mul]
    · rw [sub_zero, one_mul]
  signature := ⟨_, ⟨hs.message, rfl⟩, hs.signature⟩

end Circuit

end ScatterDex
