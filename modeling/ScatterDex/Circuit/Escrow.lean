import ScatterDex.Circuit.Gadgets

/-!
# Notes, and the circuits that create and spend them

An escrow note is what a commitment hides. `deposit.circom` binds a commitment to its token and amount, `withdraw.circom` takes an amount out of a note and commits to the change, `cancel.circom` moves a note to a new salt. Each circuit is the conjunction of its constraints over a record of its signals; the squares that only keep a public input alive are left out.
-/

namespace ScatterDex

open Bn254

/-- What an escrow commitment hides. -/
structure Note where
  secret : Scalar
  token : Scalar
  balance : Scalar
  salt : Scalar
  pubKeyAx : Scalar
  pubKeyAy : Scalar

namespace Note

def preimage (n : Note) : List Scalar :=
  [tagCommitmentV2, n.secret, n.token, n.balance, n.salt, n.pubKeyAx, n.pubKeyAy]

def nullifierPreimage (n : Note) : List Scalar := [tagEscrowNull, n.secret, n.salt]

theorem preimage_injective : Function.Injective preimage := by
  rintro ⟨⟩ ⟨⟩ heq
  simp only [preimage, List.cons.injEq, and_true, true_and] at heq
  simpa only [mk.injEq] using heq

theorem nullifierPreimage_eq_iff (n m : Note) :
    n.nullifierPreimage = m.nullifierPreimage ↔ n.secret = m.secret ∧ n.salt = m.salt := by
  simp [nullifierPreimage]

end Note

/-- A leaf commits to a note. -/
def Poseidon.Commits (P : Poseidon) (n : Note) (leaf : Scalar) : Prop := P.Digest n.preimage leaf

/-- A leaf commits to at most one note. -/
theorem Poseidon.Commits.inj {P : Poseidon} {n m : Note} {leaf : Scalar} (hn : P.Commits n leaf)
    (hm : P.Commits m leaf) : n = m :=
  Note.preimage_injective (Poseidon.Digest.inj hn hm)

namespace Circuit

variable (C : Circomlib) (P : Poseidon)

/-! ### deposit.circom -/

structure DepositSignals where
  commitment : Scalar
  token : Scalar
  amount : Scalar
  secret : Scalar
  salt : Scalar
  pubKeyAx : Scalar
  pubKeyAy : Scalar

def DepositSignals.note (s : DepositSignals) : Note :=
  ⟨s.secret, s.token, s.amount, s.salt, s.pubKeyAx, s.pubKeyAy⟩

def DepositSignals.publicInputs (s : DepositSignals) : List Scalar := [s.commitment, s.token, s.amount]

structure Deposit (s : DepositSignals) : Prop where
  pubKeyOnCurve : C.babyCheck s.pubKeyAx s.pubKeyAy
  -- eight times the key is not the identity
  smallOrder : ∃ x₁ y₁ x₂ y₂ x₃ y₃, C.babyDbl s.pubKeyAx s.pubKeyAy x₁ y₁ ∧ C.babyDbl x₁ y₁ x₂ y₂ ∧
    C.babyDbl x₂ y₂ x₃ y₃ ∧ C.isZero x₃ 0
  commitment : P.Digest s.note.preimage s.commitment

/-! ### withdraw.circom -/

/-- The membership template under its name in `withdraw.circom`. -/
abbrev PoseidonMerkleProof (levels : ℕ) := MerkleProof C P levels

structure WithdrawSignals where
  root : Scalar
  nullifierHash : Scalar
  newCommitment : Scalar
  tokenHash : Scalar
  withdrawAmount : Scalar
  recipient : Scalar
  relayer : Scalar
  ownerSecret : Scalar
  token : Scalar
  amount : Scalar
  salt : Scalar
  newSalt : Scalar
  pathElements : ℕ → Scalar
  pathIndices : ℕ → Scalar
  pubKeyAx : Scalar
  pubKeyAy : Scalar
  sigS : Scalar
  sigR8x : Scalar
  sigR8y : Scalar

def WithdrawSignals.note (s : WithdrawSignals) : Note :=
  ⟨s.ownerSecret, s.token, s.amount, s.salt, s.pubKeyAx, s.pubKeyAy⟩

/-- The note the change commitment is meant to hide. -/
def WithdrawSignals.change (s : WithdrawSignals) : Note :=
  ⟨s.ownerSecret, s.token, s.amount - s.withdrawAmount, s.newSalt, s.pubKeyAx, s.pubKeyAy⟩

def WithdrawSignals.publicInputs (s : WithdrawSignals) : List Scalar :=
  [s.root, s.nullifierHash, s.newCommitment, s.tokenHash, s.withdrawAmount, s.recipient, s.relayer]

structure Withdraw (levels : ℕ) (s : WithdrawSignals) : Prop where
  membership : ∃ leaf, P.Digest s.note.preimage leaf ∧
    PoseidonMerkleProof C P levels leaf s.pathElements s.pathIndices s.root
  nullifier : P.Digest s.note.nullifierPreimage s.nullifierHash
  tokenHash : P.Digest [s.token] s.tokenHash
  rcAmount : C.num2Bits 128 s.amount
  rcDiff : C.num2Bits 128 (s.amount - s.withdrawAmount)
  change : ∃ changeHash isZeroChange, P.Digest s.change.preimage changeHash ∧
    C.isZero (s.amount - s.withdrawAmount) isZeroChange ∧
    s.newCommitment = (1 - isZeroChange) * changeHash
  signature : ∃ message, P.Digest [s.nullifierHash, s.recipient] message ∧
    C.eddsaPoseidonVerifier 1 s.pubKeyAx s.pubKeyAy s.sigS s.sigR8x s.sigR8y message

/-! ### cancel.circom -/

/-- The membership template under its name in `cancel.circom`. -/
abbrev CancelMerkleProof (levels : ℕ) := MerkleProof C P levels

structure CancelSignals where
  commitmentRoot : Scalar
  oldNullifier : Scalar
  oldNonceNullifier : Scalar
  newCommitment : Scalar
  submitter : Scalar
  secret : Scalar
  salt : Scalar
  nonce : Scalar
  token : Scalar
  balance : Scalar
  freshSalt : Scalar
  path : ℕ → Scalar
  pathIdx : ℕ → Scalar
  pubKeyAx : Scalar
  pubKeyAy : Scalar
  sigS : Scalar
  sigR8x : Scalar
  sigR8y : Scalar

def CancelSignals.note (s : CancelSignals) : Note :=
  ⟨s.secret, s.token, s.balance, s.salt, s.pubKeyAx, s.pubKeyAy⟩

/-- The rotated note. -/
def CancelSignals.rotated (s : CancelSignals) : Note :=
  ⟨s.secret, s.token, s.balance, s.freshSalt, s.pubKeyAx, s.pubKeyAy⟩

def CancelSignals.publicInputs (s : CancelSignals) : List Scalar :=
  [s.commitmentRoot, s.oldNullifier, s.oldNonceNullifier, s.newCommitment, s.submitter]

structure Cancel (commitTreeDepth : ℕ) (s : CancelSignals) : Prop where
  membership : ∃ leaf, P.Digest s.note.preimage leaf ∧
    CancelMerkleProof C P commitTreeDepth leaf s.path s.pathIdx s.commitmentRoot
  escrowNull : P.Digest s.note.nullifierPreimage s.oldNullifier
  nonceNull : P.Digest [tagNonceNull, s.secret, s.nonce] s.oldNonceNullifier
  newCommitment : P.Digest s.rotated.preimage s.newCommitment
  rcBalance : C.num2Bits 128 s.balance
  signature : ∃ message, P.Digest [s.oldNonceNullifier, s.submitter] message ∧
    C.eddsaPoseidonVerifier 1 s.pubKeyAx s.pubKeyAy s.sigS s.sigR8x s.sigR8y message

variable {C P}

/-! ### Natural readings -/

theorem val_sub_of_lt {a b : Scalar} (ha : a.val < 2 ^ 128) (hb : b.val < 2 ^ 128)
    (hdiff : (a - b).val < 2 ^ 128) : b.val ≤ a.val ∧ (a - b).val = a.val - b.val := by
  have hle : b.val ≤ a.val := by
    by_contra hlt
    have hwrap : (b - a).val = b.val - a.val := ZMod.val_sub (by omega)
    have hneg : (a - b).val = modulus - (b - a).val := by
      rw [← neg_sub, ZMod.neg_val, if_neg]
      intro hzero
      rw [hzero, ZMod.val_zero] at hwrap
      omega
    have hbig : 2 ^ 129 ≤ modulus := by decide
    omega
  exact ⟨hle, ZMod.val_sub hle⟩

/-- A commitment that is masked when the balance is zero: it is zero exactly for an empty note. -/
theorem masked_commitment {balance hash isZero commitment : Scalar} (hne : hash ≠ 0)
    (hisZero : C.isZero balance isZero) (hcommitment : commitment = (1 - isZero) * hash) :
    (commitment = 0 ↔ balance = 0) ∧ (balance ≠ 0 → commitment = hash) := by
  rw [C.isZero_iff] at hisZero
  by_cases hbalance : balance = 0 <;> simp_all

/-- **A withdrawal of an existing amount does not wrap**, and its change note holds the rest. -/
theorem Withdraw.change_spec {levels : ℕ} {s : WithdrawSignals} (hs : Withdraw C P levels s)
    (hsmall : s.withdrawAmount.val < 2 ^ 128) :
    s.withdrawAmount.val ≤ s.note.balance.val ∧
      s.change.balance.val = s.note.balance.val - s.withdrawAmount.val ∧
      (s.newCommitment = 0 ↔ s.change.balance = 0) ∧
      (s.newCommitment ≠ 0 → P.Commits s.change s.newCommitment) := by
  have hamount := (C.num2Bits_iff 128 (by decide) _).mp hs.rcAmount
  have hdiff := (C.num2Bits_iff 128 (by decide) _).mp hs.rcDiff
  obtain ⟨hle, hval⟩ := val_sub_of_lt hamount hsmall hdiff
  obtain ⟨changeHash, isZeroChange, hhash, hisZero, hnew⟩ := hs.change
  obtain ⟨hzero, hkept⟩ := masked_commitment hhash.ne_zero hisZero hnew
  refine ⟨hle, hval, hzero, fun hne => ?_⟩
  rw [hkept (mt hzero.mpr hne)]
  exact hhash

end Circuit

end ScatterDex
