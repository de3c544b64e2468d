import ScatterDex.Protocol.UserProtection

/-!
# How much a withdrawal may ask for

The withdraw circuit bounds the balance of the note and its difference to the withdrawn amount, a difference of field elements. The withdrawn amount itself is bounded neither there nor in `_processWithdraw`, so a multiple of the modulus below the balance passes as well: the difference is then larger than the balance, and so is the change.
-/

namespace ScatterDex

open Bn254 Fallible

variable {C : Circomlib} {D : Deployment}

/-- A withdrawal takes at most the balance of its note, and the change is what is left. -/
structure Circuit.WithdrawSignals.WithinBalance (P : Poseidon) (s : WithdrawSignals) : Prop where
  amount_le : s.withdrawAmount.val ≤ s.amount.val
  change : s.newCommitment = 0 ∧ s.withdrawAmount = s.amount ∨
    ∃ n : Note, P.Commits n s.newCommitment ∧ n.balance.val = s.amount.val - s.withdrawAmount.val

/-- **When a withdrawal does not wrap**: exactly when the calldata ask for less than `2 ^ 128`. -/
theorem withinBalance_iff {levels : ℕ} {s : Circuit.WithdrawSignals} (hs : Circuit.Withdraw C D.poseidon levels s)
    {a : CommitmentPool.WithdrawArgs} (hsignals : s.publicInputs.map ZMod.val = a.pubSignals D) :
    s.WithinBalance D.poseidon ↔ a.amount < 2 ^ 128 := by
  have hamount : s.withdrawAmount.val = a.amount := by
    simp only [Circuit.WithdrawSignals.publicInputs, CommitmentPool.WithdrawArgs.pubSignals, List.map_cons,
      List.map_nil, List.cons.injEq] at hsignals
    exact hsignals.2.2.2.2.1
  rw [← hamount]
  constructor
  · intro hwithin
    exact lt_of_le_of_lt hwithin.amount_le ((C.num2Bits_iff 128 (by decide) _).mp hs.rcAmount)
  · intro hsmall
    obtain ⟨hle, hbalance, hzero, hcommits⟩ := hs.change_spec hsmall
    refine ⟨hle, ?_⟩
    by_cases hnone : s.newCommitment = 0
    · have hchange : s.amount - s.withdrawAmount = 0 := hzero.mp hnone
      exact Or.inl ⟨hnone, (sub_eq_zero.mp hchange).symm⟩
    · exact Or.inr ⟨s.change, hcommits hnone, hbalance⟩

/-! ### A withdrawal that wraps -/

/-- Account `33` takes five less than the modulus out of the maker's note of `1000`. -/
def overdrawal : Circuit.WithdrawSignals where
  root := 0x1a3dcdf2e3483db72aa4f6364a150e0c8c42acc1743d92d6530161b5a541f4db
  nullifierHash := makerOrder.nullifier
  newCommitment := 0x2e0baeccf02d6cb2134358ea1f1b0a6eb7dd3cd6091f1301eb9f87c55693dad9
  tokenHash := 0xf519679dbe682d7bb69a3db8ce02c2bf71c1a3d72a31e7cecd53779b7ab0060
  withdrawAmount := -5
  recipient := 33
  relayer := 0
  ownerSecret := 1001
  token := 13
  amount := 1000
  salt := 2001
  newSalt := 3001
  pathElements := emptyNode
  pathIndices := fun _ => 0
  pubKeyAx := makerOrder.pubKeyAx
  pubKeyAy := makerOrder.pubKeyAy
  sigS := 0x480c5078c5c6c7692f5e8465bddbb564875801b095f9c5f14af1034b839001e
  sigR8x := 0x1992c494985f9ddf613fb0c7e3d4a8d77e2233f04fe701bcd58c05e8e62b332c
  sigR8y := 0x2130317fe4980dfbd408bd9491ca98f596e22001ad922fb988a0c2b41f726f58

/-- The left edge above the leaves when the change of the overdrawal follows the maker's leaf. -/
def overdrawnEdge : List Scalar :=
  [0x20c2bd1c0e10d79038a44bcb9269e900accb35a8cebdebd416d274e3fe76b063,
    0x12d45430cbb2caf3387f5ad30ef878ed1d70c8a8dabb420589a64101b609c608,
    0x156d34ac3a476c488f3ded2c8f17b0b830d27d72965642f65ef955dba6d1f600,
    0x72494503dc91c636feba7459f4ade806722fede4852f9858c17ccbad8e3367d,
    0x4c79ed9bb36c19f06d4fa58e2460390722a51c3fad003a92eef06d422737ae6,
    0x17bab52bfa7e650fe1db573546aec4b77b3057cb0aee1008ef693a0e5b7ae0e6,
    0x622758c3cd5f4ce7c79f192b4d3b2299c0dcd36970526bb18dc1d4cdbabff6a,
    0x1d582035770df8548ce3c4f1106e7859dca1aab081513a3790f01a3c3c9f1379,
    0xa691f1c1639075137125b950cacb0034885a6449a4a717fa4f1a0f02c4395ad,
    0x8df75d16b51b1f6c01648dbb47b8909f0a13af9918e0715ed71efe5677b48fa,
    0x18242dbabbb905b40403637b0ab54104aba8d8dac2c63896870f7c45bbf37a09,
    0x672c4266cdff399e82454dbcad92d27dd463844ab504386d4c5181dca2f4e65,
    0x14b70f10fe6255aeb857b711669e337b39436c3fa6c47d74d62c54bd21e33864,
    0xd36fd412e55c243023e5b262761c4f0d8326036410dd0a21626f6b9f88ba240,
    0x23326d0940d1d2944345fc9e1692430b1cb36d70de0605c6a0b78f8b6ee18c4d,
    0xbb64865373c2756c8e2c3db3a5dea7b3c8526e3753a8e16fec75480d8536348,
    0x2d75edacb9d7e4887552d4d98650e8152e296e0de1c7b6fa6bff65c7eaf9c24a,
    0x2a8656f893387ed09cdb0e77dbab9cce61ec777e2dd7ac53e445618c635a704f,
    0x1315bbcb0e4db18f3b707f352561d10ef57157187b8e41f3e869d4bf9dee60c4,
    0x168cb97c014e8905f22fcc47c394c5d018fab6132662359ef50680c5f1f55da4]

def overdrawnTable : List (List Scalar × Scalar) :=
  [([13], overdrawal.tokenHash), (overdrawal.change.preimage, overdrawal.newCommitment),
    ([overdrawal.nullifierHash, 33], 0x18d4de1d2234334f1ced509c1d44d00cb731a0e35cd6ae1017f82cee781a88a7),
    ([(makerOrder.deposited : Scalar), overdrawal.newCommitment],
      0x20c2bd1c0e10d79038a44bcb9269e900accb35a8cebdebd416d274e3fe76b063)] ++
  edgeRows 1 overdrawnEdge ++ tradeTable

def overdrawnPoseidon : Poseidon := .ofTable overdrawnTable (by decide +kernel) (by decide +kernel)

instance : DecidablePred (· ∈ overdrawnPoseidon.asked) := fun xs =>
  inferInstanceAs (Decidable ((overdrawnTable.lookup xs).isSome = true))

abbrev overdrawnCircomlib : Circomlib := .withSignatures
  [[overdrawal.pubKeyAx, overdrawal.pubKeyAy, overdrawal.sigS, overdrawal.sigR8x, overdrawal.sigR8y,
    0x18d4de1d2234334f1ced509c1d44d00cb731a0e35cd6ae1017f82cee781a88a7]]

theorem overdrawal_valid : Circuit.ValidWithdrawal overdrawnCircomlib overdrawnPoseidon 20 overdrawal := by
  constructor <;> decide +kernel

/-- Token `13` has a supply of `2 ^ 255`. -/
def overdrawnDeployment : Deployment := { Deployment.small overdrawnPoseidon with
  cap := fun _ => 2 ^ 256 }

/-- The maker's deposit, and more of the token sent to the pool. -/
def overdrawnWorld : World :=
  (World.fresh overdrawnDeployment 20 (Ledger.soleHolder 13 33 (2 ^ 255))).after overdrawnDeployment
    (tradeSetup ++ [.external (.books (.transfer 13 33 1 modulus))])

def overdrawalArgs : CommitmentPool.WithdrawArgs :=
  ⟨.zero, overdrawal.root.val, overdrawal.nullifierHash.val, overdrawal.newCommitment.val, 13, modulus - 5, 33, 0⟩

/-- The pool pays it out and inserts the change of `1005`. -/
theorem overdrawal_wraps :
    Circuit.Withdraw overdrawnCircomlib overdrawnDeployment.poseidon commitTreeDepth overdrawal ∧
    overdrawal.publicInputs.map ZMod.val = overdrawalArgs.pubSignals overdrawnDeployment ∧
    (∃ r, overdrawnWorld.pool.processWithdraw overdrawnDeployment (.permissive 33) overdrawnWorld.books overdrawalArgs =
      .ok r) ∧ ¬overdrawal.WithinBalance overdrawnPoseidon := by
  refine ⟨overdrawal_valid.withdraw, by decide +kernel, exists_of_isOk (by decide +kernel), fun hwithin => ?_⟩
  have hle := hwithin.amount_le
  revert hle
  decide +kernel

/-- A withdrawal of `400` from the same note leaves `600`. -/
def smallWithdrawal : Circuit.WithdrawSignals :=
  { overdrawal with
    withdrawAmount := 400
    newCommitment := makerOrder.newCommitment }

theorem smallWithdrawal_valid : Circuit.ValidWithdrawal overdrawnCircomlib overdrawnPoseidon 20 smallWithdrawal := by
  constructor <;> decide +kernel

theorem withinBalance_smallWithdrawal : smallWithdrawal.WithinBalance overdrawnPoseidon ↔ 400 < 2 ^ 128 :=
  withinBalance_iff (D := overdrawnDeployment) smallWithdrawal_valid.withdraw
    (a := ⟨.zero, smallWithdrawal.root.val, smallWithdrawal.nullifierHash.val, smallWithdrawal.newCommitment.val, 13, 400,
      33, 0⟩) (by decide +kernel)

end ScatterDex
