import ScatterDex.Circuit.Completeness
import ScatterDex.Protocol.PoolSolvency
import ScatterDex.Protocol.PoolTree
import ScatterDex.Protocol.WithdrawRange

/-!
# Which deposits can be spent

`deposit.circom` binds the amount to the commitment and bounds it nowhere, and `deposit` only keeps it below the modulus. `withdraw.circom` opens notes below `2 ^ 128`. A deposit can therefore be withdrawn exactly when its amount is in that range, as long as the pool holds the token.
-/

namespace ScatterDex

open Bn254 Fallible

variable {C : Circomlib} {D : Deployment}

/-- A deposit the pool accepted, with the assignment behind its proof. -/
structure Deposited (C : Circomlib) (D : Deployment) (w w' : World) (token : Address) (s : Circuit.DepositSignals) :
    Prop where
  satisfied : Circuit.Deposit C D.poseidon s
  accepted : ∃ env proof commitment amount, s.publicInputs.map ZMod.val = [commitment, token.toNat, amount] ∧
    (Call.external (.pool env (.deposit proof commitment token amount))).run D w = .ok w'

/-- A withdrawal of a whole deposit from the current root, which `_processWithdraw` accepts. -/
structure Withdrawable (C : Circomlib) (D : Deployment) (env : Env) (w : World) (token : Address)
    (s : Circuit.DepositSignals) (withdrawal : Circuit.WithdrawSignals) (a : CommitmentPool.WithdrawArgs) : Prop where
  satisfied : Circuit.Withdraw C D.poseidon commitTreeDepth withdrawal
  note : withdrawal.note = s.note
  whole : withdrawal.withdrawAmount = s.amount
  root : withdrawal.root.val = w.pool.tree.getLastRoot
  signals : withdrawal.publicInputs.map ZMod.val = a.pubSignals D
  token : a.token = token
  accepted : ∃ r, w.pool.processWithdraw D env w.books a = .ok r

/-- The note of a deposit can be paid out to a recipient. -/
def Spendable (C : Circomlib) (D : Deployment) (env : Env) (w : World) (token recipient : Address)
    (s : Circuit.DepositSignals) : Prop :=
  ∃ withdrawal a, Withdrawable C D env w token s withdrawal a ∧ a.recipient = recipient

/-! ### A spendable note is small -/

theorem Withdrawable.amount_lt {env : Env} {w : World} {token : Address} {s : Circuit.DepositSignals}
    {withdrawal : Circuit.WithdrawSignals} {a : CommitmentPool.WithdrawArgs}
    (hwithdraw : Withdrawable C D env w token s withdrawal a) : s.amount.val < 2 ^ 128 := by
  have hamount : withdrawal.amount = s.amount := congrArg Note.balance hwithdraw.note
  rw [← hamount]
  exact (C.num2Bits_iff 128 (by decide) _).mp hwithdraw.satisfied.rcAmount

theorem Withdrawable.amount_le {env : Env} {w : World} {token : Address} {s : Circuit.DepositSignals}
    {withdrawal : Circuit.WithdrawSignals} {a : CommitmentPool.WithdrawArgs}
    (hwithdraw : Withdrawable C D env w token s withdrawal a) :
    s.amount.val ≤ w.books.balanceOf token D.pool := by
  obtain ⟨⟨pool', books'⟩, haccepted⟩ := hwithdraw.accepted
  obtain ⟨-, -, -, -, htransfer⟩ := CommitmentPool.processWithdraw_ok haccepted
  have hamount : withdrawal.withdrawAmount.val = a.amount := by
    have hsignals := hwithdraw.signals
    simp only [Circuit.WithdrawSignals.publicInputs, CommitmentPool.WithdrawArgs.pubSignals, List.map_cons,
      List.map_nil, List.cons.injEq] at hsignals
    exact hsignals.2.2.2.2.1
  rw [← hwithdraw.whole, hamount, ← hwithdraw.token]
  exact Ledger.transfer_le htransfer

/-! ### A small note is spendable -/

theorem IncrementalMerkleTree.isKnownRoot_getLastRoot {t : IncrementalMerkleTree} (hpos : 0 < t.rootHistorySize)
    (hne : t.getLastRoot ≠ 0) : t.isKnownRoot t.getLastRoot = true := by
  obtain ⟨size, hsize⟩ : ∃ size, t.rootHistorySize = size + 1 := ⟨_, (Nat.sub_add_cancel hpos).symm⟩
  rw [isKnownRoot, if_neg hne, hsize, knownRootLoop]
  exact if_pos rfl

theorem CommitmentPool.TreesAsked.lastRoot {pool : CommitmentPool} (hasked : pool.TreesAsked D.poseidon)
    (htracks : IncrementalMerkleTree.Tracks D.poseidon pool.tree pool.committed) :
    pool.tree.getLastRoot ≠ 0 ∧
      (MerkleTree.node D.poseidon.hashPair (fieldLeaf pool.committed) pool.tree.levels 0).val =
        pool.tree.getLastRoot := by
  obtain ⟨levels, hlevels⟩ : ∃ levels, pool.tree.levels = levels + 1 :=
    ⟨_, (Nat.sub_add_cancel htracks.levels_pos).symm⟩
  have hpairs := hasked.pairsIn pool.committed.length le_rfl
  have hroot := D.poseidon.cast_node (MerkleTree.padded 0 pool.committed) pool.tree.levels 0
  rw [List.take_length] at hpairs
  have hlast : pool.tree.getLastRoot = MerkleTree.node D.poseidon.hashWords (MerkleTree.padded 0 pool.committed)
    pool.tree.levels 0 := htracks.lastRoot
  rw [← hlast] at hroot
  have hval : (MerkleTree.node D.poseidon.hashPair (fieldLeaf pool.committed) pool.tree.levels 0).val =
      pool.tree.getLastRoot := by
    have hlt : pool.tree.getLastRoot < modulus := by
      rw [hlast, hlevels, MerkleTree.node_succ]
      exact D.poseidon.hashWords_lt _ _
    rw [← ZMod.val_natCast_of_lt hlt, hroot]
    rfl
  refine ⟨?_, hval⟩
  rw [← hval, ZMod.val_ne_zero]
  rw [hlevels] at hpairs ⊢
  rw [MerkleTree.node_succ]
  exact D.poseidon.ne_zero _ hpairs.1

/-- The inputs a withdrawal of the note hashes, the trees apart. -/
structure Circuit.DepositSignals.WithdrawalAsked (P : Poseidon) (s : DepositSignals) (recipient : Address)
    (newSalt : Scalar) : Prop where
  nullifier : s.note.nullifierPreimage ∈ P.asked
  token : [s.token] ∈ P.asked
  change : ({ s.note with
    balance := 0
    salt := newSalt } : Note).preimage ∈ P.asked
  message : [P.hash s.note.nullifierPreimage, (recipient.toNat : Scalar)] ∈ P.asked

/-- The assignment that withdraws the whole deposit at a leaf of a tree of depth `levels`. -/
def Circuit.DepositSignals.withdrawal (P : Poseidon) (s : DepositSignals) (leaf : ℕ → Scalar) (levels index : ℕ)
    (recipient : Address) (newSalt sigS sigR8x sigR8y : Scalar) : WithdrawSignals where
  root := MerkleTree.node P.hashPair leaf levels 0
  nullifierHash := P.hash s.note.nullifierPreimage
  newCommitment := 0
  tokenHash := P.hash [s.token]
  withdrawAmount := s.amount
  recipient := recipient.toNat
  relayer := 0
  ownerSecret := s.secret
  token := s.token
  amount := s.amount
  salt := s.salt
  newSalt
  pathElements := MerkleTree.siblings P.hashPair leaf index
  pathIndices := fun level => if index.testBit level then 1 else 0
  pubKeyAx := s.pubKeyAx
  pubKeyAy := s.pubKeyAy
  sigS
  sigR8x
  sigR8y

theorem Circuit.direction_ite (bit : ℕ → Bool) : direction (fun level => if bit level then 1 else 0) = bit := by
  funext level
  rw [direction]
  cases bit level <;> simp

theorem Circuit.DepositSignals.withdrawal_valid {P : Poseidon} {s : DepositSignals} {leaf : ℕ → Scalar}
    {levels index : ℕ} {recipient : Address} {newSalt sigS sigR8x sigR8y : Scalar} (hdeposit : Deposit C P s)
    (hasked : s.WithdrawalAsked P recipient newSalt) (hsmall : s.amount.val < 2 ^ 128)
    (hpairs : MerkleTree.PairsIn P.hashPair P.askedPairs leaf levels 0) (hindex : index < 2 ^ levels)
    (hleaf : leaf index = s.commitment)
    (hsign : C.eddsaPoseidonVerifier 1 s.pubKeyAx s.pubKeyAy sigS sigR8x sigR8y
      (P.hash [P.hash s.note.nullifierPreimage, (recipient.toNat : Scalar)])) :
    ValidWithdrawal C P levels (s.withdrawal P leaf levels index recipient newSalt sigS sigR8x sigR8y) := by
  have hnote : P.hash s.note.preimage = leaf index := hdeposit.commitment.2.trans hleaf.symm
  constructor
  case amount_lt => exact hsmall
  case change_lt =>
    change (s.amount - s.amount).val < 2 ^ 128
    rw [sub_self, ZMod.val_zero]
    exact Nat.two_pow_pos 128
  case note => exact hdeposit.commitment.1
  case pathIndices =>
    intro level _
    change (if index.testBit level then (1 : Scalar) else 0) = 0 ∨ (if index.testBit level then (1 : Scalar) else 0) = 1
    cases index.testBit level
    · exact Or.inl rfl
    · exact Or.inr rfl
  case pathPairs =>
    change ∀ level < levels, MerkleTree.climbPair P.hashPair (direction fun i => if index.testBit i then 1 else 0) _
      (P.hash s.note.preimage) level ∈ _
    rw [direction_ite, hnote]
    exact MerkleTree.climbPair_siblings_mem hpairs hindex
  case root =>
    change MerkleTree.climb P.hashPair (direction fun i => if index.testBit i then 1 else 0) _
      (P.hash s.note.preimage) levels = _
    rw [direction_ite, hnote]
    refine (MerkleTree.climb_siblings P.hashPair leaf index levels).trans ?_
    rw [Nat.div_eq_of_lt hindex]
    rfl
  case nullifierHash => exact ⟨hasked.nullifier, rfl⟩
  case tokenHash => exact ⟨hasked.token, rfl⟩
  case change =>
    have hchange := hasked.change
    rw [← sub_self s.amount] at hchange
    exact hchange
  case newCommitment => exact (if_pos (sub_self s.amount)).symm
  case message => exact hasked.message
  case signature => exact hsign

/-! ### Every later state -/

theorem CommitmentPool.deposit_amount_ne_zero {env : Env} {pool : CommitmentPool} {books : Books} {proof : Groth16Proof}
    {commitment : ℕ} {token : Address} {amount : ℕ} {r : CommitmentPool × Books}
    (hdeposit : pool.deposit D env books proof commitment token amount = .ok r) : amount ≠ 0 := by
  simp only [deposit, bind_eq_ok, require_eq_ok] at hdeposit
  obtain ⟨-, -, -, -, -, -, -, -, -, -, -, -, -, hamount, -⟩ := hdeposit
  exact hamount

theorem Deposited.spec {w w' : World} {token : Address} {s : Circuit.DepositSignals}
    (hdeposited : Deposited C D w w' token s) :
    w'.pool.committed = w.pool.committed ++ [s.commitment.val] ∧ s.token = (token.toNat : Scalar) ∧
      s.amount.val ≠ 0 ∧ s.amount.val ≤ w'.books.balanceOf token D.pool := by
  obtain ⟨env, proof, commitment, amount, hsignals, hrun⟩ := hdeposited.accepted
  simp only [Circuit.DepositSignals.publicInputs, List.map_cons, List.map_nil, List.cons.injEq, and_true] at hsignals
  obtain ⟨rfl, htoken, rfl⟩ := hsignals
  simp only [Call.run, ExternalCall.run, bind_eq_ok, pure_eq_ok] at hrun
  obtain ⟨⟨pool, books⟩, hcall, rfl⟩ := hrun
  obtain ⟨-, -, -, hreceived, tree, index, -, rfl⟩ := CommitmentPool.deposit_ok hcall
  refine ⟨rfl, ?_, CommitmentPool.deposit_amount_ne_zero hcall,
    le_of_le_of_eq (Nat.le_add_left _ _) hreceived.symm⟩
  rw [← htoken, ZMod.natCast_zmod_val]

theorem Deposited.grows (hzeros : D.poseidon.ZeroTable IncrementalMerkleTree.zeroTable) {w w' : World} {token : Address}
    {s : Circuit.DepositSignals} (hdeposited : Deposited C D w w' token s) :
    CommitmentPool.Grows D.poseidon w.pool w'.pool := by
  obtain ⟨env, proof, commitment, amount, -, hrun⟩ := hdeposited.accepted
  exact (CommitmentPool.grows_frame hzeros).call (fun _ _ => trivial) hrun

/-- The smallest subgroup does not contain the key, as `deposit.circom` checks. -/
def Circomlib.ValidKey (C : Circomlib) (Ax Ay : Scalar) : Prop :=
  C.babyCheck Ax Ay ∧ ∃ x₁ y₁ x₂ y₂ x₃ y₃, C.babyDbl Ax Ay x₁ y₁ ∧ C.babyDbl x₁ y₁ x₂ y₂ ∧ C.babyDbl x₂ y₂ x₃ y₃ ∧
    C.isZero x₃ 0

/-- `_processWithdraw` pays out what its checks let through. -/
theorem CommitmentPool.processWithdraw_whole {env : Env} {pool : CommitmentPool} {books : Books} {a : WithdrawArgs}
    (hamount : a.amount ≠ 0) (hrecipient : a.recipient ≠ 0) (hroot : pool.tree.isKnownRoot a.root = true)
    (hunspent : pool.nullifiers a.nullifierHash = false) (hwhole : a.newCommitment = 0)
    (hproof : env.verifyProof pool.withdrawVerifier a.proof (a.pubSignals D) = true)
    (hbalance : a.amount ≤ books.balanceOf a.token D.pool) : ∃ r, pool.processWithdraw D env books a = .ok r := by
  have htransferred : ∃ books', books.transfer D.tax a.token D.pool a.recipient a.amount = some books' :=
    Ledger.transfer_ok hbalance
  obtain ⟨books', htransfer⟩ := htransferred
  simp only [processWithdraw, insertNonzero, Deployment.safeTransfer, bind_eq_ok, require_eq_ok, pure_eq_ok,
    orRevert_eq_ok, if_pos hwhole]
  exact ⟨_, (), hamount, (), hrecipient, (), hroot, (), Bool.eq_false_iff.mp hunspent, (), hproof, _, rfl, books',
    htransfer, rfl⟩

/-- **Which deposits can be spent.** After any transactions, an unspent deposit can be withdrawn whole exactly when its amount is below `2 ^ 128` and the pool holds as much of the token; it does right after the deposit. -/
theorem deposit_spendable_iff (hzeros : D.poseidon.ZeroTable IncrementalMerkleTree.zeroTable)
    (hsign : ∀ Ax Ay, C.ValidKey Ax Ay → ∀ M, ∃ S R8x R8y, C.eddsaPoseidonVerifier 1 Ax Ay S R8x R8y M)
    {w₀ w₁ w : World} (hdeployed : Deployed D w₀) (hlevels : w₀.pool.tree.levels = commitTreeDepth)
    {before later : List Call} {token recipient : Address} {s : Circuit.DepositSignals}
    (hdeposited : Deposited C D (w₀.after D before) w₁ token s) (hlater : w = w₁.after D later) {env : Env}
    (hverifier : ∀ withdrawal, Circuit.Withdraw C D.poseidon commitTreeDepth withdrawal →
      ∃ proof, env.verifyProof w.pool.withdrawVerifier proof (withdrawal.publicInputs.map ZMod.val) = true)
    (htrees : w.pool.TreesAsked D.poseidon) {newSalt : Scalar} (hasked : s.WithdrawalAsked D.poseidon recipient newSalt)
    (hrecipient : recipient ≠ 0) (hunspent : w.pool.nullifiers (s.note.nullifier D.poseidon) = false) :
    (Spendable C D env w token recipient s ↔
      s.amount.val < 2 ^ 128 ∧ s.amount.val ≤ w.books.balanceOf token D.pool) ∧
    (later = [] → s.amount.val ≤ w.books.balanceOf token D.pool) := by
  obtain ⟨hlog, htoken, hamount, hreceived⟩ := hdeposited.spec
  refine ⟨⟨?_, ?_⟩, ?_⟩
  · rintro ⟨withdrawal, a, hwithdraw, -⟩
    exact ⟨hwithdraw.amount_lt, hwithdraw.amount_le⟩
  · rintro ⟨hsmall, hbalance⟩
    have hgrows₀ := CommitmentPool.grows_after hzeros w₀ before
    have hgrows₁ := hdeposited.grows hzeros
    have hgrows : CommitmentPool.Grows D.poseidon w₁.pool w.pool := hlater ▸ CommitmentPool.grows_after hzeros w₁ later
    have htracks : IncrementalMerkleTree.Tracks D.poseidon w.pool.tree w.pool.committed :=
      hgrows.tracks (hgrows₁.tracks (hdeployed.tracks hzeros before))
    have hdepth : w.pool.tree.levels = commitTreeDepth := by
      rw [hgrows.levels, hgrows₁.levels, hgrows₀.levels, hlevels]
    obtain ⟨hne, hroot⟩ := htrees.lastRoot htracks
    have hpairs := htrees.pairsIn w.pool.committed.length le_rfl
    rw [List.take_length] at hpairs
    rw [hdepth] at hroot hpairs
    -- the leaf stays where the deposit put it
    let index := (w₀.after D before).pool.committed.length
    obtain ⟨more, hmore⟩ := hgrows.leaves
    rw [hlog, List.append_assoc] at hmore
    have hindex : index < w.pool.committed.length := by
      rw [← hmore]
      simp [index]
    have hleaf : fieldLeaf w.pool.committed index = s.commitment := by
      rw [fieldLeaf, MerkleTree.padded, ← hmore]
      simp [index]
    have hroom : index < 2 ^ commitTreeDepth := by
      have hlength := htracks.length_le
      rw [hdepth] at hlength
      omega
    obtain ⟨sigS, sigR8x, sigR8y, hsignature⟩ :=
      hsign s.pubKeyAx s.pubKeyAy ⟨hdeposited.satisfied.pubKeyOnCurve, hdeposited.satisfied.smallOrder⟩
        (D.poseidon.hash [D.poseidon.hash s.note.nullifierPreimage, (recipient.toNat : Scalar)])
    have hvalid := Circuit.DepositSignals.withdrawal_valid hdeposited.satisfied hasked hsmall hpairs hroom hleaf
      hsignature
    obtain ⟨proof, hproof⟩ := hverifier _ hvalid.withdraw
    let a : CommitmentPool.WithdrawArgs :=
      ⟨proof, w.pool.tree.getLastRoot, s.note.nullifier D.poseidon, 0, token, s.amount.val, recipient, 0⟩
    have hsignals : (s.withdrawal D.poseidon (fieldLeaf w.pool.committed) commitTreeDepth index recipient newSalt sigS
        sigR8x sigR8y).publicInputs.map ZMod.val = a.pubSignals D := by
      have hword : ((recipient.toNat : ℕ) : Scalar).val = recipient.toNat :=
        ZMod.val_natCast_of_lt (lt_trans recipient.isLt (by decide))
      simp only [Circuit.WithdrawSignals.publicInputs, Circuit.DepositSignals.withdrawal,
        CommitmentPool.WithdrawArgs.pubSignals, a, List.map_cons, List.map_nil, hroot, hword, htoken, ZMod.val_zero]
      rfl
    rw [hsignals] at hproof
    have haccepted := CommitmentPool.processWithdraw_whole (D := D) (a := a) hamount hrecipient
      (IncrementalMerkleTree.isKnownRoot_getLastRoot htracks.history_pos hne) hunspent rfl hproof hbalance
    exact ⟨_, a, ⟨hvalid.withdraw, rfl, rfl, hroot, hsignals, rfl, haccepted⟩, rfl⟩
  · rintro rfl
    rw [hlater]
    exact hreceived

/-! ### The maker's deposit -/

/-- Templates that know the signatures of a list, and sign anything else somehow. -/
def Circomlib.signing (signatures : List (List Scalar)) : Circomlib :=
  { Circomlib.withSignatures signatures with
    eddsaPoseidonVerifier := fun enabled Ax Ay S R8x R8y M => enabled = 0 ∨ [Ax, Ay, S, R8x, R8y, M] ∈ signatures ∨
      ∀ S R8x R8y, [Ax, Ay, S, R8x, R8y, M] ∉ signatures }

theorem Circomlib.signing_signs (signatures : List (List Scalar)) (Ax Ay M : Scalar) :
    ∃ S R8x R8y, (Circomlib.signing signatures).eddsaPoseidonVerifier 1 Ax Ay S R8x R8y M := by
  by_cases hlisted : ∃ S R8x R8y, [Ax, Ay, S, R8x, R8y, M] ∈ signatures
  · obtain ⟨S, R8x, R8y, hmem⟩ := hlisted
    exact ⟨S, R8x, R8y, Or.inr (Or.inl hmem)⟩
  · push Not at hlisted
    exact ⟨0, 0, 0, Or.inr (Or.inr hlisted)⟩

abbrev spendableCircomlib : Circomlib := .signing
  [[overdrawal.pubKeyAx, overdrawal.pubKeyAy, overdrawal.sigS, overdrawal.sigR8x, overdrawal.sigR8y,
    0x18d4de1d2234334f1ced509c1d44d00cb731a0e35cd6ae1017f82cee781a88a7]]

def spendablePoseidon : Poseidon := .ofTable
  (([3, 1001, 13, 0, 3001, makerOrder.pubKeyAx, makerOrder.pubKeyAy],
    0x1dcbadab02dfe1d21590261d5c74017554516d8da267642a0fe7ca3b67abdc99) :: overdrawnTable)
  (by decide +kernel) (by decide +kernel)

instance : DecidablePred (· ∈ spendablePoseidon.asked) := fun xs =>
  inferInstanceAs (Decidable ((List.lookup xs _).isSome = true))

theorem spendablePoseidon_zeros : spendablePoseidon.ZeroTable IncrementalMerkleTree.zeroTable := by
  have hrows : ∀ i < 19, spendablePoseidon.hashWords (IncrementalMerkleTree.zeroTable.getD i 0)
      (IncrementalMerkleTree.zeroTable.getD i 0) = IncrementalMerkleTree.zeroTable.getD (i + 1) 0 := by
    decide +kernel
  have hlength : IncrementalMerkleTree.zeroTable.length = 20 := rfl
  exact fun i hi => hrows i (by omega)

def spendableDeployment : Deployment := .small spendablePoseidon

/-- Everything is set up for the maker's deposit. -/
def spendableWorld : World :=
  (World.fresh spendableDeployment 20 (Ledger.soleHolder 13 33 1000)).after spendableDeployment (tradeSetup.take 8)

theorem run_of_isOk {w : World} {call : Call} (hok : (call.run D w).isOk = true) :
    call.run D w = .ok (transact D w call) := by
  obtain ⟨w', hrun⟩ := exists_of_isOk hok
  rw [transact, hrun]

def makerDeposit : Call := .external (.pool (.permissive 33) (.deposit .zero makerOrder.deposited 13 1000))

theorem makerDeposit_commitment :
    spendablePoseidon.Digest makerOrder.deposit.note.preimage makerOrder.deposit.commitment := by
  decide +kernel

theorem makerDeposit_asked : makerOrder.deposit.WithdrawalAsked spendablePoseidon 33 3001 := by
  constructor <;> decide +kernel

theorem makerDeposit_deposited : Deposited spendableCircomlib spendableDeployment spendableWorld
    (transact spendableDeployment spendableWorld makerDeposit) 13 makerOrder.deposit where
  satisfied := ⟨makerOrder_deposit.pubKeyOnCurve, makerOrder_deposit.smallOrder, makerDeposit_commitment⟩
  accepted := ⟨.permissive 33, .zero, makerOrder.deposited, 1000, by decide +kernel, run_of_isOk (by decide +kernel)⟩

theorem makerDeposit_treesAsked :
    (transact spendableDeployment spendableWorld makerDeposit).pool.TreesAsked spendablePoseidon := by
  have hlog : (transact spendableDeployment spendableWorld makerDeposit).pool.committed = [makerOrder.deposited] := by
    decide +kernel
  have hlevels : (transact spendableDeployment spendableWorld makerDeposit).pool.tree.levels = 20 := by
    decide +kernel
  apply CommitmentPool.treesAsked_of_layersIn (fun left right => decide ([left, right] ∈ spendablePoseidon.asked))
    spendablePoseidon_zeros hlevels.le fun left right hmember => of_decide_eq_true hmember
  rw [hlevels, hlog]
  decide +kernel

theorem deposit_spendable_makerDeposit :
    (Spendable spendableCircomlib spendableDeployment (.permissive 33)
        (transact spendableDeployment spendableWorld makerDeposit) 13 33 makerOrder.deposit ↔
      makerOrder.deposit.amount.val < 2 ^ 128 ∧ makerOrder.deposit.amount.val ≤
        (transact spendableDeployment spendableWorld makerDeposit).books.balanceOf 13 spendableDeployment.pool) ∧
    (([] : List Call) = [] → makerOrder.deposit.amount.val ≤
      (transact spendableDeployment spendableWorld makerDeposit).books.balanceOf 13 spendableDeployment.pool) :=
  deposit_spendable_iff spendablePoseidon_zeros (fun Ax Ay _ M => Circomlib.signing_signs _ Ax Ay M)
    (World.deployed_fresh spendableDeployment (by decide) (by decide) (by decide) (by decide) fun _ _ _ => rfl) rfl
    makerDeposit_deposited (show _ = World.after spendableDeployment _ [] from rfl) (fun _ _ => ⟨.zero, rfl⟩)
    makerDeposit_treesAsked makerDeposit_asked (by decide) (by decide +kernel)

/-! ### A deposit that cannot be spent -/

/-- The maker deposits `2 ^ 128`. -/
def largeDeposit : Circuit.DepositSignals :=
  { makerOrder.deposit with
    commitment := 0x143f4e7002dbf0c58d2a1d027a6f72f07c46bda9667a4b4cb0c01adc73af477f
    amount := 2 ^ 128 }

/-- The left edge of the tree once it is in. -/
def largeEdge : List Scalar :=
  [0x143f4e7002dbf0c58d2a1d027a6f72f07c46bda9667a4b4cb0c01adc73af477f,
    0x2e8a48aeb91e661c45dde58aaed8d26274a41e5c8975a10a1e3afeb0ced28479,
    0x57a1f298758b88e6cd18a1272e06ec85fa9b5e932f5864faebfd220f394a6de,
    0xbc092e993130c71815d1eb0489d8d5d927639147fe15898b3c1ccbdd59486d4,
    0x248f3c449ffd46475c6f56882f092af2715aabd6e0efebaae242fdcdac6e989a,
    0xafee751eb60e045d584afadd35165e6e7ae4e10364684aa9968b991ecff32b2,
    0x21760eae864e6a02e1fe26085d1acc7b3b294ada5324ce9babdb14f1bde7a96b,
    0x172b445c5453c1fb2ea208d6ad452fa8dc0e1231f667828b32704ff4621106de,
    0x2d72a7263002094145c3b087af7b815acee09a48ceb918f5ed53a69c2567978d,
    0x2901b606ddf65edff5929712cde6e460db6633cbca854552a8a7a58bdfd42aaf,
    0x71ff1347a7addd5201efa1af84311c7f40a3cbaf6622f3e47448d6a06c71657,
    0x2c13b03dac6148d8d8b3ee14ddb557592b30ffe1f3b5db38a1503ca4d3f6db3,
    0x7a3cef877feb6f7495b32189ed3fadf58b1dd315aa9554544b94735297b2893,
    0x21b7444405ef17b9d32c3d028d3d5a107236a48a49afc86b714d6567044da83a,
    0x1a031cecd6d1fd4352a0a791da8d21818e7001be0d8b3fbe66f3d6bb47c89e55,
    0x2eeb3cf0a6aa3ed1fd453af7cc77ca8c98e8a34b148898ceb1ebd96ba2909283,
    0x607bc8696ce84101256fdcd7916df277196a02e1245a4ab86b37797626a488e,
    0x6ad174f0120a24205aa9ca03ff332bcd5fcefcec935405bd5e799e6b68352d3,
    0x243ec8871f1db0301d118b77862d05f8b81447ac32f209677920eaff80450e58,
    0x183fd3e915232cddb1154070ce5a469e85fd4ce99eda1eec7c6a4778237d1455,
    0x13afc3e9145954574351e8ff8d6b32948e712c0ebbae7e90885175ad2ee1e4a7]

def largePoseidon : Poseidon := .ofTable
  ((largeDeposit.note.preimage, largeDeposit.commitment) :: edgeRows 0 largeEdge ++ tradeTable)
  (by decide +kernel) (by decide +kernel)

instance : DecidablePred (· ∈ largePoseidon.asked) := fun xs =>
  inferInstanceAs (Decidable ((List.lookup xs _).isSome = true))

/-- Token `13` has a supply of `2 ^ 255`. -/
def largeDeployment : Deployment := { Deployment.small largePoseidon with
  cap := fun _ => 2 ^ 256 }

def largeWorld : World :=
  (World.fresh largeDeployment 20 (Ledger.soleHolder 13 33 (2 ^ 255))).after largeDeployment
    (tradeSetup.take 7 ++ [.external (.books (.approve 13 33 1 (2 ^ 128)))])

theorem largeDeposit_commitment : largePoseidon.Digest largeDeposit.note.preimage largeDeposit.commitment := by
  decide +kernel

/-- The pool accepts it, and no withdrawal takes it out again. -/
theorem largeDeposit_stuck :
    ∃ w, Deposited tradeCircomlib largeDeployment largeWorld w 13 largeDeposit ∧
      w.pool.nullifiers (largeDeposit.note.nullifier largePoseidon) = false ∧
      2 ^ 128 ≤ w.books.balanceOf 13 largeDeployment.pool ∧
      ∀ env recipient, ¬Spendable tradeCircomlib largeDeployment env w 13 recipient largeDeposit := by
  refine ⟨transact largeDeployment largeWorld
    (.external (.pool (.permissive 33) (.deposit .zero largeDeposit.commitment.val 13 (2 ^ 128)))),
    ⟨⟨makerOrder_deposit.pubKeyOnCurve, makerOrder_deposit.smallOrder, largeDeposit_commitment⟩, .permissive 33, .zero,
      largeDeposit.commitment.val, 2 ^ 128, by decide +kernel, run_of_isOk (by decide +kernel)⟩,
    by decide +kernel, by decide +kernel, ?_⟩
  rintro env recipient ⟨withdrawal, a, hwithdraw, -⟩
  have hlt := hwithdraw.amount_lt
  revert hlt
  decide +kernel

end ScatterDex
