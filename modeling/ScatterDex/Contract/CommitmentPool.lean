import ScatterDex.Contract.IncrementalMerkleTree

/-!
# CommitmentPool

The escrow: it holds the deposited tokens, the tree of their commitments and the set of spent escrow nullifiers. Deposits and withdrawals are open to everybody with a proof; the settlement contract inserts residuals, spends nullifiers and moves tokens out.

Each function has a lemma that reads a successful call: the checks that passed, and the state it left. The enumerable mirror of the whitelist is left out, since no function reads it. `committed` is the log of the `CommitmentInserted` events.
-/

namespace ScatterDex

open Bn254 Fallible

structure CommitmentPool where
  tree : IncrementalMerkleTree
  withdrawVerifier : Address
  depositVerifier : Address
  authorizedSettlement : Address
  nullifiers : ℕ → Bool
  whitelistedTokens : Address → Bool
  sanctionsList : Address
  pendingSettlement : Address
  pendingSettlementActivateAt : ℕ
  identityGate : Address
  owner : Address
  pendingOwner : Address
  paused : Bool
  committed : List ℕ

namespace CommitmentPool

variable (D : Deployment) (env : Env) (pool : CommitmentPool) (books : Books)

/-- `SETTLEMENT_TIMELOCK`, 24 hours. -/
def settlementTimelock : ℕ := 24 * 60 * 60

/-! ### Shared checks -/

def onlyOwner : Except Error Unit := require (env.sender = pool.owner) .ownableUnauthorizedAccount

def whenNotPaused : Except Error Unit := require (pool.paused = false) .enforcedPause

def notSanctioned (account : Address) : Except Error Unit :=
  require (¬(pool.sanctionsList ≠ 0 ∧ env.isSanctioned pool.sanctionsList account = true)) .addressSanctioned

def requireIdentityVerified (account : Address) : Except Error Unit :=
  require (¬(pool.identityGate ≠ 0 ∧ ¬env.isVerified pool.identityGate account = true)) .notIdentityVerified

def onlyAuthorizedSettlement : Except Error Unit :=
  require (env.sender = pool.authorizedSettlement) .notAuthorizedSettlement

/-- `_insert`, and the event that announces the leaf. -/
def insertLeaf (commitment : ℕ) : Except Error (CommitmentPool × ℕ) := do
  let (tree, index) ← pool.tree.insert D.poseidon commitment
  return ({ pool with tree, committed := pool.committed ++ [commitment] }, index)

/-- Insert a commitment unless it is zero, which stands for no change. -/
def insertNonzero (commitment : ℕ) : Except Error CommitmentPool :=
  if commitment = 0 then .ok pool
  else do
    let (pool, _) ← pool.insertLeaf D commitment
    return pool

/-! ### Initialisation and administration -/

/-- The storage that the initialiser leaves. -/
def fresh (tree : IncrementalMerkleTree) (owner withdrawVerifier depositVerifier : Address) : CommitmentPool where
  tree
  withdrawVerifier
  depositVerifier
  authorizedSettlement := 0
  nullifiers := fun _ => false
  whitelistedTokens := fun _ => false
  sanctionsList := 0
  pendingSettlement := 0
  pendingSettlementActivateAt := 0
  identityGate := 0
  owner
  pendingOwner := 0
  paused := false
  committed := []

def initializePool (initialOwner withdrawVerifier depositVerifier : Address) (treeLevels rootHistorySize : ℕ) :
    Except Error CommitmentPool := do
  require (initialOwner ≠ 0) .zeroAddress
  require (withdrawVerifier ≠ 0) .zeroAddress
  require (depositVerifier ≠ 0) .zeroAddress
  require (env.codeLength withdrawVerifier ≠ 0) .notAContract
  require (env.codeLength depositVerifier ≠ 0) .notAContract
  let tree ← IncrementalMerkleTree.init D.poseidon treeLevels rootHistorySize
  return fresh tree initialOwner withdrawVerifier depositVerifier

/-- The functions only the owner can call, and the second step of an ownership transfer. -/
inductive Admin
  | transferOwnership (newOwner : Address)
  | acceptOwnership
  | queueSetAuthorizedSettlement (settlement : Address)
  | activateAuthorizedSettlement
  | setAuthorizedSettlement (settlement : Address)
  | pause
  | unpause
  | setTokenWhitelist (token : Address) (allowed : Bool)
  | setSanctionsList (list : Address)
  | setIdentityGate (gate : Address)

def administer : Admin → Except Error CommitmentPool
  | .transferOwnership newOwner => do
    require (newOwner ≠ 0) .zeroAddress
    pool.onlyOwner env
    return { pool with pendingOwner := newOwner }
  | .acceptOwnership => do
    require (env.sender = pool.pendingOwner) .ownableUnauthorizedAccount
    return { pool with owner := env.sender, pendingOwner := 0 }
  | .queueSetAuthorizedSettlement settlement => do
    pool.onlyOwner env
    require (settlement ≠ 0) .zeroAddress
    require (env.codeLength settlement ≠ 0) .notAContract
    return { pool with
      pendingSettlement := settlement
      pendingSettlementActivateAt := env.timestamp + settlementTimelock }
  | .activateAuthorizedSettlement => do
    pool.onlyOwner env
    require (pool.pendingSettlement ≠ 0) .noPendingSettlement
    require (¬env.timestamp < pool.pendingSettlementActivateAt) .timelockNotExpired
    return { pool with
      authorizedSettlement := pool.pendingSettlement
      pendingSettlement := 0
      pendingSettlementActivateAt := 0 }
  | .setAuthorizedSettlement settlement => do
    pool.onlyOwner env
    require (pool.authorizedSettlement = 0) .settlementAlreadySet
    require (settlement ≠ 0) .zeroAddress
    require (env.codeLength settlement ≠ 0) .notAContract
    return { pool with authorizedSettlement := settlement }
  | .pause => do
    pool.onlyOwner env
    pool.whenNotPaused
    return { pool with paused := true }
  | .unpause => do
    pool.onlyOwner env
    require (pool.paused = true) .expectedPause
    return { pool with paused := false }
  | .setTokenWhitelist token allowed => do
    pool.onlyOwner env
    require (token ≠ 0) .zeroAddress
    return { pool with whitelistedTokens := Function.update pool.whitelistedTokens token allowed }
  | .setSanctionsList list => do
    pool.onlyOwner env
    require (¬(list ≠ 0 ∧ env.codeLength list = 0)) .notAContract
    return { pool with sanctionsList := list }
  | .setIdentityGate gate => do
    pool.onlyOwner env
    require (¬(gate ≠ 0 ∧ env.codeLength gate = 0)) .notAContract
    return { pool with identityGate := gate }

/-! ### Deposit and withdrawal -/

def deposit (proof : Groth16Proof) (commitment : ℕ) (token : Address) (amount : ℕ) :
    Except Error (CommitmentPool × Books) := do
  pool.whenNotPaused
  pool.notSanctioned env env.sender
  pool.requireIdentityVerified env env.sender
  require (commitment ≠ 0) .zeroCommitment
  require (token ≠ 0) .zeroAddress
  require (pool.whitelistedTokens token = true) .tokenNotWhitelisted
  require (amount ≠ 0) .zeroAmount
  require (¬commitment ≥ modulus) .fieldElementOutOfRange
  require (¬amount ≥ modulus) .fieldElementOutOfRange
  require (env.verifyProof pool.depositVerifier proof [commitment, token.toNat, amount] = true) .invalidProof
  let balanceBefore := books.balanceOf token D.pool
  let books ← D.safeTransferFrom books token D.pool env.sender D.pool amount
  -- the balance difference is a checked subtraction
  require (balanceBefore ≤ books.balanceOf token D.pool) .arithmetic
  require (books.balanceOf token D.pool - balanceBefore = amount) .feeOnTransferTokenUnsupported
  let (pool, _) ← pool.insertLeaf D commitment
  return (pool, books)

/-- The calldata of a withdrawal. -/
structure WithdrawArgs where
  proof : Groth16Proof
  root : ℕ
  nullifierHash : ℕ
  newCommitment : ℕ
  token : Address
  amount : ℕ
  recipient : Address
  relayer : Address

/-- The public signals of the withdraw verifier; the token enters as `PoseidonT2.hash([token])`. -/
def WithdrawArgs.pubSignals (a : WithdrawArgs) : List ℕ :=
  [a.root, a.nullifierHash, a.newCommitment, (D.poseidon.hash [(a.token.toNat : Scalar)]).val, a.amount,
    a.recipient.toNat, a.relayer.toNat]

/-- `_processWithdraw`. -/
def processWithdraw (a : WithdrawArgs) : Except Error (CommitmentPool × Books) := do
  require (a.amount ≠ 0) .zeroAmount
  require (a.recipient ≠ 0) .zeroAddress
  require (pool.tree.isKnownRoot a.root = true) .unknownRoot
  require (¬pool.nullifiers a.nullifierHash = true) .nullifierAlreadySpent
  require (env.verifyProof pool.withdrawVerifier a.proof (a.pubSignals D) = true) .invalidProof
  let pool := { pool with nullifiers := Function.update pool.nullifiers a.nullifierHash true }
  let pool ← pool.insertNonzero D a.newCommitment
  let books ← D.safeTransfer books a.token D.pool a.recipient a.amount
  return (pool, books)

def withdraw (a : WithdrawArgs) : Except Error (CommitmentPool × Books) := do
  pool.whenNotPaused
  pool.notSanctioned env env.sender
  pool.notSanctioned env a.recipient
  pool.requireIdentityVerified env env.sender
  pool.requireIdentityVerified env a.recipient
  pool.processWithdraw D env books a

def withdrawFor (a : WithdrawArgs) : Except Error (CommitmentPool × Books) := do
  pool.onlyAuthorizedSettlement env
  pool.processWithdraw D env books a

/-! ### Functions of the authorized settlement -/

def insertCommitment (commitment : ℕ) : Except Error CommitmentPool := do
  pool.onlyAuthorizedSettlement env
  pool.insertNonzero D commitment

def spendEscrowNullifier (nullifier : ℕ) : Except Error CommitmentPool := do
  pool.onlyAuthorizedSettlement env
  require (¬pool.nullifiers nullifier = true) .nullifierAlreadySpent
  return { pool with nullifiers := Function.update pool.nullifiers nullifier true }

def transferToSettlement (token : Address) (amount : ℕ) : Except Error Books := do
  pool.onlyAuthorizedSettlement env
  require (¬books.balanceOf token D.pool < amount) .insufficientPoolBalance
  D.safeTransfer books token D.pool pool.authorizedSettlement amount

def transferFee (recipient token : Address) (amount : ℕ) : Except Error Books := do
  pool.onlyAuthorizedSettlement env
  require (recipient ≠ 0) .zeroAddress
  require (¬books.balanceOf token D.pool < amount) .insufficientPoolBalance
  D.safeTransfer books token D.pool recipient amount

variable {D env pool books}

/-! ### Successful calls -/

theorem insertLeaf_ok {commitment index : ℕ} {pool' : CommitmentPool}
    (hinsert : pool.insertLeaf D commitment = .ok (pool', index)) :
    ∃ tree, pool.tree.insert D.poseidon commitment = .ok (tree, index) ∧
      pool' = { pool with tree, committed := pool.committed ++ [commitment] } := by
  simp only [insertLeaf, bind_eq_ok, pure_eq_ok, Prod.mk.injEq] at hinsert
  obtain ⟨⟨tree, index'⟩, htree, rfl, rfl⟩ := hinsert
  exact ⟨tree, htree, rfl⟩

/-- A commitment the pool may skip: a zero one leaves the pool as it is, another becomes the next leaf. -/
def Inserted (D : Deployment) (commitment : ℕ) (pool pool' : CommitmentPool) : Prop :=
  commitment = 0 ∧ pool' = pool ∨
    commitment ≠ 0 ∧ ∃ tree index, pool.tree.insert D.poseidon commitment = .ok (tree, index) ∧
      pool' = { pool with tree, committed := pool.committed ++ [commitment] }

theorem deposit_ok {proof : Groth16Proof} {commitment : ℕ} {token : Address} {amount : ℕ}
    {pool' : CommitmentPool} {books' : Books}
    (hdeposit : pool.deposit D env books proof commitment token amount = .ok (pool', books')) :
    commitment ≠ 0 ∧
    env.verifyProof pool.depositVerifier proof [commitment, token.toNat, amount] = true ∧
    books.transferFrom D.tax token D.pool env.sender D.pool amount = some books' ∧
    books'.balanceOf token D.pool = books.balanceOf token D.pool + amount ∧
    ∃ tree index, pool.tree.insert D.poseidon commitment = .ok (tree, index) ∧
      pool' = { pool with tree, committed := pool.committed ++ [commitment] } := by
  simp only [deposit, Deployment.safeTransferFrom, bind_eq_ok, require_eq_ok, pure_eq_ok, orRevert_eq_ok,
    Prod.mk.injEq, Prod.exists] at hdeposit
  obtain ⟨-, -, -, -, -, -, -, hcommitment, -, -, -, -, -, -, -, -, -, -, -, hproof, books₁, htransfer, -, hle, -,
    hreceived, pool₁, index, hinsert, rfl, rfl⟩ := hdeposit
  obtain ⟨tree, htree, rfl⟩ := insertLeaf_ok hinsert
  exact ⟨hcommitment, hproof, htransfer, by omega, tree, index, htree, rfl⟩

theorem insertNonzero_ok {commitment : ℕ} {pool' : CommitmentPool}
    (hinsert : pool.insertNonzero D commitment = .ok pool') : Inserted D commitment pool pool' := by
  rw [insertNonzero] at hinsert
  by_cases hzero : commitment = 0
  · rw [if_pos hzero, Except.ok.injEq] at hinsert
    exact Or.inl ⟨hzero, hinsert.symm⟩
  · rw [if_neg hzero, bind_eq_ok] at hinsert
    obtain ⟨⟨pool₂, index⟩, hleaf, heq⟩ := hinsert
    obtain rfl := pure_eq_ok.mp heq
    obtain ⟨tree, htree, rfl⟩ := insertLeaf_ok hleaf
    exact Or.inr ⟨hzero, tree, index, htree, rfl⟩

theorem processWithdraw_ok {a : WithdrawArgs} {pool' : CommitmentPool} {books' : Books}
    (hwithdraw : pool.processWithdraw D env books a = .ok (pool', books')) :
    pool.tree.isKnownRoot a.root = true ∧
    pool.nullifiers a.nullifierHash = false ∧
    env.verifyProof pool.withdrawVerifier a.proof (a.pubSignals D) = true ∧
    Inserted D a.newCommitment
      { pool with nullifiers := Function.update pool.nullifiers a.nullifierHash true } pool' ∧
    books.transfer D.tax a.token D.pool a.recipient a.amount = some books' := by
  simp only [processWithdraw, Deployment.safeTransfer, bind_eq_ok, require_eq_ok, pure_eq_ok, orRevert_eq_ok,
    Prod.mk.injEq] at hwithdraw
  obtain ⟨-, -, -, -, -, hroot, -, hunspent, -, hproof, pool₁, hinsert, books₁, htransfer, rfl, rfl⟩ := hwithdraw
  exact ⟨hroot, Bool.eq_false_iff.mpr hunspent, hproof, insertNonzero_ok hinsert, htransfer⟩

theorem withdraw_ok {a : WithdrawArgs} {r : CommitmentPool × Books}
    (hwithdraw : pool.withdraw D env books a = .ok r) : pool.processWithdraw D env books a = .ok r := by
  simp only [withdraw, bind_eq_ok] at hwithdraw
  obtain ⟨-, -, -, -, -, -, -, -, -, -, hprocess⟩ := hwithdraw
  exact hprocess

theorem withdrawFor_ok {a : WithdrawArgs} {r : CommitmentPool × Books}
    (hwithdraw : pool.withdrawFor D env books a = .ok r) :
    env.sender = pool.authorizedSettlement ∧ pool.processWithdraw D env books a = .ok r := by
  simp only [withdrawFor, onlyAuthorizedSettlement, bind_eq_ok, require_eq_ok] at hwithdraw
  obtain ⟨-, hsender, hprocess⟩ := hwithdraw
  exact ⟨hsender, hprocess⟩

theorem insertCommitment_ok {commitment : ℕ} {pool' : CommitmentPool}
    (hinsert : pool.insertCommitment D env commitment = .ok pool') :
    env.sender = pool.authorizedSettlement ∧ Inserted D commitment pool pool' := by
  simp only [insertCommitment, onlyAuthorizedSettlement, bind_eq_ok, require_eq_ok] at hinsert
  obtain ⟨-, hsender, hinsert⟩ := hinsert
  exact ⟨hsender, insertNonzero_ok hinsert⟩

theorem spendEscrowNullifier_ok {nullifier : ℕ} {pool' : CommitmentPool}
    (hspend : pool.spendEscrowNullifier env nullifier = .ok pool') :
    env.sender = pool.authorizedSettlement ∧ pool.nullifiers nullifier = false ∧
      pool' = { pool with nullifiers := Function.update pool.nullifiers nullifier true } := by
  simp only [spendEscrowNullifier, onlyAuthorizedSettlement, bind_eq_ok, require_eq_ok, pure_eq_ok] at hspend
  obtain ⟨-, hsender, -, hunspent, rfl⟩ := hspend
  exact ⟨hsender, Bool.eq_false_iff.mpr hunspent, rfl⟩

theorem transferToSettlement_ok {token : Address} {amount : ℕ} {books' : Books}
    (htransfer : pool.transferToSettlement D env books token amount = .ok books') :
    env.sender = pool.authorizedSettlement ∧
      books.transfer D.tax token D.pool pool.authorizedSettlement amount = some books' := by
  simp only [transferToSettlement, onlyAuthorizedSettlement, Deployment.safeTransfer, bind_eq_ok, require_eq_ok,
    orRevert_eq_ok] at htransfer
  obtain ⟨-, hsender, -, -, htransfer⟩ := htransfer
  exact ⟨hsender, htransfer⟩

theorem transferFee_ok {recipient token : Address} {amount : ℕ} {books' : Books}
    (htransfer : pool.transferFee D env books recipient token amount = .ok books') :
    env.sender = pool.authorizedSettlement ∧ books.transfer D.tax token D.pool recipient amount = some books' := by
  simp only [transferFee, onlyAuthorizedSettlement, Deployment.safeTransfer, bind_eq_ok, require_eq_ok,
    orRevert_eq_ok] at htransfer
  obtain ⟨-, hsender, -, -, -, -, htransfer⟩ := htransfer
  exact ⟨hsender, htransfer⟩

theorem administer_ok {admin : Admin} {pool' : CommitmentPool} (hadmin : pool.administer env admin = .ok pool') :
    pool'.tree = pool.tree ∧ pool'.committed = pool.committed ∧ pool'.nullifiers = pool.nullifiers := by
  cases admin <;> simp only [administer, bind_eq_ok, require_eq_ok, pure_eq_ok] at hadmin <;>
    obtain ⟨_, hadmin⟩ := hadmin <;> grind

end CommitmentPool

end ScatterDex
