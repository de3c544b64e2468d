import ScatterDex.Contract.FeeVault
import ScatterDex.Library.Transactions

/-!
# What the fee vault pays out

Relayers claim what they were credited, less the platform's cut at the rate of the day, and the treasury withdraws the platform's revenue. A claim in WETH may be paid as ETH, and then the code of the treasury and of the relayer runs before the claim is over.

The machine takes one step at a time, so what a recipient does with the ETH is steps like any others: calls into the vault among them, which meet the reentrancy lock. A recipient that reverts takes everything back to where the claim began.
-/

namespace ScatterDex

open Fallible

inductive VaultError where
  /-- of a deposit, or of a token -/
  | base (error : Error)
  | feeTooHigh
  | nothingToClaim
  | noFeeChangePending
  | feeChangeNotReady
  | ethTransferFailed
  | onlyWethRefund
  | wethNotConfigured
  | wrongClaimToken
  | delayTooLong
  | invalidInitialization
  | reentrantCall
  deriving DecidableEq

def MAX_PLATFORM_FEE : ℕ := 5000

def DEFAULT_FEE_CHANGE_DELAY : ℕ := 86400

def MAX_FEE_CHANGE_DELAY : ℕ := 30 * 86400

structure VaultStorage extends FeeVault where
  owner : Address
  pendingOwner : Address
  platformFeeBps : ℕ
  pendingFeeBps : ℕ
  pendingFeeEffectiveTime : ℕ
  treasury : Address
  weth : Address
  feeChangeDelay : ℕ
  entered : Bool
  initialized : ℕ

structure VaultEnv where
  sender : Address
  timestamp : ℕ
  codeLength : Address → ℕ

/-- Where the vault and WETH live, and how the tokens tax their transfers. Native ETH is not taxed. -/
structure VaultDeployment where
  vault : Address
  weth : Address
  tax : Address → ℕ → ℕ
  cap : Address → ℕ
  vault_ne_weth : vault ≠ weth
  tax_native : ∀ amount, tax 0 amount = 0

/-- A vault at a small address whose tokens are standard. -/
def VaultDeployment.small : VaultDeployment where
  vault := 100
  weth := 200
  tax := Ledger.untaxed
  cap _ := 2 ^ 256
  vault_ne_weth := by decide
  tax_native := native_untaxed

/-- A transfer the vault made. Address zero stands for ETH. -/
structure Payout where
  token : Address
  target : Address
  amount : ℕ
  deriving DecidableEq

/-- What the vault records: a credit, revenue, a claim with its parts, and a withdrawal. -/
inductive VaultEntry where
  | credited (relayer token : Address) (amount : ℕ)
  | accrued (token : Address) (amount : ℕ)
  | claimed (relayer token : Address) (balance : ℕ) (treasury : Address) (platformFee relayerAmount : ℕ) (asEth : Bool)
  | withdrawn (token treasury : Address) (amount : ℕ)
  deriving DecidableEq

structure VaultWorld where
  storage : VaultStorage
  books : Books
  log : List VaultEntry
  sent : List Payout

/-- A claim whose recipients run: the transfers it has yet to make, and the world it began in. -/
structure VaultFrame where
  remaining : List Payout
  checkpoint : VaultWorld

structure VaultState where
  world : VaultWorld
  frame : Option VaultFrame

/-- A transfer of nothing is not made. -/
def Payout.list (token target : Address) (amount : ℕ) : List Payout :=
  if amount = 0 then [] else [⟨token, target, amount⟩]

/-- The transfers an entry stands for. -/
def VaultEntry.payouts : VaultEntry → List Payout
  | .credited _ _ _ => []
  | .accrued _ _ => []
  | .claimed relayer token _ treasury platformFee relayerAmount asEth =>
    Payout.list (if asEth then 0 else token) treasury platformFee ++
      Payout.list (if asEth then 0 else token) relayer relayerAmount
  | .withdrawn token treasury amount => Payout.list token treasury amount

namespace VaultStorage

/-- A proxy before its initializer ran. -/
def blank : VaultStorage where
  balances := fun _ _ => 0
  totalTracked := fun _ => 0
  platformRevenue := fun _ => 0
  authorizedDepositors := fun _ => false
  owner := 0
  pendingOwner := 0
  platformFeeBps := 0
  pendingFeeBps := 0
  pendingFeeEffectiveTime := 0
  treasury := 0
  weth := 0
  feeChangeDelay := 0
  entered := false
  initialized := 0

def initializeVault (self : VaultStorage) (initialOwner treasury : Address) (platformFeeBps : ℕ) :
    Except VaultError VaultStorage := do
  require (self.initialized = 0) .invalidInitialization
  require (¬(initialOwner = 0 ∨ treasury = 0)) (.base .zeroAddress)
  require (¬platformFeeBps > MAX_PLATFORM_FEE) .feeTooHigh
  return { self with
    owner := initialOwner
    treasury
    platformFeeBps
    feeChangeDelay := DEFAULT_FEE_CHANGE_DELAY
    initialized := 1 }

def reinitializeFeeChangeDelay (self : VaultStorage) : Except VaultError VaultStorage := do
  require (self.initialized < 2) .invalidInitialization
  return { self with
    feeChangeDelay := if self.feeChangeDelay = 0 then DEFAULT_FEE_CHANGE_DELAY else self.feeChangeDelay
    initialized := 2 }

/-! ### Configuration -/

/-- The owner's calls, and those of `Ownable2Step`. None is behind the lock. -/
inductive Admin where
  | setAuthorizedDepositor (depositor : Address) (authorized : Bool)
  | setWeth (weth : Address)
  | scheduleFeeChange (bps : ℕ)
  | setFeeChangeDelay (delay : ℕ)
  | applyFeeChange
  | cancelFeeChange
  | setTreasury (treasury : Address)
  | transferOwnership (newOwner : Address)
  | acceptOwnership
  | renounceOwnership

def onlyOwner (self : VaultStorage) (env : VaultEnv) : Except VaultError Unit :=
  require (env.sender = self.owner) (.base .ownableUnauthorizedAccount)

def administer (self : VaultStorage) (env : VaultEnv) : Admin → Except VaultError VaultStorage
  | .setAuthorizedDepositor depositor authorized => do
    self.onlyOwner env
    require (depositor ≠ 0) (.base .zeroAddress)
    return { self with authorizedDepositors := Function.update self.authorizedDepositors depositor authorized }
  | .setWeth weth => do
    self.onlyOwner env
    require (¬(weth ≠ 0 ∧ env.codeLength weth = 0)) (.base .notAContract)
    return { self with weth }
  | .scheduleFeeChange bps => do
    self.onlyOwner env
    require (¬bps > MAX_PLATFORM_FEE) .feeTooHigh
    require (env.timestamp + self.feeChangeDelay < 2 ^ 256) (.base .arithmetic)
    return { self with
      pendingFeeBps := bps
      pendingFeeEffectiveTime := env.timestamp + self.feeChangeDelay }
  | .setFeeChangeDelay delay => do
    self.onlyOwner env
    require (¬delay > MAX_FEE_CHANGE_DELAY) .delayTooLong
    return { self with feeChangeDelay := delay }
  | .applyFeeChange => do
    self.onlyOwner env
    require (self.pendingFeeEffectiveTime ≠ 0) .noFeeChangePending
    require (¬env.timestamp < self.pendingFeeEffectiveTime) .feeChangeNotReady
    return { self with
      platformFeeBps := self.pendingFeeBps
      pendingFeeBps := 0
      pendingFeeEffectiveTime := 0 }
  | .cancelFeeChange => do
    self.onlyOwner env
    require (self.pendingFeeEffectiveTime ≠ 0) .noFeeChangePending
    return { self with
      pendingFeeBps := 0
      pendingFeeEffectiveTime := 0 }
  | .setTreasury treasury => do
    self.onlyOwner env
    require (treasury ≠ 0) (.base .zeroAddress)
    return { self with treasury }
  | .transferOwnership newOwner => do
    self.onlyOwner env
    return { self with pendingOwner := newOwner }
  | .acceptOwnership => do
    require (env.sender = self.pendingOwner) (.base .ownableUnauthorizedAccount)
    return { self with
      owner := env.sender
      pendingOwner := 0 }
  | .renounceOwnership => .error (.base .renounceOwnershipDisabled)

/-! ### Claims -/

/-- The storage without the balance of a relayer in a token. -/
def clearBalance (self : VaultStorage) (relayer token : Address) : VaultStorage :=
  { self with
    balances := Function.update self.balances relayer (Function.update (self.balances relayer) token 0)
    totalTracked := Function.update self.totalTracked token (self.totalTracked token - self.balances relayer token) }

/-- The balance a claim takes, and what is left of the storage. -/
def takeBalance (self : VaultStorage) (relayer token : Address) : Except VaultError (ℕ × VaultStorage) := do
  require (self.balances relayer token ≠ 0) .nothingToClaim
  require (self.balances relayer token ≤ self.totalTracked token) (.base .arithmetic)
  return (self.balances relayer token, self.clearBalance relayer token)

/-- The platform's cut of a balance; what is left is the relayer's. -/
def platformCut (self : VaultStorage) (balance : ℕ) : Except VaultError ℕ := do
  require (balance * self.platformFeeBps < 2 ^ 256) (.base .arithmetic)
  let platformFee := balance * self.platformFeeBps / 10000
  require (platformFee ≤ balance) (.base .arithmetic)
  return platformFee

theorem clearBalance_balances (self : VaultStorage) (relayer token r t : Address) :
    (self.clearBalance relayer token).balances r t +
        (if r = relayer ∧ t = token then self.balances relayer token else 0) = self.balances r t := by
  simp only [clearBalance, Function.update_apply]
  by_cases hr : r = relayer
  · by_cases ht : t = token
    · simp [hr, ht]
    · simp [hr, ht]
  · simp [hr]

theorem clearBalance_totalTracked (self : VaultStorage) (relayer token t : Address) :
    (self.clearBalance relayer token).totalTracked t =
      self.totalTracked t - if t = token then self.balances relayer token else 0 := by
  simp only [clearBalance, Function.update_apply]
  by_cases ht : t = token
  · simp [ht]
  · simp [ht]

def nonReentrant (self : VaultStorage) : Except VaultError Unit :=
  require (self.entered = false) .reentrantCall

end VaultStorage

namespace VaultWorld

variable (D : VaultDeployment) (w : VaultWorld) (env : VaultEnv)

/-- A transfer out of the vault. -/
def pay (p : Payout) : Except VaultError VaultWorld := do
  let books ← (orRevert (w.books.transfer D.tax p.token D.vault p.target p.amount)).mapError .base
  return { w with
    books
    sent := w.sent ++ [p] }

def payAll : VaultWorld → List Payout → Except VaultError VaultWorld
  | w, [] => .ok w
  | w, p :: ps => do
    let w ← w.pay D p
    payAll w ps

def deposit (relayer token : Address) (amount : ℕ) : Except VaultError VaultWorld := do
  w.storage.nonReentrant
  let vault ← (w.storage.toFeeVault.deposit D.vault w.books env.sender relayer token amount).mapError .base
  return { w with
    storage := { w.storage with toFeeVault := vault }
    log := w.log ++ [.credited relayer token amount] }

/-- `accrueDexFee` and `accrueDexSurplus`. -/
def accrue (token : Address) (amount : ℕ) : Except VaultError VaultWorld := do
  w.storage.nonReentrant
  let vault ← (w.storage.toFeeVault.accruePlatformRevenue D.vault w.books env.sender token amount).mapError .base
  return { w with
    storage := { w.storage with toFeeVault := vault }
    log := w.log ++ [.accrued token amount] }

def withdrawPlatformRevenue (token : Address) : Except VaultError VaultWorld := do
  w.storage.nonReentrant
  require (¬(env.sender ≠ w.storage.treasury ∧ env.sender ≠ w.storage.owner)) (.base .notAuthorized)
  require (token ≠ 0) (.base .zeroAddress)
  let amount := w.storage.platformRevenue token
  require (amount ≠ 0) .nothingToClaim
  let entry := VaultEntry.withdrawn token w.storage.treasury amount
  let w := { w with
    storage := { w.storage with platformRevenue := Function.update w.storage.platformRevenue token 0 }
    log := w.log ++ [entry] }
  payAll D w entry.payouts

/-- The part of a claim before anything is paid, and the entry that says what will be. -/
def openClaim (token : Address) (asEth : Bool) : Except VaultError (VaultWorld × VaultEntry) := do
  let (balance, storage) ← w.storage.takeBalance env.sender token
  let platformFee ← storage.platformCut balance
  let entry := VaultEntry.claimed env.sender token balance storage.treasury platformFee (balance - platformFee) asEth
  return ({ w with storage, log := w.log ++ [entry] }, entry)

def claim (token : Address) : Except VaultError VaultWorld := do
  w.storage.nonReentrant
  require (token ≠ 0) (.base .zeroAddress)
  let (w, entry) ← w.openClaim env token false
  payAll D w entry.payouts

/-- `IWETH9.withdraw`, which pays ETH into the vault. Any other contract in the slot reverts. -/
def unwrap (balance : ℕ) : Except VaultError VaultWorld := do
  require (w.storage.weth = D.weth) (.base .transferFailed)
  let books ← (orRevert (w.books.burn D.weth D.vault balance)).mapError .base
  let books ← (orRevert (books.transfer D.tax 0 D.weth D.vault balance)).mapError .base
  return { w with books }

end VaultWorld

namespace VaultState

variable (D : VaultDeployment) (s : VaultState)

/-- Make the next transfer of a claim in ETH and run its recipient, or end the claim. -/
def proceed (w : VaultWorld) (frame : VaultFrame) : Except VaultError VaultState :=
  match frame.remaining with
  | [] => .ok ⟨{ w with storage := { w.storage with entered := false } }, none⟩
  | p :: ps => do
    let w ← (w.pay D p).mapError fun _ => VaultError.ethTransferFailed
    return ⟨w, some { frame with remaining := ps }⟩

def claimAsEth (env : VaultEnv) (token : Address) : Except VaultError VaultState := do
  s.world.storage.nonReentrant
  require (s.world.storage.weth ≠ 0) .wethNotConfigured
  require (token = s.world.storage.weth) .wrongClaimToken
  let (w, entry) ← s.world.openClaim env token true
  let w ← w.unwrap D (s.world.storage.balances env.sender token)
  proceed D { w with storage := { w.storage with entered := true } } ⟨entry.payouts, s.world⟩

end VaultState

inductive VaultStep where
  | initializeVault (initialOwner treasury : Address) (platformFeeBps : ℕ)
  | reinitializeFeeChangeDelay
  | administer (env : VaultEnv) (admin : VaultStorage.Admin)
  | deposit (env : VaultEnv) (relayer token : Address) (amount : ℕ)
  | accrueDexFee (env : VaultEnv) (token : Address) (amount : ℕ)
  | accrueDexSurplus (env : VaultEnv) (token : Address) (amount : ℕ)
  | withdrawPlatformRevenue (env : VaultEnv) (token : Address)
  | claim (env : VaultEnv) (token : Address)
  | claimAsEth (env : VaultEnv) (token : Address)
  /-- a plain transfer of ETH to the vault -/
  | receive (env : VaultEnv) (amount : ℕ)
  /-- the recipient of a claim in ETH is done -/
  | recipientReturns
  | recipientReverts
  /-- somebody acts on the books; the vault acts through its functions only -/
  | books (action : Ledger.Action Address Address)

namespace VaultStep

variable (D : VaultDeployment)

/-- A step on the storage alone. -/
def onStorage (s : VaultState) (step : Except VaultError VaultStorage) : Except VaultError VaultState := do
  let storage ← step
  return { s with world := { s.world with storage } }

def onWorld (s : VaultState) (step : Except VaultError VaultWorld) : Except VaultError VaultState := do
  let world ← step
  return { s with world }

def run (step : VaultStep) (s : VaultState) : Except VaultError VaultState :=
  match step with
  | .initializeVault initialOwner treasury platformFeeBps =>
    onStorage s (s.world.storage.initializeVault initialOwner treasury platformFeeBps)
  | .reinitializeFeeChangeDelay => onStorage s s.world.storage.reinitializeFeeChangeDelay
  | .administer env admin => onStorage s (s.world.storage.administer env admin)
  | .deposit env relayer token amount => onWorld s (s.world.deposit D env relayer token amount)
  | .accrueDexFee env token amount => onWorld s (s.world.accrue D env token amount)
  | .accrueDexSurplus env token amount => onWorld s (s.world.accrue D env token amount)
  | .withdrawPlatformRevenue env token => onWorld s (s.world.withdrawPlatformRevenue D env token)
  | .claim env token => onWorld s (s.world.claim D env token)
  | .claimAsEth env token => s.claimAsEth D env token
  | .receive env amount => do
    require (env.sender ≠ D.vault) (.base .transferFailed)
    require (env.sender = s.world.storage.weth) .onlyWethRefund
    let books ← (orRevert (s.world.books.transfer D.tax 0 env.sender D.vault amount)).mapError .base
    return { s with world := { s.world with books } }
  | .recipientReturns =>
    match s.frame with
    | none => .error .reentrantCall
    | some frame => VaultState.proceed D s.world frame
  | .recipientReverts =>
    match s.frame with
    | none => .error .reentrantCall
    | some frame => .ok ⟨frame.checkpoint, none⟩
  | .books action => do
    require (action.actor ≠ some D.vault) (.base .transferFailed)
    let books ← (orRevert (s.world.books.perform D.tax D.cap action)).mapError .base
    return { s with world := { s.world with books } }

end VaultStep

end ScatterDex
