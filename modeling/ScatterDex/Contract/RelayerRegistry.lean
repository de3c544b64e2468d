import ScatterDex.Contract.Basic
import ScatterDex.Library.Transactions

/-!
# The relayer registry

Relayers stake a bond in the token that is current when they register, native ETH under address zero, and get it back in that token when they leave. `reinitializeV2` is the migration hook of an upgrade: it writes the current token over every recorded zero.
-/

namespace ScatterDex

open Fallible

namespace RelayerRegistry

inductive Error where
  | alreadyRegistered
  | notRegistered
  | insufficientBond
  | exitNotRequested
  | cooldownNotPassed
  | alreadyExiting
  | zeroAddress
  | bondTransferFailed
  | feeTooHigh
  | notVerified
  | notKycApproved
  | renounceOwnershipDisabled
  | wrongPaymentMode
  | notAContract
  | cooldownTooLong
  -- OpenZeppelin guards, checked arithmetic, failing tokens
  | invalidInitialization
  | ownableUnauthorizedAccount
  | arithmetic
  | transferFailed
  deriving DecidableEq, Repr

def defaultExitCooldown : ℕ := 7 * 86400

def maxExitCooldown : ℕ := 30 * 86400

/-- 5% at most. -/
def maxFee : ℕ := 500

end RelayerRegistry

/-- What a call to the registry sees. -/
structure RegistryEnv where
  sender : Address
  value : ℕ
  timestamp : ℕ
  codeLength : Address → ℕ
  isVerified : (registry account : Address) → Bool
  isApproved : (registry account : Address) → Bool

structure Relayer where
  url : String
  name : String
  fee : ℕ
  bond : ℕ
  registeredAt : ℕ
  exitRequestedAt : ℕ
  active : Bool
  bondToken : Address
  deriving Inhabited

/-- The entry of an account that never registered. -/
def Relayer.unregistered : Relayer := ⟨"", "", 0, 0, 0, 0, false, 0⟩

structure RelayerRegistry where
  owner : Address
  pendingOwner : Address
  minBond : ℕ
  identityRegistry : Address
  bondToken : Address
  treasury : Address
  relayers : Address → Relayer
  inList : Address → Bool
  relayerList : List Address
  kycApprovalRegistry : Address
  exitCooldown : ℕ
  operationalKycRequired : Bool
  initialized : ℕ

/-- Where the registry lives and how the tokens tax their transfers. Native ETH is not taxed. -/
structure RegistryDeployment where
  registry : Address
  tax : Address → ℕ → ℕ
  cap : Address → ℕ
  tax_native : ∀ amount, tax 0 amount = 0

structure RegistryWorld where
  books : Books
  registry : RelayerRegistry

namespace RelayerRegistry

/-- The storage of a proxy before its initializer ran. -/
def blank : RelayerRegistry :=
  ⟨0, 0, 0, 0, 0, 0, fun _ => .unregistered, fun _ => false, [], 0, 0, false, 0⟩

def initializeRegistry (self : RelayerRegistry) (initialOwner treasury identityRegistry bondToken : Address) :
    Except Error RelayerRegistry := do
  require (self.initialized = 0) .invalidInitialization
  require (initialOwner ≠ 0) .zeroAddress
  require (treasury ≠ 0) .zeroAddress
  require (identityRegistry ≠ 0) .zeroAddress
  return { self with
    initialized := 1
    owner := initialOwner
    treasury
    identityRegistry
    bondToken
    exitCooldown := defaultExitCooldown }

/-- The backfill loop of `reinitializeV2`. -/
def backfill (bondToken : Address) (relayers : Address → Relayer) (relayerList : List Address) : Address → Relayer :=
  relayerList.foldl (fun relayers account =>
    if (relayers account).bond ≠ 0 ∧ (relayers account).bondToken = 0 then
      Function.update relayers account { relayers account with bondToken }
    else relayers) relayers

def reinitializeV2 (self : RelayerRegistry) : Except Error RelayerRegistry := do
  require (self.initialized < 2) .invalidInitialization
  return { self with
    initialized := 2
    exitCooldown := if self.exitCooldown = 0 then defaultExitCooldown else self.exitCooldown
    relayers := backfill self.bondToken self.relayers self.relayerList }

def onlyOwner (self : RelayerRegistry) (env : RegistryEnv) : Except Error Unit :=
  require (env.sender = self.owner) .ownableUnauthorizedAccount

/-! ### Calls that move no bond -/

def updateInfo (self : RelayerRegistry) (env : RegistryEnv) (url name : String) (fee : ℕ) :
    Except Error RelayerRegistry := do
  let r := self.relayers env.sender
  require (r.active = true) .notRegistered
  require (¬r.exitRequestedAt > 0) .alreadyExiting
  require (¬fee > maxFee) .feeTooHigh
  return { self with relayers := Function.update self.relayers env.sender { r with url, name, fee } }

def requestExit (self : RelayerRegistry) (env : RegistryEnv) : Except Error RelayerRegistry := do
  let r := self.relayers env.sender
  require (r.active = true) .notRegistered
  require (¬r.exitRequestedAt > 0) .alreadyExiting
  -- the event names the end of the cooldown, a checked sum
  require (env.timestamp + self.exitCooldown < 2 ^ 256) .arithmetic
  return { self with
    relayers := Function.update self.relayers env.sender { r with exitRequestedAt := env.timestamp } }

/-- The owner's calls, and those of `Ownable2Step`. -/
inductive Admin
  | setTreasury (treasury : Address)
  | setMinBond (minBond : ℕ)
  | setBond (bondToken : Address) (minBond : ℕ)
  | setExitCooldown (exitCooldown : ℕ)
  | setBondToken (bondToken : Address)
  | adminRemoveRelayer (relayer : Address)
  | setIdentityRegistry (identityRegistry : Address)
  | setKycApprovalRegistry (kycApprovalRegistry : Address)
  | setOperationalKycRequired (required : Bool)
  | transferOwnership (newOwner : Address)
  | acceptOwnership
  | renounceOwnership

/-- `_setBondToken`. -/
def setBondToken (self : RelayerRegistry) (env : RegistryEnv) (bondToken : Address) : Except Error RelayerRegistry := do
  require (¬(bondToken ≠ 0 ∧ env.codeLength bondToken = 0)) .notAContract
  return { self with bondToken }

def administer (self : RelayerRegistry) (env : RegistryEnv) : Admin → Except Error RelayerRegistry
  | .setTreasury treasury => do
    self.onlyOwner env
    require (treasury ≠ 0) .zeroAddress
    return { self with treasury }
  | .setMinBond minBond => do
    self.onlyOwner env
    return { self with minBond }
  | .setBond bondToken minBond => do
    self.onlyOwner env
    let self ← self.setBondToken env bondToken
    return { self with minBond }
  | .setExitCooldown exitCooldown => do
    self.onlyOwner env
    require (¬exitCooldown > maxExitCooldown) .cooldownTooLong
    return { self with exitCooldown }
  | .setBondToken bondToken => do
    self.onlyOwner env
    self.setBondToken env bondToken
  | .adminRemoveRelayer relayer => do
    self.onlyOwner env
    let r := self.relayers relayer
    require (r.active = true) .notRegistered
    let exitRequestedAt := if r.exitRequestedAt = 0 then env.timestamp else r.exitRequestedAt
    require (exitRequestedAt + self.exitCooldown < 2 ^ 256) .arithmetic
    return { self with relayers := Function.update self.relayers relayer { r with exitRequestedAt } }
  | .setIdentityRegistry identityRegistry => do
    self.onlyOwner env
    require (identityRegistry ≠ 0) .zeroAddress
    return { self with identityRegistry }
  | .setKycApprovalRegistry kycApprovalRegistry => do
    self.onlyOwner env
    require (¬(kycApprovalRegistry ≠ 0 ∧ env.codeLength kycApprovalRegistry = 0)) .notAContract
    return { self with kycApprovalRegistry }
  | .setOperationalKycRequired required => do
    self.onlyOwner env
    return { self with operationalKycRequired := required }
  | .transferOwnership newOwner => do
    self.onlyOwner env
    require (newOwner ≠ 0) .zeroAddress
    return { self with pendingOwner := newOwner }
  | .acceptOwnership => do
    require (env.sender = self.pendingOwner) .ownableUnauthorizedAccount
    return { self with owner := env.sender, pendingOwner := 0 }
  | .renounceOwnership => .error .renounceOwnershipDisabled

/-! ### Views -/

/-- What a view of another contract comes to: an answer, a revert, or data that do not decode. -/
inductive ViewResult
  | returns (answer : Bool)
  | reverts
  | undecodable

/-- `_isOperational`. Only a revert of the other contract is caught; data that do not decode take the call down. -/
def isOperational (self : RelayerRegistry) (isVerified isApproved : (registry account : Address) → ViewResult)
    (relayer : Address) : Option Bool :=
  let r := self.relayers relayer
  if ¬r.active = true ∨ r.exitRequestedAt ≠ 0 then some false
  else
    match isVerified self.identityRegistry relayer with
    | .returns false => some false
    | .reverts => some false
    | .undecodable => none
    | .returns true =>
      if self.operationalKycRequired then
        if self.kycApprovalRegistry = 0 then some true
        else
          match isApproved self.kycApprovalRegistry relayer with
          | .returns approved => some approved
          | .reverts => some false
          | .undecodable => none
      else some true

def isActiveRelayer (self : RelayerRegistry) (isVerified isApproved : (registry account : Address) → ViewResult)
    (relayer : Address) : Option Bool :=
  self.isOperational isVerified isApproved relayer

end RelayerRegistry

/-! ### What anybody can do at any time -/

/-- The entry points without a reentrancy guard, and what happens to tokens elsewhere. -/
inductive RegistryCall
  | initializeRegistry (initialOwner treasury identityRegistry bondToken : Address)
  | reinitializeV2
  | updateInfo (env : RegistryEnv) (url name : String) (fee : ℕ)
  | requestExit (env : RegistryEnv)
  | administer (env : RegistryEnv) (admin : RelayerRegistry.Admin)
  | books (action : Ledger.Action Address Address)

namespace RegistryCall

variable (D : RegistryDeployment)

def run (w : RegistryWorld) : RegistryCall → Except RelayerRegistry.Error RegistryWorld
  | .initializeRegistry initialOwner treasury identityRegistry bondToken => do
    let registry ← w.registry.initializeRegistry initialOwner treasury identityRegistry bondToken
    return { w with registry }
  | .reinitializeV2 => do
    let registry ← w.registry.reinitializeV2
    return { w with registry }
  | .updateInfo env url name fee => do
    let registry ← w.registry.updateInfo env url name fee
    return { w with registry }
  | .requestExit env => do
    let registry ← w.registry.requestExit env
    return { w with registry }
  | .administer env admin => do
    let registry ← w.registry.administer env admin
    return { w with registry }
  | .books action =>
    match w.books.perform D.tax D.cap action with
    | some ledger => .ok { w with books := ledger }
    | none => .error .transferFailed

def runAll : RegistryWorld → List RegistryCall → Except RelayerRegistry.Error RegistryWorld
  | w, [] => .ok w
  | w, call :: calls => do
    let w ← call.run D w
    runAll w calls

end RegistryCall

/-! ### Bonds -/

namespace RelayerRegistry

variable (D : RegistryDeployment) (env : RegistryEnv) (w : RegistryWorld)

/-- A token call that must succeed. -/
def orFail {α : Type} (error : Error) : Option α → Except Error α
  | some value => .ok value
  | none => .error error

/-- The value of a payable call arrives before the call runs. -/
def receiveValue : Except Error RegistryWorld := do
  let books ← orFail .transferFailed (w.books.transfer D.tax 0 env.sender D.registry env.value)
  return { w with books }

/-- `_pullBond`: what was pulled, by the balance in ERC20 mode. -/
def pullBond (token : Address) (bondAmount : ℕ) : Except Error (ℕ × RegistryWorld) :=
  if token = 0 then do
    require (bondAmount = 0) .wrongPaymentMode
    return (env.value, w)
  else do
    require (env.value = 0) .wrongPaymentMode
    if bondAmount = 0 then return (0, w)
    else
      let balanceBefore := w.books.balanceOf token D.registry
      let books ← orFail .transferFailed
        (w.books.transferFrom D.tax token D.registry env.sender D.registry bondAmount)
      let balanceAfter := books.balanceOf token D.registry
      require (¬balanceAfter < balanceBefore) .bondTransferFailed
      return (balanceAfter - balanceBefore, { w with books })

/-- `_pushBond` up to the recipient's code. -/
def pushBond (token target : Address) (amount : ℕ) : Except Error RegistryWorld :=
  if amount = 0 then .ok w
  else do
    let books ← orFail (if token = 0 then .bondTransferFailed else .transferFailed)
      (w.books.transfer D.tax token D.registry target amount)
    return { w with books }

def register (url name : String) (fee bondAmount : ℕ) : Except Error RegistryWorld := do
  let w ← receiveValue D env w
  require (¬(w.registry.relayers env.sender).active = true) .alreadyRegistered
  require (¬fee > maxFee) .feeTooHigh
  require (env.isVerified w.registry.identityRegistry env.sender = true) .notVerified
  require (¬(w.registry.kycApprovalRegistry ≠ 0 ∧
    ¬env.isApproved w.registry.kycApprovalRegistry env.sender = true)) .notKycApproved
  let bondToken := w.registry.bondToken
  let (bond, w) ← pullBond D env w bondToken bondAmount
  require (¬bond < w.registry.minBond) .insufficientBond
  let listed := w.registry.inList env.sender
  return { w with registry := { w.registry with
    relayers := Function.update w.registry.relayers env.sender
      ⟨url, name, fee, bond, env.timestamp, 0, true, bondToken⟩
    relayerList := if listed then w.registry.relayerList else w.registry.relayerList ++ [env.sender]
    inList := Function.update w.registry.inList env.sender true } }

def addBond (bondAmount : ℕ) : Except Error RegistryWorld := do
  let w ← receiveValue D env w
  let r := w.registry.relayers env.sender
  require (r.active = true) .notRegistered
  let (bond, w) ← pullBond D env w r.bondToken bondAmount
  require (¬bond = 0) .insufficientBond
  require (r.bond + bond < 2 ^ 256) .arithmetic
  return { w with registry := { w.registry with
    relayers := Function.update w.registry.relayers env.sender { r with bond := r.bond + bond } } }

/-- `executeExit` up to the recipient's code. -/
def payExit : Except Error RegistryWorld := do
  let r := w.registry.relayers env.sender
  require (r.active = true) .notRegistered
  require (¬r.exitRequestedAt = 0) .exitNotRequested
  require (r.exitRequestedAt + w.registry.exitCooldown < 2 ^ 256) .arithmetic
  require (¬env.timestamp < r.exitRequestedAt + w.registry.exitCooldown) .cooldownNotPassed
  let w := { w with registry := { w.registry with
    relayers := Function.update w.registry.relayers env.sender { r with active := false, bond := 0 } } }
  pushBond D w r.bondToken env.sender r.bond

/-- `executeExit`. A native bond reaches the recipient's code, which may call what carries no guard, or fail. -/
def executeExit (receive : Option (List RegistryCall)) : Except Error RegistryWorld := do
  let r := w.registry.relayers env.sender
  let w ← payExit D env w
  if r.bondToken = 0 ∧ r.bond ≠ 0 then
    match receive with
    | some calls => (RegistryCall.runAll D w calls).mapError fun _ => .bondTransferFailed
    | none => .error .bondTransferFailed
  else return w

end RelayerRegistry

/-- A transaction. -/
inductive RegistryTransaction
  | call (call : RegistryCall)
  | register (env : RegistryEnv) (url name : String) (fee bondAmount : ℕ)
  | addBond (env : RegistryEnv) (bondAmount : ℕ)
  | executeExit (env : RegistryEnv) (receive : Option (List RegistryCall))

def RegistryTransaction.run (D : RegistryDeployment) (tx : RegistryTransaction) (w : RegistryWorld) :
    Except RelayerRegistry.Error RegistryWorld :=
  match tx with
  | .call c => c.run D w
  | .register env url name fee bondAmount => RelayerRegistry.register D env w url name fee bondAmount
  | .addBond env bondAmount => RelayerRegistry.addBond D env w bondAmount
  | .executeExit env receive => RelayerRegistry.executeExit D env w receive

end ScatterDex
