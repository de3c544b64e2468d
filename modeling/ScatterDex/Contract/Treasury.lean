import ScatterDex.Contract.Basic
import ScatterDex.Library.CallStack
import ScatterDex.Library.Transactions

/-!
# The treasury

Platform revenue, by token, with the part of each balance that is attributed: tagged by a reporter, or native ETH that came in through `receive`. Payments leave to listed beneficiaries and hand control to the receiver, or to the token, before they return.
-/

namespace ScatterDex

open Fallible

namespace Treasury

inductive Error where
  | zeroAddress
  | zeroAmount
  | notAllowlisted (target : Address)
  | notReporter (caller : Address)
  | insufficientBalance (requested available : ℕ)
  | ethTransferFailed
  | renounceOwnershipDisabled
  | attributedExceedsBalance
  -- OpenZeppelin guards, checked arithmetic, failing tokens
  | invalidInitialization
  | ownableUnauthorizedAccount
  | reentrancyGuardReentrantCall
  | enforcedPause
  | expectedPause
  | arithmetic
  | transferFailed
  -- no call is open
  | noCall
  deriving DecidableEq, Repr

end Treasury

structure Treasury where
  initialized : Bool
  owner : Address
  pendingOwner : Address
  entered : Bool
  paused : Bool
  beneficiary : Address → Bool
  reporter : Address → Bool
  attributedERC20 : Address → ℕ
  attributedETH : ℕ

/-- Where the treasury lives, and how the tokens tax their transfers. Native ETH is not taxed. -/
structure TreasuryDeployment where
  treasury : Address
  tax : Address → ℕ → ℕ
  cap : Address → ℕ
  tax_native : ∀ amount, tax 0 amount = 0

structure TreasuryWorld where
  books : Books
  treasury : Treasury

namespace Treasury

/-- The storage of a proxy before its initializer ran. -/
def blank : Treasury := ⟨false, 0, 0, false, false, fun _ => false, fun _ => false, fun _ => 0, 0⟩

/-- The attributed part of a balance. Address zero stands for native ETH. -/
def attributed (self : Treasury) (token : Address) : ℕ :=
  if token = 0 then self.attributedETH else self.attributedERC20 token

def onlyOwner (self : Treasury) (sender : Address) : Except Error Unit :=
  require (sender = self.owner) .ownableUnauthorizedAccount

def nonReentrant (self : Treasury) : Except Error Unit := require (self.entered = false) .reentrancyGuardReentrantCall

def whenNotPaused (self : Treasury) : Except Error Unit := require (self.paused = false) .enforcedPause

/-! ### Calls of the owner -/

/-- `initialize`, the owner's calls, and those of `Ownable2Step`. -/
inductive Admin
  | initializeTreasury (initialOwner : Address)
  | setBeneficiary (account : Address) (allowed : Bool)
  | setReporter (account : Address) (allowed : Bool)
  | pause
  | unpause
  | transferOwnership (newOwner : Address)
  | acceptOwnership
  | renounceOwnership

def administer (self : Treasury) (sender : Address) : Admin → Except Error Treasury
  | .initializeTreasury initialOwner => do
    require (self.initialized = false) .invalidInitialization
    require (initialOwner ≠ 0) .zeroAddress
    return { self with
      initialized := true
      owner := initialOwner }
  | .setBeneficiary account allowed => do
    self.onlyOwner sender
    require (account ≠ 0) .zeroAddress
    return { self with beneficiary := Function.update self.beneficiary account allowed }
  | .setReporter account allowed => do
    self.onlyOwner sender
    require (account ≠ 0) .zeroAddress
    return { self with reporter := Function.update self.reporter account allowed }
  | .pause => do
    self.onlyOwner sender
    self.whenNotPaused
    return { self with paused := true }
  | .unpause => do
    self.onlyOwner sender
    require (self.paused = true) .expectedPause
    return { self with paused := false }
  | .transferOwnership newOwner => do
    self.onlyOwner sender
    return { self with pendingOwner := newOwner }
  | .acceptOwnership => do
    require (sender = self.pendingOwner) .ownableUnauthorizedAccount
    return { self with
      owner := sender
      pendingOwner := 0 }
  | .renounceOwnership => .error .renounceOwnershipDisabled

/-! ### Attribution -/

/-- `receive` -/
def receiveEth (self : Treasury) (value : ℕ) : Except Error Treasury :=
  if value > 0 then do
    require (self.attributedETH + value < 2 ^ 256) .arithmetic
    return { self with attributedETH := self.attributedETH + value }
  else return self

/-- `recordRevenue`, with the balance it reads. -/
def recordRevenue (self : Treasury) (sender token : Address) (amount onHand : ℕ) : Except Error Treasury := do
  self.nonReentrant
  require (self.reporter sender = true) (.notReporter sender)
  require (token ≠ 0) .zeroAddress
  require (amount ≠ 0) .zeroAmount
  require (self.attributedERC20 token + amount < 2 ^ 256) .arithmetic
  require (¬self.attributedERC20 token + amount > onHand) .attributedExceedsBalance
  return { self with
    attributedERC20 := Function.update self.attributedERC20 token (self.attributedERC20 token + amount) }

end Treasury

/-! ### Payments -/

namespace TreasuryWorld

open Treasury

variable (D : TreasuryDeployment) (w : TreasuryWorld)

def onHand (token : Address) : ℕ := w.books.balanceOf token D.treasury

/-- A transfer by the treasury. -/
def send (token target : Address) (amount : ℕ) : Except Treasury.Error TreasuryWorld :=
  match w.books.transfer D.tax token D.treasury target amount with
  | some ledger => .ok { w with books := ledger }
  | none => .error .transferFailed

/-- The checks that all payments begin with. -/
def payable (sender target : Address) (amount : ℕ) (tokenIsZero : Bool) : Except Treasury.Error Unit := do
  w.treasury.onlyOwner sender
  w.treasury.nonReentrant
  w.treasury.whenNotPaused
  require (¬(tokenIsZero = true ∨ target = 0)) .zeroAddress
  require (amount ≠ 0) .zeroAmount
  require (w.treasury.beneficiary target = true) (.notAllowlisted target)

/-- The reentrancy guard of a payment that has begun. -/
def guarded (treasury : Treasury) : TreasuryWorld := { w with treasury := { treasury with entered := true } }

/-- `withdraw`, up to the code of the token. -/
def withdraw (sender token target : Address) (amount : ℕ) : Except Treasury.Error TreasuryWorld := do
  w.payable sender target amount (token = 0)
  require (¬amount > w.onHand D token) (.insufficientBalance amount (w.onHand D token))
  let attributed := w.treasury.attributedERC20 token
  let w := w.guarded { w.treasury with
    attributedERC20 := Function.update w.treasury.attributedERC20 token
      (if attributed > amount then attributed - amount else 0) }
  w.send D token target amount

/-- `withdrawETH`, up to the code of the receiver. -/
def withdrawETH (sender target : Address) (amount : ℕ) : Except Treasury.Error TreasuryWorld := do
  w.payable sender target amount false
  require (¬amount > w.onHand D 0) (.insufficientBalance amount (w.onHand D 0))
  let attributed := w.treasury.attributedETH
  let w := w.guarded { w.treasury with attributedETH := if attributed > amount then attributed - amount else 0 }
  w.send D 0 target amount

/-- What `rescue` and `rescueETH` may take of a balance. -/
def rescuable (token : Address) : ℕ :=
  if w.onHand D token > w.treasury.attributed token then w.onHand D token - w.treasury.attributed token else 0

/-- `rescue`, up to the code of the token. -/
def rescue (sender token target : Address) (amount : ℕ) : Except Treasury.Error TreasuryWorld := do
  w.payable sender target amount (token = 0)
  require (¬amount > w.rescuable D token) (.insufficientBalance amount (w.rescuable D token))
  (w.guarded w.treasury).send D token target amount

/-- `rescueETH`, up to the code of the receiver. -/
def rescueETH (sender target : Address) (amount : ℕ) : Except Treasury.Error TreasuryWorld := do
  w.payable sender target amount false
  require (¬amount > w.rescuable D 0) (.insufficientBalance amount (w.rescuable D 0))
  (w.guarded w.treasury).send D 0 target amount

/-- The treasury as the receiver of its own payment: `receive` runs, and the payment returns. -/
def receiveOwn (amount : ℕ) : Except Treasury.Error TreasuryWorld := do
  let treasury ← (w.treasury.receiveEth amount).mapError fun _ => Treasury.Error.ethTransferFailed
  return { w with treasury := { treasury with entered := false } }

end TreasuryWorld

/-! ### Runs -/

/-- A call that is open: a payment of the treasury, or code of somebody else. -/
inductive TreasuryFrame
  | payment
  | other

/-- What a call does when the code it called returns. -/
def TreasuryFrame.resume : TreasuryFrame → TreasuryWorld → TreasuryWorld
  | .payment, w => { w with treasury := { w.treasury with entered := false } }
  | .other, w => w

abbrev TreasuryCalls := CallStack TreasuryWorld TreasuryFrame

inductive TreasuryStep
  /-- What others do to their tokens. Native ETH that reaches the treasury so does not run `receive`. -/
  | books (action : Ledger.Action Address Address)
  /-- Native ETH sent with a call. -/
  | pay (sender : Address) (value : ℕ)
  | administer (sender : Address) (admin : Treasury.Admin)
  | recordRevenue (sender token : Address) (amount : ℕ)
  | withdraw (sender token target : Address) (amount : ℕ)
  | withdrawETH (sender target : Address) (amount : ℕ)
  | rescue (sender token target : Address) (amount : ℕ)
  | rescueETH (sender target : Address) (amount : ℕ)
  /-- A call among other contracts, which may fail later and undo what happened in it. -/
  | enter
  | leave (success : Bool)

namespace TreasuryStep

open Treasury

variable (D : TreasuryDeployment)

def run : TreasuryStep → TreasuryCalls → Except Treasury.Error TreasuryCalls
  | .books action, c =>
    match c.state.books.perform D.tax D.cap action with
    | some ledger => .ok (c.goto { c.state with books := ledger })
    | none => .error .transferFailed
  | .pay sender value, c =>
    match c.state.books.transfer D.tax 0 sender D.treasury value with
    | some ledger => do
      let treasury ← c.state.treasury.receiveEth value
      return c.goto { books := ledger, treasury }
    | none => .error .transferFailed
  | .administer sender admin, c => do
    let treasury ← c.state.treasury.administer sender admin
    return c.goto { c.state with treasury }
  | .recordRevenue sender token amount, c => do
    let treasury ← c.state.treasury.recordRevenue sender token amount (c.state.onHand D token)
    return c.goto { c.state with treasury }
  | .withdraw sender token target amount, c => do
    let w ← c.state.withdraw D sender token target amount
    return c.enter .payment w
  | .withdrawETH sender target amount, c => do
    let w ← c.state.withdrawETH D sender target amount
    if target = D.treasury then
      let w ← w.receiveOwn amount
      return c.goto w
    else return c.enter .payment w
  | .rescue sender token target amount, c => do
    let w ← c.state.rescue D sender token target amount
    return c.enter .payment w
  | .rescueETH sender target amount, c => do
    let w ← c.state.rescueETH D sender target amount
    if target = D.treasury then
      let w ← w.receiveOwn amount
      return c.goto w
    else return c.enter .payment w
  | .enter, c => .ok (c.enter .other c.state)
  | .leave success, c => orError (c.leave TreasuryFrame.resume success) .noCall

end TreasuryStep

end ScatterDex
