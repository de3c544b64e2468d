import ScatterDex.Contract.Basic
import ScatterDex.Library.SwapPop
import ScatterDex.Library.Transactions

/-!
# The identity gate

A gate over several identity registries, of which the owner keeps the list. A user is verified if any of them says so.
-/

namespace ScatterDex

open Fallible

namespace IdentityGate

inductive Error where
  | registryAddressZero
  | registryAlreadyAdded
  | registryNotFound
  | noRegistries
  | tooManyRegistries
  | renounceOwnershipDisabled
  -- OpenZeppelin guards
  | invalidInitialization
  | ownableInvalidOwner
  | ownableUnauthorizedAccount
  -- an answer that the gate cannot decode
  | decoding
  deriving DecidableEq, Repr

/-- What comes of a call of `isVerified`. The catch clause sees a call that reverts. An account without code, or a proxy of one, answers with no data, and the decoder then reverts the gate. -/
inductive Answer where
  | reverted
  | returned (verified : Bool)
  | undecodable
  deriving DecidableEq

def maxRegistries : ℕ := 10

end IdentityGate

structure IdentityGate where
  initialized : Bool
  owner : Address
  pendingOwner : Address
  registries : List Address
  registryExists : Address → Bool

namespace IdentityGate

/-- The storage of a proxy before its initializer ran. -/
def blank : IdentityGate := ⟨false, 0, 0, [], fun _ => false⟩

def onlyOwner (self : IdentityGate) (sender : Address) : Except Error Unit :=
  require (sender = self.owner) .ownableUnauthorizedAccount

def initializeGate (self : IdentityGate) (initialOwner initialRegistry : Address) : Except Error IdentityGate := do
  require (self.initialized = false) .invalidInitialization
  require (initialRegistry ≠ 0) .registryAddressZero
  require (initialOwner ≠ 0) .ownableInvalidOwner
  return { self with
    initialized := true
    owner := initialOwner
    registries := self.registries ++ [initialRegistry]
    registryExists := Function.update self.registryExists initialRegistry true }

def addRegistry (self : IdentityGate) (sender registry : Address) : Except Error IdentityGate := do
  self.onlyOwner sender
  require (registry ≠ 0) .registryAddressZero
  require (self.registryExists registry = false) .registryAlreadyAdded
  require (self.registries.length < maxRegistries) .tooManyRegistries
  return { self with
    registries := self.registries ++ [registry]
    registryExists := Function.update self.registryExists registry true }

def removeRegistry (self : IdentityGate) (sender registry : Address) : Except Error IdentityGate := do
  self.onlyOwner sender
  require (self.registryExists registry = true) .registryNotFound
  require (self.registries.length ≠ 1) .noRegistries
  match self.registries.findIdx? (· = registry) with
  | some i => return { self with
      registries := SwapPop.removeAt self.registries i
      registryExists := Function.update self.registryExists registry false }
  | none => .error .registryNotFound

/-- `isVerified`, for the answers that the registries give about the user. -/
def isVerified (answer : Address → Answer) : List Address → Except Error Bool
  | [] => .ok false
  | registry :: registries =>
    match answer registry with
    | .returned true => .ok true
    | .returned false => isVerified answer registries
    | .reverted => isVerified answer registries
    | .undecodable => .error .decoding

/-! ### Calls -/

inductive Call
  | initializeGate (initialOwner initialRegistry : Address)
  | addRegistry (registry : Address)
  | removeRegistry (registry : Address)
  | transferOwnership (newOwner : Address)
  | acceptOwnership
  | renounceOwnership

def run : Address × Call → IdentityGate → Except Error IdentityGate
  | (_, .initializeGate initialOwner initialRegistry), self => self.initializeGate initialOwner initialRegistry
  | (sender, .addRegistry registry), self => self.addRegistry sender registry
  | (sender, .removeRegistry registry), self => self.removeRegistry sender registry
  | (sender, .transferOwnership newOwner), self => do
    self.onlyOwner sender
    return { self with pendingOwner := newOwner }
  | (sender, .acceptOwnership), self => do
    require (sender = self.pendingOwner) .ownableUnauthorizedAccount
    return { self with
      owner := sender
      pendingOwner := 0 }
  | (_, .renounceOwnership), _ => .error .renounceOwnershipDisabled

end IdentityGate

end ScatterDex
