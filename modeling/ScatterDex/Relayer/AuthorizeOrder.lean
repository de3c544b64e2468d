import ScatterDex.Contract.SettleVerifyLib
import ScatterDex.Library.Bn254
import Mathlib.Data.Nat.Digits.Lemmas

/-!
# Orders of the relayer

The relayer never sees a witness: an order is a proof and its public signals. A signal is the value its decimal string has for `BigInt`, so the checks that a string parses and that the positional array repeats the named signals have no counterpart here.
-/

namespace ScatterDex

open Bn254 Fallible

namespace Relayer

/-- The life of an order. The first two are left over from the synchronous relayer. -/
inductive AuthorizeOrderStatus where
  | pending
  | matched
  | accepted
  | settling
  | retrying
  | settled
  | failed
  | dead_letter
  | cancelled
  | expired
  deriving DecidableEq, Repr

namespace AuthorizeOrderStatus

def isLiveStatus (s : AuthorizeOrderStatus) : Bool := s ∈ [pending, accepted, retrying]

def isInFlightStatus (s : AuthorizeOrderStatus) : Bool := s ∈ [matched, settling]

def isTerminalStatus (s : AuthorizeOrderStatus) : Bool := s ∈ [settled, cancelled, failed, dead_letter, expired]

theorem category (s : AuthorizeOrderStatus) :
    (s.isTerminalStatus = true ↔ ¬(s.isLiveStatus = true ∨ s.isInFlightStatus = true)) ∧
      ¬(s.isLiveStatus = true ∧ s.isInFlightStatus = true) := by
  cases s <;> decide

end AuthorizeOrderStatus

/-- The values of the public signals. -/
structure AuthorizePublicSignals where
  pubKeyBind : ℕ
  commitmentRoot : ℕ
  nullifier : ℕ
  nonceNullifier : ℕ
  newCommitment : ℕ
  sellToken : ℕ
  buyToken : ℕ
  sellAmount : ℕ
  buyAmount : ℕ
  maxFee : ℕ
  expiry : ℕ
  claimsRoot : ℕ
  totalLocked : ℕ
  relayer : ℕ
  orderHash : ℕ
  deriving DecidableEq

namespace AuthorizePublicSignals

/-- The signals under their names, in circuit order. -/
def named (ps : AuthorizePublicSignals) : List (String × ℕ) :=
  [("pubKeyBind", ps.pubKeyBind), ("commitmentRoot", ps.commitmentRoot), ("nullifier", ps.nullifier),
    ("nonceNullifier", ps.nonceNullifier), ("newCommitment", ps.newCommitment), ("sellToken", ps.sellToken),
    ("buyToken", ps.buyToken), ("sellAmount", ps.sellAmount), ("buyAmount", ps.buyAmount), ("maxFee", ps.maxFee),
    ("expiry", ps.expiry), ("claimsRoot", ps.claimsRoot), ("totalLocked", ps.totalLocked), ("relayer", ps.relayer),
    ("orderHash", ps.orderHash)]

/-- Same formula as step 4 of `settleAuth`. -/
def isPriceCompatible (maker taker : AuthorizePublicSignals) : Bool :=
  let makerProduct := maker.sellAmount * taker.sellAmount
  let takerProduct := maker.buyAmount * taker.buyAmount
  takerProduct ≤ makerProduct

/-- Same as step 3 of `settleAuth`. -/
def isTokenCompatible (maker taker : AuthorizePublicSignals) : Bool :=
  maker.sellToken = taker.buyToken ∧ taker.sellToken = maker.buyToken

end AuthorizePublicSignals

structure AuthorizeOrderFile where
  proof : Groth16Proof
  publicSignals : AuthorizePublicSignals
  tier : Option ℕ
  deriving DecidableEq

def ALLOWED_TIERS : List ℕ := [16, 64, 128]

/-- Clients from before the tiers mean tier 16. -/
def AuthorizeOrderFile.tierForOrder (order : AuthorizeOrderFile) : ℕ := order.tier.getD 16

def publicSignalToAddress (value : ℕ) : String :=
  "0x" ++ String.ofList ((Nat.toDigits 16 value).leftpad 40 '0')

/-- The checks of a submitted order, with the message of the first that fails. -/
def validateAuthorizeOrder (order : AuthorizeOrderFile) (relayerAddress : Address) (nowSeconds : ℕ) :
    Except String Unit := do
  let ps := order.publicSignals
  for (field, value) in ps.named do
    require (value < modulus) s!"{field} out of BN254 field range"
  require (¬ps.expiry ≤ nowSeconds) s!"Order expired (expiry={ps.expiry}, now={nowSeconds})"
  require (ps.relayer = relayerAddress.toNat)
    s!"Proof bound to relayer {publicSignalToAddress ps.relayer}, expected {publicSignalToAddress relayerAddress.toNat}"
  require (ps.sellAmount ≠ 0) "sellAmount must be > 0"
  require (ps.buyAmount ≠ 0) "buyAmount must be > 0"
  require (ps.totalLocked ≠ 0) "totalLocked must be > 0"
  require (ps.sellAmount < 2 ^ 128) "sellAmount exceeds uint128"
  require (ps.buyAmount < 2 ^ 128) "buyAmount exceeds uint128"
  require (ps.maxFee < 2 ^ 16) "maxFee exceeds uint16"
  require (ps.expiry < 2 ^ 64) "expiry exceeds uint64"
  require (ps.totalLocked < 2 ^ 128) "totalLocked exceeds uint128"
  require (ps.sellToken < 2 ^ 160) "sellToken exceeds uint160"
  require (ps.buyToken < 2 ^ 160) "buyToken exceeds uint160"
  require (ps.relayer < 2 ^ 160) "relayer exceeds uint160"
  require (ps.nullifier ≠ 0) "nullifier must be nonzero"
  require (ps.nonceNullifier ≠ 0) "nonceNullifier must be nonzero"
  match order.tier with
  | none => pure ()
  | some tier => require (tier ∈ ALLOWED_TIERS) s!"tier must be one of 16 / 64 / 128 (got {tier} of type number)"

/-- What the checks leave of an order: every signal fits the type the contract gives it. -/
structure AuthorizeOrderFile.WellFormed (order : AuthorizeOrderFile) : Prop where
  sellAmount_ne : order.publicSignals.sellAmount ≠ 0
  buyAmount_ne : order.publicSignals.buyAmount ≠ 0
  totalLocked_ne : order.publicSignals.totalLocked ≠ 0
  sellAmount_lt : order.publicSignals.sellAmount < 2 ^ 128
  buyAmount_lt : order.publicSignals.buyAmount < 2 ^ 128
  maxFee_lt : order.publicSignals.maxFee < 2 ^ 16
  expiry_lt : order.publicSignals.expiry < 2 ^ 64
  totalLocked_lt : order.publicSignals.totalLocked < 2 ^ 128
  sellToken_lt : order.publicSignals.sellToken < 2 ^ 160
  buyToken_lt : order.publicSignals.buyToken < 2 ^ 160
  relayer_lt : order.publicSignals.relayer < 2 ^ 160

theorem validateAuthorizeOrder_ok {order : AuthorizeOrderFile} {relayerAddress : Address} {nowSeconds : ℕ} {u : Unit}
    (hvalid : validateAuthorizeOrder order relayerAddress nowSeconds = .ok u) : order.WellFormed := by
  simp only [validateAuthorizeOrder, bind_eq_ok, require_eq_ok] at hvalid
  obtain ⟨-, -, -, -, -, -, -, hsell, -, hbuy, -, hlocked, -, hsellLt, -, hbuyLt, -, hfee, -, hexpiry, -, hlockedLt, -,
    hsellToken, -, hbuyToken, -, hrelayer, -⟩ := hvalid
  exact ⟨hsell, hbuy, hlocked, hsellLt, hbuyLt, hfee, hexpiry, hlockedLt, hsellToken, hbuyToken, hrelayer⟩

/-- An order as the relayer keeps it. -/
structure StoredAuthorizeOrder where
  order : AuthorizeOrderFile
  status : AuthorizeOrderStatus

structure AuthorizeMatch where
  maker : StoredAuthorizeOrder
  taker : StoredAuthorizeOrder

def FEE_BPS_DENOMINATOR : ℕ := 10000

/-- The fee of a side, in what it buys. -/
def computeSideFee (buyAmount sideMaxFee relayerFeeBps : ℕ) : ℕ :=
  let effectiveBps := if relayerFeeBps < sideMaxFee then relayerFeeBps else sideMaxFee
  buyAmount * effectiveBps / FEE_BPS_DENOMINATOR

theorem computeSideFee_le (buyAmount sideMaxFee relayerFeeBps : ℕ) :
    computeSideFee buyAmount sideMaxFee relayerFeeBps * 10000 ≤ buyAmount * sideMaxFee := by
  have hbps : (if relayerFeeBps < sideMaxFee then relayerFeeBps else sideMaxFee) ≤ sideMaxFee := by
    split
    · exact le_of_lt (by assumption)
    · exact le_rfl
  calc computeSideFee buyAmount sideMaxFee relayerFeeBps * 10000
      ≤ buyAmount * (if relayerFeeBps < sideMaxFee then relayerFeeBps else sideMaxFee) := Nat.div_mul_le_self _ _
    _ ≤ buyAmount * sideMaxFee := Nat.mul_le_mul_left _ hbps

/-- The calldata of an order. -/
def AuthorizeOrderFile.buildAuthProofStruct (order : AuthorizeOrderFile) : AuthorizeProof where
  proof := order.proof
  pubKeyBind := order.publicSignals.pubKeyBind
  commitmentRoot := order.publicSignals.commitmentRoot
  nullifier := order.publicSignals.nullifier
  nonceNullifier := order.publicSignals.nonceNullifier
  newCommitment := order.publicSignals.newCommitment
  sellToken := BitVec.ofNat 160 order.publicSignals.sellToken
  buyToken := BitVec.ofNat 160 order.publicSignals.buyToken
  sellAmount := BitVec.ofNat 128 order.publicSignals.sellAmount
  buyAmount := BitVec.ofNat 128 order.publicSignals.buyAmount
  maxFee := BitVec.ofNat 16 order.publicSignals.maxFee
  expiry := BitVec.ofNat 64 order.publicSignals.expiry
  claimsRoot := order.publicSignals.claimsRoot
  totalLocked := BitVec.ofNat 128 order.publicSignals.totalLocked
  relayer := BitVec.ofNat 160 order.publicSignals.relayer
  orderHash := order.publicSignals.orderHash
  tier := BitVec.ofNat 8 order.tierForOrder

namespace AuthorizeOrderFile.WellFormed

variable {order : AuthorizeOrderFile} (horder : order.WellFormed)
include horder

theorem sellAmount : order.buildAuthProofStruct.sellAmount.toNat = order.publicSignals.sellAmount :=
  Nat.mod_eq_of_lt horder.sellAmount_lt

theorem buyAmount : order.buildAuthProofStruct.buyAmount.toNat = order.publicSignals.buyAmount :=
  Nat.mod_eq_of_lt horder.buyAmount_lt

theorem maxFee : order.buildAuthProofStruct.maxFee.toNat = order.publicSignals.maxFee :=
  Nat.mod_eq_of_lt horder.maxFee_lt

theorem expiry : order.buildAuthProofStruct.expiry.toNat = order.publicSignals.expiry :=
  Nat.mod_eq_of_lt horder.expiry_lt

theorem totalLocked : order.buildAuthProofStruct.totalLocked.toNat = order.publicSignals.totalLocked :=
  Nat.mod_eq_of_lt horder.totalLocked_lt

theorem sellToken : order.buildAuthProofStruct.sellToken.toNat = order.publicSignals.sellToken :=
  Nat.mod_eq_of_lt horder.sellToken_lt

theorem buyToken : order.buildAuthProofStruct.buyToken.toNat = order.publicSignals.buyToken :=
  Nat.mod_eq_of_lt horder.buyToken_lt

theorem relayer : order.buildAuthProofStruct.relayer.toNat = order.publicSignals.relayer :=
  Nat.mod_eq_of_lt horder.relayer_lt

end AuthorizeOrderFile.WellFormed

end Relayer

end ScatterDex
