import ScatterDex.Library.Fallible
import ScatterDex.Library.Ledger
import ScatterDex.Poseidon
import Mathlib.Data.BitVec

/-!
# What the contracts run on

A contract function is a function into `Except Error`, so a revert is a value and leaves nothing behind. Machine words are natural numbers, since the compiler's checked arithmetic reverts instead of wrapping; an argument whose width the ABI enforces is a bit vector. A call sees an `Env`, which answers for every contract that is only read (verifiers, sanctions lists, identity gates, the relayer registry), and the books of the tokens.
-/

namespace ScatterDex

open Fallible

/-- A 160-bit account address. -/
abbrev Address := BitVec 160

/-- Why a call reverted: the custom errors of the modelled contracts, and the reverts of the libraries and tokens they call. -/
inductive Error where
  -- IncrementalMerkleTree
  | invalidLevels
  | invalidRootHistorySize
  | treeFull
  | levelOutOfRange
  -- CommitmentPool
  | zeroAmount
  | zeroAddress
  | zeroCommitment
  | tokenNotWhitelisted
  | unknownRoot
  | nullifierAlreadySpent
  | invalidProof
  | renounceOwnershipDisabled
  | notAuthorizedSettlement
  | insufficientPoolBalance
  | fieldElementOutOfRange
  | notAContract
  | feeOnTransferTokenUnsupported
  | addressSanctioned
  | timelockNotExpired
  | noPendingSettlement
  | settlementAlreadySet
  | notIdentityVerified
  -- PrivateSettlement and SettleVerifyLib
  | claimsGroupNotFound
  | exceedsTotalLocked
  | notMakerOrTakerRelayer
  | notYetReleasable
  | tokenMismatch
  | amountOverflow
  | onlyWETH
  | duplicateClaimsRoot
  | notActiveRelayer
  | tierNotConfigured (tier : ℕ)
  | cancelVerifierNotSet
  | zeroSellAmount
  | zeroBuyAmount
  | tokenSidesMismatch
  | priceMismatch
  | claimsCapExceeded
  | feeExceedsMax
  | orderExpired
  | deadlineExpired
  | sellBuyTokenMismatch
  | claimsGroupAlreadyExists
  | dexRouterNotWhitelisted
  | dexCallReverted
  | dexOutputInsufficient (actual required : ℕ)
  | dexPlatformFeeTooHigh
  | feeVaultRequired
  | emptyBatch
  | batchTooLarge
  -- FeeVault
  | notAuthorized
  | insufficientTokenBalance
  -- OpenZeppelin guards, checked arithmetic, failing tokens
  | enforcedPause
  | expectedPause
  | ownableUnauthorizedAccount
  | arithmetic
  | transferFailed
  deriving DecidableEq, Repr

/-- A Groth16 proof as the verifiers take it. -/
structure Groth16Proof where
  proofA : ℕ × ℕ
  proofB : (ℕ × ℕ) × ℕ × ℕ
  proofC : ℕ × ℕ
  deriving DecidableEq

/-- What a call sees: its sender, the block, and the answers of the contracts it only reads. -/
structure Env where
  sender : Address
  timestamp : ℕ
  codeLength : Address → ℕ
  isSanctioned : (list account : Address) → Bool
  isVerified : (gate account : Address) → Bool
  isActiveRelayer : (registry account : Address) → Bool
  verifyProof : (verifier : Address) → Groth16Proof → List ℕ → Bool
  verifyBatchProof : (verifier : Address) → Groth16Proof → List ℕ → Groth16Proof → List ℕ → Bool

/-- The books of every token. Address zero stands for native ETH. -/
abbrev Books := Ledger Address Address

theorem native_untaxed (amount : ℕ) : Ledger.untaxed (0 : Address) amount = 0 := rfl

/-- Where the contracts live, and how the tokens behave: a tax on transfers and a cap on supplies. -/
structure Deployment where
  poseidon : Poseidon
  pool : Address
  settlement : Address
  weth : Address
  tax : Address → ℕ → ℕ
  cap : Address → ℕ
  pool_ne_settlement : pool ≠ settlement
  pool_ne_weth : pool ≠ weth

/-- A token whose transfers arrive in full. -/
def Deployment.Standard (D : Deployment) : Prop := ∀ token amount, D.tax token amount = 0

/-- A token call that must succeed. -/
def orRevert {α : Type} (result : Option α) : Except Error α :=
  match result with
  | some value => .ok value
  | none => .error .transferFailed

@[simp] theorem orRevert_eq_ok {α : Type} {result : Option α} {value : α} :
    orRevert result = .ok value ↔ result = some value := by
  cases result <;> simp [orRevert]

theorem orRevert_error {α : Type} {result : Option α} {e : Error} (herror : orRevert result = .error e) :
    e = .transferFailed := by
  cases result with
  | none => exact (Except.error.inj herror).symm
  | some value => cases herror

namespace Deployment

variable (D : Deployment)

/-- `safeTransfer`, called by `source`. -/
def safeTransfer (books : Books) (token source target : Address) (amount : ℕ) : Except Error Books :=
  orRevert (books.transfer D.tax token source target amount)

/-- `safeTransferFrom`, called by `spender`. -/
def safeTransferFrom (books : Books) (token spender source target : Address) (amount : ℕ) : Except Error Books :=
  orRevert (books.transferFrom D.tax token spender source target amount)

end Deployment

end ScatterDex
