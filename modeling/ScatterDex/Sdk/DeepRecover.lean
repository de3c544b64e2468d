import ScatterDex.Sdk.Claim
import ScatterDex.Sdk.Payout
import ScatterDex.Sdk.Text

/-!
# Deep recovery of the SDK

`deepRecover.ts`: the release time of a payout whose claim links were lost, found by rebuilding the claims tree for each second of a window until its root is the registered one.
-/

namespace ScatterDex

open Bn254 Fallible

namespace Sdk

structure DeepRecoverRecipient where
  recipient : String
  amount : ℕ

/-- The arguments, with the seconds as integers: a number that is none is refused with the unsafe ones. `aborted` is what the signal says before each candidate. -/
structure DeepRecoverArgs where
  seed : ℕ
  recipients : List DeepRecoverRecipient
  token : String
  tierCap : ℕ
  targetClaimsRoot : String
  startSec : ℤ
  endSec : ℤ
  stepSec : Option ℤ
  maxCandidates : Option ℕ
  aborted : ℕ → Bool

structure DeepRecoverClaim where
  recipient : String
  token : String
  amount : ℕ
  releaseTime : ℤ
  secret : ℕ
  deriving DecidableEq

structure DeepRecoverResult where
  releaseTime : ℤ
  claims : List DeepRecoverClaim
  deriving DecidableEq

/-- `Number.isSafeInteger` -/
def isSafeInteger (n : ℤ) : Bool := n.natAbs < 2 ^ 53

/-- What Poseidon makes of a `bigint` that may be negative. -/
def fieldSecond (t : ℤ) : ℕ := (t : Scalar).val

/-- The claim as the tree builder reads it. -/
def DeepRecoverClaim.entry (claim : DeepRecoverClaim) : ClaimEntry where
  secret := claim.secret
  recipient := claim.recipient
  token := claim.token
  amount := claim.amount
  releaseTime := fieldSecond claim.releaseTime

namespace DeepRecoverArgs

variable (P : Poseidon) (args : DeepRecoverArgs)

def step : ℤ := args.stepSec.getD 1

def cap : ℕ := args.maxCandidates.getD 200000

def total : ℕ := ((args.endSec - args.startSec) / args.step).toNat + 1

/-- The claims of a candidate, from the recipient at index `i` on. -/
def candidate (releaseTime : ℤ) : ℕ → List DeepRecoverRecipient → Except String (List DeepRecoverClaim)
  | _, [] => .ok []
  | i, r :: recipients => do
    let preimage ← claimSecretPreimage args.seed r.recipient args.token r.amount (fieldSecond releaseTime) i
    let rest ← candidate releaseTime (i + 1) recipients
    return { recipient := r.recipient, token := args.token, amount := r.amount, releaseTime,
             secret := poseidonHash P preimage } :: rest

/-- The root has the text of the target, in any case of letters. -/
def Matches (root : ℕ) : Prop := toLowerCase (toBytes32Hex root) = toLowerCase args.targetClaimsRoot

instance (root : ℕ) : Decidable (args.Matches root) := inferInstanceAs (Decidable (_ = _))

/-- The loop over the window. `total` is the number of its turns. -/
def scan (tier : CircuitTier) : ℕ → ℕ → ℤ → Except String (Option DeepRecoverResult)
  | 0, _, _ => .ok none
  | fuel + 1, scanned, t =>
    if t ≤ args.endSec then do
      require (¬args.aborted scanned = true) "deepRecover: aborted"
      let claims ← args.candidate P t 0 args.recipients
      let tree ← buildClaimsTree P (claims.map DeepRecoverClaim.entry) tier
      if args.Matches tree.root then return some { releaseTime := t, claims }
      else scan tier fuel (scanned + 1) (t + args.step)
    else .ok none

end DeepRecoverArgs

def deepRecoverReleaseTime (P : Poseidon) (args : DeepRecoverArgs) : Except String (Option DeepRecoverResult) := do
  require (¬args.recipients.length = 0) "deepRecover: no recipients"
  require ([args.startSec, args.endSec, args.step].all isSafeInteger)
    "deepRecover: startSec/endSec/stepSec must be safe integers (unix seconds)"
  require (¬args.step ≤ 0) "deepRecover: stepSec must be positive"
  require (¬args.endSec < args.startSec) "deepRecover: endSec < startSec"
  let tier ← orError (tiers.find? fun t => t.cap = args.tierCap) s!"deepRecover: unsupported tierCap {args.tierCap}"
  require (¬args.recipients.length > tier.cap)
    s!"deepRecover: {args.recipients.length} recipients exceed tier cap {tier.cap}"
  require (¬args.total > args.cap)
    s!"deepRecover: {args.total} candidates exceed the {args.cap} cap — narrow the releaseTime window or widen the step."
  args.scan P tier args.total 0 args.startSec

end Sdk

end ScatterDex
