import ScatterDex.Pay.RealSettle

/-!
# Fees of Pay

`payoutFees.ts`: the fee of one batch and the cap its proof commits to, and the checks of `prepareRealSettle` they have to pass.
-/

namespace ScatterDex

open Fallible Sdk

namespace Pay

structure BatchFeeInput where
  lockedAmount : ℤ
  recipientCount : ℤ
  maxFeeBps : ℤ
  claimFeePerRecipientRaw : ℤ

structure BatchFeeBreakdown where
  serviceFeeRaw : ℕ
  claimReserveRaw : ℕ
  feeRaw : ℕ
  sellAmount : ℕ
  effectiveMaxFeeBps : ℕ

/-- `computeBatchFee`. A number that is no integer is refused with the negative ones. -/
def computeBatchFee (input : BatchFeeInput) : Except String BatchFeeBreakdown := do
  require (¬input.recipientCount < 0) s!"recipientCount must be a non-negative integer; got {input.recipientCount}"
  require (¬(input.maxFeeBps < 0 ∨ input.maxFeeBps > 10000))
    s!"maxFeeBps must be an integer in [0, 10000]; got {input.maxFeeBps}"
  require (¬(input.lockedAmount < 0 ∨ input.claimFeePerRecipientRaw < 0))
    s!"lockedAmount and claimFeePerRecipientRaw must be non-negative; got {input.lockedAmount}, {input.claimFeePerRecipientRaw}"
  let lockedAmount := input.lockedAmount.toNat
  let maxFeeBps := input.maxFeeBps.toNat
  let serviceFeeRaw := lockedAmount * maxFeeBps / bpsDenominator
  let claimReserveRaw := input.recipientCount.toNat * input.claimFeePerRecipientRaw.toNat
  let feeRaw := serviceFeeRaw + claimReserveRaw
  let sellAmount := lockedAmount + feeRaw
  let effectiveMaxFeeBps := if sellAmount > 0 then (feeRaw * bpsDenominator + sellAmount - 1) / sellAmount else maxFeeBps
  return { serviceFeeRaw, claimReserveRaw, feeRaw, sellAmount, effectiveMaxFeeBps }

/-- `safeMaxFeeBps` of the wizard, on a whole number. -/
def safeMaxFeeBps (maxFeeBps : ℤ) : ℤ := max 0 (min 10000 maxFeeBps)

/-- What the proof of a settlement sells. -/
def RealSettleArgs.sellAmount (args : RealSettleArgs) : ℕ := args.batch.totalAmount + args.feeRaw.toNat

/-- The fee and cap checks of `prepareRealSettle`. -/
structure RealSettleArgs.CapChecked (args : RealSettleArgs) : Prop where
  maxFeeBps : 0 ≤ args.maxFeeBps ∧ args.maxFeeBps ≤ 10000
  feeRaw : 0 ≤ args.feeRaw
  cap : args.feeRaw.toNat * bpsDenominator ≤ args.sellAmount * args.maxFeeBps.toNat

/-- The balance check of `prepareRealSettle`. -/
def RealSettleArgs.Covered (args : RealSettleArgs) : Prop := args.sellAmount ≤ args.source.note.amount

/-- The steps of `prepareRealSettle` that no fee check is part of: the note has a path, the claims have an earliest release, and the proof is made. -/
def RealSettleArgs.Provable (P : Poseidon) (eddsa : Eddsa) (fullProve : AuthorizeCircuitInput → Except String (Groth16Proof × List ℕ))
    (nonce newSalt : ℕ) (args : RealSettleArgs) : Prop :=
  ∃ merkleProof, sourceProof args = .ok merkleProof ∧ ∃ expiry, minReleaseTime args.batch.claims = .ok expiry ∧
    ∃ authResult, generateAuthorizeProof P eddsa fullProve 0 {
      note := args.source.note
      leafIndex := args.source.leafIndex
      allLeaves := none
      merkleProof := some merkleProof
      sellAmount := args.sellAmount
      buyToken := args.tokenAddress
      buyAmount := args.sellAmount
      maxFee := args.maxFeeBps.toNat
      expiry
      nonce
      relayer := args.relayer.address
      eddsaPrivateKey := args.eddsaPrivateKey
      claims := args.batch.claims
      newSalt := some newSalt } args.batch.tier = .ok authResult

theorem prepareRealSettle_isOk {P : Poseidon} {eddsa : Eddsa}
    {fullProve : AuthorizeCircuitInput → Except String (Groth16Proof × List ℕ)} {nonce newSalt : ℕ} {args : RealSettleArgs} :
    (∃ prep, prepareRealSettle P eddsa fullProve nonce newSalt args = .ok prep) ↔
      args.CapChecked ∧ args.Covered ∧ args.Provable P eddsa fullProve nonce newSalt := by
  simp only [prepareRealSettle, bind_eq_ok, require_eq_ok, pure_eq_ok]
  constructor
  · intro hprepared
    obtain ⟨prep, merkleProof, hproof, -, hbps, -, hfee, -, hcap, -, hcovered, expiry, hexpiry, authResult, hauth, -⟩ := hprepared
    exact ⟨⟨by omega, by omega, not_lt.mp hcap⟩, not_lt.mp hcovered, merkleProof, hproof, expiry, hexpiry, authResult, hauth⟩
  · intro hready
    obtain ⟨hchecked, hcovered, merkleProof, hproof, expiry, hexpiry, authResult, hauth⟩ := hready
    have hbps := hchecked.maxFeeBps
    exact ⟨_, merkleProof, hproof, (), by omega, (), not_lt.mpr hchecked.feeRaw, (), not_lt.mpr hchecked.cap, (),
      not_lt.mpr hcovered, expiry, hexpiry, authResult, hauth, rfl⟩

end Pay

end ScatterDex
