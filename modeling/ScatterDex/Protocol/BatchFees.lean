import ScatterDex.Circuit.Authorize
import ScatterDex.Contract.SettleVerifyLib
import ScatterDex.Pay.PayoutFees

/-!
# Batch fees

The client commits a proof to the least cap in basis points that covers its fee. Preparation and contract compare the fee with the cap, the circuit compares what is locked with what the cap leaves; all of them admit the same caps.
-/

namespace ScatterDex

open Bn254 Fallible

/-! ### The checks of the circuit and of the contract -/

/-- The minimum receive guarantee of the authorize circuit, over the field. -/
def Circuit.MinReceive (C : Circomlib) (buyAmount totalLocked maxFee : Scalar) : Prop :=
  C.lessEqThan 144 (buyAmount * (10000 - maxFee)) (totalLocked * 10000) 1

theorem Circuit.Authorize.minReceive {C : Circomlib} {P : Poseidon} {commitTreeDepth maxClaimsPerSide claimsTreeDepth : ℕ}
    {s : Circuit.AuthorizeSignals} (hs : Circuit.Authorize C P commitTreeDepth maxClaimsPerSide claimsTreeDepth s) :
    Circuit.MinReceive C s.buyAmount s.totalLocked s.maxFee := by
  have hcheck := hs.receiveCheck
  rwa [hs.minReceiveScaled, hs.lockedScaled] at hcheck

/-- The fee and cap checks of a scatter, in integers. -/
structure SettleVerifyLib.FeeChecked (sellAmount totalLocked fee maxFee : ℕ) : Prop where
  feeCap : fee * SettleVerifyLib.feeBpsDenominator ≤ sellAmount * maxFee
  claimsCap : totalLocked + fee ≤ sellAmount

/-- The checks of a scatter that do not look at the fee. -/
structure SettleVerifyLib.ScatterReady (env : Env) (whitelistedTokens : Address → Bool) (ap : AuthorizeProof) (sender : Address) : Prop where
  sender : sender = ap.relayer
  sameToken : ap.sellToken = ap.buyToken
  whitelisted : whitelistedTokens ap.sellToken = true
  sellAmount : ap.sellAmount.toNat ≠ 0
  buyAmount : ap.buyAmount.toNat ≠ 0
  expiry : env.timestamp ≤ ap.expiry.toNat

theorem SettleVerifyLib.validateScatterAuth_iff {env : Env} {whitelistedTokens : Address → Bool} {ap : AuthorizeProof}
    {sender : Address} {fee : BitVec 96} :
    SettleVerifyLib.validateScatterAuth env whitelistedTokens ap sender fee = .ok () ↔
      SettleVerifyLib.ScatterReady env whitelistedTokens ap sender ∧
        SettleVerifyLib.FeeChecked ap.sellAmount.toNat ap.totalLocked.toNat fee.toNat ap.maxFee.toNat := by
  simp only [SettleVerifyLib.validateScatterAuth, bind_eq_ok, require_eq_ok, not_lt, gt_iff_lt]
  constructor
  · intro hvalid
    obtain ⟨-, hsender, -, htokens, -, hlisted, -, hsell, -, hbuy, -, hfee, -, hcap, hexpiry⟩ := hvalid
    exact ⟨⟨hsender, htokens, hlisted, hsell, hbuy, hexpiry⟩, hfee, hcap⟩
  · intro hvalid
    obtain ⟨hready, hchecked⟩ := hvalid
    exact ⟨(), hready.sender, (), hready.sameToken, (), hready.whitelisted, (), hready.sellAmount, (), hready.buyAmount, (),
      hchecked.feeCap, (), hchecked.claimsCap, hready.expiry⟩

namespace Pay

/-! ### The least cap -/

theorem ceil_le_iff {a d m : ℕ} (hd : 0 < d) : (a + d - 1) / d ≤ m ↔ a ≤ d * m := by
  rw [Nat.div_le_iff_le_mul_add_pred hd]
  omega

theorem computeBatchFee_spec {input : BatchFeeInput} {fee : BatchFeeBreakdown} (hfee : computeBatchFee input = .ok fee)
    (hlocked : 0 < input.lockedAmount) :
    0 < input.lockedAmount.toNat ∧ fee.sellAmount = input.lockedAmount.toNat + fee.feeRaw ∧
      ∀ m, fee.effectiveMaxFeeBps ≤ m ↔ fee.feeRaw * 10000 ≤ fee.sellAmount * m := by
  simp only [computeBatchFee, bind_eq_ok, require_eq_ok, pure_eq_ok] at hfee
  obtain ⟨-, -, -, -, -, -, rfl⟩ := hfee
  have hpos : 0 < input.lockedAmount.toNat := by omega
  refine ⟨hpos, rfl, ?_⟩
  intro m
  dsimp only
  rw [if_pos (Nat.add_pos_left hpos _)]
  exact ceil_le_iff (Nat.add_pos_left hpos _)

/-- A fee is less than what is sold, so a cap of 100% covers it. -/
theorem effectiveMaxFeeBps_le {input : BatchFeeInput} {fee : BatchFeeBreakdown} (hfee : computeBatchFee input = .ok fee)
    (hlocked : 0 < input.lockedAmount) : fee.effectiveMaxFeeBps ≤ 10000 := by
  obtain ⟨-, hsell, hleast⟩ := computeBatchFee_spec hfee hlocked
  rw [hleast]
  exact Nat.mul_le_mul_right 10000 (by omega)

theorem minReceive_iff (C : Circomlib) {locked fee maxFee : ℕ} (hmaxFee : maxFee ≤ 10000) (hsell : locked + fee < 2 ^ 126) :
    Circuit.MinReceive C ((locked + fee : ℕ) : Scalar) (locked : Scalar) (maxFee : Scalar) ↔
      fee * 10000 ≤ (locked + fee) * maxFee := by
  have hmodulus : 2 ^ 144 ≤ modulus := by decide
  have hten : (10000 : Scalar) = ((10000 : ℕ) : Scalar) := by norm_cast
  have hleft : ((locked + fee : ℕ) : Scalar) * (10000 - (maxFee : Scalar)) =
      (((locked + fee) * (10000 - maxFee) : ℕ) : Scalar) := by
    rw [hten, ← Nat.cast_sub hmaxFee, ← Nat.cast_mul]
  have hright : (locked : Scalar) * 10000 = ((locked * 10000 : ℕ) : Scalar) := by
    rw [hten, ← Nat.cast_mul]
  have hproduct : (locked + fee) * (10000 - maxFee) ≤ 2 ^ 126 * 10000 := Nat.mul_le_mul hsell.le (Nat.sub_le _ _)
  have hvalLeft : (((locked + fee) * (10000 - maxFee) : ℕ) : Scalar).val = (locked + fee) * (10000 - maxFee) :=
    ZMod.val_natCast_of_lt (by omega)
  have hvalRight : ((locked * 10000 : ℕ) : Scalar).val = locked * 10000 := ZMod.val_natCast_of_lt (by omega)
  rw [Circuit.MinReceive, hleft, hright,
    C.lessEqThan_iff 144 (by decide) _ _ _ (by rw [hvalLeft]; omega) (by rw [hvalRight]; omega), hvalLeft, hvalRight]
  have hsplit : (locked + fee) * (10000 - maxFee) + (locked + fee) * maxFee = (locked + fee) * 10000 := by
    rw [← Nat.mul_add, Nat.sub_add_cancel hmaxFee]
  have hwhole : (locked + fee) * 10000 = locked * 10000 + fee * 10000 := Nat.add_mul _ _ _
  split
  · next hle => exact iff_of_true rfl (by omega)
  · next hgt => exact iff_of_false (by decide) (by omega)

/-- Which of client, circuit and contract admit a cap in basis points, for a batch of which `locked` goes to the claims: each of them exactly when the cap of the breakdown is no larger. -/
structure BatchFeeBreakdown.AdmittedFrom (C : Circomlib) (fee : BatchFeeBreakdown) (locked m : ℕ) : Prop where
  sells : ∀ args : RealSettleArgs, args.batch.totalAmount = locked → args.feeRaw = fee.feeRaw → args.sellAmount = fee.sellAmount
  capChecked : ∀ args : RealSettleArgs, args.batch.totalAmount = locked → args.feeRaw = fee.feeRaw → args.maxFeeBps = m →
    (args.CapChecked ↔ fee.effectiveMaxFeeBps ≤ m)
  prepared : ∀ P eddsa fullProve nonce newSalt, ∀ args : RealSettleArgs, args.batch.totalAmount = locked → args.feeRaw = fee.feeRaw →
    args.maxFeeBps = m → ((∃ prep, prepareRealSettle P eddsa fullProve nonce newSalt args = .ok prep) ↔
      fee.effectiveMaxFeeBps ≤ m ∧ args.Covered ∧ args.Provable P eddsa fullProve nonce newSalt)
  minReceive : Circuit.MinReceive C (fee.sellAmount : Scalar) (locked : Scalar) (m : Scalar) ↔ fee.effectiveMaxFeeBps ≤ m
  proved : ∀ P commitTreeDepth maxClaimsPerSide claimsTreeDepth, ∀ s : Circuit.AuthorizeSignals,
    Circuit.Authorize C P commitTreeDepth maxClaimsPerSide claimsTreeDepth s → s.buyAmount = fee.sellAmount → s.totalLocked = locked →
      s.maxFee = m → fee.effectiveMaxFeeBps ≤ m
  feeChecked : SettleVerifyLib.FeeChecked fee.sellAmount locked fee.feeRaw m ↔ fee.effectiveMaxFeeBps ≤ m
  validated : ∀ (env : Env) (whitelistedTokens : Address → Bool) (ap : AuthorizeProof) (sender : Address) (charged : BitVec 96),
    ap.sellAmount.toNat = fee.sellAmount → ap.totalLocked.toNat = locked → ap.maxFee.toNat = m → charged.toNat = fee.feeRaw →
      (SettleVerifyLib.validateScatterAuth env whitelistedTokens ap sender charged = .ok () ↔
        SettleVerifyLib.ScatterReady env whitelistedTokens ap sender ∧ fee.effectiveMaxFeeBps ≤ m)

/-- **Batch fees are admissible and tight.** The cap of a batch is a valid one, and of all caps in basis points, preparation, circuit and contract admit exactly those from it on. -/
theorem batchFee_tight (C : Circomlib) {input : BatchFeeInput} {fee : BatchFeeBreakdown}
    (hfee : computeBatchFee input = .ok fee) (hlocked : 0 < input.lockedAmount) (hsell : fee.sellAmount < 2 ^ 126) :
    fee.effectiveMaxFeeBps ≤ 10000 ∧ ∀ m : ℕ, m ≤ 10000 → fee.AdmittedFrom C input.lockedAmount.toNat m := by
  obtain ⟨hpos, hsum, hleast⟩ := computeBatchFee_spec hfee hlocked
  refine ⟨effectiveMaxFeeBps_le hfee hlocked, ?_⟩
  intro m hm
  have hsells : ∀ args : RealSettleArgs, args.batch.totalAmount = input.lockedAmount.toNat → args.feeRaw = fee.feeRaw →
      args.sellAmount = fee.sellAmount := by
    intro args htotal hraw
    rw [RealSettleArgs.sellAmount, htotal, hraw, Int.toNat_natCast, hsum]
  have hcapChecked : ∀ args : RealSettleArgs, args.batch.totalAmount = input.lockedAmount.toNat → args.feeRaw = fee.feeRaw →
      args.maxFeeBps = m → (args.CapChecked ↔ fee.effectiveMaxFeeBps ≤ m) := by
    intro args htotal hraw hmaxFee
    rw [hleast]
    constructor
    · intro hchecked
      have hcap := hchecked.cap
      rwa [hsells args htotal hraw, hraw, hmaxFee, Int.toNat_natCast, Int.toNat_natCast] at hcap
    · intro hcap
      refine ⟨by omega, by omega, ?_⟩
      rwa [hsells args htotal hraw, hraw, hmaxFee, Int.toNat_natCast, Int.toNat_natCast]
  have hminReceive : Circuit.MinReceive C (fee.sellAmount : Scalar) (input.lockedAmount.toNat : Scalar) (m : Scalar) ↔
      fee.effectiveMaxFeeBps ≤ m := by
    rw [hleast, hsum]
    exact minReceive_iff C hm (by omega)
  have hfeeChecked : SettleVerifyLib.FeeChecked fee.sellAmount input.lockedAmount.toNat fee.feeRaw m ↔ fee.effectiveMaxFeeBps ≤ m := by
    rw [hleast]
    constructor
    · intro hchecked
      exact hchecked.feeCap
    · intro hcap
      exact ⟨hcap, by omega⟩
  refine ⟨hsells, hcapChecked, ?_, hminReceive, ?_, hfeeChecked, ?_⟩
  · intro P eddsa fullProve nonce newSalt args htotal hraw hmaxFee
    rw [prepareRealSettle_isOk, hcapChecked args htotal hraw hmaxFee]
  · intro P commitTreeDepth maxClaimsPerSide claimsTreeDepth s hs hbuy htotal hmaxFee
    have hreceived := hs.minReceive
    rw [hbuy, htotal, hmaxFee] at hreceived
    exact hminReceive.mp hreceived
  · intro env whitelistedTokens ap sender charged hsold htotal hmaxFee hcharged
    rw [SettleVerifyLib.validateScatterAuth_iff, hsold, htotal, hmaxFee, hcharged, hfeeChecked]

/-- A scatter of 401, of which 100 are locked, under some cap. -/
def reserveScatter (maxFee : BitVec 16) : AuthorizeProof where
  proof := ⟨(0, 0), ((0, 0), 0, 0), (0, 0)⟩
  pubKeyBind := 1
  commitmentRoot := 2
  nullifier := 3
  nonceNullifier := 4
  newCommitment := 0
  sellToken := 13
  buyToken := 13
  sellAmount := 401
  buyAmount := 401
  maxFee
  expiry := 90
  claimsRoot := 5
  totalLocked := 100
  relayer := 12
  orderHash := 6
  tier := 16

def reserveEnv : Env where
  sender := 12
  timestamp := 80
  codeLength _ := 1
  isSanctioned _ _ := false
  isVerified _ _ := true
  isActiveRelayer _ _ := true
  verifyProof _ _ _ := true
  verifyBatchProof _ _ _ _ _ := true

/-- Two recipients of 50 with a service fee of 1% and a reserve of 150 each: the fee is three times what is locked. -/
theorem batchFee_tight_reserve :
    SettleVerifyLib.validateScatterAuth reserveEnv (fun _ => true) (reserveScatter 7507) 12 301 = .ok () ∧
      SettleVerifyLib.validateScatterAuth reserveEnv (fun _ => true) (reserveScatter 7506) 12 301 ≠ .ok () := by
  have hfee : computeBatchFee ⟨100, 2, 100, 150⟩ = .ok ⟨1, 300, 301, 401, 7507⟩ := rfl
  have htight := (batchFee_tight (Circomlib.withSignatures []) hfee (by decide) (by decide)).2
  have hadmitted := (htight 7507 (by decide)).validated reserveEnv (fun _ => true) (reserveScatter 7507) 12 301 rfl rfl rfl rfl
  have hrefused := (htight 7506 (by decide)).validated reserveEnv (fun _ => true) (reserveScatter 7506) 12 301 rfl rfl rfl rfl
  refine ⟨hadmitted.mpr ⟨⟨rfl, rfl, rfl, by decide, by decide, by decide⟩, le_rfl⟩, fun hvalid => ?_⟩
  exact absurd (hrefused.mp hvalid).2 (by decide)

end Pay

end ScatterDex
