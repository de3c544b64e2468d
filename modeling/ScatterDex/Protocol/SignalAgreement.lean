import ScatterDex.Relayer.Calldata

/-!
# The signals on chain and off chain

The relayer verifies the proof of an order against the positional array of its submission, and sends the contract a struct built from the named signals. Both mean the same statement.
-/

namespace ScatterDex

open Bn254 Fallible Sdk

namespace Relayer

variable {coder : AbiCoder} {body : AuthorizeOrderBody} {field : Signal}

/-! ### Words -/

theorem AbiCoder.Lawful.uint_toNat (hcoder : coder.Lawful) {width : ℕ} {v : ℤ} (hnonneg : 0 ≤ v) (hv : v < 2 ^ width) :
    coder.uint width v = .ok (BitVec.ofNat width v.toNat) := by
  have hlt : v.toNat < 2 ^ width := by
    rw [Int.toNat_lt hnonneg]
    exact_mod_cast hv
  rw [hcoder.uint, BitVec.toNat_ofNat, Nat.mod_eq_of_lt hlt, Int.toNat_of_nonneg hnonneg]

theorem AbiCoder.Lawful.word_eq (hcoder : coder.Lawful) {v : ℤ} {n : ℕ} (hword : coder.word v = .ok n) : v = n := by
  unfold AbiCoder.word at hword
  cases hv : coder.uint 256 v with
  | error e =>
    rw [hv] at hword
    cases hword
  | ok w =>
    rw [hv] at hword
    obtain rfl := Except.ok.inj hword
    exact hcoder.uint.mp hv

namespace AuthorizeOrderBody.Accepted

variable (haccepted : body.Accepted)
include haccepted

theorem value_eq (field : Signal) : ((body.value field).toNat : ℤ) = body.value field :=
  Int.toNat_of_nonneg (haccepted.nonneg field)

theorem toBytes32 (field : Signal) :
    Relayer.toBytes32 (body.text field) = .ok ("0x" ++ String.ofList (hexDigits 64 (body.value field).toNat)) := by
  rw [Relayer.toBytes32, haccepted.reads, ← haccepted.value_eq, ← padHex_natCast]
  rfl

theorem toAddress (field : Signal) :
    Relayer.toAddress (body.text field) = .ok ("0x" ++ String.ofList (hexDigits 40 (body.value field).toNat)) := by
  rw [Relayer.toAddress, haccepted.reads, ← haccepted.value_eq, ← padHex_natCast]
  rfl

theorem toNat_lt (field : Signal) : (body.value field).toNat < 16 ^ 64 := by
  have hlt := haccepted.lt_modulus field
  have hmodulus : (modulus : ℤ) < 16 ^ 64 := by decide
  omega

theorem bytes32 (hcoder : coder.Lawful) (field : Signal) :
    coder.bytes32 ("0x" ++ String.ofList (hexDigits 64 (body.value field).toNat)) = .ok (body.value field).toNat :=
  hcoder.bytes32 _ _ (length_hexDigits (by decide) (haccepted.toNat_lt field)) (readDigits_hexDigits _ _)

omit haccepted in
theorem address (hcoder : coder.Lawful) (hfield : (body.value field).toNat < 2 ^ 160) :
    coder.address ("0x" ++ String.ofList (hexDigits 40 (body.value field).toNat)) =
      .ok (BitVec.ofNat 160 (body.value field).toNat) :=
  hcoder.address _ _ (length_hexDigits (by decide) (lt_of_lt_of_eq hfield (by decide))) (readDigits_hexDigits _ _)

theorem uint (hcoder : coder.Lawful) {width : ℕ} (hfield : (body.value field).toNat < 2 ^ width) :
    coder.uint width (body.value field) = .ok (BitVec.ofNat width (body.value field).toNat) := by
  have hnonneg := haccepted.nonneg field
  apply hcoder.uint_toNat hnonneg
  rw [← haccepted.value_eq]
  exact_mod_cast hfield

/-- The root is the one signal that travels as a plain word. -/
theorem word (hcoder : coder.Lawful) (field : Signal) : coder.word (body.value field) = .ok (body.value field).toNat := by
  have hlt := haccepted.toNat_lt field
  rw [AbiCoder.word, haccepted.uint hcoder (lt_of_lt_of_eq hlt (by decide))]
  exact congrArg Except.ok (Nat.mod_eq_of_lt (lt_of_lt_of_eq hlt (by decide)))

/-- The contract receives the struct of the order, whenever it receives the proof. -/
theorem submitted (hcoder : coder.Lawful) :
    coder.submitted body = (coder.submittedProof body).map fun proof => (body.order proof).buildAuthProofStruct := by
  have hwell := haccepted.wellFormed ⟨(0, 0), ((0, 0), 0, 0), (0, 0)⟩
  rw [AbiCoder.submitted, AbiCoder.submittedProof, buildAuthProofStruct]
  cases body.proof.points with
  | error e => rfl
  | ok points =>
    have htier : coder.uint 8 ((body.tier.getD 16 : ℕ) : ℤ) = .ok (BitVec.ofNat 8 (body.tier.getD 16)) := by
      have hmem := haccepted.tier
      have hlt : body.tier.getD 16 < 2 ^ 8 := by
        simp only [ALLOWED_TIERS, List.mem_cons, List.not_mem_nil, or_false] at hmem
        omega
      have huint := hcoder.uint_toNat (Int.natCast_nonneg _) (show ((body.tier.getD 16 : ℕ) : ℤ) < 2 ^ 8 by exact_mod_cast hlt)
      rwa [Int.toNat_natCast] at huint
    simp only [haccepted.toBytes32, haccepted.toAddress, haccepted.reads, bind, Except.bind, pure, Except.pure, AbiCoder.authProof,
      haccepted.bytes32 hcoder, haccepted.word hcoder, address hcoder hwell.sellToken_lt, address hcoder hwell.buyToken_lt,
      address hcoder hwell.relayer_lt, haccepted.uint hcoder hwell.sellAmount_lt, haccepted.uint hcoder hwell.buyAmount_lt,
      haccepted.uint hcoder hwell.maxFee_lt, haccepted.uint hcoder hwell.expiry_lt,
      haccepted.uint hcoder hwell.totalLocked_lt, htier]
    cases coder.proof points <;> rfl

theorem packAuthSignals (proof : Groth16Proof) :
    (SettleVerifyLib.packAuthSignals (body.order proof).buildAuthProofStruct).map (fun n : ℕ => Except.ok (n : ℤ)) =
      (AUTHORIZE_PUBLIC_SIGNAL_ORDER.map body.text).map toBigInt := by
  have hwell := haccepted.wellFormed proof
  simp only [SettleVerifyLib.packAuthSignals, hwell.sellToken, hwell.buyToken, hwell.sellAmount, hwell.buyAmount, hwell.maxFee,
    hwell.expiry, hwell.totalLocked, hwell.relayer]
  simp only [AuthorizeOrderFile.buildAuthProofStruct, AuthorizeOrderBody.order, AUTHORIZE_PUBLIC_SIGNAL_ORDER, List.map_cons,
    List.map_nil, haccepted.reads, haccepted.value_eq]

end AuthorizeOrderBody.Accepted

/-! ### The proof -/

/-- The proof of snarkjs has the points of a proof of the contract, the pairs of `b` the other way round, and the third coordinates of affine points. -/
structure SnarkProof.Reads (snark : SnarkProof) (proof : Groth16Proof) : Prop where
  pi_a : snark.pi_a.map toBigInt = [.ok (proof.proofA.1 : ℤ), .ok (proof.proofA.2 : ℤ), .ok 1]
  pi_b : snark.pi_b.map (List.map toBigInt) = [[.ok (proof.proofB.1.2 : ℤ), .ok (proof.proofB.1.1 : ℤ)],
    [.ok (proof.proofB.2.2 : ℤ), .ok (proof.proofB.2.1 : ℤ)], [.ok 1, .ok 0]]
  pi_c : snark.pi_c.map toBigInt = [.ok (proof.proofC.1 : ℤ), .ok (proof.proofC.2 : ℤ), .ok 1]

theorem pair_submitted (hcoder : coder.Lawful) {p : String × String} {points : ℤ × ℤ} {words : ℕ × ℕ}
    (hpoints : bigIntPair p = .ok points) (hwords : coder.wordPair points = .ok words) :
    toBigInt p.1 = .ok (words.1 : ℤ) ∧ toBigInt p.2 = .ok (words.2 : ℤ) := by
  simp only [bigIntPair, AbiCoder.wordPair, bind_eq_ok, pure_eq_ok] at hpoints hwords
  obtain ⟨x, hx, y, hy, rfl⟩ := hpoints
  obtain ⟨m, hm, n, hn, rfl⟩ := hwords
  exact ⟨hx.trans (congrArg Except.ok (hcoder.word_eq hm)), hy.trans (congrArg Except.ok (hcoder.word_eq hn))⟩

theorem toBigInt_one : toBigInt "1" = .ok 1 ∧ toBigInt "0" = .ok 0 := by
  decide

theorem submittedProof_reads (hcoder : coder.Lawful) {proof : Groth16Proof} {tier : ℕ} {signals : List String}
    {snark : SnarkProof} (hsubmitted : coder.submittedProof body = .ok proof) (hverified : body.verified = .ok (tier, signals, snark)) :
    tier = body.tier.getD 16 ∧ body.publicSignalsArray = some signals ∧ snark.Reads proof := by
  simp only [AbiCoder.submittedProof, SolidityProof.points, AbiCoder.proof, AuthorizeOrderBody.verified, bind_eq_ok,
    orError_eq_ok, pure_eq_ok] at hsubmitted hverified
  obtain ⟨a, ha, b, hb, c, hc, signals', hsignals, heq⟩ := hverified
  obtain ⟨rfl, rfl, rfl⟩ : body.tier.getD 16 = tier ∧ signals' = signals ∧ buildSnarkProof a b c = snark := by
    simpa using heq
  obtain ⟨points, ⟨a', ha', b', hb', c', hc', xa, hxa, xb₀, hxb₀, xb₁, hxb₁, xc, hxc, rfl⟩, wa, hwa, wb₀, hwb₀, wb₁, hwb₁, wc,
    hwc, rfl⟩ := hsubmitted
  obtain rfl := Option.some.inj (ha.symm.trans ha')
  obtain rfl := Option.some.inj (hb.symm.trans hb')
  obtain rfl := Option.some.inj (hc.symm.trans hc')
  obtain ⟨ha₁, ha₂⟩ := pair_submitted hcoder hxa hwa
  obtain ⟨hb₁, hb₂⟩ := pair_submitted hcoder hxb₀ hwb₀
  obtain ⟨hb₃, hb₄⟩ := pair_submitted hcoder hxb₁ hwb₁
  obtain ⟨hc₁, hc₂⟩ := pair_submitted hcoder hxc hwc
  obtain ⟨hone, hzero⟩ := toBigInt_one
  refine ⟨rfl, hsignals, ⟨?_, ?_, ?_⟩⟩
  · simp only [buildSnarkProof, List.map_cons, List.map_nil, ha₁, ha₂, hone]
  · simp only [buildSnarkProof, List.map_cons, List.map_nil, hb₁, hb₂, hb₃, hb₄, hone, hzero]
  · simp only [buildSnarkProof, List.map_cons, List.map_nil, hc₁, hc₂, hone]

/-! ### Agreement -/

/-- **The proof that was checked is the proof that is submitted.** For every submission that passes the checks, the fifteen words that the contract packs are the fifteen numbers of the positional array, at the same places; the points and the tier are those that were verified; and nothing but its points can keep an order from being submitted. -/
theorem signals_agree (hcoder : coder.Lawful) {relayerAddress : String} {nowSeconds : ℕ}
    (hvalid : body.validateAuthorizeOrder relayerAddress nowSeconds = .ok ()) :
    ∃ signals, body.publicSignalsArray = some signals ∧ signals.length = 15 ∧
      (∀ ap, coder.submitted body = .ok ap →
        (SettleVerifyLib.packAuthSignals ap).map (fun n : ℕ => Except.ok (n : ℤ)) = signals.map toBigInt ∧
        ∀ verified, body.verified = .ok verified →
          verified.1 = ap.tier.toNat ∧ verified.2.1 = signals ∧ verified.2.2.Reads ap.proof) ∧
      ((∃ ap, coder.submitted body = .ok ap) ↔ ∃ proof, coder.submittedProof body = .ok proof) := by
  have haccepted := AuthorizeOrderBody.validateAuthorizeOrder_ok hvalid
  refine ⟨_, haccepted.array, rfl, fun ap hap => ?_, ?_⟩
  · rw [haccepted.submitted hcoder] at hap
    cases hproof : coder.submittedProof body with
    | error e =>
      rw [hproof] at hap
      cases hap
    | ok proof =>
      rw [hproof] at hap
      obtain rfl := Except.ok.inj hap
      refine ⟨haccepted.packAuthSignals proof, fun verified hverified => ?_⟩
      obtain ⟨tier, signals, snark⟩ := verified
      obtain ⟨htier, hsignals, hreads⟩ := submittedProof_reads hcoder hproof hverified
      refine ⟨?_, Option.some.inj (hsignals.symm.trans haccepted.array), hreads⟩
      have hmem := haccepted.tier
      rw [← htier] at hmem
      change tier = (BitVec.ofNat 8 (body.tier.getD 16)).toNat
      rw [← htier, BitVec.toNat_ofNat]
      simp only [ALLOWED_TIERS, List.mem_cons, List.not_mem_nil, or_false] at hmem
      omega
  · rw [haccepted.submitted hcoder]
    cases coder.submittedProof body <;> simp [Except.map]

/-- The digits behind `0x`, when there are as many as the type has. -/
def hexLiteral (width : ℕ) (s : String) : Except String ℕ :=
  match s.toList with
  | '0' :: 'x' :: digits => orError ((readDigits 16 digits).filter fun _ => digits.length = width) "invalid hex"
  | _ => .error "invalid hex"

def smallCoder : AbiCoder where
  bytes32 := hexLiteral 64
  address s := (hexLiteral 40 s).map (BitVec.ofNat 160)
  uint width v := if 0 ≤ v ∧ v < 2 ^ width then .ok (BitVec.ofNat width v.toNat) else .error "value out-of-bounds"

theorem hexLiteral_ofList {width n : ℕ} {digits : List Char} (hlength : digits.length = width)
    (hread : readDigits 16 digits = some n) : hexLiteral width ("0x" ++ String.ofList digits) = .ok n := by
  rw [hexLiteral, String.toList_append, String.toList_ofList, String.toList_ofList]
  simp [hread, hlength]

theorem smallCoder_lawful : smallCoder.Lawful where
  bytes32 _ _ := hexLiteral_ofList
  address digits n hlength hread := by
    change (hexLiteral 40 ("0x" ++ String.ofList digits)).map (BitVec.ofNat 160) = _
    rw [hexLiteral_ofList hlength hread]
    rfl
  uint {width v w} := by
    change (if 0 ≤ v ∧ v < 2 ^ width then Except.ok (BitVec.ofNat width v.toNat) else .error "value out-of-bounds") = .ok w ↔ _
    constructor
    · intro hw
      split at hw
      · next hv =>
        obtain rfl := Except.ok.inj hw
        have hlt : v.toNat < 2 ^ width := by
          rw [Int.toNat_lt hv.1]
          exact_mod_cast hv.2
        rw [BitVec.toNat_ofNat, Nat.mod_eq_of_lt hlt, Int.toNat_of_nonneg hv.1]
      · cases hw
    · rintro rfl
      rw [if_pos ⟨Int.natCast_nonneg _, by exact_mod_cast w.isLt⟩, Int.toNat_natCast, BitVec.ofNat_toNat, BitVec.setWidth_eq]

/-- An order whose nullifier is written in hexadecimal, and whose claims root has white space around it. -/
def spelledOrder : AuthorizeOrderBody where
  proof := ⟨some ("1", "2"), some (("3", "4"), "5", "6"), some ("7", "8")⟩
  publicSignals
    | .pubKeyBind => some "1"
    | .commitmentRoot => some "5"
    | .nullifier => some "0x15"
    | .nonceNullifier => some "22"
    | .newCommitment => some "0"
    | .sellToken => some "13"
    | .buyToken => some "14"
    | .sellAmount => some "100"
    | .buyAmount => some "90"
    | .maxFee => some "30"
    | .expiry => some "2000"
    | .claimsRoot => some " 77 "
    | .totalLocked => some "80"
    | .relayer => some "33"
    | .orderHash => some "9"
  publicSignalsArray := some ["1", "5", "0x15", "22", "0", "13", "14", "100", "90", "30", "2000", " 77 ", "80", "33", "9"]
  tier := some 64

theorem signals_agree_spelledOrder : ∃ ap, smallCoder.submitted spelledOrder = .ok ap ∧
    (SettleVerifyLib.packAuthSignals ap).map (fun n : ℕ => Except.ok (n : ℤ)) =
      ["1", "5", "0x15", "22", "0", "13", "14", "100", "90", "30", "2000", " 77 ", "80", "33", "9"].map toBigInt := by
  obtain ⟨signals, hsignals, -, hagree, hsubmitted⟩ := signals_agree smallCoder_lawful
    (by decide +kernel : spelledOrder.validateAuthorizeOrder "0x0000000000000000000000000000000000000021" 1000 = .ok ())
  obtain ⟨ap, hap⟩ := hsubmitted.mpr (exists_of_isOk (by decide +kernel))
  obtain rfl := Option.some.inj hsignals
  exact ⟨ap, hap, (hagree ap hap).1⟩

end Relayer

end ScatterDex
