import ScatterDex.Contract.BatchAuthorizeVerifier
import ScatterDex.Protocol.Run

/-!
# The batch verifier against single verification

The batch verifier computes the batched equation of the proofs it decodes. It therefore accepts two valid proofs whatever the digest, and two proofs that are not both valid under one challenge at most.
-/

namespace ScatterDex

open Bn254

variable {G₁ G₂ G : Type} [AddCommGroup G₁] [Module Scalar G₁] [AddCommGroup G₂] [Module Scalar G₂]
  [AddCommGroup G] [Module Scalar G]

/-- Public inputs in the field. -/
abbrev publicInputs (pub : List ℕ) : List Scalar := pub.map Nat.cast

namespace Curve

variable (K : Curve G₁ G₂ G)

/-- The key a contract carries stands for a key over the group. -/
structure DecodesKey (vk : EncodedKey) (key : Groth16.VerifyingKey G₁ G₂) : Prop where
  alpha : K.point vk.alpha = some key.alpha
  beta : K.twistPoint vk.beta = some key.beta
  gamma : K.twistPoint vk.gamma = some key.gamma
  delta : K.twistPoint vk.delta = some key.delta
  constant : K.point vk.constant = some key.constant
  ic : List.Forall₂ (fun p g => K.point p = some g) vk.ic key.ic

structure DecodesProof (π : Groth16Proof) (proof : Groth16.Proof G₁ G₂) : Prop where
  a : K.point π.proofA = some proof.a
  b : K.twistPoint π.proofB = some proof.b
  c : K.point π.proofC = some proof.c

/-- Single verification: the signals are field elements, the points are points, and the equation holds. -/
def Accepts (key : Groth16.VerifyingKey G₁ G₂) (π : Groth16Proof) (pub : List ℕ) : Prop :=
  (∀ s ∈ pub, s < modulus) ∧
    ∃ proof, K.DecodesProof π proof ∧ Groth16.Valid K.pairing key proof (publicInputs pub)

variable {K} {vk : EncodedKey} {key : Groth16.VerifyingKey G₁ G₂}

/-! ### The precompiles on points -/

theorem ecMul_of_point {p : ℕ × ℕ} {g : G₁} (hg : K.point p = some g) (s : ℕ) :
    K.ecMul p s = some (K.coordinates ((s : Scalar) • g)) := by
  simp [ecMul, hg]

theorem ecAdd_of_point {p p' : ℕ × ℕ} {g g' : G₁} (hg : K.point p = some g) (hg' : K.point p' = some g') :
    K.ecAdd p p' = some (K.coordinates (g + g')) := by
  simp [ecAdd, hg, hg']

theorem point_of_ecMul {p c : ℕ × ℕ} {s : ℕ} (hmul : K.ecMul p s = some c) : ∃ g, K.point p = some g := by
  simp only [ecMul, Option.bind_eq_bind, Option.bind_eq_some_iff] at hmul
  obtain ⟨g, hg, -⟩ := hmul
  exact ⟨g, hg⟩

theorem point_of_ecAdd {p p' c : ℕ × ℕ} (hadd : K.ecAdd p p' = some c) : ∃ g, K.point p = some g := by
  simp only [ecAdd, Option.bind_eq_bind, Option.bind_eq_some_iff] at hadd
  obtain ⟨g, hg, -⟩ := hadd
  exact ⟨g, hg⟩

theorem negateOrdinate_eq {y : ℕ} (hy : y < baseModulus) : negateOrdinate y = (baseModulus - y) % baseModulus := by
  have hwords : baseModulus < 2 ^ 256 := by decide
  rw [negateOrdinate, show baseModulus + 2 ^ 256 - y = (baseModulus - y) + 2 ^ 256 by omega, Nat.add_mod_right,
    Nat.mod_eq_of_lt (by omega : baseModulus - y < 2 ^ 256)]

theorem negateOrdinate_lt (y : ℕ) : negateOrdinate y < baseModulus := Nat.mod_lt _ (by decide)

theorem negateOrdinate_negateOrdinate {y : ℕ} (hy : y < baseModulus) : negateOrdinate (negateOrdinate y) = y := by
  rw [negateOrdinate_eq (negateOrdinate_lt y), negateOrdinate_eq hy]
  rcases Nat.eq_zero_or_pos y with rfl | hpos
  · decide
  · rw [Nat.mod_eq_of_lt (by omega : baseModulus - y < baseModulus), Nat.sub_sub_self hy.le, Nat.mod_eq_of_lt hy]

theorem point_negate {p : ℕ × ℕ} {g : G₁} (hg : K.point p = some g) :
    K.point (p.1, negateOrdinate p.2) = some (-g) := by
  rw [negateOrdinate_eq (K.point_lt p g hg).2]
  exact K.point_neg p g hg

theorem point_of_negate {p : ℕ × ℕ} {h : G₁} (hp : p.2 < baseModulus)
    (hh : K.point (p.1, negateOrdinate p.2) = some h) : K.point p = some (-h) := by
  have hback := point_negate hh
  rwa [negateOrdinate_negateOrdinate hp] at hback

/-- Accumulating the weighted points of the key; the induction is on the points, with the sum so far in `acc`. -/
theorem accumulate_spec {ics : List (ℕ × ℕ)} {points : List G₁}
    (hics : List.Forall₂ (fun p g => K.point p = some g) ics points) (pub : List ℕ) {acc : ℕ × ℕ} {g : G₁}
    (hacc : K.point acc = some g) :
    ∃ c, (pub.zip ics).foldlM (fun acc (s, p) => K.g1MulAccC acc p s) acc = some c ∧
      K.point c = some (g + (List.zipWith (fun (x : Scalar) point => x • point) (publicInputs pub) points).sum) := by
  induction hics generalizing pub acc g with
  | nil => exact ⟨acc, by simp, by simpa using hacc⟩
  | @cons p point ics points hp _ ih =>
    cases pub with
    | nil => exact ⟨acc, by simp, by simpa using hacc⟩
    | cons s pub =>
      have hstep : K.g1MulAccC acc p s = some (K.coordinates ((s : Scalar) • point + g)) := by
        simp [g1MulAccC, ecMul_of_point hp s, ecAdd_of_point (K.point_coordinates _) hacc]
      obtain ⟨c, hc, hpoint⟩ := ih pub (K.point_coordinates ((s : Scalar) • point + g))
      refine ⟨c, ?_, ?_⟩
      · rw [List.zip_cons_cons, List.foldlM_cons]
        dsimp only
        rw [hstep]
        exact hc
      · simp only [hpoint, publicInputs, List.map_cons, List.zipWith_cons_cons, List.sum_cons]
        rw [add_comm ((s : Scalar) • point) g, add_assoc]

/-- The weighted sum of public signals is the one of the library. -/
theorem publicPoint_spec (hkey : K.DecodesKey vk key) (pub : List ℕ) :
    ∃ c, K.publicPoint vk pub = some c ∧ K.point c = some (key.combine (publicInputs pub)) :=
  accumulate_spec hkey.ic pub hkey.constant

theorem points_of_pairings {p : ℕ × ℕ} {t : TwistCoordinates} {pairs : List ((ℕ × ℕ) × TwistCoordinates)} {sum : G}
    (hsum : K.pairings ((p, t) :: pairs) = some sum) :
    (∃ g, K.point p = some g) ∧ (∃ h, K.twistPoint t = some h) ∧ ∃ rest, K.pairings pairs = some rest := by
  simp only [pairings, Option.bind_eq_bind, Option.bind_eq_some_iff] at hsum
  obtain ⟨g, hg, h, hh, rest, hrest, -⟩ := hsum
  exact ⟨⟨g, hg⟩, ⟨h, hh⟩, rest, hrest⟩

theorem DecodesProof.unique {π : Groth16Proof} {proof proof' : Groth16.Proof G₁ G₂} (h : K.DecodesProof π proof)
    (h' : K.DecodesProof π proof') : proof = proof' := by
  obtain ⟨a, b, c⟩ := proof
  obtain ⟨a', b', c'⟩ := proof'
  have ha : a = a' := Option.some.inj (h.a.symm.trans h'.a)
  have hb : b = b' := Option.some.inj (h.b.symm.trans h'.b)
  have hc : c = c' := Option.some.inj (h.c.symm.trans h'.c)
  rw [ha, hb, hc]

/-! ### The check -/

variable [DecidableEq G] {digest : ℕ} {π₁ π₂ : Groth16Proof} {pub₁ pub₂ : List ℕ}

theorem batchCheck_of_proofs (hkey : K.DecodesKey vk key) {proof₁ proof₂ : Groth16.Proof G₁ G₂}
    (h₁ : K.DecodesProof π₁ proof₁) (h₂ : K.DecodesProof π₂ proof₂) (hpub₁ : ∀ s ∈ pub₁, s < modulus)
    (hpub₂ : ∀ s ∈ pub₂, s < modulus) :
    K.batchCheck vk digest π₁ pub₁ π₂ pub₂ = some (decide (Groth16.batched K.pairing key (batchChallenge digest : Scalar)
      proof₁ proof₂ (publicInputs pub₁) (publicInputs pub₂) = 0)) := by
  obtain ⟨l₁, hl₁, hpoint₁⟩ := publicPoint_spec hkey pub₁
  obtain ⟨l₂, hl₂, hpoint₂⟩ := publicPoint_spec hkey pub₂
  have hrange : π₁.proofA.2 < baseModulus := (K.point_lt _ _ h₁.a).2
  have hchallenge : ((1 + batchChallenge digest) % modulus : ℕ) = (1 + (batchChallenge digest : Scalar) : Scalar) := by
    rw [ZMod.natCast_mod, Nat.cast_add, Nat.cast_one]
  have hpass : ∀ {condition : Prop} [Decidable condition], condition → (guard condition : Option Unit) = some () :=
    fun hcondition => if_pos hcondition
  rw [batchCheck]
  simp only [hpass hpub₁, hpass hpub₂, hpass hrange, hl₁, hl₂, ecMul_of_point hpoint₂,
    ecAdd_of_point hpoint₁ (K.point_coordinates _), ecMul_of_point h₂.c, ecAdd_of_point h₁.c (K.point_coordinates _),
    ecMul_of_point h₂.a, ecMul_of_point hkey.alpha, hchallenge, Option.bind_eq_bind, Option.bind_some]
  simp only [ecPairing, pairings, point_negate h₁.a, point_negate (K.point_coordinates _), K.point_coordinates, h₁.b, h₂.b,
    hkey.beta, hkey.gamma, hkey.delta, Option.bind_eq_bind, Option.bind_some, Option.pure_def, add_zero,
    Groth16.batched, add_assoc]

theorem proofs_of_batchCheck (hcheck : K.batchCheck vk digest π₁ pub₁ π₂ pub₂ = some true) :
    ((∀ s ∈ pub₁, s < modulus) ∧ ∀ s ∈ pub₂, s < modulus) ∧
      ∃ proof₁ proof₂, K.DecodesProof π₁ proof₁ ∧ K.DecodesProof π₂ proof₂ := by
  simp only [batchCheck, Option.bind_eq_bind, Option.bind_eq_some_iff, Option.guard_eq_some', ecPairing] at hcheck
  obtain ⟨-, hpub₁, -, hpub₂, -, hrange, l₁, -, l₂, -, rL₂, -, lCombined, -, rC₂, hrC₂, cCombined, hcCombined, rA₂, hrA₂,
    alphaCombined, -, sum, hsum, -⟩ := hcheck
  obtain ⟨⟨a₁, ha₁⟩, ⟨b₁, hb₁⟩, rest, hrest⟩ := points_of_pairings hsum
  obtain ⟨-, ⟨b₂, hb₂⟩, -⟩ := points_of_pairings hrest
  obtain ⟨a₂, ha₂⟩ := point_of_ecMul hrA₂
  obtain ⟨c₁, hc₁⟩ := point_of_ecAdd hcCombined
  obtain ⟨c₂, hc₂⟩ := point_of_ecMul hrC₂
  exact ⟨⟨hpub₁, hpub₂⟩, ⟨-a₁, b₁, c₁⟩, ⟨a₂, b₂, c₂⟩, ⟨point_of_negate hrange ha₁, hb₁, hc₁⟩, ⟨ha₂, hb₂, hc₂⟩⟩

/-- **What the batch verifier accepts**: field elements for signals, points for proofs, and the batched equation. -/
theorem doBatchVerify_iff (hkey : K.DecodesKey vk key) :
    K.doBatchVerify vk digest π₁ pub₁ π₂ pub₂ = true ↔
      ((∀ s ∈ pub₁, s < modulus) ∧ ∀ s ∈ pub₂, s < modulus) ∧
      ∃ proof₁ proof₂, K.DecodesProof π₁ proof₁ ∧ K.DecodesProof π₂ proof₂ ∧
        Groth16.batched K.pairing key (batchChallenge digest : Scalar) proof₁ proof₂ (publicInputs pub₁)
          (publicInputs pub₂) = 0 := by
  have haccepts : K.doBatchVerify vk digest π₁ pub₁ π₂ pub₂ = true ↔
      K.batchCheck vk digest π₁ pub₁ π₂ pub₂ = some true := by
    rw [doBatchVerify]
    cases K.batchCheck vk digest π₁ pub₁ π₂ pub₂ <;> simp
  rw [haccepts]
  constructor
  · intro hcheck
    obtain ⟨⟨hpub₁, hpub₂⟩, proof₁, proof₂, h₁, h₂⟩ := proofs_of_batchCheck hcheck
    rw [batchCheck_of_proofs hkey h₁ h₂ hpub₁ hpub₂, Option.some.injEq, decide_eq_true_eq] at hcheck
    exact ⟨⟨hpub₁, hpub₂⟩, proof₁, proof₂, h₁, h₂, hcheck⟩
  · rintro ⟨⟨hpub₁, hpub₂⟩, proof₁, proof₂, h₁, h₂, hzero⟩
    rw [batchCheck_of_proofs hkey h₁ h₂ hpub₁ hpub₂, hzero, decide_eq_true rfl]

/-! ### Refinement -/

theorem batchChallenge_spec : (∀ digest, 0 < batchChallenge digest ∧ batchChallenge digest < modulus) ∧
    ∀ r, 0 < r → r < modulus → batchChallenge r = r := by
  constructor
  · intro digest
    rw [batchChallenge]
    split
    · decide
    · exact ⟨by omega, Nat.mod_lt _ (by decide)⟩
  · intro r hpos hlt
    rw [batchChallenge, Nat.mod_eq_of_lt hlt, if_neg hpos.ne']

theorem doBatchVerify_of_accepts (hkey : K.DecodesKey vk key) (h₁ : K.Accepts key π₁ pub₁) (h₂ : K.Accepts key π₂ pub₂)
    (digest : ℕ) : K.doBatchVerify vk digest π₁ pub₁ π₂ pub₂ = true := by
  obtain ⟨hpub₁, proof₁, hproof₁, hvalid₁⟩ := h₁
  obtain ⟨hpub₂, proof₂, hproof₂, hvalid₂⟩ := h₂
  exact (doBatchVerify_iff hkey).mpr
    ⟨⟨hpub₁, hpub₂⟩, proof₁, proof₂, hproof₁, hproof₂, Groth16.batched_of_valid hvalid₁ hvalid₂⟩

/-- Proofs that single verification does not both accept pass under one challenge at most. -/
theorem batchChallenge_unique (hkey : K.DecodesKey vk key)
    (hrefused : ¬(K.Accepts key π₁ pub₁ ∧ K.Accepts key π₂ pub₂)) {digest' : ℕ}
    (hverify : K.doBatchVerify vk digest π₁ pub₁ π₂ pub₂ = true)
    (hverify' : K.doBatchVerify vk digest' π₁ pub₁ π₂ pub₂ = true) : batchChallenge digest = batchChallenge digest' := by
  obtain ⟨⟨hpub₁, hpub₂⟩, proof₁, proof₂, h₁, h₂, hzero⟩ := (doBatchVerify_iff hkey).mp hverify
  obtain ⟨-, proof₁', proof₂', h₁', h₂', hzero'⟩ := (doBatchVerify_iff hkey).mp hverify'
  rw [h₁'.unique h₁, h₂'.unique h₂] at hzero'
  have hnot : ¬(Groth16.Valid K.pairing key proof₁ (publicInputs pub₁) ∧
      Groth16.Valid K.pairing key proof₂ (publicInputs pub₂)) :=
    fun ⟨hvalid₁, hvalid₂⟩ => hrefused ⟨⟨hpub₁, proof₁, h₁, hvalid₁⟩, hpub₂, proof₂, h₂, hvalid₂⟩
  have hsame := Groth16.challenge_unique hnot hzero hzero'
  rw [← ZMod.val_natCast_of_lt (batchChallenge_spec.1 digest).2, hsame,
    ZMod.val_natCast_of_lt (batchChallenge_spec.1 digest').2]

omit [DecidableEq G] in
theorem Accepts.ranges {π : Groth16Proof} {pub : List ℕ} (haccepts : K.Accepts key π pub) :
    (∀ s ∈ pub, s < modulus) ∧ π.proofA.2 < baseModulus := by
  obtain ⟨hpub, proof, hproof, -⟩ := haccepts
  exact ⟨hpub, (K.point_lt _ _ hproof.a).2⟩

theorem doBatchVerify_ranges (hkey : K.DecodesKey vk key) (hverify : K.doBatchVerify vk digest π₁ pub₁ π₂ pub₂ = true) :
    ((∀ s ∈ pub₁, s < modulus) ∧ π₁.proofA.2 < baseModulus) ∧ (∀ s ∈ pub₂, s < modulus) ∧ π₂.proofA.2 < baseModulus := by
  obtain ⟨⟨hpub₁, hpub₂⟩, proof₁, proof₂, h₁, h₂, -⟩ := (doBatchVerify_iff hkey).mp hverify
  exact ⟨⟨hpub₁, (K.point_lt _ _ h₁.a).2⟩, hpub₂, (K.point_lt _ _ h₂.a).2⟩

/-- How the batch verifier answers for two proofs, against single verification of each. -/
structure BatchRefines (K : Curve G₁ G₂ G) (vk : EncodedKey) (key : Groth16.VerifyingKey G₁ G₂) (π₁ : Groth16Proof)
    (pub₁ : List ℕ) (π₂ : Groth16Proof) (pub₂ : List ℕ) : Prop where
  complete : K.Accepts key π₁ pub₁ → K.Accepts key π₂ pub₂ → ∀ digest, K.doBatchVerify vk digest π₁ pub₁ π₂ pub₂ = true
  sound : ¬(K.Accepts key π₁ pub₁ ∧ K.Accepts key π₂ pub₂) → ∀ digest digest',
    K.doBatchVerify vk digest π₁ pub₁ π₂ pub₂ = true → K.doBatchVerify vk digest' π₁ pub₁ π₂ pub₂ = true →
    batchChallenge digest = batchChallenge digest'
  range₁ : (∃ s ∈ pub₁, modulus ≤ s) ∨ baseModulus ≤ π₁.proofA.2 →
    ¬K.Accepts key π₁ pub₁ ∧ ∀ digest, K.doBatchVerify vk digest π₁ pub₁ π₂ pub₂ = false
  range₂ : (∃ s ∈ pub₂, modulus ≤ s) ∨ baseModulus ≤ π₂.proofA.2 →
    ¬K.Accepts key π₂ pub₂ ∧ ∀ digest, K.doBatchVerify vk digest π₁ pub₁ π₂ pub₂ = false

end Curve

/-! ### The verification step of a settlement -/

namespace PrivateSettlement

variable [DecidableEq G]

/-- The same world without batch verifiers: each side is verified on its own. -/
def unbatched (w : World) : World := { w with settlement := { w.settlement with batchAuthorizeVerifierByTier := fun _ => 0 } }

/-- Both sides are of one tier, whose batch verifier is one, and whose verifier verifies for the same key. -/
structure Batched (K : Curve G₁ G₂ G) (vk : EncodedKey) (key : Groth16.VerifyingKey G₁ G₂) (keccak256 : List ℕ → ℕ) (chainid : ℕ)
    (env : Env) (w : World) (p : SettleAuthParams) (verifier : Address) : Prop where
  tier : p.maker.tier = p.taker.tier
  configured : w.settlement.batchAuthorizeVerifierByTier p.maker.tier ≠ 0
  batch : ∀ π₁ pub₁ π₂ pub₂, env.verifyBatchProof (w.settlement.batchAuthorizeVerifierByTier p.maker.tier) π₁ pub₁ π₂ pub₂ =
    K.verifyBatchProof vk keccak256 (w.settlement.batchAuthorizeVerifierByTier p.maker.tier) chainid π₁ pub₁ π₂ pub₂
  single : ∀ side ∈ [p.maker, p.taker], env.verifyProof verifier side.proof (SettleVerifyLib.packAuthSignals side) = true ↔
    K.Accepts key side.proof (SettleVerifyLib.packAuthSignals side)

/-- The step with the batch verifier lets through what the step without it does, and anything else under one challenge at most. -/
structure StepRefines (K : Curve G₁ G₂ G) (vk : EncodedKey) (env : Env) (w : World) (p : SettleAuthParams) (verifier : Address) : Prop where
  complete : verifySides env (unbatched w) p verifier verifier = .ok () → verifySides env w p verifier verifier = .ok ()
  sound : verifySides env w p verifier verifier = .ok () → verifySides env (unbatched w) p verifier verifier = .ok () ∨
    ∃ challenge, ∀ digest, K.doBatchVerify vk digest p.maker.proof (SettleVerifyLib.packAuthSignals p.maker) p.taker.proof
      (SettleVerifyLib.packAuthSignals p.taker) = true → batchChallenge digest = challenge

variable {K : Curve G₁ G₂ G} {vk : EncodedKey} {key : Groth16.VerifyingKey G₁ G₂} {keccak256 : List ℕ → ℕ} {chainid : ℕ} {env : Env}
  {w : World} {p : SettleAuthParams} {verifier : Address}

theorem verifySides_unbatched : verifySides env (unbatched w) p verifier verifier = .ok () ↔
    ∀ side ∈ [p.maker, p.taker], env.verifyProof verifier side.proof (SettleVerifyLib.packAuthSignals side) = true := by
  simp only [verifySides, unbatched, ite_self, ne_eq, not_true_eq_false, if_false, Fallible.bind_eq_ok, Fallible.require_eq_ok,
    exists_const, List.forall_mem_cons, List.not_mem_nil, false_imp_iff, implies_true, and_true]

theorem verifySides_batched (hbatched : Batched K vk key keccak256 chainid env w p verifier) :
    verifySides env w p verifier verifier = .ok () ↔
      K.verifyBatchProof vk keccak256 (w.settlement.batchAuthorizeVerifierByTier p.maker.tier) chainid p.maker.proof
        (SettleVerifyLib.packAuthSignals p.maker) p.taker.proof (SettleVerifyLib.packAuthSignals p.taker) = true := by
  simp only [verifySides, if_pos hbatched.tier, if_pos hbatched.configured, Fallible.require_eq_ok, hbatched.batch]

theorem stepRefines (hkey : K.DecodesKey vk key) (hbatched : Batched K vk key keccak256 chainid env w p verifier) :
    StepRefines K vk env w p verifier := by
  have hsingle : verifySides env (unbatched w) p verifier verifier = .ok () ↔
      K.Accepts key p.maker.proof (SettleVerifyLib.packAuthSignals p.maker) ∧
        K.Accepts key p.taker.proof (SettleVerifyLib.packAuthSignals p.taker) := by
    have hsides := hbatched.single
    simp only [List.forall_mem_cons, List.not_mem_nil, false_imp_iff, implies_true, and_true] at hsides
    rw [verifySides_unbatched, List.forall_mem_cons, List.forall_mem_singleton, hsides.1, hsides.2]
  constructor
  · rw [hsingle, verifySides_batched hbatched]
    exact fun ⟨hmaker, htaker⟩ => Curve.doBatchVerify_of_accepts hkey hmaker htaker _
  · rw [hsingle, verifySides_batched hbatched]
    intro hverify
    by_cases haccepts : K.Accepts key p.maker.proof (SettleVerifyLib.packAuthSignals p.maker) ∧
        K.Accepts key p.taker.proof (SettleVerifyLib.packAuthSignals p.taker)
    · exact Or.inl haccepts
    · exact Or.inr ⟨_, fun digest hdigest => Curve.batchChallenge_unique hkey haccepts hdigest hverify⟩

end PrivateSettlement

namespace Curve

variable [DecidableEq G] {K : Curve G₁ G₂ G} {vk : EncodedKey} {key : Groth16.VerifyingKey G₁ G₂}

/-- **Batch verification refines single verification.** The challenges are the nonzero field elements. Two proofs that single verification accepts pass under each of them; of two that it does not both accept, at most one challenge lets them pass; and a signal outside the field or an ordinate outside the base field is refused by the batch verifier as by single verification of that side. So it is with the verification step of a settlement, with and without its batch verifier. -/
theorem batch_refines (hkey : K.DecodesKey vk key) :
    ((∀ digest, 0 < batchChallenge digest ∧ batchChallenge digest < modulus) ∧
      ∀ r, 0 < r → r < modulus → batchChallenge r = r) ∧
    (∀ π₁ pub₁ π₂ pub₂, K.BatchRefines vk key π₁ pub₁ π₂ pub₂) ∧
    ∀ keccak256 chainid env w p verifier, PrivateSettlement.Batched K vk key keccak256 chainid env w p verifier →
      PrivateSettlement.StepRefines K vk env w p verifier := by
  refine ⟨batchChallenge_spec, fun π₁ pub₁ π₂ pub₂ => ?_, fun _ _ _ _ _ _ => PrivateSettlement.stepRefines hkey⟩
  have hrefuse : ∀ (π : Groth16Proof) (pub : List ℕ), (∃ s ∈ pub, modulus ≤ s) ∨ baseModulus ≤ π.proofA.2 →
      ¬((∀ s ∈ pub, s < modulus) ∧ π.proofA.2 < baseModulus) := by
    rintro π pub (⟨s, hs, hle⟩ | hle) ⟨hpub, hordinate⟩
    · exact absurd (hpub s hs) (not_lt.mpr hle)
    · exact absurd hordinate (not_lt.mpr hle)
  refine ⟨doBatchVerify_of_accepts hkey, fun hrefused digest digest' => batchChallenge_unique hkey hrefused,
    fun hrange => ⟨fun haccepts => hrefuse _ _ hrange haccepts.ranges, fun digest => ?_⟩,
    fun hrange => ⟨fun haccepts => hrefuse _ _ hrange haccepts.ranges, fun digest => ?_⟩⟩
  · exact Bool.eq_false_iff.mpr fun hverify => hrefuse _ _ hrange (doBatchVerify_ranges hkey hverify).1
  · exact Bool.eq_false_iff.mpr fun hverify => hrefuse _ _ hrange (doBatchVerify_ranges hkey hverify).2

end Curve

/-! ### A group to run it on -/

/-- The scalars as a group on a line: a small ordinate stands for itself, one close to the base modulus for a negative. -/
def linePoint (p : ℕ × ℕ) : Option Scalar :=
  if p.1 ≠ 0 then none
  else if p.2 ≤ (modulus - 1) / 2 then some (p.2 : Scalar)
  else if baseModulus ≤ p.2 + (modulus - 1) / 2 ∧ p.2 < baseModulus then some (-((baseModulus - p.2 : ℕ) : Scalar))
  else none

def lineCoordinates (g : Scalar) : ℕ × ℕ :=
  if g.val ≤ (modulus - 1) / 2 then (0, g.val) else (0, baseModulus - (modulus - g.val))

def lineTwist (t : TwistCoordinates) : Option Scalar :=
  if t.1.2 = 0 ∧ t.2 = (0, 0) ∧ t.1.1 < modulus then some (t.1.1 : Scalar) else none

theorem linePoint_small {z : ℕ} (hz : z ≤ (modulus - 1) / 2) : linePoint (0, z) = some (z : Scalar) := by
  rw [linePoint, if_neg (not_not.mpr rfl), if_pos hz]

theorem linePoint_large {z : ℕ} (hpos : 0 < z) (hz : z ≤ (modulus - 1) / 2) :
    linePoint (0, baseModulus - z) = some (-(z : Scalar)) := by
  have hmodulus : 2 * ((modulus - 1) / 2) < baseModulus := by decide
  rw [linePoint, if_neg (not_not.mpr rfl), if_neg (by dsimp only; omega), if_pos (by dsimp only; omega),
    Nat.sub_sub_self (by omega)]

theorem linePoint_cases {p : ℕ × ℕ} {g : Scalar} (hg : linePoint p = some g) :
    ∃ z ≤ (modulus - 1) / 2, p = (0, z) ∧ g = z ∨ 0 < z ∧ p = (0, baseModulus - z) ∧ g = -(z : Scalar) := by
  obtain ⟨x, y⟩ := p
  rw [linePoint] at hg
  split at hg
  · cases hg
  · rename_i hx
    obtain rfl : x = 0 := not_not.mp hx
    split at hg
    · rename_i hy
      exact ⟨y, hy, Or.inl ⟨rfl, (Option.some.inj hg).symm⟩⟩
    · split at hg
      · rename_i hy
        refine ⟨baseModulus - y, by omega, Or.inr ⟨by omega, ?_, (Option.some.inj hg).symm⟩⟩
        rw [Nat.sub_sub_self hy.2.le]
      · cases hg

theorem linePoint_lineCoordinates (g : Scalar) : linePoint (lineCoordinates g) = some g := by
  have hlt : g.val < modulus := ZMod.val_lt g
  have hodd : modulus = 2 * ((modulus - 1) / 2) + 1 := by decide
  rw [lineCoordinates]
  split
  · rename_i hsmall
    rw [linePoint_small hsmall, ZMod.natCast_zmod_val]
  · rw [linePoint_large (by omega) (by omega), Nat.cast_sub hlt.le, ZMod.natCast_self, ZMod.natCast_zmod_val, zero_sub,
      neg_neg]

theorem linePoint_lt (p : ℕ × ℕ) (g : Scalar) (hg : linePoint p = some g) : p.1 < baseModulus ∧ p.2 < baseModulus := by
  have hmodulus : (modulus - 1) / 2 < baseModulus := by decide
  obtain ⟨z, hz, ⟨rfl, -⟩ | ⟨hpos, rfl, -⟩⟩ := linePoint_cases hg
  · exact ⟨(by decide : 0 < baseModulus), by dsimp only; omega⟩
  · exact ⟨(by decide : 0 < baseModulus), by dsimp only; omega⟩

theorem linePoint_neg (p : ℕ × ℕ) (g : Scalar) (hg : linePoint p = some g) :
    linePoint (p.1, (baseModulus - p.2) % baseModulus) = some (-g) := by
  have hmodulus : (modulus - 1) / 2 < baseModulus := by decide
  obtain ⟨z, hz, ⟨rfl, rfl⟩ | ⟨hpos, rfl, rfl⟩⟩ := linePoint_cases hg
  · rcases Nat.eq_zero_or_pos z with rfl | hpos
    · decide +kernel
    · dsimp only
      rw [Nat.mod_eq_of_lt (by omega : baseModulus - z < baseModulus), linePoint_large hpos hz]
  · dsimp only
    rw [Nat.sub_sub_self (by omega), Nat.mod_eq_of_lt (by omega : z < baseModulus), linePoint_small hz, neg_neg]

/-- Multiplication of scalars as a pairing. -/
def lineCurve : Curve Scalar Scalar Scalar where
  pairing := LinearMap.mul Scalar Scalar
  point := linePoint
  coordinates := lineCoordinates
  twistPoint := lineTwist
  point_coordinates := linePoint_lineCoordinates
  point_lt := linePoint_lt
  point_neg := linePoint_neg

/-- A key for some number of signals, all its points `1`. -/
def lineKey (signals : ℕ) : EncodedKey :=
  ⟨(0, 1), ((1, 0), 0, 0), ((1, 0), 0, 0), ((1, 0), 0, 0), (0, 1), List.replicate signals (0, 1)⟩

theorem lineKey_decodes (signals : ℕ) : lineCurve.DecodesKey (lineKey signals) ⟨1, 1, 1, 1, 1, List.replicate signals 1⟩ := by
  have hpoint : lineCurve.point (0, 1) = some 1 := by decide +kernel
  have htwist : lineCurve.twistPoint ((1, 0), 0, 0) = some 1 := by decide +kernel
  refine ⟨hpoint, htwist, htwist, htwist, hpoint, ?_⟩
  induction signals with
  | zero => exact .nil
  | succ signals ih => exact .cons hpoint ih

/-- A proof of the signal `3`: `6` times `1` is `1 + (1 + 3) + 1`. -/
def lineProof : Groth16Proof := ⟨(0, 6), ((1, 0), 0, 0), (0, 1)⟩

/-- A side whose signals are all zero, and a proof of them: `3` times `1` is `1 + 1 + 1`. -/
def lineSide : AuthorizeProof := ⟨⟨(0, 3), ((1, 0), 0, 0), (0, 1)⟩, 0, 0, 0, 0, 0, 0, 0, 0, 0, 0, 0, 0, 0, 0, 0, 16⟩

def lineEnv : Env := { Env.permissive 7 with
  verifyBatchProof := fun self => lineCurve.verifyBatchProof (lineKey 15) List.sum self 1 }

/-- A settlement with the batch verifier `4`. -/
def lineWorld : World :=
  let w := World.fresh (.small .zeroPair) 2 (Ledger.soleHolder 13 33 0)
  { w with settlement := { w.settlement with batchAuthorizeVerifierByTier := fun _ => 4 } }

theorem line_batched : PrivateSettlement.Batched lineCurve (lineKey 15) ⟨1, 1, 1, 1, 1, List.replicate 15 1⟩ List.sum 1 lineEnv lineWorld
    ⟨lineSide, lineSide, 0, 0⟩ 5 where
  tier := rfl
  configured := by decide
  batch _ _ _ _ := rfl
  single := by
    have haccepts : lineCurve.Accepts ⟨1, 1, 1, 1, 1, List.replicate 15 1⟩ lineSide.proof (SettleVerifyLib.packAuthSignals lineSide) :=
      ⟨by decide +kernel, ⟨3, 1, 1⟩, ⟨by decide +kernel, by decide +kernel, by decide +kernel⟩, by
        show _ = _
        decide +kernel⟩
    intro side hside
    obtain rfl : side = lineSide := by simpa using hside
    exact iff_of_true rfl haccepts

/-- Two proofs of `3` pass; given for `2` and `4` they miss by `-1` and `1`, which cancel under the challenge `1`, that of the digest `0` too. The verification step passes two sides of zeros. -/
theorem batch_refines_line :
    (lineCurve.doBatchVerify (lineKey 1) 7 lineProof [3] lineProof [3] = true ∧
      lineCurve.doBatchVerify (lineKey 1) 0 lineProof [2] lineProof [4] = true ∧
      lineCurve.doBatchVerify (lineKey 1) 7 lineProof [2] lineProof [4] = false) ∧
    ((∀ digest, 0 < batchChallenge digest ∧ batchChallenge digest < modulus) ∧
      ∀ r, 0 < r → r < modulus → batchChallenge r = r) ∧
    (∀ π₁ pub₁ π₂ pub₂, lineCurve.BatchRefines (lineKey 1) ⟨1, 1, 1, 1, 1, [1]⟩ π₁ pub₁ π₂ pub₂) ∧
    PrivateSettlement.verifySides lineEnv lineWorld ⟨lineSide, lineSide, 0, 0⟩ 5 5 = .ok () := by
  obtain ⟨hchallenge, hrefines, -⟩ := Curve.batch_refines (lineKey_decodes 1)
  obtain ⟨-, -, hstep⟩ := Curve.batch_refines (lineKey_decodes 15)
  exact ⟨by decide +kernel, hchallenge, hrefines, (hstep _ _ _ _ _ _ line_batched).complete rfl⟩

end ScatterDex
