import ScatterDex.Circuit.Claim
import ScatterDex.Protocol.MerkleAgreement
import ScatterDex.Protocol.UserProtection
import ScatterDex.Sdk.Claim

/-!
# The SDK's provers are complete

The SDK recomputes in TypeScript what the circuits constrain. An order that passes the checks of `generateAuthorizeProof` leads to a circuit input whose assignment satisfies the authorize circuit of its tier, and every claim of it leads to one that satisfies the claim circuit under the same root. Amounts are compared as numbers here and as field elements there; the bounds on an order are what makes the two agree.
-/

namespace ScatterDex

open Bn254 Fallible

namespace Sdk

variable (P : Poseidon)

/-! ### Circuit inputs as signals -/

/-- The input signals, with the output `pubKeyBind`. -/
def AuthorizeCircuitInput.inputs (ci : AuthorizeCircuitInput) : Circuit.AuthorizeSignals where
  pubKeyBind := P.hash [ci.pubKeyAx, ci.pubKeyAy, ci.nullifier]
  commitmentRoot := ci.commitmentRoot
  nullifier := ci.nullifier
  nonceNullifier := ci.nonceNullifier
  newCommitment := ci.newCommitment
  sellToken := ci.sellToken
  buyToken := ci.buyToken
  sellAmount := ci.sellAmount
  buyAmount := ci.buyAmount
  maxFee := ci.maxFee
  expiry := ci.expiry
  claimsRoot := ci.claimsRoot
  totalLocked := ci.totalLocked
  relayer := ci.relayer
  orderHash := ci.orderHash
  secret := ci.secret
  balance := ci.balance
  salt := ci.salt
  path := arraySignals ci.path
  pathIdx := arraySignals ci.pathIdx
  nonce := ci.nonce
  newSalt := ci.newSalt
  pubKeyAx := ci.pubKeyAx
  pubKeyAy := ci.pubKeyAy
  sigS := ci.sigS
  sigR8x := ci.sigR8x
  sigR8y := ci.sigR8y
  claimSecrets := arraySignals ci.claimSecrets
  claimRecipients := arraySignals ci.claimRecipients
  claimTokens := arraySignals ci.claimTokens
  claimAmounts := arraySignals ci.claimAmounts
  claimReleaseTimes := arraySignals ci.claimReleaseTimes
  claimCount := ci.claimCount
  newBalance := 0
  computedLeaves := fun _ => 0
  claimUsed := fun _ => 0
  amountAcc := fun _ => 0
  leaves := fun _ => 0
  lockedScaled := 0
  minReceiveScaled := 0

/-- The assignment circom computes from the circuit input. -/
def AuthorizeCircuitInput.witness (ci : AuthorizeCircuitInput) : Circuit.AuthorizeSignals := (ci.inputs P).assign P

/-- The arrays have the lengths the circuit of the tier declares. -/
structure AuthorizeCircuitInput.Shaped (ci : AuthorizeCircuitInput) (tier : CircuitTier) : Prop where
  path : ci.path.length = commitTreeDepth
  pathIdx : ci.pathIdx.length = commitTreeDepth
  claimSecrets : ci.claimSecrets.length = tier.cap
  claimRecipients : ci.claimRecipients.length = tier.cap
  claimTokens : ci.claimTokens.length = tier.cap
  claimAmounts : ci.claimAmounts.length = tier.cap
  claimReleaseTimes : ci.claimReleaseTimes.length = tier.cap

def ClaimCircuitInput.witness (ci : ClaimCircuitInput) : Circuit.ClaimSignals where
  claimsRoot := ci.claimsRoot
  nullifier := ci.nullifier
  amount := ci.amount
  token := ci.token
  recipient := ci.recipient
  releaseTime := ci.releaseTime
  secret := ci.secret
  leafIndex := ci.leafIndex
  pathElements := arraySignals ci.pathElements
  pathIndices := arraySignals ci.pathIndices

/-! ### What is asked of an order -/

/-- The bounds of an order: amounts within the circuit's widths, everything else a canonical field element. -/
structure AuthorizeProofInput.InRange (input : AuthorizeProofInput) : Prop where
  amount_lt : input.note.amount < 2 ^ 128
  claimAmount_lt : ∀ claim ∈ input.claims, claim.amount < 2 ^ 128
  claimSum_lt : (input.claims.map ClaimEntry.amount).sum < 2 ^ 128
  sellAmount_lt : input.sellAmount < 2 ^ 126
  buyAmount_lt : input.buyAmount < 2 ^ 126
  note_lt : ∀ x ∈ [input.note.ownerSecret, input.note.token, input.note.salt, input.note.pubKeyAx, input.note.pubKeyAy],
    x < modulus
  order_lt : ∀ x ∈ [input.maxFee, input.expiry, input.nonce], x < modulus
  newSalt_lt : ∀ x ∈ input.newSalt, x < modulus
  claim_lt : ∀ claim ∈ input.claims, claim.secret < modulus ∧ claim.releaseTime < modulus
  address_lt : ∀ address, address = input.buyToken ∨ address = input.relayer ∨
    (∃ claim ∈ input.claims, address = claim.recipient ∨ address = claim.token) →
    ∀ n, bigInt address = .ok n → n < modulus
  leaves_lt : ∀ leaves ∈ input.allLeaves, ∀ leaf ∈ leaves, leaf < modulus
  path_lt : ∀ proof ∈ input.merkleProof, proof.root < modulus ∧ ∀ x ∈ proof.pathElements, x < modulus

/-- A supplied path leads from the note's commitment to its root. -/
def AuthorizeProofInput.PathValid (input : AuthorizeProofInput) : Prop :=
  ∀ proof ∈ input.merkleProof, MerkleTree.PathTo P.hashWords commitTreeDepth (computeCommitment P input.note) proof.root
    proof.pathElements proof.pathIndices

/-- The library's signatures verify under the library's public keys. -/
def Eddsa.Verifies (eddsa : Eddsa) (C : Circomlib) : Prop :=
  ∀ key message, C.eddsaPoseidonVerifier 1 (eddsa.prv2pub key).1 (eddsa.prv2pub key).2 (eddsa.signPoseidon key message).S
    (eddsa.signPoseidon key message).R8x (eddsa.signPoseidon key message).R8y message

end Sdk

/-- Every input that is hashed for an order and for its claims was asked. -/
structure Circuit.AuthorizeSignals.Hashed (P : Poseidon) (commitTreeDepth maxClaimsPerSide claimsTreeDepth : ℕ)
    (s : Circuit.AuthorizeSignals) : Prop where
  note : s.note.preimage ∈ P.asked
  pathPairs : ∀ i < commitTreeDepth,
    MerkleTree.climbPair P.hashPair (Circuit.direction s.pathIdx) s.path (P.hash s.note.preimage) i ∈ P.askedPairs
  nullifier : s.note.nullifierPreimage ∈ P.asked
  nonceNullifier : [tagNonceNull, s.secret, s.nonce] ∈ P.asked
  residual : (s.assign P).residual.preimage ∈ P.asked
  claimLeaf : ∀ i < maxClaimsPerSide, s.claimLeaf i ∈ P.asked
  claimsPairs : ∀ level < claimsTreeDepth, ∀ i < maxClaimsPerSide / 2 ^ level / 2,
    (MerkleTree.node P.hashPair (s.claimsLeaf P) level (2 * i),
      MerkleTree.node P.hashPair (s.claimsLeaf P) level (2 * i + 1)) ∈ P.askedPairs
  orderHash : [s.sellToken, s.buyToken, s.sellAmount, s.buyAmount, s.maxFee, s.expiry, s.nonce, s.claimsRoot,
    s.relayer] ∈ P.asked
  pubKeyBind : [s.pubKeyAx, s.pubKeyAy, s.nullifier] ∈ P.asked
  claimNullifier : ∀ i < s.claimCount.val, [tagClaimNull, s.claimSecrets i, (i : Scalar), s.claimsRoot] ∈ P.asked

namespace Sdk

variable {P : Poseidon}

/-! ### Arrays -/

/-- The zeros an array is padded with are the zeros read past its end. -/
theorem arraySignals_append_replicate (xs : List ℕ) (k i : ℕ) :
    arraySignals (xs ++ List.replicate k 0) i = arraySignals xs i := by
  rw [arraySignals, arraySignals, List.getD_eq_getElem?_getD, List.getD_eq_getElem?_getD]
  rcases Nat.lt_or_ge i xs.length with hi | hi
  · rw [List.getElem?_append_left hi]
  · rw [List.getElem?_append_right hi, List.getElem?_eq_none hi, List.getElem?_replicate]
    split <;> rfl

theorem sum_arraySignals (xs : List ℕ) {n : ℕ} (hn : xs.length ≤ n) :
    ∑ i ∈ Finset.range n, arraySignals xs i = (xs.sum : ℕ) := by
  induction xs generalizing n with
  | nil => simp [arraySignals]
  | cons x xs ih =>
    obtain ⟨n, rfl⟩ : ∃ m, n = m + 1 := ⟨n - 1, by rw [List.length_cons] at hn; omega⟩
    rw [Finset.sum_range_succ', List.sum_cons, Nat.cast_add, add_comm, ← ih (Nat.le_of_succ_le_succ hn)]
    rfl

theorem val_arraySignals {xs : List ℕ} {bound : ℕ} (hpos : 0 < bound) (hbound : bound ≤ modulus)
    (hxs : ∀ x ∈ xs, x < bound) (i : ℕ) : (arraySignals xs i).val < bound := by
  have hread : xs.getD i 0 < bound := by
    rcases Nat.lt_or_ge i xs.length with hi | hi
    · rw [List.getD_eq_getElem _ _ hi]
      exact hxs _ (List.getElem_mem hi)
    · rwa [List.getD_eq_default _ _ hi]
  rw [arraySignals, ZMod.val_natCast_of_lt (lt_of_lt_of_le hread hbound)]
  exact hread

theorem claimColumn_used {tier : CircuitTier} {claims : List FieldClaim} (field : FieldClaim → ℕ) {i : ℕ}
    (hi : i < claims.length) : arraySignals (claimColumn tier claims field) i = (field claims[i] : ℕ) := by
  rw [claimColumn, arraySignals_append_replicate, arraySignals, List.getD_eq_getElem _ _ (by rwa [List.length_map]),
    List.getElem_map]

theorem claimColumn_unused {tier : CircuitTier} {claims : List FieldClaim} (field : FieldClaim → ℕ) {i : ℕ}
    (hi : claims.length ≤ i) : arraySignals (claimColumn tier claims field) i = 0 := by
  rw [claimColumn, arraySignals_append_replicate, arraySignals, List.getD_eq_default _ _ (by rwa [List.length_map]),
    Nat.cast_zero]

theorem claimColumn_length {tier : CircuitTier} {claims : List FieldClaim} (field : FieldClaim → ℕ)
    (hclaims : claims.length ≤ tier.cap) : (claimColumn tier claims field).length = tier.cap := by
  rw [claimColumn, List.length_append, List.length_map, List.length_replicate]
  omega

/-! ### The authorize circuit -/

theorem digest_poseidonHash {xs : List Scalar} {inputs : List ℕ} (hasked : xs ∈ P.asked)
    (heq : xs = inputs.map (Nat.cast : ℕ → Scalar)) : P.Digest xs (poseidonHash P inputs : ℕ) :=
  ⟨hasked, by rw [cast_poseidonHash, heq]⟩

theorem cast_computeCommitment (note : CommitmentNote) : (computeCommitment P note : Scalar) =
    P.hash [ScatterDex.tagCommitmentV2, note.ownerSecret, note.token, note.amount, note.salt, note.pubKeyAx,
      note.pubKeyAy] := by
  rw [computeCommitment, cast_poseidonHash]
  simp [tagCommitmentV2, ScatterDex.tagCommitmentV2]

theorem claimLeaves_signals (P : Poseidon) (tier : CircuitTier) (claims : List FieldClaim) (i : ℕ) :
    (i < claims.length → arraySignals (claimLeaves P tier claims) i =
      P.hash [arraySignals (claimColumn tier claims FieldClaim.secret) i,
        arraySignals (claimColumn tier claims FieldClaim.recipient) i,
        arraySignals (claimColumn tier claims FieldClaim.token) i,
        arraySignals (claimColumn tier claims FieldClaim.amount) i,
        arraySignals (claimColumn tier claims FieldClaim.releaseTime) i]) ∧
      (claims.length ≤ i → arraySignals (claimLeaves P tier claims) i = 0) := by
  have hcolumn : claimLeaves P tier claims = claimColumn tier claims (FieldClaim.leaf P) := rfl
  refine ⟨fun hi => ?_, fun hi => ?_⟩
  · simp only [hcolumn, claimColumn_used _ hi, FieldClaim.leaf, cast_poseidonHash, List.map_cons, List.map_nil]
  · rw [hcolumn, claimColumn_unused _ hi]

variable {C : Circomlib} {eddsa : Eddsa} {random : ℕ} {input : AuthorizeProofInput} {tier : CircuitTier}

theorem commitmentPath_ok {path : MerkleProof} (hrange : input.InRange) (hvalid : input.PathValid P)
    (hpath : commitmentPath P input (computeCommitment P input.note) = .ok path) :
    MerkleTree.PathTo P.hashWords commitTreeDepth (computeCommitment P input.note) path.root path.pathElements
      path.pathIndices ∧ path.root < modulus := by
  unfold commitmentPath at hpath
  split at hpath
  · next merkleProof _ hproof =>
    obtain rfl := Except.ok.inj hpath
    exact ⟨hvalid _ hproof, (hrange.path_lt _ hproof).1⟩
  · next leaves _ hleaves =>
    simp only [bind_eq_ok, require_eq_ok, not_not, pure_eq_ok] at hpath
    obtain ⟨_, hindex, _, hleaf, tree, htree, ⟨elements, indices⟩, hproof, rfl⟩ := hpath
    have hfits : leaves.length ≤ 2 ^ commitTreeDepth :=
      (buildMerkleTree_ok_iff (by decide) (by decide)).mp ⟨tree, htree⟩
    obtain ⟨index, hcast⟩ := Int.eq_ofNat_of_zero_le (show 0 ≤ input.leafIndex by omega)
    rw [hcast, Int.toNat_natCast] at hleaf
    rw [hcast] at hindex
    have hlt : index < leaves.length := by omega
    rw [buildMerkleTree_eq (by decide) (by decide) hfits, Except.ok.injEq] at htree
    subst htree
    rw [hcast, getMerkleProof_eq (by decide) hfits (by omega), Except.ok.injEq, Prod.mk.injEq] at hproof
    obtain ⟨rfl, rfl⟩ := hproof
    have hopens := MerkleTree.pathTo_root P.hashWords (MerkleTree.padded 0 leaves) (show index < 2 ^ commitTreeDepth by omega)
    have hstart : MerkleTree.padded 0 leaves index = computeCommitment P input.note := by
      rw [MerkleTree.padded, List.getD_eq_getElem?_getD, hleaf, Option.getD_some]
    rw [hstart] at hopens
    exact ⟨hopens, P.hashWords_lt _ _⟩
  · exact absurd hpath (by simp)

/-! ### The claims an order is built from -/

theorem claims_amounts {entries : List ClaimEntry} {claims : List FieldClaim}
    (hfields : List.Forall₂ (fun entry claim => ClaimEntry.fields entry = .ok claim) entries claims) :
    claims.map FieldClaim.amount = entries.map ClaimEntry.amount := by
  induction hfields with
  | nil => rfl
  | cons hclaim _ ih => rw [List.map_cons, List.map_cons, ih, (ClaimEntry.fields_ok hclaim).2.2.2.1]

theorem sum_claimColumn (claims : List FieldClaim) :
    (claimColumn tier claims FieldClaim.amount).sum = (claims.map FieldClaim.amount).sum := by
  rw [claimColumn, List.sum_append, List.sum_replicate, smul_zero, add_zero]

theorem claims_token {claims : List FieldClaim} {buyToken : ℕ}
    (hfields : List.Forall₂ (fun entry claim => ClaimEntry.fields entry = .ok claim) input.claims claims)
    (hchecked : input.Checked tier) (hbuyToken : bigInt input.buyToken = .ok buyToken) :
    ∀ claim ∈ claims, claim.token = buyToken := by
  obtain ⟨hlength, hread⟩ := List.forall₂_iff_get.mp hfields
  intro claim hclaim
  obtain ⟨i, hi, rfl⟩ := List.getElem_of_mem hclaim
  have hentry := hread i (by omega) hi
  exact bigInt_eq_of_toLowerCase (hchecked.tokens _ (List.getElem_mem _)) (ClaimEntry.fields_ok hentry).2.1 hbuyToken

theorem claimsRoot_signals {claims : List FieldClaim} {ci : AuthorizeCircuitInput} (hcount : ci.claimCount = claims.length)
    (hsmall : claims.length < 2 ^ 144)
    (hcolumns : ci.claimSecrets = claimColumn tier claims FieldClaim.secret ∧
      ci.claimRecipients = claimColumn tier claims FieldClaim.recipient ∧
      ci.claimTokens = claimColumn tier claims FieldClaim.token ∧
      ci.claimAmounts = claimColumn tier claims FieldClaim.amount ∧
      ci.claimReleaseTimes = claimColumn tier claims FieldClaim.releaseTime) :
    (ci.inputs P).claimsLeaf P = arraySignals (claimLeaves P tier claims) := by
  funext i
  have hval : ((ci.inputs P).claimCount).val = claims.length := by
    rw [AuthorizeCircuitInput.inputs, hcount, Circuit.Authorize.val_natCast_of_lt hsmall]
  obtain ⟨hused, hunused⟩ := claimLeaves_signals P tier claims i
  obtain ⟨hsecrets, hrecipients, htokens, hamounts, htimes⟩ := hcolumns
  rw [Circuit.AuthorizeSignals.claimsLeaf, hval, Circuit.AuthorizeSignals.claimLeaf, AuthorizeCircuitInput.inputs]
  split
  · next hi => rw [hused hi, hsecrets, hrecipients, htokens, hamounts, htimes]
  · next hi => rw [hunused (not_lt.mp hi)]

/-- **What the authorize prover builds is a valid order.** -/
theorem authorizeCircuitInput_valid (htier : tier ∈ tiers) (hsigns : eddsa.Verifies C) (hrange : input.InRange)
    (hpath : input.PathValid P) (hkey : eddsa.prv2pub input.eddsaPrivateKey = (input.note.pubKeyAx, input.note.pubKeyAy))
    {ci : AuthorizeCircuitInput} (hbuild : authorizeCircuitInput P eddsa random input tier = .ok ci)
    (hhashed : (ci.inputs P).Hashed P commitTreeDepth tier.cap tier.claimsTreeDepth) :
    ci.Shaped tier ∧ Circuit.ValidOrder C P commitTreeDepth tier.cap tier.claimsTreeDepth (ci.inputs P) := by
  simp only [authorizeCircuitInput, bind_eq_ok, pure_eq_ok] at hbuild
  obtain ⟨_, hvalid, path, hcommitmentPath, claims, hclaims, tree, htree, buyToken, hbuyToken, relayer, hrelayer, rfl⟩ :=
    hbuild
  have hchecked := validateAuthorize_ok hvalid
  obtain ⟨hopens, -⟩ := commitmentPath_ok hrange hpath hcommitmentPath
  rw [mapM_eq_ok] at hclaims
  obtain ⟨hpow, hsmall, hpos, hdepth⟩ := tiers_spec htier
  have hlength : input.claims.length = claims.length := hclaims.length_eq
  have hcap : claims.length ≤ tier.cap := hlength ▸ hchecked.claims_le
  have hleaves : (claimLeaves P tier claims).length = tier.cap := claimColumn_length (FieldClaim.leaf P) hcap
  rw [buildMerkleTree_eq hpos (by omega) (by omega), Except.ok.injEq] at htree
  subst htree
  obtain ⟨hpathIdx, -, hclimbs⟩ := pathTo_signals hopens
  have hamount := hrange.amount_lt
  have hsell := hrange.sellAmount_lt
  have hbuy := hrange.buyAmount_lt
  have hsum := hrange.claimSum_lt
  have hfee := hchecked.maxFee_le
  have hle := hchecked.sellAmount_le
  have hsums : (claims.map FieldClaim.amount).sum = (input.claims.map ClaimEntry.amount).sum := by
    rw [claims_amounts hclaims]
  have hval : ∀ {n : ℕ}, n < 2 ^ 144 → ((n : ℕ) : Scalar).val = n := fun hn => Circuit.Authorize.val_natCast_of_lt hn
  have hsellVal := hval (show input.sellAmount < 2 ^ 144 by omega)
  have hbuyVal := hval (show input.buyAmount < 2 ^ 144 by omega)
  have hbalanceVal := hval (show input.note.amount < 2 ^ 144 by omega)
  have hfeeVal := hval (show input.maxFee < 2 ^ 144 by omega)
  have hlockedVal := hval (show (claims.map FieldClaim.amount).sum < 2 ^ 144 by omega)
  have hcountVal := hval (show input.claims.length < 2 ^ 144 by omega)
  have hamounts : ∀ x ∈ claimColumn tier claims FieldClaim.amount, x < 2 ^ 128 := by
    intro x hx
    rcases List.mem_append.mp hx with hx | hx
    · rw [claims_amounts hclaims] at hx
      obtain ⟨entry, hentry, rfl⟩ := List.mem_map.mp hx
      exact hrange.claimAmount_lt entry hentry
    · rw [List.eq_of_mem_replicate hx]
      decide
  have hbalance : ((input.note.amount : ℕ) : Scalar) - (input.sellAmount : ℕ) =
      ((input.note.amount - input.sellAmount : ℕ) : Scalar) := (Nat.cast_sub hle).symm
  refine ⟨⟨hopens.length_elements, hopens.length_indices, claimColumn_length _ hcap, claimColumn_length _ hcap,
    claimColumn_length _ hcap, claimColumn_length _ hcap, claimColumn_length _ hcap⟩, ?_⟩
  constructor
  case sellAmount_lt => exact hsellVal.trans_lt hsell
  case buyAmount_lt => exact hbuyVal.trans_lt hbuy
  case balance_lt => exact hbalanceVal.trans_lt hamount
  case totalLocked_lt => exact hlockedVal.trans_lt (hsums ▸ hsum)
  case maxFee_le => exact hfeeVal.trans_le hfee
  case claimCount_le => exact hcountVal.trans_le hchecked.claims_le
  case claimAmount_lt => exact fun i _ => val_arraySignals (by decide) (by decide) hamounts i
  case sellAmount_le =>
    change ((input.sellAmount : ℕ) : Scalar).val ≤ ((input.note.amount : ℕ) : Scalar).val
    rw [hsellVal, hbalanceVal]
    exact hle
  case unusedAmount =>
    intro i _ hunused
    refine claimColumn_unused _ (hlength ▸ ?_)
    exact hcountVal.symm.trans_le hunused
  case usedToken =>
    intro i hused
    have hi : i < claims.length := hlength ▸ hused.trans_eq hcountVal
    exact (claimColumn_used _ hi).trans (congrArg _ (claims_token hclaims hchecked hbuyToken _ (List.getElem_mem hi)))
  case totalLocked =>
    refine Eq.symm ((sum_arraySignals _ (claimColumn_length _ hcap).le).trans ?_)
    rw [sum_claimColumn]
    rfl
  case minReceive =>
    change ((input.buyAmount : ℕ) : Scalar).val * (10000 - ((input.maxFee : ℕ) : Scalar).val) ≤
      (((claims.map FieldClaim.amount).sum : ℕ) : Scalar).val * 10000
    rw [hbuyVal, hfeeVal, hlockedVal, hsums]
    exact hchecked.minReceive
  case note => exact hhashed.note
  case pathIdx => exact hpathIdx
  case pathPairs => exact hhashed.pathPairs
  case commitmentRoot =>
    rw [cast_computeCommitment] at hclimbs
    exact hclimbs
  case nullifier => exact digest_poseidonHash hhashed.nullifier (by simp [tagEscrowNull, ScatterDex.tagEscrowNull,
    Note.nullifierPreimage, Circuit.AuthorizeSignals.note, AuthorizeCircuitInput.inputs])
  case nonceNullifier => exact digest_poseidonHash hhashed.nonceNullifier (by simp [tagNonceNull, ScatterDex.tagNonceNull,
    AuthorizeCircuitInput.inputs])
  case residual => exact hhashed.residual
  case newCommitment =>
    have hzero : ((input.note.amount - input.sellAmount : ℕ) : Scalar) = 0 ↔ input.note.amount - input.sellAmount = 0 := by
      rw [← ZMod.val_eq_zero, hval (by omega)]
    change ((if input.note.amount - input.sellAmount > 0 then _ else 0 : ℕ) : Scalar) =
      if (input.note.amount : Scalar) - (input.sellAmount : ℕ) = 0 then 0 else
        P.hash [ScatterDex.tagCommitmentV2, (input.note.ownerSecret : Scalar), (input.note.token : ℕ),
          (input.note.amount : Scalar) - (input.sellAmount : ℕ), _, _, _]
    rw [hbalance]
    by_cases hspent : input.note.amount - input.sellAmount = 0
    · rw [if_neg (by omega), if_pos (hzero.mpr hspent), Nat.cast_zero]
    · rw [if_pos (by omega), if_neg (mt hzero.mp hspent)]
      exact cast_computeCommitment _
  case claimLeaf => exact hhashed.claimLeaf
  case claimsPairs => exact hhashed.claimsPairs
  case claimsRoot =>
    rw [claimsRoot_signals hlength (by omega) ⟨rfl, rfl, rfl, rfl, rfl⟩]
    exact P.cast_node _ _ _
  case orderHash => exact digest_poseidonHash hhashed.orderHash rfl
  case signature =>
    have hsigned := hsigns input.eddsaPrivateKey
    rw [hkey] at hsigned
    exact hsigned _
  case pubKeyBind => exact ⟨hhashed.pubKeyBind, rfl⟩

/-! ### The claim circuit -/

end Sdk

theorem Circuit.MerkleProof.congr {C : Circomlib} {P : Poseidon} {levels : ℕ} {leaf root : Scalar}
    {elements elements' indices indices' : ℕ → Scalar} (hproof : Circuit.MerkleProof C P levels leaf elements indices root)
    (helements : ∀ i < levels, elements i = elements' i) (hindices : ∀ i < levels, indices i = indices' i) :
    Circuit.MerkleProof C P levels leaf elements' indices' root := by
  obtain ⟨hashes, hstart, hlevels, hroot⟩ := hproof
  refine ⟨hashes, hstart, fun i hi => ?_, hroot⟩
  rw [← helements i hi, ← hindices i hi]
  exact hlevels i hi

namespace Sdk

variable {P : Poseidon} {C : Circomlib} {eddsa : Eddsa} {random : ℕ} {input : AuthorizeProofInput} {tier : CircuitTier}

/-- The input of the claim prover for a claim of an order: its data at its position, with the leaves of the claims tree or with the path through that tree. -/
structure ClaimProofInput.Opens (P : Poseidon) (tier : CircuitTier) (claims : List ClaimEntry) (i : ℕ) (hi : i < claims.length)
    (claimInput : ClaimProofInput) : Prop where
  secret : claimInput.secret = claims[i].secret
  recipient : bigInt claims[i].recipient = .ok claimInput.recipient
  token : bigInt claims[i].token = .ok claimInput.token
  amount : claimInput.amount = claims[i].amount
  releaseTime : claimInput.releaseTime = claims[i].releaseTime
  leafIndex : claimInput.leafIndex = i
  path : ∃ tree, buildClaimsTree P claims tier = .ok tree ∧
    (claimInput.merkleProof = none ∧ claimInput.allClaimLeaves = tree.leaves ∨
      ∃ elements indices, getMerkleProof tree.layers i = .ok (elements, indices) ∧
        claimInput.merkleProof = some ⟨tree.root, elements, indices⟩)

/-- The tree of the claims builder, when the claims fit the tier. -/
theorem buildClaimsTree_ok {entries : List ClaimEntry} {tree : ClaimsTree}
    (hbuild : buildClaimsTree P entries tier = .ok tree) :
    ∃ claims, entries.mapM ClaimEntry.fields = .ok claims ∧ claims.length ≤ tier.cap ∧
      tree.leaves = claimLeaves P tier claims ∧
      buildMerkleTree P tree.leaves tier.claimsTreeDepth = .ok ⟨tree.root, tree.layers⟩ := by
  simp only [buildClaimsTree, bind_eq_ok, require_eq_ok, pure_eq_ok] at hbuild
  obtain ⟨_, hcap, claims, hclaims, built, hbuilt, rfl⟩ := hbuild
  have hlength := (mapM_eq_ok.mp hclaims).length_eq
  exact ⟨claims, hclaims, by omega, rfl, hbuilt⟩

theorem buildClaimsTree_eq {entries : List ClaimEntry} {claims : List FieldClaim} (htier : tier ∈ tiers)
    (hclaims : entries.mapM ClaimEntry.fields = .ok claims) (hfits : entries.length ≤ tier.cap) :
    ∃ tree, buildClaimsTree P entries tier = .ok tree ∧
      tree.root = MerkleTree.root P.hashWords 0 tier.claimsTreeDepth (claimLeaves P tier claims) ∧
      ∀ i < tier.cap, getMerkleProof tree.layers (i : ℕ) =
        .ok (MerkleTree.pathElements P.hashWords (MerkleTree.padded 0 (claimLeaves P tier claims)) i tier.claimsTreeDepth,
          MerkleTree.pathIndices i tier.claimsTreeDepth) := by
  obtain ⟨hpow, -, hpos, hdepth⟩ := tiers_spec htier
  have hlength := (mapM_eq_ok.mp hclaims).length_eq
  have hwidth : (claimLeaves P tier claims).length = tier.cap :=
    claimColumn_length (FieldClaim.leaf P) (show claims.length ≤ tier.cap by omega)
  have hfull : (claimLeaves P tier claims).length ≤ 2 ^ tier.claimsTreeDepth := by rw [hwidth, hpow]
  simp only [buildClaimsTree, bind_eq_ok, require_eq_ok, pure_eq_ok]
  refine ⟨_, ⟨(), not_lt.mpr hfits, claims, hclaims, _, buildMerkleTree_eq hpos (by omega) hfull, rfl⟩, rfl,
    fun i hi => getMerkleProof_eq hpos hfull (hpow ▸ hi)⟩

theorem pathTo_claim {claims : List FieldClaim} (htier : tier ∈ tiers) (hfits : claims.length ≤ tier.cap) {i : ℕ}
    (hi : i < claims.length) :
    MerkleTree.PathTo P.hashWords tier.claimsTreeDepth (claims[i].leaf P)
      (MerkleTree.root P.hashWords 0 tier.claimsTreeDepth (claimLeaves P tier claims))
      (MerkleTree.pathElements P.hashWords (MerkleTree.padded 0 (claimLeaves P tier claims)) i tier.claimsTreeDepth)
      (MerkleTree.pathIndices i tier.claimsTreeDepth) := by
  obtain ⟨hpow, -⟩ := tiers_spec htier
  have hleaf : MerkleTree.padded 0 (claimLeaves P tier claims) i = claims[i].leaf P := by
    rw [MerkleTree.padded, claimLeaves, List.getD_eq_getElem?_getD, List.getElem?_append_left (by rwa [List.length_map]),
      List.getElem?_map, List.getElem?_eq_getElem hi, Option.map_some, Option.getD_some]
  have hopens := MerkleTree.pathTo_root P.hashWords (MerkleTree.padded 0 (claimLeaves P tier claims))
    (show i < 2 ^ tier.claimsTreeDepth by omega)
  rwa [hleaf] at hopens

/-- Both ways to state the path of a claim resolve to the path through the claims tree. -/
theorem ClaimProofInput.Opens.resolve {entries : List ClaimEntry} {i : ℕ} {hi : i < entries.length}
    {claimInput : ClaimProofInput} (htier : tier ∈ tiers) (hopens : claimInput.Opens P tier entries i hi)
    {claims : List FieldClaim} (hclaims : entries.mapM ClaimEntry.fields = .ok claims) :
    claimInput.resolve P tier = .ok {
      root := MerkleTree.root P.hashWords 0 tier.claimsTreeDepth (claimLeaves P tier claims)
      pathElements := MerkleTree.pathElements P.hashWords (MerkleTree.padded 0 (claimLeaves P tier claims)) i
        tier.claimsTreeDepth
      pathIndices := MerkleTree.pathIndices i tier.claimsTreeDepth } := by
  obtain ⟨hpow, -, hpos, hdepth⟩ := tiers_spec htier
  obtain ⟨tree, htree, hpath⟩ := hopens.path
  obtain ⟨claims', hclaims', hcap, hleaves, hbuilt⟩ := buildClaimsTree_ok htree
  obtain rfl : claims' = claims := Except.ok.inj (hclaims'.symm.trans hclaims)
  have hread := mapM_eq_ok.mp hclaims
  have hlength := hread.length_eq
  have hwidth : (claimLeaves P tier claims').length = tier.cap := claimColumn_length (FieldClaim.leaf P) hcap
  rw [hleaves] at hbuilt hpath
  have hfull := hbuilt
  rw [buildMerkleTree_eq hpos (by omega) (by omega), Except.ok.injEq, BuiltTree.mk.injEq] at hfull
  obtain ⟨hroot, hlayers⟩ := hfull
  have hproof := getMerkleProof_eq (P := P) hpos (show (claimLeaves P tier claims').length ≤ 2 ^ tier.claimsTreeDepth by omega)
    (show i < 2 ^ tier.claimsTreeDepth by omega)
  rw [hlayers] at hproof
  have hindex := hopens.leafIndex
  unfold ClaimProofInput.resolve
  rcases hpath with ⟨hnone, hall⟩ | ⟨elements, indices, hgiven, hsome⟩
  · have hleaf : (claimLeaves P tier claims')[i]? = some (poseidonHash P [claimInput.secret, claimInput.recipient,
        claimInput.token, claimInput.amount, claimInput.releaseTime]) := by
      obtain ⟨hrecipient, htoken, hsecret, hamount, htime⟩ :=
        ClaimEntry.fields_ok ((List.forall₂_iff_get.mp hread).2 i hi (by omega))
      rw [claimLeaves, List.getElem?_append_left (by rw [List.length_map]; omega), List.getElem?_map,
        List.getElem?_eq_getElem (by omega), Option.map_some, FieldClaim.leaf]
      have hrecipients := Except.ok.inj (hrecipient.symm.trans hopens.recipient)
      have htokens := Except.ok.inj (htoken.symm.trans hopens.token)
      simp only [List.get_eq_getElem] at hrecipients htokens hsecret hamount htime
      rw [hopens.secret, hopens.amount, hopens.releaseTime, hsecret, hamount, htime, hrecipients, htokens]
    rw [hnone, hall]
    simp only [fromLeaves, bind_eq_ok, require_eq_ok, not_not, pure_eq_ok]
    rw [hindex, Int.toNat_natCast]
    exact ⟨(), hwidth, (), by omega, (), hleaf, _, hbuilt, _, hproof, by rw [← hroot]⟩
  · rw [hgiven, Except.ok.injEq, Prod.mk.injEq] at hproof
    obtain ⟨rfl, rfl⟩ := hproof
    have hpath := MerkleTree.pathTo_root P.hashWords (MerkleTree.padded 0 (claimLeaves P tier claims'))
      (show i < 2 ^ tier.claimsTreeDepth by omega)
    rw [hsome]
    simp only [fromMerkleProof, bind_eq_ok, require_eq_ok, not_not, pure_eq_ok]
    rw [hindex]
    exact ⟨(), by omega, (), hpath.length_elements, (), hpath.length_indices, (), checkPathIndices_ok hpath.binary,
      by rw [← hroot]⟩

theorem pathElements_signals (leaves : List ℕ) {i level depth : ℕ} (hlevel : level < depth) :
    arraySignals (MerkleTree.pathElements P.hashWords (MerkleTree.padded 0 leaves) i depth) level =
      MerkleTree.siblings P.hashPair (arraySignals leaves) i level := by
  rw [arraySignals, MerkleTree.pathElements, List.getD_eq_getElem _ _ (by simpa), List.getElem_map, List.getElem_range,
    MerkleTree.siblings, MerkleTree.siblings, P.cast_node]
  rfl

theorem pathIndices_signals {i level depth : ℕ} (hlevel : level < depth) :
    arraySignals (MerkleTree.pathIndices i depth) level = if i.testBit level then 1 else 0 := by
  rw [arraySignals, MerkleTree.pathIndices, List.getD_eq_getElem _ _ (by simpa), List.getElem_map, List.getElem_range,
    Nat.testBit_eq_decide_div_mod_eq]
  rcases Nat.mod_two_eq_zero_or_one (i / 2 ^ level) with hbit | hbit <;> simp [hbit]

/-- **The claim prover builds a satisfying input for every claim of a proved order.** -/
theorem claimCircuitInput_claim {ci : AuthorizeCircuitInput} {claims : List FieldClaim} (htier : tier ∈ tiers)
    (hclaims : input.claims.mapM ClaimEntry.fields = .ok claims) (hcap : claims.length ≤ tier.cap)
    (hcount : ci.claimCount = claims.length)
    (hroot : ci.claimsRoot = MerkleTree.root P.hashWords 0 tier.claimsTreeDepth (claimLeaves P tier claims))
    (hcolumns : ci.claimSecrets = claimColumn tier claims FieldClaim.secret ∧
      ci.claimRecipients = claimColumn tier claims FieldClaim.recipient ∧
      ci.claimTokens = claimColumn tier claims FieldClaim.token ∧
      ci.claimAmounts = claimColumn tier claims FieldClaim.amount ∧
      ci.claimReleaseTimes = claimColumn tier claims FieldClaim.releaseTime)
    (hauthorize : Circuit.Authorize C P commitTreeDepth tier.cap tier.claimsTreeDepth (ci.witness P))
    (hasked : ∀ i < (ci.inputs P).claimCount.val,
      [ScatterDex.tagClaimNull, (ci.inputs P).claimSecrets i, (i : Scalar), (ci.inputs P).claimsRoot] ∈ P.asked)
    {i : ℕ} {hi : i < input.claims.length} {claimInput : ClaimProofInput}
    (hopens : claimInput.Opens P tier input.claims i hi) :
    ∃ circuitInput, claimCircuitInput P claimInput tier = .ok circuitInput ∧
      circuitInput.pathElements.length = tier.claimsTreeDepth ∧ circuitInput.pathIndices.length = tier.claimsTreeDepth ∧
      Circuit.Claim C P tier.claimsTreeDepth circuitInput.witness ∧ circuitInput.claimsRoot = ci.claimsRoot := by
  obtain ⟨hpow, hsmall, hpos, hdepth⟩ := tiers_spec htier
  have hread := mapM_eq_ok.mp hclaims
  have hlength := hread.length_eq
  have hwidth : (claimLeaves P tier claims).length = tier.cap := claimColumn_length (FieldClaim.leaf P) hcap
  have hpath := MerkleTree.pathTo_root P.hashWords (MerkleTree.padded 0 (claimLeaves P tier claims))
    (show i < 2 ^ tier.claimsTreeDepth by omega)
  simp only [claimCircuitInput, hopens.resolve htier hclaims, bind_eq_ok, pure_eq_ok, Except.ok.injEq]
  refine ⟨_, ⟨_, rfl, rfl⟩, hpath.length_elements, hpath.length_indices, ?_, hroot.symm⟩
  have hleaves : (ci.witness P).leaves = arraySignals (claimLeaves P tier claims) :=
    claimsRoot_signals hcount (by omega) hcolumns
  have hcountVal : (ci.inputs P).claimCount.val = claims.length := by
    rw [AuthorizeCircuitInput.inputs, hcount, Circuit.Authorize.val_natCast_of_lt (by omega)]
  have hused : i < (ci.witness P).claimCount.val := hcountVal ▸ hlength ▸ hi
  obtain ⟨hdigest, hmerkle, hposition⟩ := hauthorize.claimAt_merkle hpow hsmall hused
  obtain ⟨hrecipient, htoken, hsecret, hamount, htime⟩ :=
    ClaimEntry.fields_ok ((List.forall₂_iff_get.mp hread).2 i hi (by omega))
  have hrecipients := Except.ok.inj (hrecipient.symm.trans hopens.recipient)
  have htokens := Except.ok.inj (htoken.symm.trans hopens.token)
  simp only [List.get_eq_getElem] at hrecipients htokens hsecret hamount htime
  have hclaim : (ci.witness P).claimLeaf i = [(claimInput.secret : Scalar), (claimInput.recipient : ℕ),
      (claimInput.token : ℕ), (claimInput.amount : ℕ), (claimInput.releaseTime : ℕ)] := by
    obtain ⟨hsecrets, hrecipientColumn, htokenColumn, hamounts, htimes⟩ := hcolumns
    change [arraySignals ci.claimSecrets i, arraySignals ci.claimRecipients i, arraySignals ci.claimTokens i,
      arraySignals ci.claimAmounts i, arraySignals ci.claimReleaseTimes i] = _
    rw [hsecrets, hrecipientColumn, htokenColumn, hamounts, htimes]
    simp only [claimColumn_used _ (show i < claims.length by omega)]
    rw [hopens.secret, hopens.amount, hopens.releaseTime, hsecret, hamount, htime, hrecipients, htokens]
  have hsecretSignal : (ci.inputs P).claimSecrets i = (claimInput.secret : ℕ) := (List.cons.inj hclaim).1
  have hrootSignal : (ci.inputs P).claimsRoot =
      (MerkleTree.root P.hashWords 0 tier.claimsTreeDepth (claimLeaves P tier claims) : ℕ) :=
    congrArg (Nat.cast : ℕ → Scalar) hroot
  constructor
  case merkle =>
    rw [hclaim] at hdigest
    refine ⟨_, hdigest, ?_⟩
    change Circuit.MerkleProof C P _ _ _ _ (MerkleTree.root P.hashWords 0 tier.claimsTreeDepth (claimLeaves P tier claims) : ℕ)
    rw [← hrootSignal]
    refine Circuit.MerkleProof.congr hmerkle (fun level hlevel => ?_) fun level hlevel => ?_
    · change MerkleTree.siblings P.hashPair (ci.witness P).leaves i level = _
      rw [hleaves]
      exact (pathElements_signals _ hlevel).symm
    · exact (pathIndices_signals hlevel).symm
  case leafIndex =>
    change ((claimInput.leafIndex.toNat : ℕ) : Scalar) = _
    rw [hopens.leafIndex, Int.toNat_natCast, ← hposition]
    refine Finset.sum_congr rfl fun level hlevel => ?_
    rw [Finset.mem_range] at hlevel
    change (if i.testBit level then (1 : Scalar) else 0) * 2 ^ level =
      arraySignals (MerkleTree.pathIndices i tier.claimsTreeDepth) level * 2 ^ level
    rw [pathIndices_signals hlevel]
  case nullifier =>
    have hnullifier := hasked i (hcountVal ▸ hlength ▸ hi)
    rw [hsecretSignal, hrootSignal] at hnullifier
    have hpreimage : [ScatterDex.tagClaimNull, (claimInput.secret : Scalar), (claimInput.leafIndex.toNat : ℕ),
        (MerkleTree.root P.hashWords 0 tier.claimsTreeDepth (claimLeaves P tier claims) : ℕ)] ∈ P.asked := by
      rw [hopens.leafIndex, Int.toNat_natCast]
      exact hnullifier
    exact digest_poseidonHash hpreimage (by simp [tagClaimNull, ScatterDex.tagClaimNull,
      Circuit.ClaimSignals.nullifierPreimage, ClaimCircuitInput.witness])

/-! ### The provers -/

/-- The values the prover reports are the public signals of an assignment. -/
def AuthorizeProofResult.Reports (result : AuthorizeProofResult) (s : Circuit.AuthorizeSignals) : Prop :=
  result.commitmentRoot = s.commitmentRoot.val ∧ result.nullifier = s.nullifier.val ∧
    result.nonceNullifier = s.nonceNullifier.val ∧ result.newCommitment = s.newCommitment.val ∧
    result.claimsRoot = s.claimsRoot.val ∧ result.totalLocked = s.totalLocked.val ∧
    result.orderHash = s.orderHash.val

theorem authorizeCircuitInput_canonical {ci : AuthorizeCircuitInput} (htier : tier ∈ tiers) (hrange : input.InRange)
    (hpath : input.PathValid P) (hbuild : authorizeCircuitInput P eddsa random input tier = .ok ci) :
    ∀ x ∈ [ci.commitmentRoot, ci.nullifier, ci.nonceNullifier, ci.newCommitment, ci.claimsRoot, ci.totalLocked,
      ci.orderHash], ((x : ℕ) : Scalar).val = x := by
  simp only [authorizeCircuitInput, bind_eq_ok, pure_eq_ok] at hbuild
  obtain ⟨_, -, path, hcommitmentPath, claims, hclaims, tree, htree, _, -, _, -, rfl⟩ := hbuild
  obtain ⟨-, hroot⟩ := commitmentPath_ok hrange hpath hcommitmentPath
  have hsum : (claims.map FieldClaim.amount).sum < modulus := by
    rw [claims_amounts (mapM_eq_ok.mp hclaims)]
    exact hrange.claimSum_lt.trans (by decide)
  obtain ⟨-, -, hpos, hdepth⟩ := tiers_spec htier
  have htreeRoot : tree.root < modulus := by
    have hfits := (buildMerkleTree_ok_iff hpos (by omega)).mp ⟨tree, htree⟩
    rw [buildMerkleTree_eq hpos (by omega) hfits, Except.ok.injEq] at htree
    subst htree
    obtain ⟨depth, hsucc⟩ : ∃ depth, tier.claimsTreeDepth = depth + 1 := ⟨tier.claimsTreeDepth - 1, by omega⟩
    rw [hsucc]
    exact P.hashWords_lt _ _
  have hnew : ∀ note : CommitmentNote, ∀ b : ℕ, (if b > 0 then computeCommitment P note else 0) < modulus := by
    intro note b
    split
    · exact poseidonHash_lt _
    · decide
  intro x hx
  refine ZMod.val_natCast_of_lt ?_
  simp only [List.mem_cons, List.not_mem_nil, or_false] at hx
  rcases hx with rfl | rfl | rfl | rfl | rfl | rfl | rfl
  · exact hroot
  · exact poseidonHash_lt _
  · exact poseidonHash_lt _
  · exact hnew _ _
  · exact htreeRoot
  · exact hsum
  · exact poseidonHash_lt _

/-- **The SDK's witnesses are complete.** An order within its bounds, with a valid path and the key of its note, that passes the checks of the prover: the circuit input built for it has the declared shape and satisfies the circuit of its tier, the values the prover returns are the public signals, and each claim of the order leads to an input that satisfies the claim circuit under the same root. -/
theorem witnesses_complete (htier : tier ∈ tiers) (hsigns : eddsa.Verifies C) (hrange : input.InRange)
    (hpath : input.PathValid P) (hkey : eddsa.prv2pub input.eddsaPrivateKey = (input.note.pubKeyAx, input.note.pubKeyAy))
    {ci : AuthorizeCircuitInput} (hbuild : authorizeCircuitInput P eddsa random input tier = .ok ci)
    (hhashed : (ci.inputs P).Hashed P commitTreeDepth tier.cap tier.claimsTreeDepth) :
    ci.Shaped tier ∧ Circuit.Authorize C P commitTreeDepth tier.cap tier.claimsTreeDepth (ci.witness P) ∧
      (∀ fullProve result, generateAuthorizeProof P eddsa fullProve random input tier = .ok result →
        result.Reports (ci.witness P)) ∧
      ∀ i (hi : i < input.claims.length) claimInput, ClaimProofInput.Opens P tier input.claims i hi claimInput →
        ∃ circuitInput, claimCircuitInput P claimInput tier = .ok circuitInput ∧
          circuitInput.pathElements.length = tier.claimsTreeDepth ∧
          circuitInput.pathIndices.length = tier.claimsTreeDepth ∧
          Circuit.Claim C P tier.claimsTreeDepth circuitInput.witness ∧ circuitInput.claimsRoot = ci.claimsRoot := by
  obtain ⟨hpow, hsmall, hpos, hdepth⟩ := tiers_spec htier
  obtain ⟨hshaped, hvalid⟩ := authorizeCircuitInput_valid htier hsigns hrange hpath hkey hbuild hhashed
  have hcanonical := authorizeCircuitInput_canonical htier hrange hpath hbuild
  have hauthorize : Circuit.Authorize C P commitTreeDepth tier.cap tier.claimsTreeDepth (ci.witness P) :=
    hvalid.authorize hpow hsmall
  refine ⟨hshaped, hauthorize, ?_, ?_⟩
  · intro fullProve result hresult
    simp only [generateAuthorizeProof, hbuild, bind_eq_ok, Except.ok.injEq, exists_eq_left'] at hresult
    obtain ⟨⟨proof, publicSignals⟩, -, hresult⟩ := hresult
    cases publicSignals with
    | nil => cases hresult
    | cons pubKeyBind rest =>
      rw [pure_eq_ok] at hresult
      subst hresult
      simp only [List.forall_mem_cons] at hcanonical
      obtain ⟨hroot, hnullifier, hnonce, hnew, hclaims, hlocked, horder, -⟩ := hcanonical
      exact ⟨hroot.symm, hnullifier.symm, hnonce.symm, hnew.symm, hclaims.symm, hlocked.symm, horder.symm⟩
  · intro i hi claimInput hopens
    simp only [authorizeCircuitInput, bind_eq_ok, pure_eq_ok] at hbuild
    obtain ⟨_, hchecks, _, -, claims, hclaims, tree, htree, _, -, _, -, rfl⟩ := hbuild
    have hlength := (mapM_eq_ok.mp hclaims).length_eq
    have hcap : claims.length ≤ tier.cap := hlength ▸ (validateAuthorize_ok hchecks).claims_le
    have hwidth : (claimLeaves P tier claims).length = tier.cap := claimColumn_length (FieldClaim.leaf P) hcap
    rw [buildMerkleTree_eq hpos (by omega) (by omega), Except.ok.injEq] at htree
    subst htree
    exact claimCircuitInput_claim htier hclaims hcap hlength rfl ⟨rfl, rfl, rfl, rfl, rfl⟩ hauthorize
      hhashed.claimNullifier hopens

/-! ### The maker's order -/

/-- The templates whose signature check accepts what the library signs. -/
def signerCircomlib (eddsa : Eddsa) : Circomlib :=
  { Circomlib.withSignatures [] with
    eddsaPoseidonVerifier := fun enabled Ax Ay S R8x R8y M => enabled = 0 ∨ ∃ key message,
      Ax = (eddsa.prv2pub key).1 ∧ Ay = (eddsa.prv2pub key).2 ∧ S = (eddsa.signPoseidon key message).S ∧
        R8x = (eddsa.signPoseidon key message).R8x ∧ R8y = (eddsa.signPoseidon key message).R8y ∧ M = (message : ℕ) }

theorem signerCircomlib_verifies (eddsa : Eddsa) : eddsa.Verifies (signerCircomlib eddsa) :=
  fun key message => Or.inr ⟨key, message, rfl, rfl, rfl, rfl, rfl, rfl⟩

/-- The library on the maker's key and order. -/
def makerEddsa : Eddsa where
  prv2pub _ := (makerOrder.pubKeyAx.val, makerOrder.pubKeyAy.val)
  signPoseidon _ _ := ⟨makerOrder.sigS.val, makerOrder.sigR8x.val, makerOrder.sigR8y.val⟩

def makerInput : AuthorizeProofInput where
  note := ⟨1001, 13, 1000, 2001, makerOrder.pubKeyAx.val, makerOrder.pubKeyAy.val⟩
  leafIndex := 0
  allLeaves := none
  merkleProof := some {
    root := makerOrder.commitmentRoot.val
    pathElements := (List.range 20).map fun i => (makerOrder.path i).val
    pathIndices := List.replicate 20 0 }
  sellAmount := 400
  buyToken := "0x0E"
  buyAmount := 300
  maxFee := 100
  expiry := 500
  nonce := 7
  relayer := "0x0c"
  eddsaPrivateKey := [1]
  claims := [⟨5001, "0x41", "0x0e", 200, 50⟩, ⟨5002, "0x42", "0X0E", 110, 60⟩]
  newSalt := some 3001

def makerCircuitInput : AuthorizeCircuitInput where
  commitmentRoot := makerOrder.commitmentRoot.val
  nullifier := makerOrder.nullifier.val
  nonceNullifier := makerOrder.nonceNullifier.val
  newCommitment := makerOrder.newCommitment.val
  sellToken := 13
  buyToken := 14
  sellAmount := 400
  buyAmount := 300
  maxFee := 100
  expiry := 500
  claimsRoot := makerOrder.claimsRoot.val
  totalLocked := 310
  relayer := 12
  orderHash := makerOrder.orderHash.val
  secret := 1001
  balance := 1000
  salt := 2001
  path := (List.range 20).map fun i => (makerOrder.path i).val
  pathIdx := List.replicate 20 0
  nonce := 7
  newSalt := 3001
  pubKeyAx := makerOrder.pubKeyAx.val
  pubKeyAy := makerOrder.pubKeyAy.val
  sigS := makerOrder.sigS.val
  sigR8x := makerOrder.sigR8x.val
  sigR8y := makerOrder.sigR8y.val
  claimSecrets := 5001 :: 5002 :: List.replicate 14 0
  claimRecipients := 65 :: 66 :: List.replicate 14 0
  claimTokens := 14 :: 14 :: List.replicate 14 0
  claimAmounts := 200 :: 110 :: List.replicate 14 0
  claimReleaseTimes := 50 :: 60 :: List.replicate 14 0
  claimCount := 2

theorem makerCircuitInput_built :
    authorizeCircuitInput tradePoseidon makerEddsa 0 makerInput tier16 = .ok makerCircuitInput := by decide +kernel

theorem makerCircuitInput_hashed : (makerCircuitInput.inputs tradePoseidon).Hashed tradePoseidon 20 16 4 := by
  constructor <;> decide +kernel

theorem makerInput_inRange : makerInput.InRange where
  amount_lt := by decide
  claimAmount_lt := by decide
  claimSum_lt := by decide
  sellAmount_lt := by decide
  buyAmount_lt := by decide
  note_lt := by decide +kernel
  order_lt := by decide +kernel
  newSalt_lt := by decide +kernel
  claim_lt := by decide +kernel
  address_lt := by
    have hread : ∀ address ∈ ["0x0E", "0x0c", "0x41", "0x42", "0x0e", "0X0E"],
        (bigInt address).toOption.getD 0 < modulus := by decide +kernel
    intro address haddress n hn
    have hmem : address ∈ ["0x0E", "0x0c", "0x41", "0x42", "0x0e", "0X0E"] := by
      rcases haddress with rfl | rfl | ⟨claim, hclaim, haddress⟩
      · decide
      · decide
      · simp only [makerInput, List.mem_cons, List.not_mem_nil, or_false] at hclaim
        rcases hclaim with rfl | rfl <;> rcases haddress with rfl | rfl <;> decide
    have hlt := hread address hmem
    rw [hn] at hlt
    exact hlt
  leaves_lt := by decide
  path_lt := by decide +kernel

theorem makerInput_pathValid : makerInput.PathValid tradePoseidon := by
  intro proof hproof
  obtain rfl := Option.some.inj hproof
  refine ⟨by decide, by decide, by decide, fun empty => ?_⟩
  have hclimb : MerkleTree.climb tradePoseidon.hashWords (fun _ => false) (fun level => (makerOrder.path level).val)
      (computeCommitment tradePoseidon makerInput.note) 20 = makerOrder.commitmentRoot.val := by decide +kernel
  refine Eq.trans (MerkleTree.climb_congr _ _ (fun level hlevel => ?_) fun level hlevel => ?_) hclimb
  · rw [List.getD_eq_getElem _ _ (by simpa [commitTreeDepth] using hlevel), List.getElem_replicate]
    rfl
  · rw [List.getD_eq_getElem _ _ (by simpa [commitTreeDepth] using hlevel), List.getElem_map, List.getElem_range]

/-- The input that opens the maker's first claim from the leaves of the tree. -/
def makerClaimInput : ClaimProofInput where
  secret := 5001
  recipient := 65
  token := 14
  amount := 200
  releaseTime := 50
  leafIndex := 0
  allClaimLeaves := claimLeaves tradePoseidon tier16 [⟨5001, 65, 14, 200, 50⟩, ⟨5002, 66, 14, 110, 60⟩]
  merkleProof := none

theorem makerClaimInput_opens : makerClaimInput.Opens tradePoseidon tier16 makerInput.claims 0 (by decide) where
  secret := rfl
  recipient := by decide +kernel
  token := by decide +kernel
  amount := rfl
  releaseTime := rfl
  leafIndex := rfl
  path := by
    obtain ⟨tree, htree⟩ : ∃ tree, buildClaimsTree tradePoseidon makerInput.claims tier16 = .ok tree :=
      exists_of_isOk (by decide +kernel)
    obtain ⟨claims, hclaims, -, hleaves, -⟩ := buildClaimsTree_ok htree
    have hread : makerInput.claims.mapM ClaimEntry.fields = .ok [⟨5001, 65, 14, 200, 50⟩, ⟨5002, 66, 14, 110, 60⟩] := by
      decide +kernel
    obtain rfl := Except.ok.inj (hclaims.symm.trans hread)
    exact ⟨tree, htree, Or.inl ⟨rfl, hleaves.symm⟩⟩

/-- The maker's order, and its first claim. -/
theorem witnesses_complete_maker :
    Circuit.Authorize (signerCircomlib makerEddsa) tradePoseidon 20 16 4 (makerCircuitInput.witness tradePoseidon) ∧
      ∃ circuitInput, claimCircuitInput tradePoseidon makerClaimInput tier16 = .ok circuitInput ∧
        Circuit.Claim (signerCircomlib makerEddsa) tradePoseidon 4 circuitInput.witness := by
  obtain ⟨-, hauthorize, -, hclaims⟩ := witnesses_complete (C := signerCircomlib makerEddsa) (P := tradePoseidon)
    List.mem_cons_self (signerCircomlib_verifies makerEddsa) makerInput_inRange makerInput_pathValid rfl
    makerCircuitInput_built makerCircuitInput_hashed
  obtain ⟨circuitInput, hbuild, -, -, hclaim, -⟩ := hclaims 0 (by decide) makerClaimInput makerClaimInput_opens
  exact ⟨hauthorize, circuitInput, hbuild, hclaim⟩

end Sdk

end ScatterDex
