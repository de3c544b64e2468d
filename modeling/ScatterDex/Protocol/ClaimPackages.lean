import ScatterDex.Pro.ClaimPackage
import ScatterDex.Protocol.ProverCompleteness

/-!
# Claimable packages

The claims tree of an order is built four times: by the worker that proves the order, by the form for the order record, and by the package builder for each recipient, while the settled group has the tier sent to the relayer. The four agree, and each package opens the proved root, exactly for the orders with at most sixteen recipients: the worker knows no other tier.
-/

namespace ScatterDex

open Fallible Sdk

namespace Pro

variable (P : Poseidon)

/-- The package of a row can be claimed from the group with a claims root: its leaf is in the tree of the group's tier, and the recipient's prover opens it. -/
structure PackageClaimable (tier : CircuitTier) (claimsRoot : ℕ) (pkg : ClaimPackage) : Prop where
  root_eq : pkg.claimsRoot = claimsRoot
  path : ∃ claim, pkg.entry.fields = .ok claim ∧
    MerkleTree.PathTo P.hashWords tier.claimsTreeDepth (claim.leaf P) claimsRoot pkg.pathElements pkg.pathIndices
  opens : ∃ input circuitInput, pkg.proofInput = .ok input ∧ claimWorker P input = .ok (tier, circuitInput) ∧
    circuitInput.claimsRoot = claimsRoot

/-- An order whose recipients can all claim: one tier throughout, and a claimable package for each claim of the form. -/
structure Submission.Claimable (form : OrderForm) (session : Session) (submission : Submission) : Prop where
  tier_eq : submission.tier = workerTier.cap
  claims_eq : ∃ input, form.proofInput session = .ok input ∧ input.claims.length = form.recipients.rows.length ∧
    submission.order.allClaims.map OrderClaim.entry = input.claims
  root_eq : ∀ claim ∈ submission.order.allClaims, claim.claimsRoot = some submission.circuit.claimsRoot
  package : ∀ target ∈ submission.order.allClaims, ∀ input : BuildClaimPackageInput,
    input.order = submission.order → input.target = target →
      ∃ pkg, buildClaimPackageFromOrder P input = .ok pkg ∧ pkg.entry = target.entry ∧
        pkg.leafIndex = target.leafIndex ∧ PackageClaimable P workerTier submission.circuit.claimsRoot pkg

/-- What the wallet, the network configuration and the relayer registry promise: addresses that are addresses, and a fee within the registry's cap. -/
structure Configured (form : OrderForm) (session : Session) : Prop where
  account : isAddress session.account.toList = true
  buyToken : isAddress form.buyToken.address.toList = true
  relayer : ∀ relayer, form.selectedRelayer = some relayer → isAddress relayer.address.toList = true ∧ relayer.fee ≤ 500

variable {P} {eddsa : Eddsa} {random : ℕ} {label : String} {form : OrderForm} {session : Session}
  {input : AuthorizeProofInput}

/-! ### The proof -/

theorem checkClaimTokens_of_eq {buyToken : String} {i : ℕ} {claims : List ClaimEntry}
    (htokens : ∀ claim ∈ claims, claim.token = buyToken) : checkClaimTokens (toLowerCase buyToken) i claims = .ok () := by
  induction claims generalizing i with
  | nil => rfl
  | cons claim claims ih =>
    obtain ⟨htoken, hrest⟩ := List.forall_mem_cons.mp htokens
    simp only [checkClaimTokens, bind_eq_ok, require_eq_ok, not_not]
    exact ⟨(), congrArg toLowerCase htoken, ih hrest⟩

theorem Configured.fee_le (hconfigured : Configured form session) (hprepared : Prepared form session input) :
    input.maxFee ≤ 500 := by
  rw [hprepared.maxFee]
  cases hrelayer : form.selectedRelayer with
  | none => exact Nat.zero_le _
  | some relayer => exact (hconfigured.relayer relayer hrelayer).2

theorem Configured.relayer_read (hconfigured : Configured form session) (hprepared : Prepared form session input) :
    ∃ relayer, bigInt input.relayer = .ok relayer := by
  apply bigInt_of_isAddress
  rw [hprepared.relayer]
  cases hrelayer : form.selectedRelayer with
  | none => decide
  | some relayer => exact (hconfigured.relayer relayer hrelayer).1

theorem Configured.claims_read (hconfigured : Configured form session) (hprepared : Prepared form session input) :
    ∃ claims, input.claims.mapM ClaimEntry.fields = .ok claims := by
  apply exists_mapM
  intro claim hclaim
  obtain ⟨token, htoken⟩ := bigInt_of_isAddress hconfigured.buyToken
  have haddress : isAddress claim.recipient.toList = true := by
    rcases hprepared.claims_recipient claim hclaim with hself | haddress
    · rw [hself]
      exact hconfigured.account
    · exact haddress
  obtain ⟨recipient, hrecipient⟩ := bigInt_of_isAddress haddress
  simp only [ClaimEntry.fields, bind_eq_ok, pure_eq_ok]
  rw [hprepared.claims_token claim hclaim, hprepared.buyToken]
  exact ⟨_, recipient, hrecipient, token, htoken, rfl⟩

theorem Configured.validated (hconfigured : Configured form session) (hprepared : Prepared form session input)
    (hfits : form.recipients.rows.length ≤ 16) : validateAuthorize input workerTier = .ok () := by
  have hfee := hconfigured.fee_le hprepared
  have hlength := hprepared.claims_length
  have hpos := form.recipients.length_pos
  have hshare := applyFeeBig_share input.buyAmount (show input.maxFee ≤ 10000 by omega)
  rw [← hprepared.claims_sum] at hshare
  simp only [validateAuthorize, bind_eq_ok, require_eq_ok]
  refine ⟨(), by omega, (), not_lt.mpr (hlength ▸ hfits), (), not_lt.mpr hprepared.sellAmount_le, (),
    checkClaimTokens_of_eq hprepared.claims_token, (), ?_, not_lt.mpr hshare⟩
  rw [feeDenom]
  omega

variable (P eddsa random) in
/-- The worker proves an order with at most sixteen claims, over the tree of its claims. -/
theorem Configured.proved (hconfigured : Configured form session) (hprepared : Prepared form session input)
    (hfits : form.recipients.rows.length ≤ 16) {claims : List FieldClaim}
    (hclaims : input.claims.mapM ClaimEntry.fields = .ok claims) :
    ∃ circuit, authorizeWorker P eddsa random input = .ok circuit ∧
      circuit.claimsRoot = MerkleTree.root P.hashWords 0 4 (claimLeaves P tier16 claims) := by
  obtain ⟨buyToken, hbuyToken⟩ := bigInt_of_isAddress hconfigured.buyToken
  obtain ⟨relayer, hrelayer⟩ := hconfigured.relayer_read hprepared
  have hread := mapM_eq_ok.mp hclaims
  have hlength := hprepared.claims_length
  have hwidth : (claimLeaves P tier16 claims).length = 16 :=
    claimColumn_length (FieldClaim.leaf P) (show claims.length ≤ 16 by rw [← hread.length_eq]; omega)
  have hpath : commitmentPath P input (computeCommitment P input.note) = .ok session.merkleProof := by
    rw [commitmentPath, hprepared.merkleProof]
  simp only [authorizeWorker, authorizeCircuitInput, bind_eq_ok, pure_eq_ok]
  rw [hprepared.buyToken]
  exact ⟨_, ⟨(), hconfigured.validated hprepared hfits, _, hpath, claims, hclaims, _,
    buildMerkleTree_eq (by decide) (by decide) (le_of_eq hwidth), buyToken, hbuyToken, relayer, hrelayer, rfl⟩, rfl⟩

/-- More than sixteen claims are refused by the worker. -/
theorem authorizeWorker_length {circuit : AuthorizeCircuitInput}
    (hproved : authorizeWorker P eddsa random input = .ok circuit) : input.claims.length ≤ 16 := by
  simp only [authorizeWorker, authorizeCircuitInput, bind_eq_ok] at hproved
  obtain ⟨_, hvalid, -⟩ := hproved
  exact (validateAuthorize_ok hvalid).claims_le

/-! ### The order record -/

theorem orderClaims_entry (claims : List ClaimEntry) (claimsRoot : ℕ) :
    (orderClaims claims claimsRoot).map OrderClaim.entry = claims := by
  apply List.ext_getElem
  · rw [List.length_map, orderClaims, List.length_mapIdx]
  · intro i _ _
    simp only [List.getElem_map, orderClaims, List.getElem_mapIdx]
    rfl

/-- The rows of an order record are in the order of their leaves. -/
theorem orderClaims_sorted (claims : List ClaimEntry) (claimsRoot : ℕ) :
    ((orderClaims claims claimsRoot).mergeSort fun a b => a.leafIndex ≤ b.leafIndex) = orderClaims claims claimsRoot := by
  apply List.mergeSort_of_pairwise
  rw [List.pairwise_iff_getElem]
  intro i j hi hj hlt
  simp only [orderClaims, List.getElem_mapIdx, decide_eq_true_eq, Int.ofNat_le]
  exact le_of_lt hlt

theorem allClaims_record (claims : List OrderClaim) :
    (OrderRecord.mk label claims.head? (some claims)).allClaims = claims := by
  cases claims <;> rfl

/-! ### The packages -/

theorem tier16_mem : tier16 ∈ Sdk.tiers := List.mem_cons_self

section

variable {entries : List ClaimEntry} {claims : List FieldClaim}

variable {build : BuildClaimPackageInput} {claimsRoot : ℕ}

/-- The package of a row, as the recipient gets it. -/
theorem package_built (hclaims : entries.mapM ClaimEntry.fields = .ok claims) (hfits : entries.length ≤ 16)
    (hall : build.order.allClaims = orderClaims entries claimsRoot) {i : ℕ} (hi : i < entries.length)
    (hleafIndex : build.target.leafIndex = i) :
    ∃ pkg, buildClaimPackageFromOrder P build = .ok pkg ∧ pkg.entry = build.target.entry ∧
      pkg.leafIndex = build.target.leafIndex ∧
      pkg.claimsRoot = MerkleTree.root P.hashWords 0 4 (claimLeaves P tier16 claims) ∧
      pkg.pathElements = MerkleTree.pathElements P.hashWords (MerkleTree.padded 0 (claimLeaves P tier16 claims)) i 4 ∧
      pkg.pathIndices = MerkleTree.pathIndices i 4 := by
  obtain ⟨tree, htree, hroot, hproof⟩ := buildClaimsTree_eq (P := P) tier16_mem hclaims hfits
  have hordered : (build.order.allClaims.mergeSort fun a b => a.leafIndex ≤ b.leafIndex).map OrderClaim.entry = entries := by
    rw [hall, orderClaims_sorted, orderClaims_entry]
  have hnonempty : ¬build.order.allClaims.length = 0 := by
    rw [hall, orderClaims, List.length_mapIdx]
    omega
  have hpath := hproof i (show i < 16 by omega)
  rw [← hleafIndex] at hpath
  simp only [buildClaimPackageFromOrder, bind_eq_ok, require_eq_ok, pure_eq_ok, hordered]
  exact ⟨_, ⟨(), hnonempty, (), by omega, tree, htree, _, hpath, rfl⟩, rfl, rfl, hroot, rfl, rfl⟩

/-- A path of the claims tree makes the recipient's worker take the circuit of that tree. -/
theorem claimWorker_ok {pkg : ClaimPackage} {claim : FieldClaim} {i : ℕ} (hfields : pkg.entry.fields = .ok claim)
    (hindex : pkg.leafIndex = i) (hi : i < 16)
    (hopens : MerkleTree.PathTo P.hashWords 4 (claim.leaf P) pkg.claimsRoot pkg.pathElements pkg.pathIndices) :
    ∃ input circuitInput, pkg.proofInput = .ok input ∧ claimWorker P input = .ok (workerTier, circuitInput) ∧
      circuitInput.claimsRoot = pkg.claimsRoot := by
  obtain ⟨hrecipient, htoken, -⟩ := ClaimEntry.fields_ok hfields
  have hproof : fromMerkleProof ⟨pkg.claimsRoot, pkg.pathElements, pkg.pathIndices⟩ pkg.leafIndex tier16 =
      .ok ⟨pkg.claimsRoot, pkg.pathElements, pkg.pathIndices⟩ := by
    simp only [fromMerkleProof, bind_eq_ok, require_eq_ok, not_not, pure_eq_ok]
    rw [hindex]
    have hcap : tier16.cap = 16 := rfl
    exact ⟨(), by omega, (), hopens.length_elements, (), hopens.length_indices, (), checkPathIndices_ok hopens.binary,
      trivial⟩
  have hfind : Sdk.tiers.find? (fun tier => tier.claimsTreeDepth = pkg.pathElements.length) = some tier16 := by
    rw [hopens.length_elements]
    rfl
  obtain ⟨input, hinput, hmerkleProof, hleafIndex⟩ : ∃ input, pkg.proofInput = .ok input ∧
      input.merkleProof = some ⟨pkg.claimsRoot, pkg.pathElements, pkg.pathIndices⟩ ∧ input.leafIndex = pkg.leafIndex := by
    simp only [ClaimPackage.proofInput, bind_eq_ok, pure_eq_ok]
    exact ⟨_, ⟨claim.recipient, hrecipient, claim.token, htoken, rfl⟩, rfl, rfl⟩
  have hresolve : input.resolve P tier16 = .ok ⟨pkg.claimsRoot, pkg.pathElements, pkg.pathIndices⟩ := by
    rw [ClaimProofInput.resolve, hmerkleProof, hleafIndex]
    exact hproof
  refine ⟨input, ?_⟩
  simp only [claimWorker, hmerkleProof, hfind, claimCircuitInput, hinput, bind_eq_ok, pure_eq_ok, Prod.mk.injEq, true_and]
  exact ⟨_, ⟨_, ⟨_, hresolve, rfl⟩, rfl, rfl⟩, rfl⟩

/-- **The package of a row is claimable** from a group with the root of the order's claims. -/
theorem package_claimable (hclaims : entries.mapM ClaimEntry.fields = .ok claims) (hfits : entries.length ≤ 16)
    (hall : build.order.allClaims = orderClaims entries claimsRoot)
    (htarget : build.target ∈ orderClaims entries claimsRoot) :
    ∃ pkg, buildClaimPackageFromOrder P build = .ok pkg ∧ pkg.entry = build.target.entry ∧
      pkg.leafIndex = build.target.leafIndex ∧
      PackageClaimable P workerTier (MerkleTree.root P.hashWords 0 4 (claimLeaves P tier16 claims)) pkg := by
  obtain ⟨i, hi, htargetIndex⟩ := List.getElem_of_mem htarget
  rw [orderClaims, List.length_mapIdx] at hi
  have hentry : build.target.entry = entries[i] := by
    rw [← htargetIndex]
    simp only [orderClaims, List.getElem_mapIdx]
    rfl
  have hleafIndex : build.target.leafIndex = i := by
    rw [← htargetIndex]
    simp only [orderClaims, List.getElem_mapIdx]
  obtain ⟨pkg, hbuild, hpkg, hindex, hroot, helements, hindices⟩ := package_built (P := P) hclaims hfits hall hi hleafIndex
  have hread := mapM_eq_ok.mp hclaims
  have hlength := hread.length_eq
  have hfields : pkg.entry.fields = .ok claims[i] := by
    rw [hpkg, hentry]
    exact (List.forall₂_iff_get.mp hread).2 i hi (by omega)
  have hopens := pathTo_claim (P := P) tier16_mem (show claims.length ≤ 16 by omega) (show i < claims.length by omega)
  rw [show tier16.claimsTreeDepth = 4 from rfl, ← helements, ← hindices] at hopens
  have hworker := claimWorker_ok hfields (hindex.trans hleafIndex) (by omega) (by rw [hroot]; exact hopens)
  rw [hroot] at hworker
  exact ⟨pkg, hbuild, hpkg, hindex, hroot, ⟨claims[i], hfields, hopens⟩, hworker⟩

end

/-! ### The order -/

variable (P eddsa random label) in
/-- The form issues an order whose recipients can all claim. -/
def IssuesClaimable (form : OrderForm) (session : Session) : Prop :=
  ∃ submission, form.submit P eddsa random label session = .ok submission ∧ submission.Claimable P form session

theorem issuesClaimable_length (hissues : IssuesClaimable P eddsa random label form session) :
    form.recipients.rows.length ≤ 16 := by
  obtain ⟨submission, hsubmit, -⟩ := hissues
  simp only [OrderForm.submit, bind_eq_ok] at hsubmit
  obtain ⟨_, -, input, hprepare, circuit, hproved, -⟩ := hsubmit
  have hlength := (OrderForm.proofInput_ok hprepare).claims_length
  have hclaims := authorizeWorker_length hproved
  omega

theorem pickActiveTier_le {n : ℕ} (hpos : 0 < n) (hle : n ≤ 16) : pickActiveTier n = .ok tier16 := by
  simp only [pickActiveTier, bind_eq_ok, require_eq_ok, pure_eq_ok]
  refine ⟨(), by omega, ?_⟩
  have hfind : activeTiers.find? (fun tier => n ≤ tier.cap) = some tier16 :=
    List.find?_cons_of_pos (decide_eq_true (show n ≤ tier16.cap from hle))
  rw [hfind, Option.getD_some]

/-- **An order of Pro can be claimed by all its recipients exactly when it has at most sixteen of them.** -/
theorem order_claimable_iff (hconfigured : Configured form session) (hadmitted : (form.proofInput session).isOk = true) :
    IssuesClaimable P eddsa random label form session ↔ form.recipients.rows.length ≤ 16 := by
  refine ⟨issuesClaimable_length, fun hfits => ?_⟩
  obtain ⟨input, hprepare⟩ := exists_of_isOk hadmitted
  have hprepared := OrderForm.proofInput_ok hprepare
  obtain ⟨claims, hclaims⟩ := hconfigured.claims_read hprepared
  obtain ⟨circuit, hproved, hroot⟩ := hconfigured.proved P eddsa random hprepared hfits hclaims
  have hlength := hprepared.claims_length
  obtain ⟨tree, htree, htreeRoot, -⟩ := buildClaimsTree_eq (P := P) tier16_mem hclaims
    (show input.claims.length ≤ 16 by omega)
  have hpick := pickActiveTier_le form.recipients.length_pos hfits
  let order := OrderRecord.mk label (orderClaims input.claims tree.root).head? (some (orderClaims input.claims tree.root))
  have hall : order.allClaims = orderClaims input.claims tree.root := allClaims_record _
  refine ⟨⟨circuit, tier16.cap, order⟩, ?_, ?_⟩
  · simp only [OrderForm.submit, bind_eq_ok, pure_eq_ok]
    exact ⟨tier16, hpick, input, hprepare, circuit, hproved, tree, htree, rfl⟩
  exact {
    tier_eq := rfl
    claims_eq := ⟨input, hprepare, hlength, (congrArg _ hall).trans (orderClaims_entry _ _)⟩
    root_eq := by
      intro claim hclaim
      rw [hall] at hclaim
      obtain ⟨i, hi, rfl⟩ := List.getElem_of_mem hclaim
      simp only [orderClaims, List.getElem_mapIdx]
      exact congrArg some (htreeRoot.trans hroot.symm)
    package := by
      intro target htarget build horder hbuildTarget
      rw [hall] at htarget
      rw [← hbuildTarget] at htarget ⊢
      rw [hroot]
      exact package_claimable hclaims (by omega) (horder ▸ hall) htarget }

/-! ### A payroll -/

/-- The same amount to a list of recipients. -/
def payroll (size : String) (recipients : Recipients) : OrderForm where
  recipients
  side := .sell
  price := "1"
  size
  takeMode := none
  baseToken := ⟨"0x000000000000000000000000000000000000000d", "ETH", 18⟩
  quoteToken := ⟨"0x000000000000000000000000000000000000000e", "USDC", 6⟩
  selectedRelayer := some ⟨"0x000000000000000000000000000000000000000c", 0⟩

def payee : RecipientRow where
  address := "0x0000000000000000000000000000000000000041"
  amount := "1.00"
  releaseAt := ""

def payees (n : ℕ) (hpos : 0 < n) (hle : n ≤ maxRecipients) : Recipients where
  rows := List.replicate n payee
  length_pos := by rwa [List.length_replicate]
  length_le := by rwa [List.length_replicate]

def payer : Session where
  account := "0x0000000000000000000000000000000000000040"
  note := ⟨1001, 13, 10 ^ 20, 2001, makerInput.note.pubKeyAx, makerInput.note.pubKeyAy⟩
  leafIndex := 0
  merkleProof := ⟨makerOrder.commitmentRoot.val, List.replicate 20 0, List.replicate 20 0⟩
  eddsaPrivateKey := [1]
  nowSec := 1000
  dateParse _ := none
  secrets i := 5001 + i
  nonce := 7
  newSalt := 3001

theorem payroll_configured (size : String) (recipients : Recipients) : Configured (payroll size recipients) payer where
  account := by decide
  buyToken := by
    change isAddress "0x000000000000000000000000000000000000000e".toList = true
    decide
  relayer := by
    rintro relayer hrelayer
    obtain rfl := Option.some.inj hrelayer
    exact ⟨by decide, Nat.zero_le _⟩

theorem order_claimable_two :
    IssuesClaimable tradePoseidon makerEddsa 0 "ord-1" (payroll "2" (payees 2 (by decide) (by decide))) payer :=
  (order_claimable_iff (payroll_configured _ _) (by decide +kernel)).mpr (by decide)

/-- The form lets seventeen recipients through, shows them the next tier, and no proof can be built. -/
theorem order_seventeen_stuck :
    ((payroll "17" (payees 17 (by decide) (by decide))).proofInput payer).isOk = true ∧
      Configured (payroll "17" (payees 17 (by decide) (by decide))) payer ∧
      ¬IssuesClaimable tradePoseidon makerEddsa 0 "ord-1" (payroll "17" (payees 17 (by decide) (by decide))) payer := by
  refine ⟨by decide +kernel, payroll_configured _ _, fun hissues => ?_⟩
  exact absurd (issuesClaimable_length hissues) (by decide)

end Pro

end ScatterDex
