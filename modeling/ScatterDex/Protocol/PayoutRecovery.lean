import ScatterDex.Protocol.ProverCompleteness
import ScatterDex.Relayer.OrderText
import ScatterDex.Sdk.DeepRecover

/-!
# Recovered payouts

The splitter derives the secret of a claim from its position in the whole payout, the search from its position in the batch. A search is sound and complete for the trees it builds, but those are the trees of the splitter only where the two positions agree: in the first batch.
-/

namespace ScatterDex

open Bn254 Fallible

namespace Sdk

variable {P : Poseidon} {args : DeepRecoverArgs}

/-! ### The search -/

namespace DeepRecoverArgs

/-- The seconds the search tries. -/
def OnGrid (args : DeepRecoverArgs) (t : ℤ) : Prop := ∃ k : ℕ, t = args.startSec + k * args.step ∧ t ≤ args.endSec

/-- The claims rebuild a tree whose root is the target. -/
def Rebuilds (P : Poseidon) (args : DeepRecoverArgs) (claims : List DeepRecoverClaim) : Prop :=
  ∃ tier ∈ tiers, tier.cap = args.tierCap ∧
    ∃ tree, buildClaimsTree P (claims.map DeepRecoverClaim.entry) tier = .ok tree ∧ args.Matches tree.root

/-- A search is exact: what it returns rebuilds the target, and it returns nothing only when no candidate does. -/
structure Exact (P : Poseidon) (args : DeepRecoverArgs) : Prop where
  found : ∀ result, deepRecoverReleaseTime P args = .ok (some result) →
    args.OnGrid result.releaseTime ∧ args.candidate P result.releaseTime 0 args.recipients = .ok result.claims ∧
      args.Rebuilds P result.claims
  missed : deepRecoverReleaseTime P args = .ok none → ∀ t, args.OnGrid t →
    ∃ claims, args.candidate P t 0 args.recipients = .ok claims ∧ ¬args.Rebuilds P claims

/-- A candidate whose tree was built and has another root. -/
def Missed (P : Poseidon) (args : DeepRecoverArgs) (tier : CircuitTier) (t : ℤ) : Prop :=
  ∃ claims tree, args.candidate P t 0 args.recipients = .ok claims ∧
    buildClaimsTree P (claims.map DeepRecoverClaim.entry) tier = .ok tree ∧ ¬args.Matches tree.root

theorem total_spec (hstep : 0 < args.step) (k : ℕ) :
    args.startSec + k * args.step ≤ args.endSec → k < args.total := by
  intro hle
  have hk : (k : ℤ) ≤ (args.endSec - args.startSec) / args.step := by
    apply Int.le_ediv_of_mul_le hstep
    omega
  rw [total]
  omega

theorem scan_some {tier : CircuitTier} {fuel scanned : ℕ} {t : ℤ} {result : DeepRecoverResult}
    (hscan : args.scan P tier fuel scanned t = .ok (some result)) :
    (∃ k : ℕ, result.releaseTime = t + k * args.step ∧ result.releaseTime ≤ args.endSec) ∧
      args.candidate P result.releaseTime 0 args.recipients = .ok result.claims ∧
      ∃ tree, buildClaimsTree P (result.claims.map DeepRecoverClaim.entry) tier = .ok tree ∧ args.Matches tree.root := by
  induction fuel generalizing scanned t with
  | zero => exact absurd hscan (by simp [scan])
  | succ fuel ih =>
    rw [scan] at hscan
    split at hscan
    · next hle =>
      simp only [bind_eq_ok, require_eq_ok] at hscan
      obtain ⟨-, -, claims, hclaims, tree, htree, hfound⟩ := hscan
      split at hfound
      · next hmatches =>
        simp only [pure_eq_ok, Option.some.injEq] at hfound
        subst hfound
        exact ⟨⟨0, by simp, hle⟩, hclaims, tree, htree, hmatches⟩
      · obtain ⟨⟨k, hk, hend⟩, hrest⟩ := ih hfound
        refine ⟨⟨k + 1, ?_, hend⟩, hrest⟩
        rw [hk]
        push_cast
        ring
    · exact absurd hscan (by simp)

theorem scan_none {tier : CircuitTier} (hstep : 0 < args.step) {fuel scanned : ℕ} {t : ℤ}
    (hscan : args.scan P tier fuel scanned t = .ok none) {k : ℕ} (hk : k < fuel) (hle : t + k * args.step ≤ args.endSec) :
    args.Missed P tier (t + k * args.step) := by
  induction fuel generalizing scanned t k with
  | zero => omega
  | succ fuel ih =>
    have hstart : t ≤ args.endSec := by
      have := Int.mul_nonneg (Int.natCast_nonneg k) hstep.le
      omega
    rw [scan, if_pos hstart] at hscan
    simp only [bind_eq_ok, require_eq_ok] at hscan
    obtain ⟨-, -, claims, hclaims, tree, htree, hmissed⟩ := hscan
    split at hmissed
    · exact absurd hmissed (by simp)
    · next hne =>
      cases k with
      | zero =>
        refine ⟨claims, tree, ?_, htree, hne⟩
        rwa [Nat.cast_zero, Int.zero_mul, Int.add_zero]
      | succ k =>
        have hshift : t + ((k + 1 : ℕ) : ℤ) * args.step = t + args.step + k * args.step := by push_cast; ring
        rw [hshift] at hle ⊢
        exact ih hmissed (by omega) hle

theorem scan_finds {tier : CircuitTier} (hstep : 0 < args.step) (haborted : ∀ k, args.aborted k = false) {fuel : ℕ}
    (scanned : ℕ) {t : ℤ} {k : ℕ} (hk : k < fuel) (hle : t + k * args.step ≤ args.endSec)
    (hmissed : ∀ j < k, args.Missed P tier (t + j * args.step)) {claims : List DeepRecoverClaim} {tree : ClaimsTree}
    (hclaims : args.candidate P (t + k * args.step) 0 args.recipients = .ok claims)
    (htree : buildClaimsTree P (claims.map DeepRecoverClaim.entry) tier = .ok tree) (hmatches : args.Matches tree.root) :
    args.scan P tier fuel scanned t = .ok (some { releaseTime := t + k * args.step, claims }) := by
  induction k generalizing fuel scanned t with
  | zero =>
    obtain ⟨fuel, rfl⟩ := Nat.exists_eq_succ_of_ne_zero (show fuel ≠ 0 by omega)
    rw [Nat.cast_zero, Int.zero_mul, Int.add_zero] at *
    rw [scan, if_pos hle]
    simp only [bind_eq_ok, require_eq_ok]
    refine ⟨(), by simp [haborted], claims, hclaims, tree, htree, ?_⟩
    rw [if_pos hmatches]
    rfl
  | succ k ih =>
    obtain ⟨fuel, rfl⟩ := Nat.exists_eq_succ_of_ne_zero (show fuel ≠ 0 by omega)
    have hshift : ∀ j : ℕ, t + ((j + 1 : ℕ) : ℤ) * args.step = t + args.step + j * args.step := by
      intro j
      push_cast
      ring
    have hstart : t ≤ args.endSec := by
      have := Int.mul_nonneg (Int.natCast_nonneg (k + 1)) hstep.le
      omega
    obtain ⟨first, firstTree, hfirst, hfirstTree, hne⟩ := hmissed 0 (Nat.succ_pos k)
    rw [Nat.cast_zero, Int.zero_mul, Int.add_zero] at hfirst
    rw [scan, if_pos hstart]
    simp only [bind_eq_ok, require_eq_ok]
    refine ⟨(), by simp [haborted], first, hfirst, firstTree, hfirstTree, ?_⟩
    rw [if_neg hne, hshift]
    rw [hshift] at hle hclaims
    apply ih (scanned + 1) (by omega) hle _ hclaims
    intro j hj
    rw [← hshift]
    exact hmissed (j + 1) (by omega)

end DeepRecoverArgs

theorem eq_of_mem_tiers {tier tier' : CircuitTier} (htier : tier ∈ tiers) (htier' : tier' ∈ tiers)
    (hcap : tier.cap = tier'.cap) : tier = tier' := by
  simp only [tiers, List.mem_cons, List.not_mem_nil, or_false] at htier htier'
  rcases htier with rfl | rfl | rfl <;> rcases htier' with rfl | rfl | rfl <;> first | rfl | exact absurd hcap (by decide)

theorem find_tier {tier : CircuitTier} {cap : ℕ} :
    tiers.find? (fun t => t.cap = cap) = some tier ↔ tier ∈ tiers ∧ tier.cap = cap := by
  constructor
  · intro hfind
    have hcap := List.find?_some hfind
    exact ⟨List.mem_of_find?_eq_some hfind, of_decide_eq_true hcap⟩
  · intro htier
    obtain ⟨hmem, rfl⟩ := htier
    simp only [tiers, List.mem_cons, List.not_mem_nil, or_false] at hmem
    rcases hmem with rfl | rfl | rfl <;> rfl

/-- **A search is exact**, whatever it is asked. -/
theorem deepRecover_exact (P : Poseidon) (args : DeepRecoverArgs) : args.Exact P where
  found := by
    intro result hresult
    simp only [deepRecoverReleaseTime, bind_eq_ok, require_eq_ok, orError_eq_ok, find_tier] at hresult
    obtain ⟨-, -, -, -, -, -, -, -, tier, ⟨htier, hcap⟩, -, -, -, -, hscan⟩ := hresult
    obtain ⟨hgrid, hclaims, tree, htree, hmatches⟩ := DeepRecoverArgs.scan_some hscan
    exact ⟨hgrid, hclaims, tier, htier, hcap, tree, htree, hmatches⟩
  missed := by
    intro hresult t hgrid
    simp only [deepRecoverReleaseTime, bind_eq_ok, require_eq_ok, orError_eq_ok, find_tier] at hresult
    obtain ⟨-, -, -, -, -, hstep, -, -, tier, ⟨htier, hcap⟩, -, -, -, -, hscan⟩ := hresult
    obtain ⟨k, rfl, hle⟩ := hgrid
    have hturn := DeepRecoverArgs.total_spec (by omega) k hle
    obtain ⟨claims, tree, hclaims, htree, hne⟩ := DeepRecoverArgs.scan_none (by omega) hscan hturn hle
    refine ⟨claims, hclaims, ?_⟩
    intro hrebuilds
    obtain ⟨tier', htier', hcap', tree', htree', hmatches⟩ := hrebuilds
    obtain rfl := eq_of_mem_tiers htier' htier (hcap'.trans hcap.symm)
    obtain rfl := Except.ok.inj (htree'.symm.trans htree)
    exact hne hmatches

/-! ### The trees of the splitter and of the search -/

/-- A payout of one release time whose secrets come from its seed, cut into batches. -/
structure Splits (P : Poseidon) (seed : ℕ) (token : String) (releaseTime : ℕ) (recipients : List PayoutRecipient)
    (batches : List PayoutBatch) : Prop where
  unseeded : ∀ r ∈ recipients, r.secret = none
  shared : ∀ r ∈ recipients, r.releaseTime = releaseTime
  split : ∃ seeded tier generateSecret, (∀ t ∈ tier, t ∈ tiers) ∧
    withDeterministicSecrets P seed token 0 recipients = .ok seeded ∧
    splitPayoutOpts tier token generateSecret seeded = .ok batches

/-- A search for a batch: its seed, token, recipients and tier, and the root of its claims. -/
structure SearchFor (P : Poseidon) (seed : ℕ) (token : String) (batch : PayoutBatch) (args : DeepRecoverArgs) : Prop where
  seed_eq : args.seed = seed
  token_eq : args.token = token
  recipients_eq : args.recipients = batch.claims.map fun c => ⟨c.recipient, c.amount⟩
  tierCap_eq : args.tierCap = batch.tier.cap
  target : ∃ tree, buildClaimsTree P batch.claims batch.tier = .ok tree ∧ args.Matches tree.root

/-- A window the search accepts, with the release time among its candidates. -/
structure Admissible (args : DeepRecoverArgs) (releaseTime : ℕ) : Prop where
  safe : ∀ n ∈ [args.startSec, args.endSec, args.step], isSafeInteger n = true
  step_pos : 0 < args.step
  total_le : args.total ≤ args.cap
  unaborted : ∀ k, args.aborted k = false
  onGrid : args.OnGrid releaseTime

/-- The hashes of a claims tree, among those that were asked. -/
def TreeHashed (P : Poseidon) (tier : CircuitTier) (entries : List ClaimEntry) : Prop :=
  ∀ claims, entries.mapM ClaimEntry.fields = .ok claims →
    (∀ c ∈ claims, [(c.secret : Scalar), c.recipient, c.token, c.amount, c.releaseTime] ∈ P.asked) ∧
    MerkleTree.PairsIn P.hashPair P.askedPairs (fun i => ((MerkleTree.padded 0 (claimLeaves P tier claims) i : ℕ) : Scalar))
      tier.claimsTreeDepth 0

/-- What the splitter and the search hashed: the trees of the batch and of every candidate, and the secrets under both positions. -/
structure SearchHashed (P : Poseidon) (batch : PayoutBatch) (start : ℕ) (args : DeepRecoverArgs) : Prop where
  split : TreeHashed P batch.tier batch.claims
  candidates : ∀ t, args.OnGrid t → ∀ claims, args.candidate P t 0 args.recipients = .ok claims →
    TreeHashed P batch.tier (claims.map DeepRecoverClaim.entry)
  secrets : ∀ (j : ℕ) (c : ClaimEntry), batch.claims[j]? = some c → ∀ index ∈ [j, start + j], ∀ preimage,
    claimSecretPreimage args.seed c.recipient args.token c.amount c.releaseTime index = .ok preimage →
    preimage.map (Nat.cast : ℕ → Scalar) ∈ P.asked

/-- A claim of the batch as the search returns it. -/
def ClaimEntry.recovered (c : ClaimEntry) : DeepRecoverClaim where
  recipient := c.recipient
  token := c.token
  amount := c.amount
  releaseTime := c.releaseTime
  secret := c.secret

/-- The search returns the release time and exactly the claims of the batch. -/
def Recovers (P : Poseidon) (args : DeepRecoverArgs) (releaseTime : ℕ) (batch : PayoutBatch) : Prop :=
  deepRecoverReleaseTime P args =
    .ok (some { releaseTime := releaseTime, claims := batch.claims.map ClaimEntry.recovered })

/-- A claim of a batch that starts at an index of the payout: its secret is the one of its position in the payout. -/
structure SeededClaim (P : Poseidon) (seed : ℕ) (token : String) (releaseTime index : ℕ) (c : ClaimEntry) : Prop where
  token_eq : c.token = token
  releaseTime_eq : c.releaseTime = releaseTime
  secret_eq : ∃ preimage, claimSecretPreimage seed c.recipient token c.amount releaseTime index = .ok preimage ∧
    c.secret = poseidonHash P preimage

variable {seed releaseTime : ℕ} {token : String} {recipients : List PayoutRecipient} {batches : List PayoutBatch}
  {b : ℕ} {batch : PayoutBatch}

theorem Splits.batch_spec (hsplits : Splits P seed token releaseTime recipients batches) (hbatch : batches[b]? = some batch) :
    batch.tier ∈ tiers ∧ batch.claims ≠ [] ∧ batch.claims.length ≤ batch.tier.cap ∧
      ∀ (j : ℕ) (c : ClaimEntry), batch.claims[j]? = some c →
        SeededClaim P seed token releaseTime (b * batch.tier.cap + j) c := by
  obtain ⟨seeded, tier?, generateSecret, htier?, hseeded, hsplit⟩ := hsplits.split
  obtain ⟨tier, htier, rfl⟩ : ∃ tier ∈ tiers, batches = batchLoop tier token generateSecret seeded.length 0 seeded := by
    cases tier? with
    | none =>
      simp only [splitPayoutOpts, splitPayout, bind_eq_ok, require_eq_ok, pure_eq_ok] at hsplit
      obtain ⟨-, -, tier, hpick, rfl⟩ := hsplit
      exact ⟨tier, (pickActiveTier_spec hpick).1, rfl⟩
    | some tier =>
      simp only [splitPayoutOpts, bind_eq_ok, require_eq_ok, pure_eq_ok] at hsplit
      obtain ⟨-, -, rfl⟩ := hsplit
      exact ⟨tier, htier? tier rfl, rfl⟩
  obtain ⟨rfl, hstart, hclaims⟩ := batchLoop_getElem? hbatch
  obtain ⟨hpow, -⟩ := tiers_spec htier
  have hcap := Nat.two_pow_pos batch.tier.claimsTreeDepth
  rw [Nat.zero_add] at hclaims
  have hlength : batch.claims.length = min batch.tier.cap (seeded.length - b * batch.tier.cap) := by
    rw [hclaims, batchClaims, List.length_mapIdx, List.length_take, List.length_drop]
  refine ⟨htier, ?_, by omega, ?_⟩
  · rw [ne_eq, ← List.length_eq_zero_iff]
    omega
  · intro j c hc
    rw [hclaims, batchClaims, List.getElem?_mapIdx, Option.map_eq_some_iff] at hc
    obtain ⟨s, hs, rfl⟩ := hc
    rw [List.getElem?_take] at hs
    split at hs
    · rw [List.getElem?_drop] at hs
      obtain ⟨r, secret, hr, hsecret, rfl⟩ := withDeterministicSecrets_getElem? hseeded _ hs
      have hmem := List.mem_of_getElem? hr
      rw [recipientSecret, hsplits.unseeded r hmem, Nat.zero_add, hsplits.shared r hmem, map_eq_ok] at hsecret
      obtain ⟨preimage, hpreimage, hhash⟩ := hsecret
      exact ⟨rfl, hsplits.shared r hmem, preimage, hpreimage, hhash.symm⟩
    · exact absurd hs (by simp)

theorem claimSecretPreimage_eq_ok {recipient : String} {amount second index : ℕ} {preimage : List ℕ} :
    claimSecretPreimage seed recipient token amount second index = .ok preimage ↔
      ∃ r, bigInt recipient = .ok r ∧ ∃ t, bigInt token = .ok t ∧ [seed, r, t, amount, second, index] = preimage := by
  simp only [claimSecretPreimage, bind_eq_ok, pure_eq_ok]

theorem candidate_spec {t : ℤ} {i : ℕ} {rs : List DeepRecoverRecipient} {claims : List DeepRecoverClaim}
    (hclaims : args.candidate P t i rs = .ok claims) :
    claims.length = rs.length ∧ ∀ (j : ℕ) (r : DeepRecoverRecipient), rs[j]? = some r →
      ∃ preimage, claimSecretPreimage args.seed r.recipient args.token r.amount (fieldSecond t) (i + j) = .ok preimage ∧
        claims[j]? = some ⟨r.recipient, args.token, r.amount, t, poseidonHash P preimage⟩ := by
  induction rs generalizing i claims with
  | nil =>
    obtain rfl := Except.ok.inj hclaims
    exact ⟨rfl, fun j r hr => absurd hr (by simp)⟩
  | cons r rs ih =>
    simp only [DeepRecoverArgs.candidate, bind_eq_ok, pure_eq_ok] at hclaims
    obtain ⟨preimage, hpreimage, rest, hrest, rfl⟩ := hclaims
    obtain ⟨hlength, hentries⟩ := ih hrest
    refine ⟨by rw [List.length_cons, List.length_cons, hlength], ?_⟩
    intro j r' hr'
    cases j with
    | zero =>
      obtain rfl := Option.some.inj hr'
      exact ⟨preimage, hpreimage, rfl⟩
    | succ j =>
      obtain ⟨preimage', hpreimage', hentry⟩ := hentries j r' hr'
      rw [Nat.add_assoc, Nat.add_comm 1] at hpreimage'
      exact ⟨preimage', hpreimage', hentry⟩

theorem exists_candidate (htoken : ∃ n, bigInt args.token = .ok n) (t : ℤ) {i : ℕ} {rs : List DeepRecoverRecipient}
    (hrs : ∀ r ∈ rs, ∃ n, bigInt r.recipient = .ok n) : ∃ claims, args.candidate P t i rs = .ok claims := by
  induction rs generalizing i with
  | nil => exact ⟨[], rfl⟩
  | cons r rs ih =>
    obtain ⟨⟨recipient, hrecipient⟩, hrest⟩ := List.forall_mem_cons.mp hrs
    obtain ⟨token, htoken⟩ := htoken
    obtain ⟨rest, hrest⟩ := ih (i := i + 1) hrest
    simp only [DeepRecoverArgs.candidate, bind_eq_ok, pure_eq_ok]
    exact ⟨_, _, claimSecretPreimage_eq_ok.mpr ⟨recipient, hrecipient, token, htoken, rfl⟩, rest, hrest, rfl⟩

/-- Positions that agree in the field give the same secret. -/
theorem poseidonHash_index {start j : ℕ} (hstart : modulus ∣ start) (a r t amount second : ℕ) :
    poseidonHash P [a, r, t, amount, second, start + j] = poseidonHash P [a, r, t, amount, second, j] := by
  have hzero : ((start : ℕ) : Scalar) = 0 := (ZMod.natCast_eq_zero_iff start modulus).mpr hstart
  simp only [poseidonHash, List.map_cons, List.map_nil, Nat.cast_add, hzero, zero_add]

namespace SearchFor

variable {start : ℕ} (hsearch : SearchFor P seed token batch args)
  (hseeded : ∀ (j : ℕ) (c : ClaimEntry), batch.claims[j]? = some c → SeededClaim P seed token releaseTime (start + j) c)

include hsearch

theorem recipients_getElem? {j : ℕ} {c : ClaimEntry} (hc : batch.claims[j]? = some c) :
    args.recipients[j]? = some ⟨c.recipient, c.amount⟩ := by
  rw [hsearch.recipients_eq, List.getElem?_map, hc]
  rfl

include hseeded

theorem addresses (hne : batch.claims ≠ []) : (∃ n, bigInt args.token = .ok n) ∧
    ∀ r ∈ args.recipients, ∃ n, bigInt r.recipient = .ok n := by
  have hread : ∀ c ∈ batch.claims, (∃ n, bigInt c.recipient = .ok n) ∧ ∃ n, bigInt token = .ok n := by
    intro c hc
    obtain ⟨j, hj⟩ := List.mem_iff_getElem?.mp hc
    obtain ⟨preimage, hpreimage, -⟩ := (hseeded j c hj).secret_eq
    obtain ⟨r, hr, t, ht, -⟩ := claimSecretPreimage_eq_ok.mp hpreimage
    exact ⟨⟨r, hr⟩, t, ht⟩
  obtain ⟨c, hc⟩ := List.exists_mem_of_ne_nil _ hne
  refine ⟨by rw [hsearch.token_eq]; exact (hread c hc).2, ?_⟩
  intro r hr
  rw [hsearch.recipients_eq] at hr
  obtain ⟨c, hc, rfl⟩ := List.mem_map.mp hr
  exact (hread c hc).1

theorem candidate_eq (hne : batch.claims ≠ []) (hsecond : fieldSecond releaseTime = releaseTime) (hstart : modulus ∣ start) :
    args.candidate P releaseTime 0 args.recipients = .ok (batch.claims.map ClaimEntry.recovered) := by
  obtain ⟨htoken, hrecipients⟩ := hsearch.addresses hseeded hne
  obtain ⟨claims, hclaims⟩ := exists_candidate (P := P) (i := 0) htoken releaseTime hrecipients
  obtain ⟨hlength, hentries⟩ := candidate_spec hclaims
  rw [hclaims]
  congr 1
  apply List.ext_getElem?
  intro j
  rw [List.getElem?_map]
  cases hc : batch.claims[j]? with
  | none =>
    rw [Option.map_none, List.getElem?_eq_none_iff, hlength, hsearch.recipients_eq, List.length_map]
    exact List.getElem?_eq_none_iff.mp hc
  | some c =>
    obtain ⟨preimage, hpreimage, hentry⟩ := hentries j _ (hsearch.recipients_getElem? hc)
    obtain ⟨r, hr, t, ht, rfl⟩ := claimSecretPreimage_eq_ok.mp hpreimage
    have hseededClaim := hseeded j c hc
    obtain ⟨own, hown, hsecret⟩ := hseededClaim.secret_eq
    obtain ⟨r', hr', t', ht', rfl⟩ := claimSecretPreimage_eq_ok.mp hown
    obtain rfl := Except.ok.inj (hr'.symm.trans hr)
    rw [hsearch.token_eq] at ht
    obtain rfl := Except.ok.inj (ht'.symm.trans ht)
    rw [hentry, Option.map_some, ClaimEntry.recovered, hsecret, hseededClaim.token_eq, hseededClaim.releaseTime_eq,
      poseidonHash_index hstart, hsearch.seed_eq, hsearch.token_eq, hsecond, Nat.zero_add]

end SearchFor

theorem ClaimEntry.entry_recovered {c : ClaimEntry} (hsecond : fieldSecond c.releaseTime = c.releaseTime) :
    c.recovered.entry = c := by
  rw [DeepRecoverClaim.entry, ClaimEntry.recovered, hsecond]

theorem toBytes32Hex_inj {a b : ℕ} (heq : toLowerCase (toBytes32Hex a) = toLowerCase (toBytes32Hex b)) : a = b := by
  have hlower : ∀ n : ℕ, toLowerCase (toBytes32Hex n) = '0' :: 'x' :: Relayer.hexDigits 64 n := by
    intro n
    have htext : toBytes32Hex n = "0x" ++ String.ofList (Relayer.hexDigits 64 n) := rfl
    rw [htext, toLowerCase, String.toList_append, List.map_append, String.toList_ofList, String.toList_ofList,
      Relayer.toLower_hexDigits]
    rfl
  rw [hlower, hlower] at heq
  have hdigits := (List.cons.inj (List.cons.inj heq).2).2
  have hread := congrArg (readDigits 16) hdigits
  rw [Relayer.readDigits_hexDigits, Relayer.readDigits_hexDigits] at hread
  exact Option.some.inj hread

/-- The first claims of trees of one root have the same release time. -/
theorem releaseTime_of_root_eq {tier : CircuitTier} {entries entries' : List ClaimEntry} {tree tree' : ClaimsTree}
    (htier : tier ∈ tiers) (hhashed : TreeHashed P tier entries) (hhashed' : TreeHashed P tier entries')
    (htree : buildClaimsTree P entries tier = .ok tree) (htree' : buildClaimsTree P entries' tier = .ok tree')
    (hroot : tree.root = tree'.root) {c c' : ClaimEntry} (hc : entries[0]? = some c) (hc' : entries'[0]? = some c') :
    (c.releaseTime : Scalar) = c'.releaseTime := by
  have hleaf : ∀ {entries : List ClaimEntry} {tree : ClaimsTree} {c : ClaimEntry}, TreeHashed P tier entries →
      buildClaimsTree P entries tier = .ok tree → entries[0]? = some c →
      ∃ claims claim, c.fields = .ok claim ∧
        [(claim.secret : Scalar), claim.recipient, claim.token, claim.amount, claim.releaseTime] ∈ P.asked ∧
        MerkleTree.PairsIn P.hashPair P.askedPairs
          (fun i => ((MerkleTree.padded 0 (claimLeaves P tier claims) i : ℕ) : Scalar)) tier.claimsTreeDepth 0 ∧
        tree.root = MerkleTree.root P.hashWords 0 tier.claimsTreeDepth (claimLeaves P tier claims) ∧
        MerkleTree.padded 0 (claimLeaves P tier claims) 0 = claim.leaf P := by
    intro entries tree c hhashed htree hc
    obtain ⟨claims, hclaims, hfits, -⟩ := buildClaimsTree_ok htree
    have hfields := mapM_eq_ok.mp hclaims
    rw [← hfields.length_eq] at hfits
    obtain ⟨built, hbuilt, hroot, -⟩ := buildClaimsTree_eq (P := P) htier hclaims hfits
    obtain rfl := Except.ok.inj (hbuilt.symm.trans htree)
    obtain ⟨hasked, hpairs⟩ := hhashed claims hclaims
    cases hfields with
    | nil => exact absurd hc (by simp)
    | cons hfirst hrest =>
      obtain rfl := Option.some.inj hc
      exact ⟨_, _, hfirst, hasked _ List.mem_cons_self, hpairs, hroot, rfl⟩
  obtain ⟨claims, claim, hclaim, hasked, hpairs, hrootEq, hfirst⟩ := hleaf hhashed htree hc
  obtain ⟨claims', claim', hclaim', hasked', hpairs', hrootEq', hfirst'⟩ := hleaf hhashed' htree' hc'
  have hcast := congrArg (Nat.cast : ℕ → Scalar) (hrootEq.symm.trans (hroot.trans hrootEq'))
  rw [MerkleTree.root, MerkleTree.root, P.cast_node, P.cast_node] at hcast
  have hleaves := MerkleTree.leaf_eq_of_root_eq P.hashPair_injOn hpairs hpairs' hcast (Nat.two_pow_pos tier.claimsTreeDepth)
  rw [hfirst, hfirst', FieldClaim.leaf, FieldClaim.leaf, cast_poseidonHash, cast_poseidonHash] at hleaves
  have hinputs := P.injOn hasked hasked' hleaves
  simp only [List.cons.injEq, and_true] at hinputs
  rw [← (ClaimEntry.fields_ok hclaim).2.2.2.2, ← (ClaimEntry.fields_ok hclaim').2.2.2.2]
  exact hinputs.2.2.2.2

theorem eq_of_cast_eq {s t : ℤ} (hs : isSafeInteger s = true) (ht : isSafeInteger t = true)
    (heq : (s : Scalar) = (t : Scalar)) : s = t := by
  have hdvd := (ZMod.intCast_eq_intCast_iff_dvd_sub s t modulus).mp heq
  have hsmall : (t - s).natAbs < modulus := by
    have hwide : 2 ^ 54 < modulus := by decide
    simp only [isSafeInteger, decide_eq_true_eq] at hs ht
    omega
  have hzero := Int.eq_zero_of_dvd_of_natAbs_lt_natAbs hdvd hsmall
  omega

namespace Admissible

variable (hadmissible : Admissible args releaseTime)

include hadmissible

theorem isSafeInteger {t : ℤ} (hgrid : args.OnGrid t) : isSafeInteger t = true := by
  obtain ⟨k, rfl, hle⟩ := hgrid
  have hsafe := hadmissible.safe
  simp only [List.mem_cons, List.not_mem_nil, or_false, forall_eq_or_imp, forall_eq, Sdk.isSafeInteger,
    decide_eq_true_eq] at hsafe ⊢
  have := Int.mul_nonneg (Int.natCast_nonneg k) hadmissible.step_pos.le
  omega

theorem fieldSecond : fieldSecond releaseTime = releaseTime := by
  have hsafe := hadmissible.isSafeInteger hadmissible.onGrid
  have hwide : 2 ^ 53 < modulus := by decide
  simp only [Sdk.isSafeInteger, decide_eq_true_eq] at hsafe
  rw [Sdk.fieldSecond, Int.cast_natCast, ZMod.val_natCast_of_lt (by omega)]

end Admissible

/-! ### Recovery -/

section Recovery

variable (hsplits : Splits P seed token releaseTime recipients batches) (hbatch : batches[b]? = some batch)
  (hsearch : SearchFor P seed token batch args) (hadmissible : Admissible args releaseTime)
  (hhashed : SearchHashed P batch (b * batch.tier.cap) args)

include hsplits hbatch hsearch hadmissible hhashed

/-- No other second of the window rebuilds the root of the batch. -/
theorem missed_of_ne {t : ℤ} (hgrid : args.OnGrid t) (hne : t ≠ releaseTime) : args.Missed P batch.tier t := by
  obtain ⟨htier, hnonempty, hfits, hseeded⟩ := hsplits.batch_spec hbatch
  obtain ⟨htoken, hrecipients⟩ := hsearch.addresses hseeded hnonempty
  obtain ⟨claims, hclaims⟩ := exists_candidate (P := P) (i := 0) htoken t hrecipients
  obtain ⟨hlength, hentries⟩ := candidate_spec hclaims
  obtain ⟨target, htarget, htargetText⟩ := hsearch.target
  have hfields : ∃ fields, (claims.map DeepRecoverClaim.entry).mapM ClaimEntry.fields = .ok fields := by
    apply exists_mapM
    intro entry hentry
    obtain ⟨claim, hclaim, rfl⟩ := List.mem_map.mp hentry
    obtain ⟨j, hj⟩ := List.mem_iff_getElem?.mp hclaim
    have hlt := (List.getElem?_eq_some_iff.mp hj).1
    rw [hlength] at hlt
    obtain ⟨preimage, -, hread⟩ := hentries j _ (List.getElem?_eq_getElem hlt)
    obtain rfl := Option.some.inj (hj.symm.trans hread)
    obtain ⟨recipient, hrecipient⟩ := hrecipients _ (List.getElem_mem hlt)
    obtain ⟨token, htoken⟩ := htoken
    simp only [ClaimEntry.fields, bind_eq_ok, pure_eq_ok]
    exact ⟨_, recipient, hrecipient, token, htoken, rfl⟩
  obtain ⟨fields, hfields⟩ := hfields
  have hroom : (claims.map DeepRecoverClaim.entry).length ≤ batch.tier.cap := by
    rw [List.length_map, hlength, hsearch.recipients_eq, List.length_map]
    exact hfits
  obtain ⟨tree, htree, -⟩ := buildClaimsTree_eq (P := P) htier hfields hroom
  refine ⟨claims, tree, hclaims, htree, ?_⟩
  intro hmatches
  obtain ⟨first, hfirst⟩ : ∃ first, batch.claims[0]? = some first :=
    ⟨_, List.getElem?_eq_getElem (List.length_pos_iff.mpr hnonempty)⟩
  obtain ⟨preimage, -, hread⟩ := hentries 0 _ (hsearch.recipients_getElem? hfirst)
  have hfirst' : (claims.map DeepRecoverClaim.entry)[0]? = some (DeepRecoverClaim.entry
      ⟨first.recipient, args.token, first.amount, t, poseidonHash P preimage⟩) := by
    rw [List.getElem?_map, hread]
    rfl
  have hroot : tree.root = target.root := toBytes32Hex_inj (hmatches.trans htargetText.symm)
  have htimes := releaseTime_of_root_eq htier (hhashed.candidates t hgrid claims hclaims) hhashed.split htree htarget hroot
    hfirst' hfirst
  rw [(hseeded 0 first hfirst).releaseTime_eq] at htimes
  have hcast : ((fieldSecond t : ℕ) : Scalar) = (t : Scalar) := ZMod.natCast_zmod_val _
  have hreleased : ((releaseTime : ℤ) : Scalar) = (releaseTime : Scalar) := Int.cast_natCast _
  apply hne
  apply eq_of_cast_eq (hadmissible.isSafeInteger hgrid) (hadmissible.isSafeInteger hadmissible.onGrid)
  rw [hreleased, ← hcast]
  exact htimes

/-- **A batch is recovered exactly when its first position is zero in the field**, which only that of the first batch is. -/
theorem recovers_iff : Recovers P args releaseTime batch ↔ modulus ∣ b * batch.tier.cap := by
  obtain ⟨htier, hnonempty, hfits, hseeded⟩ := hsplits.batch_spec hbatch
  obtain ⟨first, hfirst⟩ : ∃ first, batch.claims[0]? = some first :=
    ⟨_, List.getElem?_eq_getElem (List.length_pos_iff.mpr hnonempty)⟩
  constructor
  · intro hrecovers
    obtain ⟨-, hclaims, -⟩ := (deepRecover_exact P args).found _ hrecovers
    obtain ⟨-, hentries⟩ := candidate_spec hclaims
    obtain ⟨preimage, hpreimage, hread⟩ := hentries 0 _ (hsearch.recipients_getElem? hfirst)
    have hseededClaim := hseeded 0 first hfirst
    obtain ⟨own, hown, hsecret⟩ := hseededClaim.secret_eq
    dsimp only at hread
    rw [List.getElem?_map, hfirst, Option.map_some, Option.some.injEq, ClaimEntry.recovered,
      DeepRecoverClaim.mk.injEq] at hread
    have hhash := hsecret.symm.trans hread.2.2.2.2
    rw [← hseededClaim.releaseTime_eq, ← hsearch.seed_eq, ← hsearch.token_eq] at hown
    rw [show (fieldSecond ((releaseTime : ℕ) : ℤ)) = releaseTime from hadmissible.fieldSecond, Nat.add_zero,
      ← hseededClaim.releaseTime_eq] at hpreimage
    have hasked := hhashed.secrets 0 first hfirst _ (by simp) _ hown
    have hasked' := hhashed.secrets 0 first hfirst 0 (by simp) _ hpreimage
    have hdigests := congrArg (Nat.cast : ℕ → Scalar) hhash
    rw [cast_poseidonHash, cast_poseidonHash] at hdigests
    have hinputs := P.injOn hasked hasked' hdigests
    obtain ⟨r, -, t, -, rfl⟩ := claimSecretPreimage_eq_ok.mp hown
    obtain ⟨r', -, t', -, rfl⟩ := claimSecretPreimage_eq_ok.mp hpreimage
    simp only [List.map_cons, List.map_nil, List.cons.injEq, and_true, Nat.add_zero, Nat.cast_zero] at hinputs
    exact (ZMod.natCast_eq_zero_iff _ modulus).mp hinputs.2.2.2.2.2
  · intro hstart
    obtain ⟨target, htarget, hmatches⟩ := hsearch.target
    have hclaims := hsearch.candidate_eq hseeded hnonempty hadmissible.fieldSecond hstart
    have hentries : (batch.claims.map ClaimEntry.recovered).map DeepRecoverClaim.entry = batch.claims := by
      have hsame : ∀ c ∈ batch.claims, (DeepRecoverClaim.entry ∘ ClaimEntry.recovered) c = id c := by
        intro c hc
        obtain ⟨j, hj⟩ := List.mem_iff_getElem?.mp hc
        apply ClaimEntry.entry_recovered
        rw [(hseeded j c hj).releaseTime_eq]
        exact hadmissible.fieldSecond
      rw [List.map_map, List.map_congr_left hsame, List.map_id]
    obtain ⟨k, hk, hle⟩ := hadmissible.onGrid
    have hbefore : ∀ j < k, args.Missed P batch.tier (args.startSec + j * args.step) := by
      intro j hj
      have hlt : (j : ℤ) * args.step < k * args.step :=
        Int.mul_lt_mul_of_pos_right (Int.ofNat_lt.mpr hj) hadmissible.step_pos
      exact missed_of_ne hsplits hbatch hsearch hadmissible hhashed ⟨j, rfl, by omega⟩ (by omega)
    rw [hk] at hclaims hle
    rw [← hentries] at htarget
    have hscan := DeepRecoverArgs.scan_finds hadmissible.step_pos hadmissible.unaborted 0
      (DeepRecoverArgs.total_spec hadmissible.step_pos k hle) hle hbefore hclaims htarget hmatches
    have hsafe := List.all_eq_true.mpr hadmissible.safe
    have hrecipients : args.recipients.length = batch.claims.length := by rw [hsearch.recipients_eq, List.length_map]
    have hpos := List.length_pos_iff.mpr hnonempty
    have hstep := hadmissible.step_pos
    have hspan := Int.mul_nonneg (Int.natCast_nonneg k) hstep.le
    have htotal := hadmissible.total_le
    rw [Recovers, hk]
    simp only [deepRecoverReleaseTime, bind_eq_ok, require_eq_ok, orError_eq_ok, find_tier]
    exact ⟨(), by omega, (), hsafe, (), by omega, (), by omega, batch.tier, ⟨htier, hsearch.tierCap_eq.symm⟩, (), by omega,
      (), by omega, hscan⟩

end Recovery

/-- **Deep recovery.** Every search is exact, and a search for a batch of a payout recovers it exactly when the batch starts at an index that is zero in the field. -/
theorem deepRecover_batch (P : Poseidon) : (∀ args : DeepRecoverArgs, args.Exact P) ∧
    ∀ (seed : ℕ) (token : String) (releaseTime : ℕ) (recipients : List PayoutRecipient) (batches : List PayoutBatch)
      (b : ℕ) (batch : PayoutBatch) (args : DeepRecoverArgs),
      Splits P seed token releaseTime recipients batches → batches[b]? = some batch →
      SearchFor P seed token batch args → Admissible args releaseTime →
      SearchHashed P batch (b * batch.tier.cap) args →
      (Recovers P args releaseTime batch ↔ modulus ∣ b * batch.tier.cap) :=
  ⟨deepRecover_exact P, fun _ _ _ _ _ _ _ _ hsplits hbatch hsearch hadmissible hhashed =>
    recovers_iff hsplits hbatch hsearch hadmissible hhashed⟩

/-! ### The first batch of a payout of two -/

deriving instance DecidableEq for PayoutRecipient

instance MerkleTree.decidablePairsIn {α : Type} (h : α → α → α) (asked : Set (α × α)) [DecidablePred (· ∈ asked)] (leaf : ℕ → α) :
    ∀ depth index, Decidable (MerkleTree.PairsIn h asked leaf depth index)
  | 0, _ => isTrue trivial
  | depth + 1, index =>
    have := MerkleTree.decidablePairsIn h asked leaf depth (2 * index)
    have := MerkleTree.decidablePairsIn h asked leaf depth (2 * index + 1)
    inferInstanceAs (Decidable (_ ∧ _ ∧ _))

/-- The secret of a position at a second, and the nodes of the tree of the sixteen positions, by level. -/
def windowSecret (t i : ℕ) : ℕ := 1000 * t + i

def windowNode (t level i : ℕ) : ℕ := 1000 * t + 100 * (level + 1) + i

def windowTable : List (List Scalar × Scalar) :=
  ([7, 1, 2, 1, 5, 16], windowSecret 5 16) :: [4, 5, 6].flatMap fun t : ℕ =>
    ((List.range 16).map fun i : ℕ => ([7, 1, 2, 1, (t : Scalar), (i : Scalar)], (windowSecret t i : Scalar))) ++
    ((List.range 16).map fun i : ℕ => ([(windowSecret t i : Scalar), 1, 2, 1, (t : Scalar)], (windowNode t 0 i : Scalar))) ++
    (List.range 4).flatMap fun level => (List.range (8 / 2 ^ level)).map fun i =>
      ([(windowNode t level (2 * i) : Scalar), windowNode t level (2 * i + 1)], (windowNode t (level + 1) i : Scalar))

def windowPoseidon : Poseidon := .ofTable windowTable (by decide +kernel) (by decide +kernel)

instance : DecidablePred (· ∈ windowPoseidon.asked) := fun xs => inferInstanceAs (Decidable ((windowTable.lookup xs).isSome = true))

def windowClaim (t i : ℕ) : ClaimEntry := ⟨windowSecret t i, "0x01", "0x02", 1, t⟩

def firstBatch : PayoutBatch := ⟨16, (List.range 16).map (windowClaim 5), tier16⟩

/-- A search of three seconds. -/
def windowArgs : DeepRecoverArgs where
  seed := 7
  recipients := List.replicate 16 ⟨"0x01", 1⟩
  token := "0x02"
  tierCap := 16
  targetClaimsRoot := toBytes32Hex (windowNode 5 4 0)
  startSec := 4
  endSec := 6
  stepSec := none
  maxCandidates := none
  aborted _ := false

theorem window_candidate : ∀ t ∈ [4, 5, 6], windowArgs.candidate windowPoseidon (t : ℕ) 0 windowArgs.recipients =
    .ok ((List.range 16).map fun i => (windowClaim t i).recovered) := by
  decide +kernel

theorem windowArgs_grid {t : ℤ} (hgrid : windowArgs.OnGrid t) : ∃ s ∈ [4, 5, 6], t = (s : ℕ) := by
  obtain ⟨k, hk, hle⟩ := hgrid
  have hstep : windowArgs.step = 1 := rfl
  have hstart : windowArgs.startSec = 4 := rfl
  have hend : windowArgs.endSec = 6 := rfl
  rw [hstep, hstart, Int.mul_one] at hk
  refine ⟨k + 4, ?_, ?_⟩
  · have hk : k < 3 := by omega
    interval_cases k <;> decide
  · rw [hk]
    push_cast
    ring

theorem windowArgs_admissible : Admissible windowArgs 5 where
  safe := by
    have hall : [windowArgs.startSec, windowArgs.endSec, windowArgs.step].all isSafeInteger = true := by decide +kernel
    exact List.all_eq_true.mp hall
  step_pos := Int.one_pos
  total_le := show (((6 : ℤ) - 4) / 1).toNat + 1 ≤ 200000 by decide +kernel
  unaborted _ := rfl
  onGrid := ⟨1, by decide, by decide⟩

theorem treeHashed_window {t : ℕ} (ht : t ∈ [4, 5, 6]) : TreeHashed windowPoseidon tier16 ((List.range 16).map (windowClaim t)) := by
  have hfields : ∀ t ∈ [4, 5, 6], ((List.range 16).map (windowClaim t)).mapM ClaimEntry.fields =
      .ok ((List.range 16).map fun i => ⟨windowSecret t i, 1, 2, 1, t⟩) := by
    decide +kernel
  intro claims hclaims
  obtain rfl := Except.ok.inj ((hfields t ht).symm.trans hclaims)
  simp only [List.mem_cons, List.not_mem_nil, or_false] at ht
  rcases ht with rfl | rfl | rfl <;> decide +kernel

theorem window_searchHashed : SearchHashed windowPoseidon firstBatch 0 windowArgs where
  split := treeHashed_window (by decide)
  candidates := by
    intro t ht claims hclaims
    obtain ⟨s, hs, rfl⟩ := windowArgs_grid ht
    obtain rfl := Except.ok.inj ((window_candidate s hs).symm.trans hclaims)
    have hentries : ((List.range 16).map fun i => (windowClaim s i).recovered).map DeepRecoverClaim.entry =
        (List.range 16).map (windowClaim s) := by
      have hsecond : ∀ s ∈ [4, 5, 6], fieldSecond (s : ℕ) = s := by decide +kernel
      rw [List.map_map]
      exact List.map_congr_left fun i _ => ClaimEntry.entry_recovered (hsecond s hs)
    rw [hentries]
    exact treeHashed_window hs
  secrets := by
    intro j c hc index hindex preimage hpreimage
    have hj : j < 16 := by
      have hlt := (List.getElem?_eq_some_iff.mp hc).1
      rwa [firstBatch, List.length_map, List.length_range] at hlt
    obtain rfl : windowClaim 5 j = c := by
      rw [firstBatch, List.getElem?_map, List.getElem?_range hj] at hc
      exact Option.some.inj hc
    obtain rfl : index = j := by simpa using hindex
    have hread : claimSecretPreimage 7 "0x01" "0x02" 1 5 index = .ok [7, 1, 2, 1, 5, index] := by
      rw [claimSecretPreimage_eq_ok]
      exact ⟨1, by decide +kernel, 2, by decide +kernel, rfl⟩
    obtain rfl := Except.ok.inj (hread.symm.trans hpreimage)
    have hasked : ∀ i : ℕ, i < 16 → [7, 1, 2, 1, 5, (i : Scalar)] ∈ windowPoseidon.asked := by decide +kernel
    exact hasked index hj

theorem window_searchFor : SearchFor windowPoseidon 7 "0x02" firstBatch windowArgs := by
  have hroot : (buildClaimsTree windowPoseidon firstBatch.claims firstBatch.tier).map ClaimsTree.root = .ok (windowNode 5 4 0) := by
    decide +kernel
  cases hbuilt : buildClaimsTree windowPoseidon firstBatch.claims firstBatch.tier with
  | error e =>
    rw [hbuilt] at hroot
    cases hroot
  | ok tree =>
    rw [hbuilt] at hroot
    exact ⟨rfl, rfl, rfl, rfl, tree, hbuilt, by rw [DeepRecoverArgs.Matches, Except.ok.inj hroot]; rfl⟩

theorem deepRecover_batch_first : Recovers windowPoseidon windowArgs 5 firstBatch ↔ modulus ∣ 0 * 16 := by
  have hsecrets : withDeterministicSecrets windowPoseidon 7 "0x02" 0 (List.replicate 17 ⟨"0x01", 1, 5, none⟩) =
      .ok ((List.range 17).map fun i => ⟨"0x01", 1, 5, some (windowSecret 5 i)⟩) := by
    decide +kernel
  have hsplits : Splits windowPoseidon 7 "0x02" 5 (List.replicate 17 ⟨"0x01", 1, 5, none⟩)
      [firstBatch, ⟨1, [windowClaim 5 16], tier16⟩] := by
    refine ⟨?_, ?_, _, some tier16, fun _ => 0, by simp [tiers], hsecrets, rfl⟩ <;> simp
  exact (deepRecover_batch windowPoseidon).2 7 "0x02" 5 _ _ 0 firstBatch windowArgs hsplits rfl window_searchFor
    windowArgs_admissible window_searchHashed

/-! ### The second batch -/

/-- The secrets of the positions 0 and 16, their leaves, and the trees of either one alone. -/
def lostTable : List (List Scalar × Scalar) :=
  [([7, 1, 2, 1, 5, 0], 100), ([7, 1, 2, 1, 5, 16], 101), ([100, 1, 2, 1, 5], 200), ([101, 1, 2, 1, 5], 201),
    ([0, 0], 301), ([301, 301], 302), ([302, 302], 303),
    ([200, 0], 401), ([401, 301], 402), ([402, 302], 403), ([403, 303], 404),
    ([201, 0], 501), ([501, 301], 502), ([502, 302], 503), ([503, 303], 504)]

def lostPoseidon : Poseidon := .ofTable lostTable (by decide +kernel) (by decide +kernel)

instance : DecidablePred (· ∈ lostPoseidon.asked) := fun xs => inferInstanceAs (Decidable ((lostTable.lookup xs).isSome = true))

def lostRecipient : PayoutRecipient := ⟨"0x01", 1, 5, none⟩

def lostClaim (secret : ℕ) : ClaimEntry := ⟨secret, "0x01", "0x02", 1, 5⟩

def lostBatch (secret : ℕ) : PayoutBatch := ⟨1, [lostClaim secret], tier16⟩

/-- A search of the one right second. -/
def lostArgs (root : ℕ) : DeepRecoverArgs where
  seed := 7
  recipients := [⟨"0x01", 1⟩]
  token := "0x02"
  tierCap := 16
  targetClaimsRoot := toBytes32Hex root
  startSec := 5
  endSec := 5
  stepSec := none
  maxCandidates := none
  aborted _ := false

theorem lostArgs_grid {root : ℕ} {t : ℤ} : (lostArgs root).OnGrid t ↔ t = 5 := by
  constructor
  · intro hgrid
    obtain ⟨k, hk, hle⟩ := hgrid
    have hstep : (lostArgs root).step = 1 := rfl
    have hstart : (lostArgs root).startSec = 5 := rfl
    have hend : (lostArgs root).endSec = 5 := rfl
    rw [hstep, hstart, Int.mul_one] at hk
    omega
  · intro ht
    exact ⟨0, ht, ht.le⟩

theorem lostArgs_admissible (root : ℕ) : Admissible (lostArgs root) 5 where
  safe := by
    have hall : [(5 : ℤ), 5, 1].all isSafeInteger = true := by decide +kernel
    exact List.all_eq_true.mp hall
  step_pos := Int.one_pos
  total_le := show (((5 : ℤ) - 5) / 1).toNat + 1 ≤ 200000 by decide +kernel
  unaborted _ := rfl
  onGrid := lostArgs_grid.mpr rfl

theorem treeHashed_lost {secret : ℕ} (hsecret : secret ∈ [100, 101]) : TreeHashed lostPoseidon tier16 [lostClaim secret] := by
  have hfields : ∀ secret ∈ [100, 101], [lostClaim secret].mapM ClaimEntry.fields = .ok [⟨secret, 1, 2, 1, 5⟩] := by
    decide +kernel
  intro claims hclaims
  obtain rfl := Except.ok.inj ((hfields secret hsecret).symm.trans hclaims)
  simp only [List.mem_cons, List.not_mem_nil, or_false] at hsecret
  rcases hsecret with rfl | rfl <;> decide +kernel

theorem lost_candidate (root : ℕ) : (lostArgs root).candidate lostPoseidon 5 0 (lostArgs root).recipients =
    .ok [(lostClaim 100).recovered] := by
  have hpreimage : claimSecretPreimage 7 "0x01" "0x02" 1 (fieldSecond 5) 0 = .ok [7, 1, 2, 1, 5, 0] := by decide +kernel
  have hsecret : poseidonHash lostPoseidon [7, 1, 2, 1, 5, 0] = 100 := by decide +kernel
  simp only [lostArgs, DeepRecoverArgs.candidate, bind_eq_ok, pure_eq_ok]
  refine ⟨_, hpreimage, [], rfl, ?_⟩
  rw [hsecret]
  rfl

theorem lost_searchHashed (root : ℕ) : SearchHashed lostPoseidon (lostBatch 101) 16 (lostArgs root) where
  split := treeHashed_lost (by decide)
  candidates := by
    intro t ht claims hclaims
    obtain rfl := lostArgs_grid.mp ht
    obtain rfl := Except.ok.inj ((lost_candidate root).symm.trans hclaims)
    have hentry : [(lostClaim 100).recovered].map DeepRecoverClaim.entry = [lostClaim 100] := by
      rw [List.map_singleton, ClaimEntry.entry_recovered (lostArgs_admissible root).fieldSecond]
    rw [hentry]
    exact treeHashed_lost (by decide)
  secrets := by
    intro j c hc index hindex preimage hpreimage
    obtain ⟨rfl, rfl⟩ : j = 0 ∧ lostClaim 101 = c := by
      cases j with
      | zero => exact ⟨rfl, Option.some.inj hc⟩
      | succ j => exact absurd hc (by simp [lostBatch])
    have hread : claimSecretPreimage 7 "0x01" "0x02" 1 5 index = .ok [7, 1, 2, 1, 5, index] := by
      rw [claimSecretPreimage_eq_ok]
      exact ⟨1, by decide +kernel, 2, by decide +kernel, rfl⟩
    obtain rfl := Except.ok.inj (hread.symm.trans hpreimage)
    simp only [List.mem_cons, List.not_mem_nil, or_false, Nat.add_zero] at hindex
    rcases hindex with rfl | rfl <;> decide +kernel

theorem lost_searchFor : ∃ root, SearchFor lostPoseidon 7 "0x02" (lostBatch 101) (lostArgs root) := by
  have hbuilt : (buildClaimsTree lostPoseidon [lostClaim 101] tier16).isOk = true := by decide +kernel
  obtain ⟨tree, htree⟩ := exists_of_isOk hbuilt
  exact ⟨tree.root, rfl, rfl, rfl, rfl, tree, htree, rfl⟩

/-- The second batch of seventeen equal lines is not found. -/
theorem lost_second_batch : ¬∀ (P : Poseidon) (seed : ℕ) (token : String) (releaseTime : ℕ) (recipients : List PayoutRecipient)
    (batches : List PayoutBatch) (b : ℕ) (batch : PayoutBatch) (args : DeepRecoverArgs),
    Splits P seed token releaseTime recipients batches → batches[b]? = some batch →
    SearchFor P seed token batch args → Admissible args releaseTime →
    SearchHashed P batch (b * batch.tier.cap) args → Recovers P args releaseTime batch := by
  intro hall
  obtain ⟨root, hsearch⟩ := lost_searchFor
  have hhashed : SearchHashed lostPoseidon (lostBatch 101) (1 * tier16.cap) (lostArgs root) :=
    lost_searchHashed root
  have hsecrets : withDeterministicSecrets lostPoseidon 7 "0x02" 0 (List.replicate 17 lostRecipient) =
      .ok (⟨"0x01", 1, 5, some 100⟩ :: List.replicate 15 ⟨"0x01", 1, 5, some 0⟩ ++ [⟨"0x01", 1, 5, some 101⟩]) := by
    decide +kernel
  have hsplits : Splits lostPoseidon 7 "0x02" 5 (List.replicate 17 lostRecipient)
      [⟨16, lostClaim 100 :: List.replicate 15 (lostClaim 0), tier16⟩, lostBatch 101] := by
    refine ⟨?_, ?_, _, some tier16, fun _ => 0, by simp [tiers], hsecrets, rfl⟩ <;> simp [lostRecipient]
  have hrecovers := hall lostPoseidon 7 "0x02" 5 _ _ 1 (lostBatch 101) (lostArgs root) hsplits rfl hsearch
    (lostArgs_admissible root) hhashed
  have hdvd := (recovers_iff hsplits rfl hsearch (lostArgs_admissible root) hhashed).mp hrecovers
  exact absurd hdvd (by decide)

end Sdk

end ScatterDex
