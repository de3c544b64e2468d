import ScatterDex.Sdk.Authorize

/-!
# Payouts of the SDK

`claimSeedFromKey`, the derivation of claim secrets from a seed, and `splitPayout`, which cuts the recipients of a payout into batches of one settlement each.
-/

namespace ScatterDex

open Bn254 Fallible

namespace Sdk

variable (P : Poseidon)

/-! ### Claim secrets -/

/-- `claimSeedFromKey`, on the keccak of ethers: one seed for each key. -/
def claimSeedFromKey (keccak256 : List UInt8 → ℕ) (privateKey : List UInt8) : Except String ℕ := do
  require (¬privateKey.length ≠ 32) s!"claimSeedFromKey: expected a 32-byte key, got {privateKey.length}"
  return keccak256 ("zkScatter:claim-seed:v1".toUTF8.toList ++ privateKey) % modulus

def claimSecretPreimage (seed : ℕ) (recipient token : String) (amount releaseTime index : ℕ) : Except String (List ℕ) := do
  let recipient ← bigInt recipient
  let token ← bigInt token
  return [seed, recipient, token, amount, releaseTime, index]

structure PayoutRecipient where
  recipient : String
  amount : ℕ
  releaseTime : ℕ
  secret : Option ℕ

/-- The secret of the recipient at index `i`: its own one, or the derived one. -/
def recipientSecret (seed : ℕ) (token : String) (i : ℕ) (r : PayoutRecipient) : Except String ℕ :=
  match r.secret with
  | some secret => .ok secret
  | none => (claimSecretPreimage seed r.recipient token r.amount r.releaseTime i).map (poseidonHash P)

/-- `withDeterministicSecrets`, from the recipient at index `i` on. -/
def withDeterministicSecrets (seed : ℕ) (token : String) : ℕ → List PayoutRecipient → Except String (List PayoutRecipient)
  | _, [] => .ok []
  | i, r :: recipients => do
    let secret ← recipientSecret P seed token i r
    let rest ← withDeterministicSecrets seed token (i + 1) recipients
    return { r with secret := some secret } :: rest

/-! ### Batches -/

structure PayoutBatch where
  totalAmount : ℕ
  claims : List ClaimEntry
  tier : CircuitTier

/-- The claims of a batch that starts at index `i`; `generateSecret` fills in the secrets that are missing. -/
def batchClaims (token : String) (generateSecret : ℕ → ℕ) (i : ℕ) (recipients : List PayoutRecipient) : List ClaimEntry :=
  recipients.mapIdx fun j r => {
    secret := r.secret.getD (generateSecret (i + j))
    recipient := r.recipient
    token
    amount := r.amount
    releaseTime := r.releaseTime }

/-- The batch loop of `splitPayout`, one batch at a time. A batch takes at least one recipient, so their number bounds the loop. -/
def batchLoop (tier : CircuitTier) (token : String) (generateSecret : ℕ → ℕ) :
    ℕ → ℕ → List PayoutRecipient → List PayoutBatch
  | 0, _, _ => []
  | _ + 1, _, [] => []
  | fuel + 1, i, recipients =>
    let claims := batchClaims token generateSecret i (recipients.take tier.cap)
    { totalAmount := (claims.map ClaimEntry.amount).sum, claims, tier } ::
      batchLoop tier token generateSecret fuel (i + tier.cap) (recipients.drop tier.cap)

/-- `splitPayout` without a tier of the caller's. -/
def splitPayout (token : String) (generateSecret : ℕ → ℕ) (recipients : List PayoutRecipient) :
    Except String (List PayoutBatch) := do
  require (¬recipients.length = 0) "splitPayout: at least one recipient is required"
  let tier ← pickActiveTier recipients.length
  return batchLoop tier token generateSecret recipients.length 0 recipients

/-- `splitPayout`, with the tier of its options. -/
def splitPayoutOpts (tier : Option CircuitTier) (token : String) (generateSecret : ℕ → ℕ) (recipients : List PayoutRecipient) :
    Except String (List PayoutBatch) :=
  match tier with
  | none => splitPayout token generateSecret recipients
  | some tier => do
    require (¬recipients.length = 0) "splitPayout: at least one recipient is required"
    return batchLoop tier token generateSecret recipients.length 0 recipients

/-! ### What a payout of one batch is -/

variable {P} {seed : ℕ} {token : String} {generateSecret : ℕ → ℕ}

theorem pickActiveTier_spec {n : ℕ} {tier : CircuitTier} (hpick : pickActiveTier n = .ok tier) :
    tier ∈ tiers ∧ (n ≤ 128 → n ≤ tier.cap) := by
  simp only [pickActiveTier, bind_eq_ok, require_eq_ok, pure_eq_ok] at hpick
  obtain ⟨-, -, rfl⟩ := hpick
  cases hfind : activeTiers.find? fun tier => n ≤ tier.cap with
  | none => exact ⟨by simp [tiers], id⟩
  | some tier =>
    have hfits := List.find?_some hfind
    exact ⟨List.mem_of_find?_eq_some hfind, fun _ => of_decide_eq_true hfits⟩

theorem withDeterministicSecrets_spec {i : ℕ} {recipients seeded : List PayoutRecipient}
    (hseeded : withDeterministicSecrets P seed token i recipients = .ok seeded) :
    List.Forall₂ (fun r s => s.recipient = r.recipient ∧ s.amount = r.amount ∧ s.releaseTime = r.releaseTime)
      recipients seeded := by
  induction recipients generalizing i seeded with
  | nil =>
    obtain rfl := Except.ok.inj hseeded
    exact .nil
  | cons r recipients ih =>
    simp only [withDeterministicSecrets, bind_eq_ok, pure_eq_ok] at hseeded
    obtain ⟨secret, -, rest, hrest, rfl⟩ := hseeded
    exact .cons ⟨rfl, rfl, rfl⟩ (ih hrest)

theorem batchClaims_spec (token : String) (generateSecret : ℕ → ℕ) (i : ℕ) (recipients : List PayoutRecipient) :
    List.Forall₂ (fun r c => c.recipient = r.recipient ∧ c.amount = r.amount ∧ c.releaseTime = r.releaseTime ∧ c.token = token)
      recipients (batchClaims token generateSecret i recipients) := by
  rw [List.forall₂_iff_get]
  refine ⟨by rw [batchClaims, List.length_mapIdx], fun j hj hj' => ?_⟩
  simp [batchClaims]

theorem withDeterministicSecrets_getElem? {i : ℕ} {recipients seeded : List PayoutRecipient}
    (hseeded : withDeterministicSecrets P seed token i recipients = .ok seeded) (j : ℕ) {s : PayoutRecipient}
    (hs : seeded[j]? = some s) :
    ∃ r secret, recipients[j]? = some r ∧ recipientSecret P seed token (i + j) r = .ok secret ∧
      s = { r with secret := some secret } := by
  induction recipients generalizing i seeded j with
  | nil =>
    obtain rfl := Except.ok.inj hseeded
    exact absurd hs (by simp)
  | cons r recipients ih =>
    simp only [withDeterministicSecrets, bind_eq_ok, pure_eq_ok] at hseeded
    obtain ⟨secret, hsecret, rest, hrest, rfl⟩ := hseeded
    cases j with
    | zero =>
      obtain rfl := Option.some.inj hs
      exact ⟨r, secret, rfl, hsecret, rfl⟩
    | succ j =>
      obtain ⟨r', secret', hr', hsecret', rfl⟩ := ih hrest j hs
      exact ⟨r', secret', hr', by rwa [Nat.add_assoc, Nat.add_comm 1] at hsecret', rfl⟩

/-- Batch `b` starts at index `b * cap`. -/
theorem batchLoop_getElem? {tier : CircuitTier} {fuel i : ℕ} {recipients : List PayoutRecipient} {b : ℕ} {batch : PayoutBatch}
    (hbatch : (batchLoop tier token generateSecret fuel i recipients)[b]? = some batch) :
    batch.tier = tier ∧ b * tier.cap < recipients.length ∧
      batch.claims = batchClaims token generateSecret (i + b * tier.cap)
        ((recipients.drop (b * tier.cap)).take tier.cap) := by
  induction fuel generalizing i recipients b with
  | zero => exact absurd hbatch (by simp [batchLoop])
  | succ fuel ih =>
    cases recipients with
    | nil => exact absurd hbatch (by simp [batchLoop])
    | cons r recipients =>
      cases b with
      | zero =>
        obtain rfl := Option.some.inj hbatch
        simp
      | succ b =>
        simp only [batchLoop, List.getElem?_cons_succ] at hbatch
        obtain ⟨htier, hlength, hclaims⟩ := ih hbatch
        have hstart : tier.cap + b * tier.cap = (b + 1) * tier.cap := by rw [Nat.succ_mul, Nat.add_comm]
        rw [List.length_drop] at hlength
        rw [List.drop_drop, Nat.add_assoc, hstart] at hclaims
        exact ⟨htier, by omega, hclaims⟩

theorem splitPayout_single {recipients : List PayoutRecipient} {batch : PayoutBatch}
    (hsplit : splitPayout token generateSecret recipients = .ok [batch]) :
    batch.tier ∈ tiers ∧ recipients.length ≤ batch.tier.cap ∧
      batch.claims = batchClaims token generateSecret 0 recipients := by
  simp only [splitPayout, bind_eq_ok, require_eq_ok, pure_eq_ok] at hsplit
  obtain ⟨-, hpos, tier, hpick, hloop⟩ := hsplit
  obtain ⟨htier, -⟩ := pickActiveTier_spec hpick
  obtain ⟨hpow, -⟩ := tiers_spec htier
  have hcap := Nat.two_pow_pos tier.claimsTreeDepth
  cases recipients with
  | nil => exact absurd rfl hpos
  | cons r recipients =>
    simp only [List.length_cons, batchLoop, List.cons.injEq] at hloop
    obtain ⟨rfl, hrest⟩ := hloop
    -- a recipient past the first batch would open a second one
    have hfits : (r :: recipients).length ≤ tier.cap := by
      rw [List.length_cons]
      by_contra hlong
      have hdrop : 0 < ((r :: recipients).drop tier.cap).length := by
        rw [List.length_drop, List.length_cons]
        omega
      obtain ⟨fuel, hfuel⟩ := Nat.exists_eq_succ_of_ne_zero (show recipients.length ≠ 0 by omega)
      obtain ⟨next, others, hcons⟩ := List.exists_cons_of_length_pos hdrop
      rw [hfuel, hcons] at hrest
      simp only [batchLoop] at hrest
      exact List.cons_ne_nil _ _ hrest
    refine ⟨htier, hfits, ?_⟩
    rw [List.take_of_length_le hfits]

end Sdk

end ScatterDex
