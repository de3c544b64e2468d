import ScatterDex.Circuit.Claim
import ScatterDex.Protocol.ClaimsSolvency
import ScatterDex.Protocol.UserProtection

/-!
# Claims groups are paid leaf by leaf

A group remembers a root, a total and how much was claimed; the leaves are known to its owner only. `ClaimsLedger` ties a state to the assignments its groups were registered from and to the positions that were paid: the positions are distinct, the spent claim nullifiers are theirs, and each group's counter is the sum of their amounts. A leaf that is not among them is therefore still covered, and its claim passes every check that reads the group.
-/

namespace ScatterDex

open Bn254 Fallible PrivateSettlement

/-! ### What stands behind a group and a claim -/

/-- The claims an entry point executes, in order. -/
def Call.claims : Call → List ClaimParams
  | .claimWithProof _ c => [c]
  | .claimWithProofBatch _ claims => claims
  | _ => []

/-- The authorize proofs an entry point takes. -/
def Call.proofs : Call → List AuthorizeProof
  | .settleAuth _ p => [p.maker, p.taker]
  | .settleWithDex _ p _ => [p.proof]
  | .scatterDirectAuth _ p => [p.proof]
  | _ => []

/-- The assignment behind a claim, at a compiled depth. -/
def PrivateSettlement.ClaimParams.Backed (C : Circomlib) (P : Poseidon) (c : ClaimParams) : Prop :=
  ∃ tier depth s, (tier, depth) ∈ tiers ∧ Circuit.Claim C P depth s ∧ s.publicInputs.map ZMod.val = c.pubSignals

/-- The authorize proofs and the claims of a transaction are backed. -/
def Call.ClaimsBacked (C : Circomlib) (P : Poseidon) (call : Call) : Prop :=
  (∀ ap ∈ call.proofs, ap.Backed C P) ∧ ∀ c ∈ call.claims, c.Backed C P

/-- A group is the public side of an assignment of the authorize circuit at its tier. -/
structure ClaimsGroup.Opened (C : Circomlib) (P : Poseidon) (root : ℕ) (group : ClaimsGroup)
    (s : Circuit.AuthorizeSignals) : Prop where
  satisfied : ∃ claimsTreeDepth, (group.tier.toNat, claimsTreeDepth) ∈ tiers ∧
    Circuit.Authorize C P commitTreeDepth group.tier.toNat claimsTreeDepth s
  root : s.claimsRoot.val = root
  token : s.buyToken.val = group.token.toNat
  totalLocked : s.totalLocked.val = group.totalLocked

/-- A claim asks for the leaf at a position, under the nullifier of that position. -/
structure PrivateSettlement.ClaimParams.Opens (P : Poseidon) (c : ClaimParams) (s : Circuit.AuthorizeSignals) (i : ℕ) :
    Prop where
  used : i < s.claimCount.val
  amount : c.amount = (s.claimAmounts i).val
  token : c.token.toNat = (s.claimTokens i).val
  recipient : c.recipient.toNat = (s.claimRecipients i).val
  releaseTime : c.releaseTime = (s.claimReleaseTimes i).val
  nullifier : ∃ nullifier : Scalar, c.claimNullifier = nullifier.val ∧
    P.Digest [tagClaimNull, s.claimSecrets i, (i : Scalar), s.claimsRoot] nullifier

variable {C : Circomlib} {D : Deployment} {P : Poseidon} {env : Env} {w w' : World}

theorem AuthorizeProof.Backing.opened {ap : AuthorizeProof} {s : Circuit.AuthorizeSignals} (hs : ap.Backing C P s)
    (totalClaimed : ℕ) :
    ClaimsGroup.Opened C P ap.claimsRoot ⟨ap.totalLocked.toNat, totalClaimed, ap.buyToken, ap.tier⟩ s := by
  obtain ⟨-, -, -, -, -, -, hbuy, -, -, -, -, hroot, hlocked, -, -⟩ := hs.vals
  exact ⟨hs.satisfied, hroot, hbuy, hlocked⟩

/-- **A backed claim against a group opens one of its used leaves.** -/
theorem ClaimsGroup.Opened.opens {root : ℕ} {group : ClaimsGroup} {s : Circuit.AuthorizeSignals}
    (hgroup : group.Opened C P root s) {c : ClaimParams} (hbacked : c.Backed C P) (hroot : c.claimsRoot = root) :
    ∃ i, c.Opens P s i := by
  obtain ⟨tier, depth, claim, -, hclaim, hsignals⟩ := hbacked
  obtain ⟨claimsTreeDepth, htier, hauthorize⟩ := hgroup.satisfied
  obtain ⟨hmax, hsmall⟩ := tier_spec htier
  simp only [Circuit.ClaimSignals.publicInputs, ClaimParams.pubSignals, List.map_cons, List.map_nil, List.cons.injEq,
    and_true] at hsignals
  obtain ⟨hclaimRoot, hnullifier, hamount, htoken, hrecipient, hrelease⟩ := hsignals
  have hsame : claim.claimsRoot = s.claimsRoot := by
    apply ZMod.val_injective
    rw [hclaimRoot, hgroup.root, hroot]
  obtain ⟨i, hused, hleaf, hdigest⟩ := hclaim.opens hmax hsmall hauthorize hsame
  simp only [Circuit.ClaimSignals.leaf, Circuit.AuthorizeSignals.claimLeaf, List.cons.injEq, and_true] at hleaf
  obtain ⟨-, hrecipient', htoken', hamount', hrelease'⟩ := hleaf
  refine ⟨i, hused, ?_, ?_, ?_, ?_, claim.nullifier, hnullifier.symm, hdigest⟩
  · rw [← hamount, hamount']
  · rw [← htoken, htoken']
  · rw [← hrecipient, hrecipient']
  · rw [← hrelease, hrelease']

theorem ClaimsGroup.Opened.count_le {root : ℕ} {group : ClaimsGroup} {s : Circuit.AuthorizeSignals}
    (hgroup : group.Opened C P root s) : s.claimCount.val ≤ 128 := by
  obtain ⟨claimsTreeDepth, htier, hauthorize⟩ := hgroup.satisfied
  obtain ⟨-, hsmall⟩ := tier_spec htier
  exact (hauthorize.claimCount_le hsmall).trans hsmall

theorem PrivateSettlement.ClaimParams.Opens.position_inj {root root' : ℕ} {group group' : ClaimsGroup}
    {s s' : Circuit.AuthorizeSignals} (hgroup : group.Opened C P root s) (hgroup' : group'.Opened C P root' s')
    {c c' : ClaimParams} {i i' : ℕ} (hopens : c.Opens P s i) (hopens' : c'.Opens P s' i')
    (hnullifier : c.claimNullifier = c'.claimNullifier) : root = root' ∧ i = i' := by
  obtain ⟨n, hn, hdigest⟩ := hopens.nullifier
  obtain ⟨n', hn', hdigest'⟩ := hopens'.nullifier
  have hsame : n = n' := ZMod.val_injective _ (hn.symm.trans (hnullifier.trans hn'))
  subst hsame
  have hi : i < 2 ^ 128 := lt_of_lt_of_le hopens.used (hgroup.count_le.trans (by decide))
  have hi' : i' < 2 ^ 128 := lt_of_lt_of_le hopens'.used (hgroup'.count_le.trans (by decide))
  obtain ⟨hroots, hpositions⟩ := Circuit.claimNullifier_inj hi hi' hdigest hdigest'
  exact ⟨by rw [← hgroup.root, ← hgroup'.root, hroots], hpositions⟩

theorem PrivateSettlement.ClaimParams.Opens.nullifier_eq {s : Circuit.AuthorizeSignals} {c c' : ClaimParams} {i : ℕ}
    (hopens : c.Opens P s i) (hopens' : c'.Opens P s i) : c.claimNullifier = c'.claimNullifier := by
  obtain ⟨n, hn, hdigest⟩ := hopens.nullifier
  obtain ⟨n', hn', hdigest'⟩ := hopens'.nullifier
  rw [hn, hn', hdigest.eq hdigest']

/-! ### The ledger of claims -/

/-- The amounts of the claims against a root. -/
def paidTo (root : ℕ) (done : List ClaimParams) : ℕ :=
  (done.map fun c => if c.claimsRoot = root then c.amount else 0).sum

theorem paidTo_append (root : ℕ) (done : List ClaimParams) (c : ClaimParams) :
    paidTo root (done ++ [c]) = paidTo root done + if c.claimsRoot = root then c.amount else 0 := by
  simp [paidTo]

/-- A claim and the position it was paid for: a leaf of a registered group. -/
def PaidAt (P : Poseidon) (groups : ℕ → ClaimsGroup) (opened : ℕ → Circuit.AuthorizeSignals) (c : ClaimParams)
    (position : ℕ × ℕ) : Prop :=
  position.1 = c.claimsRoot ∧ (groups c.claimsRoot).token ≠ 0 ∧ c.Opens P (opened c.claimsRoot) position.2

/-- The claims done so far, against the assignments behind the groups: each was paid for a position of its own. -/
structure ClaimsLedger (C : Circomlib) (P : Poseidon) (storage : PrivateSettlement)
    (opened : ℕ → Circuit.AuthorizeSignals) (done : List ClaimParams) (positions : List (ℕ × ℕ)) : Prop where
  group : ∀ root, (storage.claimsGroups root).token ≠ 0 → (storage.claimsGroups root).Opened C P root (opened root)
  matched : List.Forall₂ (PaidAt P storage.claimsGroups opened) done positions
  nodup : positions.Nodup
  spent : ∀ k, storage.claimNullifiers k = true → ∃ c ∈ done, c.claimNullifier = k
  marked : ∀ c ∈ done, storage.claimNullifiers c.claimNullifier = true
  totalClaimed : ∀ root, (storage.claimsGroups root).token ≠ 0 →
    (storage.claimsGroups root).totalClaimed = paidTo root done

namespace ClaimsLedger

variable {storage storage' : PrivateSettlement} {opened : ℕ → Circuit.AuthorizeSignals} {done : List ClaimParams}
  {positions : List (ℕ × ℕ)}

theorem congr (hledger : ClaimsLedger C P storage opened done positions)
    (hgroups : storage'.claimsGroups = storage.claimsGroups) (hnullifiers : storage'.claimNullifiers = storage.claimNullifiers) :
    ClaimsLedger C P storage' opened done positions := by
  constructor
  · rw [hgroups]
    exact hledger.group
  · rw [hgroups]
    exact hledger.matched
  · exact hledger.nodup
  · rw [hnullifiers]
    exact hledger.spent
  · rw [hnullifiers]
    exact hledger.marked
  · rw [hgroups]
    exact hledger.totalClaimed

/-- A paid position belongs to a claim. -/
theorem claim_of_position (hledger : ClaimsLedger C P storage opened done positions) {position : ℕ × ℕ}
    (hmem : position ∈ positions) : ∃ c ∈ done, PaidAt P storage.claimsGroups opened c position := by
  obtain ⟨i, hi⟩ := List.mem_iff_get.mp hmem
  have hlength : i.val < done.length := by
    rw [hledger.matched.length_eq]
    exact i.isLt
  have hpaid := hledger.matched.get hlength i.isLt
  rw [hi] at hpaid
  exact ⟨_, List.get_mem done ⟨i, hlength⟩, hpaid⟩

theorem position_of_claim (hledger : ClaimsLedger C P storage opened done positions) {c : ClaimParams} (hmem : c ∈ done) :
    ∃ position ∈ positions, PaidAt P storage.claimsGroups opened c position := by
  obtain ⟨i, hi⟩ := List.mem_iff_get.mp hmem
  have hlength : i.val < positions.length := hledger.matched.length_eq ▸ i.isLt
  have hpaid := hledger.matched.get i.isLt hlength
  rw [hi] at hpaid
  exact ⟨_, List.get_mem positions ⟨i, hlength⟩, hpaid⟩

/-- **A position is paid exactly when its nullifier is spent.** -/
theorem spent_iff (hledger : ClaimsLedger C P storage opened done positions) {c : ClaimParams} {i : ℕ}
    (hregistered : (storage.claimsGroups c.claimsRoot).token ≠ 0) (hopens : c.Opens P (opened c.claimsRoot) i) :
    storage.claimNullifiers c.claimNullifier = true ↔ (c.claimsRoot, i) ∈ positions := by
  constructor
  · intro hspent
    obtain ⟨c', hc', hnullifier⟩ := hledger.spent _ hspent
    obtain ⟨⟨root, j⟩, hmem, hroot, hregistered', hopens'⟩ := hledger.position_of_claim hc'
    obtain ⟨hroots, hpositions⟩ := ClaimParams.Opens.position_inj (hledger.group _ hregistered')
      (hledger.group _ hregistered) hopens' hopens hnullifier
    rw [← hroots, ← hpositions, ← hroot]
    exact hmem
  · intro hmem
    obtain ⟨c', hc', hroot, -, hopens'⟩ := hledger.claim_of_position hmem
    dsimp only at hroot hopens'
    rw [← hroot] at hopens'
    rw [hopens.nullifier_eq hopens']
    exact hledger.marked c' hc'

theorem paidTo_eq {groups : ℕ → ClaimsGroup} (hmatched : List.Forall₂ (PaidAt P groups opened) done positions) (root : ℕ) :
    paidTo root done =
      (positions.map fun p => if p.1 = root then ((opened root).claimAmounts p.2).val else 0).sum := by
  induction hmatched with
  | nil => rfl
  | cons hpaid _ ih =>
    obtain ⟨hroot, -, hopens⟩ := hpaid
    rw [paidTo, List.map_cons, List.sum_cons, List.map_cons, List.sum_cons, ← ih, ← paidTo, hroot]
    congr 1
    split
    case isTrue heq => rw [hopens.amount, heq]
    case isFalse => rfl

theorem sum_positions (hnodup : positions.Nodup) (root : ℕ) (amount : ℕ → ℕ) :
    (positions.map fun p => if p.1 = root then amount p.2 else 0).sum =
      ∑ i ∈ ((positions.filter fun p => p.1 = root).map Prod.snd).toFinset, amount i := by
  induction positions with
  | nil => rfl
  | cons p positions ih =>
    obtain ⟨hfresh, hnodup⟩ := List.nodup_cons.mp hnodup
    rw [List.map_cons, List.sum_cons, ih hnodup, List.filter_cons]
    by_cases hp : p.1 = root
    · have hnew : p.2 ∉ ((positions.filter fun p => p.1 = root).map Prod.snd).toFinset := by
        rw [List.mem_toFinset, List.mem_map]
        rintro ⟨q, hq, heq⟩
        obtain ⟨hmem, hroot⟩ := List.mem_filter.mp hq
        have hsame : q = p := Prod.ext ((of_decide_eq_true hroot).trans hp.symm) heq
        exact hfresh (hsame ▸ hmem)
      simp only [hp, if_true, decide_true, List.map_cons, List.toFinset_cons]
      rw [Finset.sum_insert hnew]
    · simp only [hp, if_false, decide_false, Nat.zero_add, Bool.false_eq_true]

/-- **No over-claim, and room for what is left**: a group has paid the amounts of distinct used leaves, so it still covers a leaf it has not paid. -/
theorem covered (hledger : ClaimsLedger C P storage opened done positions) {root : ℕ}
    (hregistered : (storage.claimsGroups root).token ≠ 0) :
    (storage.claimsGroups root).totalClaimed ≤ (storage.claimsGroups root).totalLocked ∧
      ∀ i < (opened root).claimCount.val, (root, i) ∉ positions →
        (storage.claimsGroups root).totalClaimed + ((opened root).claimAmounts i).val ≤
          (storage.claimsGroups root).totalLocked := by
  have hgroup := hledger.group root hregistered
  obtain ⟨claimsTreeDepth, htier, hauthorize⟩ := hgroup.satisfied
  have hsum := hauthorize.sum_claimAmounts (tier_spec htier).2
  have hpaid : (storage.claimsGroups root).totalClaimed = _ :=
    (hledger.totalClaimed root hregistered).trans ((paidTo_eq hledger.matched root).trans
      (sum_positions hledger.nodup root fun i => ((opened root).claimAmounts i).val))
  have hused : ((positions.filter fun p => p.1 = root).map Prod.snd).toFinset ⊆
      Finset.range (opened root).claimCount.val := by
    intro i hi
    rw [List.mem_toFinset, List.mem_map] at hi
    obtain ⟨p, hp, rfl⟩ := hi
    obtain ⟨hmem, hroot⟩ := List.mem_filter.mp hp
    obtain ⟨c, -, hroot', -, hopens⟩ := hledger.claim_of_position hmem
    rw [← hroot', of_decide_eq_true hroot] at hopens
    exact Finset.mem_range.mpr hopens.used
  rw [hpaid, ← hgroup.totalLocked, ← hsum]
  refine ⟨Finset.sum_le_sum_of_subset hused, fun i hi hunpaid => ?_⟩
  have hnew : i ∉ ((positions.filter fun p => p.1 = root).map Prod.snd).toFinset := by
    rw [List.mem_toFinset, List.mem_map]
    rintro ⟨p, hp, rfl⟩
    obtain ⟨hmem, hroot⟩ := List.mem_filter.mp hp
    exact hunpaid (of_decide_eq_true hroot ▸ hmem)
  have hall : ∑ j ∈ insert i ((positions.filter fun p => p.1 = root).map Prod.snd).toFinset,
      ((opened root).claimAmounts j).val ≤ _ :=
    Finset.sum_le_sum_of_subset (Finset.insert_subset (Finset.mem_range.mpr hi) hused)
  rw [Finset.sum_insert hnew] at hall
  omega

end ClaimsLedger

/-! ### What the steps do to the ledger -/

namespace ClaimsLedger

variable {storage : PrivateSettlement} {opened : ℕ → Circuit.AuthorizeSignals} {done : List ClaimParams}
  {positions : List (ℕ × ℕ)}

theorem register (hledger : ClaimsLedger C P storage opened done positions) {ap : AuthorizeProof}
    {s : Circuit.AuthorizeSignals} (hs : ap.Backing C P s) {groups : ℕ → ClaimsGroup}
    (hregistered : Registered ap.registration storage.claimsGroups groups) :
    ClaimsLedger C P { storage with claimsGroups := groups } (Function.update opened ap.claimsRoot s) done positions := by
  obtain ⟨hfree, rfl⟩ := hregistered
  have hother : ∀ root, (storage.claimsGroups root).token ≠ 0 → root ≠ ap.claimsRoot := by
    intro root hroot heq
    rw [heq] at hroot
    exact hroot hfree
  have hmatched : List.Forall₂ (PaidAt P (Function.update storage.claimsGroups ap.registration.root
      ⟨ap.registration.totalLocked, 0, ap.registration.token, ap.registration.tier⟩)
      (Function.update opened ap.claimsRoot s)) done positions := by
    apply hledger.matched.imp
    intro c position hpaid
    obtain ⟨hroot, hregistered, hopens⟩ := hpaid
    have hne := hother c.claimsRoot hregistered
    refine ⟨hroot, ?_, ?_⟩
    · dsimp only [AuthorizeProof.registration]
      rwa [Function.update_of_ne hne]
    · rwa [Function.update_of_ne hne]
  refine ⟨fun root hroot => ?_, hmatched, hledger.nodup, hledger.spent, hledger.marked, fun root hroot => ?_⟩
  · by_cases heq : root = ap.claimsRoot
    · subst heq
      dsimp only [AuthorizeProof.registration]
      rw [Function.update_self, Function.update_self]
      exact hs.opened 0
    · dsimp only [AuthorizeProof.registration] at hroot ⊢
      rw [Function.update_of_ne heq] at hroot ⊢
      rw [Function.update_of_ne heq]
      exact hledger.group root hroot
  · by_cases heq : root = ap.claimsRoot
    · subst heq
      have hnone : paidTo ap.claimsRoot done = 0 := by
        apply List.sum_eq_zero
        intro amount hamount
        obtain ⟨c, hc, rfl⟩ := List.mem_map.mp hamount
        obtain ⟨position, -, -, hregistered, -⟩ := hledger.position_of_claim hc
        exact if_neg (hother c.claimsRoot hregistered)
      dsimp only [AuthorizeProof.registration]
      rw [Function.update_self, hnone]
    · dsimp only [AuthorizeProof.registration] at hroot ⊢
      rw [Function.update_of_ne heq] at hroot ⊢
      exact hledger.totalClaimed root hroot

theorem register_all (hledger : ClaimsLedger C P storage opened done positions) {proofs : List AuthorizeProof}
    (hbacked : ∀ ap ∈ proofs, ap.Backed C P) {groups : ℕ → ClaimsGroup}
    (hregistered : Steps Registered (proofs.map AuthorizeProof.registration) storage.claimsGroups groups) :
    ∃ opened', ClaimsLedger C P { storage with claimsGroups := groups } opened' done positions := by
  induction proofs generalizing storage opened with
  | nil =>
    obtain rfl := hregistered
    exact ⟨opened, hledger⟩
  | cons ap proofs ih =>
    obtain ⟨groups₁, hfirst, hrest⟩ := hregistered
    obtain ⟨s, hs⟩ := hbacked ap List.mem_cons_self
    obtain ⟨opened', hledger'⟩ :=
      ih (hledger.register hs hfirst) (fun ap hap => hbacked ap (List.mem_cons_of_mem _ hap)) hrest
    exact ⟨opened', hledger'⟩

theorem claim (hledger : ClaimsLedger C P storage opened done positions) {c : ClaimParams} (hbacked : c.Backed C P)
    (haccepted : ClaimAccepted env storage c) :
    ∃ position, ClaimsLedger C P (storage.claimed c) opened (done ++ [c]) (positions ++ [position]) := by
  obtain ⟨i, hopens⟩ := (hledger.group _ haccepted.registered).opens hbacked rfl
  have hfresh : (c.claimsRoot, i) ∉ positions := by
    intro hmem
    have hspent := (hledger.spent_iff haccepted.registered hopens).mpr hmem
    rw [haccepted.unclaimed] at hspent
    exact absurd hspent Bool.false_ne_true
  have htoken : ∀ root, ((storage.claimed c).claimsGroups root).token = (storage.claimsGroups root).token := by
    intro root
    by_cases hroot : root = c.claimsRoot
    · simp only [claimed, hroot, Function.update_self]
    · simp only [claimed, Function.update_of_ne hroot]
  refine ⟨(c.claimsRoot, i), fun root hroot => ?_, ?_, ?_, fun k hk => ?_, fun c' hc' => ?_, fun root hroot => ?_⟩
  · rw [htoken] at hroot
    have hgroup := hledger.group root hroot
    by_cases heq : root = c.claimsRoot
    · subst heq
      simp only [claimed, Function.update_self]
      exact ⟨hgroup.satisfied, hgroup.root, hgroup.token, hgroup.totalLocked⟩
    · simp only [claimed, Function.update_of_ne heq]
      exact hgroup
  · apply List.rel_append
    · apply hledger.matched.imp
      intro c' position hpaid
      obtain ⟨hroot, hregistered, hopens⟩ := hpaid
      exact ⟨hroot, by rwa [htoken], hopens⟩
    · exact List.Forall₂.cons ⟨rfl, by rw [htoken]; exact haccepted.registered, hopens⟩ List.Forall₂.nil
  · rw [List.nodup_append]
    refine ⟨hledger.nodup, List.nodup_singleton _, fun p hp q hq heq => hfresh ?_⟩
    rw [List.mem_singleton.mp hq] at heq
    exact heq ▸ hp
  · by_cases heq : k = c.claimNullifier
    · exact ⟨c, List.mem_append_right _ List.mem_cons_self, heq.symm⟩
    · simp only [claimed, Function.update_of_ne heq] at hk
      obtain ⟨c', hc', hnullifier⟩ := hledger.spent k hk
      exact ⟨c', List.mem_append_left _ hc', hnullifier⟩
  · rcases List.mem_append.mp hc' with hc' | hc'
    · by_cases heq : c'.claimNullifier = c.claimNullifier
      · simp only [claimed, heq, Function.update_self]
      · simp only [claimed, Function.update_of_ne heq]
        exact hledger.marked c' hc'
    · rw [List.mem_singleton.mp hc']
      simp only [claimed, Function.update_self]
  · rw [htoken] at hroot
    rw [paidTo_append, ← hledger.totalClaimed root hroot]
    by_cases heq : root = c.claimsRoot
    · simp only [claimed, heq, Function.update_self, if_true]
    · simp only [claimed, Function.update_of_ne heq, if_neg (Ne.symm heq), Nat.add_zero]

end ClaimsLedger

/-! ### Runs -/

/-- Some assignments and positions account for the claims done. -/
def Accounted (C : Circomlib) (P : Poseidon) (w : World) (done : List ClaimParams) : Prop :=
  ∃ opened positions, ClaimsLedger C P w.settlement opened done positions

theorem Accounted.congr {done : List ClaimParams} (hw : Accounted C P w done)
    (hgroups : w'.settlement.claimsGroups = w.settlement.claimsGroups)
    (hnullifiers : w'.settlement.claimNullifiers = w.settlement.claimNullifiers) : Accounted C P w' done := by
  obtain ⟨opened, positions, hledger⟩ := hw
  exact ⟨opened, positions, hledger.congr hgroups hnullifiers⟩

theorem ExternalCall.run_records {call : ExternalCall} (hrun : call.run D w = .ok w') :
    w'.settlement.claimsGroups = w.settlement.claimsGroups ∧
      w'.settlement.claimNullifiers = w.settlement.claimNullifiers := by
  cases call with
  | administer env admin =>
    simp only [run, bind_eq_ok, pure_eq_ok] at hrun
    obtain ⟨settlement, hadmin, rfl⟩ := hrun
    exact ⟨(administer_ok hadmin).2.2.1, (administer_ok hadmin).2.1⟩
  | books action =>
    simp only [run, bind_eq_ok, pure_eq_ok] at hrun
    obtain ⟨books, -, rfl⟩ := hrun
    exact ⟨rfl, rfl⟩
  | pool env call =>
    simp only [run, bind_eq_ok, pure_eq_ok] at hrun
    obtain ⟨-, -, rfl⟩ := hrun
    exact ⟨rfl, rfl⟩
  | vault account vault =>
    cases hrun
    exact ⟨rfl, rfl⟩

theorem Accounted.externals {done : List ClaimParams} {calls : List ExternalCall}
    (hcalls : Steps (fun call w w' => ExternalCall.run D w call = .ok w') calls w w') (hw : Accounted C P w done) :
    Accounted C P w' done := by
  apply hcalls.invariant (I := fun w => Accounted C P w done) _ hw
  intro call _ v v' hv hcall
  obtain ⟨hgroups, hnullifiers⟩ := ExternalCall.run_records hcall
  exact hv.congr hgroups hnullifiers

namespace PrivateSettlement

theorem markAll_records (storage : PrivateSettlement) (pairs : List (ℕ × ℕ)) :
    (storage.markAll pairs).claimsGroups = storage.claimsGroups ∧
      (storage.markAll pairs).claimNullifiers = storage.claimNullifiers := by
  induction pairs generalizing storage with
  | nil => exact ⟨rfl, rfl⟩
  | cons pair pairs ih => exact ih (storage.markNullifiers pair.1 pair.2)

theorem Settles.accounted {done : List ClaimParams} {proofs : List AuthorizeProof} {spends : List (ℕ × ℕ)}
    {commitments : List ℕ} {payments : List Payment} (hw : Accounted C P w done) (hbacked : ∀ ap ∈ proofs, ap.Backed C P)
    (hsettles : Settles D spends commitments payments (proofs.map AuthorizeProof.registration) w w') :
    Accounted C P w' done := by
  obtain ⟨groups, hregistered, hsettlement⟩ := hsettles.settlement
  obtain ⟨opened, positions, hledger⟩ := hw
  obtain ⟨hgroups, hnullifiers⟩ := markAll_records w.settlement spends
  rw [← hgroups] at hregistered
  obtain ⟨opened', hledger'⟩ := (hledger.congr hgroups hnullifiers).register_all hbacked hregistered
  rw [Accounted, hsettlement]
  exact ⟨opened', positions, hledger'⟩

theorem executeClaim_accounted {done : List ClaimParams} {c : ClaimParams} (hw : Accounted C P w done)
    (hbacked : c.Backed C P) (hclaim : executeClaim D env w c = .ok w') : Accounted C P w' (done ++ [c]) := by
  obtain ⟨haccepted, hpay⟩ := executeClaim_ok hclaim
  obtain ⟨opened, positions, hledger⟩ := hw
  obtain ⟨position, hledger'⟩ := hledger.claim hbacked haccepted
  rcases payClaim_ok hpay with ⟨-, books, -, rfl⟩ | ⟨-, _, _, books₂, calls, -, -, -, -, hcalls⟩
  · exact ⟨opened, _, hledger'⟩
  · have hpaid : Accounted C P { w with books := books₂, settlement := w.settlement.claimed c } (done ++ [c]) :=
      ⟨opened, _, hledger'⟩
    exact hpaid.externals hcalls

theorem executeClaims_accounted {done claims : List ClaimParams} (hw : Accounted C P w done)
    (hbacked : ∀ c ∈ claims, c.Backed C P)
    (hclaims : Steps (fun c w w' => executeClaim D env w c = .ok w') claims w w') :
    Accounted C P w' (done ++ claims) := by
  induction claims generalizing w done with
  | nil =>
    obtain rfl := hclaims
    rwa [List.append_nil]
  | cons c claims ih =>
    obtain ⟨w₁, hclaim, hrest⟩ := hclaims
    have hw₁ := executeClaim_accounted hw (hbacked c List.mem_cons_self) hclaim
    rw [← List.singleton_append, ← List.append_assoc]
    exact ih hw₁ (fun c hc => hbacked c (List.mem_cons_of_mem _ hc)) hrest

end PrivateSettlement

theorem Call.run_accounted {done : List ClaimParams} {call : Call} (hw : Accounted C P w done)
    (hbacked : call.ClaimsBacked C P) (hrun : call.run D w = .ok w') : Accounted C P w' (done ++ call.claims) := by
  obtain ⟨hproofs, hclaims⟩ := hbacked
  cases call with
  | external call =>
    dsimp only [claims]
    rw [List.append_nil]
    exact hw.externals (Steps.single hrun)
  | settleAuth env p =>
    dsimp only [claims]
    rw [List.append_nil]
    exact Settles.accounted hw hproofs (settleAuth_ok hrun).2.2.1
  | cancelPrivate env p =>
    dsimp only [claims]
    rw [List.append_nil]
    exact Settles.accounted hw hproofs (cancelPrivate_ok hrun).2.2.2
  | scatterDirectAuth env p =>
    dsimp only [claims]
    rw [List.append_nil]
    exact Settles.accounted hw hproofs (scatterDirectAuth_ok hrun).2.2.1
  | settleWithDex env p swap =>
    obtain ⟨-, -, calls, w₁, -, hsettles, fee, called, returned, hswapped⟩ := settleWithDex_ok hrun
    obtain ⟨vaults, hcalls⟩ := hswapped.routerCalled
    obtain ⟨groups, hregistered, hsettlement⟩ := hswapped.settlement
    have hnone : ∀ ap ∈ ([] : List AuthorizeProof), ap.Backed C P := fun ap hap => absurd hap List.not_mem_nil
    have hw₁ : Accounted C P w₁ done := Settles.accounted hw hnone hsettles
    obtain ⟨opened, positions, hledger⟩ := Accounted.externals hcalls (hw₁.congr rfl rfl)
    dsimp only [claims]
    rw [List.append_nil, Accounted, hsettlement]
    obtain ⟨s, hs⟩ := hproofs p.proof List.mem_cons_self
    exact ⟨_, positions, hledger.register hs hregistered⟩
  | claimWithProof env c =>
    exact executeClaim_accounted hw (hclaims c List.mem_cons_self) (claimWithProof_ok hrun)
  | claimWithProofBatch env cs => exact executeClaims_accounted hw hclaims (claimWithProofBatch_ok hrun)

theorem Run.accounted {done : List ClaimParams} {calls : List Call} (hw : Accounted C P w done)
    (hbacked : ∀ call ∈ calls, call.ClaimsBacked C P) (hrun : Run D calls w w') :
    Accounted C P w' (done ++ calls.flatMap Call.claims) := by
  induction calls generalizing w done with
  | nil =>
    obtain rfl := hrun
    rwa [List.flatMap_nil, List.append_nil]
  | cons call calls ih =>
    obtain ⟨w₁, hcall, hrest⟩ := hrun
    have hw₁ := Call.run_accounted hw (hbacked call List.mem_cons_self) hcall
    rw [List.flatMap_cons, ← List.append_assoc]
    exact ih hw₁ (fun call hcall => hbacked call (List.mem_cons_of_mem _ hcall)) hrest

theorem Deployed.accounted (hdeployed : Deployed D w) : Accounted C P w [] := by
  obtain ⟨hgroups, -, -, hclaims, -⟩ := hdeployed.settlement_spec
  refine ⟨fun _ => default, [], fun root hroot => ?_, List.Forall₂.nil, List.nodup_nil, fun k hk => ?_,
    fun c hc => absurd hc List.not_mem_nil, fun root hroot => ?_⟩
  · rw [hgroups] at hroot
    exact absurd rfl hroot
  · rw [hclaims] at hk
    exact absurd hk Bool.false_ne_true
  · rw [hgroups] at hroot
    exact absurd rfl hroot

end ScatterDex
