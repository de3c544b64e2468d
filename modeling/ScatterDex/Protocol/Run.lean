import ScatterDex.Contract.Effects

/-!
# Runs

A transaction calls one entry point of the settlement contract, or is something the outside world does: a call into the pool, an owner's call, a transfer of tokens. A run is a list of transactions; one that reverts leaves no trace.
-/

namespace ScatterDex

open Fallible

/-- A transaction. -/
inductive Call
  | external (call : ExternalCall)
  | settleAuth (env : Env) (p : PrivateSettlement.SettleAuthParams)
  | cancelPrivate (env : Env) (p : PrivateSettlement.CancelParams)
  | settleWithDex (env : Env) (p : PrivateSettlement.SettleDexParams) (swap : Option (List ExternalCall))
  | scatterDirectAuth (env : Env) (p : PrivateSettlement.ScatterDirectAuthParams)
  | claimWithProof (env : Env) (c : PrivateSettlement.ClaimParams)
  | claimWithProofBatch (env : Env) (claims : List PrivateSettlement.ClaimParams)

def Call.run (D : Deployment) (w : World) : Call → Except Error World
  | .external call => call.run D w
  | .settleAuth env p => PrivateSettlement.settleAuth D env w p
  | .cancelPrivate env p => PrivateSettlement.cancelPrivate D env w p
  | .settleWithDex env p swap => PrivateSettlement.settleWithDex D env w p swap
  | .scatterDirectAuth env p => PrivateSettlement.scatterDirectAuth D env w p
  | .claimWithProof env c => PrivateSettlement.claimWithProof D env w c
  | .claimWithProofBatch env claims => PrivateSettlement.claimWithProofBatch D env w claims

/-- The calls by unknown code that a transaction consists of or sets off. -/
def Call.externals : Call → List ExternalCall
  | .external call => [call]
  | .settleWithDex _ _ swap => swap.getD []
  | .claimWithProof _ c => c.receive.getD []
  | .claimWithProofBatch _ claims => claims.flatMap fun c => c.receive.getD []
  | _ => []

/-- The state after a transaction. -/
def transact (D : Deployment) (w : World) (call : Call) : World :=
  match call.run D w with
  | .ok w' => w'
  | .error _ => w

/-- The transactions of a list that go through. -/
def accepted (D : Deployment) : World → List Call → List Call
  | _, [] => []
  | w, call :: calls =>
    match call.run D w with
    | .ok w' => call :: accepted D w' calls
    | .error _ => accepted D w calls

/-- Accepted transactions that lead from one state to another. -/
abbrev Run (D : Deployment) : List Call → World → World → Prop :=
  Steps fun call w w' => call.run D w = .ok w'

/-- The state after a list of transactions. -/
def World.after (D : Deployment) (w : World) (calls : List Call) : World := calls.foldl (transact D) w

theorem run_accepted (D : Deployment) (w : World) (calls : List Call) :
    Run D (accepted D w calls) w (w.after D calls) := by
  induction calls generalizing w with
  | nil => rfl
  | cons call calls ih =>
    rw [World.after, List.foldl_cons, accepted, transact]
    cases hcall : call.run D w with
    | ok w' => exact ⟨w', hcall, ih w'⟩
    | error e => exact ih w

theorem accepted_append (D : Deployment) (w : World) (calls calls' : List Call) :
    accepted D w (calls ++ calls') = accepted D w calls ++ accepted D (w.after D calls) calls' := by
  induction calls generalizing w with
  | nil => rfl
  | cons call calls ih =>
    rw [List.cons_append, accepted, accepted, World.after, List.foldl_cons, transact]
    cases hcall : call.run D w with
    | ok w' => exact congrArg (call :: ·) (ih w')
    | error e => exact ih w

theorem accepted_sublist (D : Deployment) (w : World) (calls : List Call) : (accepted D w calls).Sublist calls := by
  induction calls generalizing w with
  | nil => exact List.Sublist.slnil
  | cons call calls ih =>
    rw [accepted]
    cases hcall : call.run D w with
    | ok w' => exact (ih w').cons_cons call
    | error e => exact (ih w).cons call

/-- The state in which the contracts are deployed: freshly initialised, and no allowance given by either. -/
structure Deployed (D : Deployment) (w : World) : Prop where
  pool : ∃ env owner withdrawVerifier depositVerifier treeLevels rootHistorySize,
    CommitmentPool.initializePool D env owner withdrawVerifier depositVerifier treeLevels rootHistorySize =
      .ok w.pool
  settlement : ∃ owner claimVerifier,
    PrivateSettlement.initializeSettlement D owner claimVerifier = .ok w.settlement
  poolAllowance : ∀ token spender, w.books.allowance token D.pool spender = 0
  settlementAllowance : ∀ token spender, w.books.allowance token D.settlement spender = 0

/-! ### Who acts -/

/-- A call by somebody other than the two contracts. They act through their own functions only, and nobody acts as address zero. -/
def ExternalCall.ByOthers (D : Deployment) : ExternalCall → Prop
  | .books action => action.actor ≠ some D.pool ∧ action.actor ≠ some D.settlement
  | .pool env call => env.sender ≠ 0 ∧ env.sender ≠ D.pool ∧
      (env.sender ≠ D.settlement ∨ ∃ args, call = .withdrawFor args)
  | _ => True

def Call.ByOthers (D : Deployment) (call : Call) : Prop := ∀ e ∈ call.externals, e.ByOthers D

/-- The owner of the pool authorizes no other settlement contract. -/
def ExternalCall.KeepsSettlement (D : Deployment) : ExternalCall → Prop
  | .pool _ (.administer (.queueSetAuthorizedSettlement settlement))
  | .pool _ (.administer (.setAuthorizedSettlement settlement)) => settlement = D.settlement
  | _ => True

def Call.KeepsSettlement (D : Deployment) (call : Call) : Prop := ∀ e ∈ call.externals, e.KeepsSettlement D

/-! ### Configuration -/

namespace PrivateSettlement

/-- What a transaction can change of the storage outside administration. -/
def withRecords (self : PrivateSettlement) (nullifiers nonceNullifiers claimNullifiers : ℕ → Bool)
    (claimsGroups : ℕ → ClaimsGroup) : PrivateSettlement :=
  { self with nullifiers, nonceNullifiers, claimNullifiers, claimsGroups }

/-- A property of the storage that administration keeps and that does not read the records. -/
structure Configuration (I : PrivateSettlement → Prop) : Prop where
  administer : ∀ env self self' admin, I self → administer env self admin = .ok self' → I self'
  records : ∀ self nullifiers nonceNullifiers claimNullifiers claimsGroups, I self →
    I (self.withRecords nullifiers nonceNullifiers claimNullifiers claimsGroups)

variable {I : PrivateSettlement → Prop} {D : Deployment} {env : Env} {w w' : World}

theorem Configuration.markAll (hI : Configuration I) {self : PrivateSettlement} (hself : I self)
    (pairs : List (ℕ × ℕ)) : I (self.markAll pairs) := by
  induction pairs generalizing self with
  | nil => exact hself
  | cons pair pairs ih => exact ih (hI.records self _ _ self.claimNullifiers self.claimsGroups hself)

theorem Configuration.external (hI : Configuration I) {call : ExternalCall} (hw : I w.settlement)
    (hrun : call.run D w = .ok w') : I w'.settlement := by
  cases call with
  | administer env admin =>
    simp only [ExternalCall.run, bind_eq_ok, pure_eq_ok] at hrun
    obtain ⟨settlement, hadmin, rfl⟩ := hrun
    exact hI.administer env w.settlement settlement admin hw hadmin
  | books action =>
    simp only [ExternalCall.run, bind_eq_ok, pure_eq_ok] at hrun
    obtain ⟨books, -, rfl⟩ := hrun
    exact hw
  | pool env call =>
    simp only [ExternalCall.run, bind_eq_ok, pure_eq_ok] at hrun
    obtain ⟨-, -, rfl⟩ := hrun
    exact hw
  | vault account vault =>
    cases hrun
    exact hw

theorem Configuration.settles (hI : Configuration I) {spends : List (ℕ × ℕ)} {commitments : List ℕ}
    {payments : List Payment} {registrations : List Registration} (hw : I w.settlement)
    (hsettles : Settles D spends commitments payments registrations w w') : I w'.settlement := by
  obtain ⟨groups, -, hsettlement⟩ := hsettles.settlement
  rw [hsettlement]
  exact hI.records _ _ _ _ groups (hI.markAll hw spends)

theorem Configuration.claim (hI : Configuration I) {c : ClaimParams} (hw : I w.settlement)
    (hclaim : executeClaim D env w c = .ok w') : I w'.settlement := by
  have hclaimed : I (w.settlement.claimed c) := hI.records w.settlement _ _ _ _ hw
  obtain ⟨-, hpay⟩ := executeClaim_ok hclaim
  rcases payClaim_ok hpay with ⟨-, books, -, rfl⟩ | ⟨-, _, _, books₂, calls, -, -, -, -, hcalls⟩
  · exact hclaimed
  · exact hcalls.invariant (I := fun w => I w.settlement) (fun _ _ _ _ hw hcall => hI.external hw hcall) hclaimed

/-- **A configuration property holds throughout a run.** -/
theorem Configuration.run (hI : Configuration I) {calls : List Call} (hw : I w.settlement)
    (hrun : Run D calls w w') : I w'.settlement := by
  apply hrun.invariant (I := fun w => I w.settlement) _ hw
  intro call _ w w' hw hcall
  cases call with
  | external call => exact hI.external hw hcall
  | settleAuth env p => exact hI.settles hw (settleAuth_ok hcall).2.2.1
  | cancelPrivate env p => exact hI.settles hw (cancelPrivate_ok hcall).2.2.2
  | scatterDirectAuth env p => exact hI.settles hw (scatterDirectAuth_ok hcall).2.2.1
  | settleWithDex env p swap =>
    obtain ⟨-, -, calls, w₁, -, hsettles, fee, called, returned, hswapped⟩ := settleWithDex_ok hcall
    obtain ⟨vaults, hcalls⟩ := hswapped.routerCalled
    obtain ⟨groups, -, hsettlement⟩ := hswapped.settlement
    have hsettled : I w₁.settlement := hI.settles hw hsettles
    have hcalled : I called.settlement :=
      hcalls.invariant (I := fun w => I w.settlement) (fun _ _ _ _ hw hcall => hI.external hw hcall) hsettled
    rw [hsettlement]
    exact hI.records _ _ _ _ groups hcalled
  | claimWithProof env c => exact hI.claim hw (claimWithProof_ok hcall)
  | claimWithProofBatch env claims =>
    exact (claimWithProofBatch_ok hcall).invariant (I := fun w => I w.settlement)
      (fun _ _ _ _ hw hclaim => hI.claim hw hclaim) hw

theorem whitelist_configuration : Configuration fun self => self.whitelistedTokens 0 = false where
  records := fun _ _ _ _ _ hself => hself
  administer := by
    intro env self self' admin hself hadmin
    rcases (administer_ok hadmin).2.2.2.2 with hsame | ⟨token, allowed, htoken, hupdate⟩
    · rw [hsame]
      exact hself
    · rw [hupdate, Function.update_of_ne htoken.symm]
      exact hself

theorem fee_configuration : Configuration fun self => self.dexPlatformFeeBps ≤ maxDexPlatformFeeBps where
  records := fun _ _ _ _ _ hself => hself
  administer := fun _ _ _ _ hself hadmin => (administer_ok hadmin).2.2.2.1 hself

end PrivateSettlement

/-! ### A fresh deployment -/

theorem CommitmentPool.initializePool_fresh (D : Deployment) {env : Env}
    {owner withdrawVerifier depositVerifier : Address} {levels rootHistorySize : ℕ} (howner : owner ≠ 0)
    (hwithdraw : withdrawVerifier ≠ 0) (hdeposit : depositVerifier ≠ 0) (hcode : ∀ account, env.codeLength account ≠ 0)
    (hpos : 0 < levels) (hlevels : levels ≤ 20) (hhistory : 0 < rootHistorySize) :
    initializePool D env owner withdrawVerifier depositVerifier levels rootHistorySize =
      .ok (fresh (.fresh D.poseidon levels rootHistorySize) owner withdrawVerifier depositVerifier) := by
  have hsize : ¬(levels = 0 ∨ levels > 20) := by omega
  simp only [initializePool, IncrementalMerkleTree.init, bind_eq_ok, require_eq_ok, pure_eq_ok]
  exact ⟨(), howner, (), hwithdraw, (), hdeposit, (), hcode _, (), hcode _, _,
    ⟨(), hsize, (), by omega, rfl⟩, rfl⟩

theorem PrivateSettlement.initializeSettlement_fresh (D : Deployment) {owner claimVerifier : Address}
    (howner : owner ≠ 0) (haddresses : ¬(D.pool = 0 ∨ claimVerifier = 0 ∨ D.weth = 0)) :
    initializeSettlement D owner claimVerifier = .ok (fresh owner claimVerifier) := by
  simp only [initializeSettlement, bind_eq_ok, require_eq_ok, pure_eq_ok]
  exact ⟨(), howner, (), haddresses, trivial⟩

/-- An environment in which every check of another contract passes. -/
def Env.permissive (sender : Address) : Env where
  sender
  timestamp := 0
  codeLength := fun _ => 1
  isSanctioned := fun _ _ => false
  isVerified := fun _ _ => true
  isActiveRelayer := fun _ _ => true
  verifyProof := fun _ _ _ => true
  verifyBatchProof := fun _ _ _ _ _ => true

/-- Both contracts freshly deployed by account `7`, with a pool of a given depth. -/
def World.fresh (D : Deployment) (levels : ℕ) (books : Books) : World where
  books
  pool := .fresh (.fresh D.poseidon levels 2) 7 8 9
  settlement := .fresh 7 10
  vaults := fun _ => ⟨fun _ _ => 0, fun _ => 0, fun _ => 0, fun _ => false⟩

theorem World.deployed_fresh (D : Deployment) {levels : ℕ} {books : Books} (hpos : 0 < levels) (hlevels : levels ≤ 20)
    (hpool : D.pool ≠ 0) (hweth : D.weth ≠ 0) (hbooks : ∀ token owner spender, books.allowance token owner spender = 0) :
    Deployed D (World.fresh D levels books) where
  pool := ⟨Env.permissive 7, 7, 8, 9, levels, 2, CommitmentPool.initializePool_fresh D (by decide) (by decide)
    (by decide) (fun _ => one_ne_zero) hpos hlevels (by decide)⟩
  settlement := ⟨7, 10, PrivateSettlement.initializeSettlement_fresh D (by decide) (by
    rintro (h | h | h)
    · exact hpool h
    · exact absurd h (by decide)
    · exact hweth h)⟩
  poolAllowance := fun token => hbooks token D.pool
  settlementAllowance := fun token => hbooks token D.settlement

/-- A deployment at small addresses whose tokens are standard. -/
def Deployment.small (poseidon : Poseidon) : Deployment where
  poseidon
  pool := 1
  settlement := 2
  weth := 3
  tax := fun _ _ => 0
  cap := fun _ => 2 ^ 128
  pool_ne_settlement := by decide
  pool_ne_weth := by decide

/-- A hash that knows the pair of zeros only. -/
def Poseidon.zeroPair : Poseidon := .ofTable [([0, 0], 5)] (by decide) (by decide +kernel)

def Groth16Proof.zero : Groth16Proof := ⟨(0, 0), ((0, 0), 0, 0), (0, 0)⟩

/-! ### What deployment leaves -/

theorem Deployed.pool_spec {D : Deployment} {w : World} (hw : Deployed D w) :
    IncrementalMerkleTree.Tracks D.poseidon w.pool.tree [] ∧ w.pool.committed = [] ∧
      w.pool.authorizedSettlement = 0 ∧ w.pool.pendingSettlement = 0 ∧ ∀ n, w.pool.nullifiers n = false := by
  obtain ⟨env, owner, withdrawVerifier, depositVerifier, treeLevels, rootHistorySize, hinit⟩ := hw.pool
  simp only [CommitmentPool.initializePool, bind_eq_ok, pure_eq_ok] at hinit
  obtain ⟨-, -, -, -, -, -, -, -, -, -, tree, htree, heq⟩ := hinit
  rw [← heq]
  exact ⟨(IncrementalMerkleTree.init_tracks htree).1, rfl, rfl, rfl, fun _ => rfl⟩

theorem Deployed.settlement_spec {D : Deployment} {w : World} (hw : Deployed D w) :
    (∀ root, w.settlement.claimsGroups root = ClaimsGroup.empty) ∧ w.settlement.dexPlatformFeeBps = 0 ∧
      (∀ n, w.settlement.nullifiers n = false) ∧ (∀ n, w.settlement.claimNullifiers n = false) ∧
      ∀ token, w.settlement.whitelistedTokens token = false := by
  obtain ⟨owner, claimVerifier, hinit⟩ := hw.settlement
  simp only [PrivateSettlement.initializeSettlement, bind_eq_ok, pure_eq_ok] at hinit
  obtain ⟨-, -, -, -, heq⟩ := hinit
  rw [← heq]
  exact ⟨fun _ => rfl, rfl, fun _ => rfl, fun _ => rfl, fun _ => rfl⟩

end ScatterDex
