import ScatterDex.Contract.PrivateSettlement
import ScatterDex.Library.Steps

/-!
# What the settlement paths do

Every path treats the pool alike: it spends nullifiers, inserts commitments, pays out of the pool and registers claims groups. `Settles` lists what a call did of each; a lemma per path says which lists these are and which checks the call passed. Nothing later unfolds a contract function.
-/

namespace ScatterDex

open Bn254 Fallible

/-! ### Effects on the pool -/

namespace CommitmentPool

/-- A nullifier is spent for the first time. -/
def Spent (nullifier : ℕ) (pool pool' : CommitmentPool) : Prop :=
  pool.nullifiers nullifier = false ∧
    pool' = { pool with nullifiers := Function.update pool.nullifiers nullifier true }

variable {D : Deployment} {pool pool' : CommitmentPool}

theorem Spent.nullifiers_iff {n : ℕ} (hspent : Spent n pool pool') (m : ℕ) :
    pool'.nullifiers m = true ↔ m = n ∨ pool.nullifiers m = true := by
  obtain ⟨-, rfl⟩ := hspent
  by_cases hm : m = n <;> simp [hm]

/-- The nullifiers a list spends are new, distinct, and all that changes. -/
theorem spent_steps {ns : List ℕ} (hspent : Steps Spent ns pool pool') :
    ns.Nodup ∧ (∀ n ∈ ns, pool.nullifiers n = false) ∧
      (∀ m, pool'.nullifiers m = true ↔ m ∈ ns ∨ pool.nullifiers m = true) ∧
      pool' = { pool with nullifiers := pool'.nullifiers } := by
  induction ns generalizing pool with
  | nil =>
    obtain rfl := hspent
    simp
  | cons n ns ih =>
    obtain ⟨pool₁, hn, hns⟩ := hspent
    obtain ⟨hnodup, hfresh, hspent, hrest⟩ := ih hns
    have hiff := hn.nullifiers_iff
    have hnew : ∀ m ∈ ns, ¬(m = n ∨ pool.nullifiers m = true) := by
      intro m hm
      rw [← hiff, hfresh m hm]
      exact Bool.false_ne_true
    refine ⟨?_, ?_, ?_, ?_⟩
    · exact List.nodup_cons.mpr ⟨fun hmem => hnew n hmem (Or.inl rfl), hnodup⟩
    · intro m hm
      rcases List.mem_cons.mp hm with rfl | hm
      · exact hn.1
      · exact Bool.eq_false_iff.mpr fun htrue => hnew m hm (Or.inr htrue)
    · intro m
      rw [hspent, hiff, List.mem_cons]
      tauto
    · rw [hrest, hn.2]

theorem Inserted.spec {c : ℕ} (hinserted : Inserted D c pool pool') :
    pool'.committed = pool.committed ++ [c].filter (· ≠ 0) ∧
      pool' = { pool with tree := pool'.tree, committed := pool'.committed } := by
  rcases hinserted with ⟨rfl, rfl⟩ | ⟨hne, tree, index, -, rfl⟩
  · simp
  · simp [hne]

theorem inserted_steps {cs : List ℕ} (hinserted : Steps (Inserted D) cs pool pool') :
    pool'.committed = pool.committed ++ cs.filter (· ≠ 0) ∧
      pool' = { pool with tree := pool'.tree, committed := pool'.committed } := by
  induction cs generalizing pool with
  | nil =>
    obtain rfl := hinserted
    simp
  | cons c cs ih =>
    obtain ⟨pool₁, hc, hcs⟩ := hinserted
    obtain ⟨hlog, hrest⟩ := ih hcs
    obtain ⟨hlog₁, hrest₁⟩ := hc.spec
    refine ⟨?_, ?_⟩
    · rw [hlog, hlog₁, List.append_assoc, ← List.filter_append, List.singleton_append]
    · rw [hrest, hrest₁]

theorem Inserted.nullifiers {c : ℕ} (hinserted : Inserted D c pool pool') : pool'.nullifiers = pool.nullifiers := by
  rw [hinserted.spec.2]

theorem nullifiers_of_inserted {cs : List ℕ} (hinserted : Steps (Inserted D) cs pool pool') :
    pool'.nullifiers = pool.nullifiers :=
  hinserted.unchanged fun _ _ _ hstep => hstep.nullifiers

end CommitmentPool

/-! ### Payments -/

structure Payment where
  token : Address
  target : Address
  amount : ℕ

/-- A payment by one of the contracts. A payment of zero is skipped or makes no difference. -/
def Paid (D : Deployment) (payer : Address) (payment : Payment) (books books' : Books) : Prop :=
  payment.amount = 0 ∧ books' = books ∨
    books.transfer D.tax payment.token payer payment.target payment.amount = some books'

/-- What a list of payments takes of a token. -/
def outflow (payments : List Payment) (token : Address) : ℕ :=
  (payments.map fun payment => if payment.token = token then payment.amount else 0).sum

@[simp] theorem outflow_nil (token : Address) : outflow [] token = 0 := rfl

@[simp] theorem outflow_cons (payment : Payment) (payments : List Payment) (token : Address) :
    outflow (payment :: payments) token =
      (if payment.token = token then payment.amount else 0) + outflow payments token := rfl

namespace Paid

variable {D : Deployment} {payer : Address} {payment : Payment} {payments : List Payment} {books books' : Books}

theorem balance (hpaid : Paid D payer payment books books') (t a : Address) :
    books'.balanceOf t a + (if t = payment.token ∧ a = payer then payment.amount else 0) =
      books.balanceOf t a + if t = payment.token ∧ a = payment.target then
        payment.amount - D.tax payment.token payment.amount else 0 := by
  rcases hpaid with ⟨hzero, rfl⟩ | htransfer
  · simp [hzero]
  · exact Ledger.transfer_balance htransfer t a

theorem allowance (hpaid : Paid D payer payment books books') : books'.allowance = books.allowance := by
  rcases hpaid with ⟨-, rfl⟩ | htransfer
  · rfl
  · exact Ledger.transfer_allowance htransfer

theorem totalSupply (hpaid : Paid D payer payment books books') : books'.totalSupply = books.totalSupply := by
  rcases hpaid with ⟨-, rfl⟩ | htransfer
  · rfl
  · exact Ledger.transfer_totalSupply htransfer

theorem payer_le (hpaid : Steps (Paid D payer) payments books books') (t : Address) :
    books.balanceOf t payer ≤ books'.balanceOf t payer + outflow payments t := by
  induction payments generalizing books with
  | nil =>
    obtain rfl := hpaid
    exact Nat.le_add_right _ _
  | cons payment payments ih =>
    obtain ⟨books₁, hfirst, hrest⟩ := hpaid
    have hbalance := hfirst.balance t payer
    have hrest := ih hrest
    rw [outflow_cons]
    simp only [and_true, eq_comm (a := t)] at hbalance
    omega

/-- What a list of payments brings an account of a token. -/
def inflow (payments : List Payment) (account token : Address) : ℕ :=
  (payments.map fun payment => if payment.token = token ∧ payment.target = account then payment.amount else 0).sum

theorem receives (hstandard : D.Standard) (hpaid : Steps (Paid D payer) payments books books') {a : Address}
    (ha : a ≠ payer) (t : Address) : books'.balanceOf t a = books.balanceOf t a + inflow payments a t := by
  induction payments generalizing books with
  | nil =>
    obtain rfl := hpaid
    rfl
  | cons payment payments ih =>
    obtain ⟨books₁, hfirst, hrest⟩ := hpaid
    have hbalance := hfirst.balance t a
    have hrest := ih hrest
    rw [hstandard, if_neg fun h => ha h.2] at hbalance
    simp only [eq_comm (a := t), eq_comm (a := a), Nat.sub_zero] at hbalance
    simp only [inflow, List.map_cons, List.sum_cons] at hrest ⊢
    omega

theorem other_le (hpaid : Steps (Paid D payer) payments books books') {a : Address} (ha : a ≠ payer)
    (t : Address) : books.balanceOf t a ≤ books'.balanceOf t a := by
  apply hpaid.invariant (I := fun b => books.balanceOf t a ≤ b.balanceOf t a) _ le_rfl
  intro payment _ b b' hle hstep
  have hbalance := hstep.balance t a
  rw [if_neg fun h => ha h.2] at hbalance
  omega

theorem steps_allowance (hpaid : Steps (Paid D payer) payments books books') :
    books'.allowance = books.allowance :=
  hpaid.unchanged fun _ _ _ hstep => hstep.allowance

theorem steps_totalSupply (hpaid : Steps (Paid D payer) payments books books') :
    books'.totalSupply = books.totalSupply :=
  hpaid.unchanged fun _ _ _ hstep => hstep.totalSupply

end Paid

/-! ### Registrations -/

structure Registration where
  root : ℕ
  token : Address
  totalLocked : ℕ
  tier : BitVec 8

/-- A free root gets a fresh group. -/
def Registered (r : Registration) (groups groups' : ℕ → ClaimsGroup) : Prop :=
  (groups r.root).token = 0 ∧ groups' = Function.update groups r.root ⟨r.totalLocked, 0, r.token, r.tier⟩

/-- The pair of nullifiers an authorize proof spends. -/
def AuthorizeProof.spend (ap : AuthorizeProof) : ℕ × ℕ := (ap.nullifier, ap.nonceNullifier)

/-- The group an authorize proof registers: what its owner buys. -/
def AuthorizeProof.registration (ap : AuthorizeProof) : Registration :=
  ⟨ap.claimsRoot, ap.buyToken, ap.totalLocked.toNat, ap.tier⟩

namespace PrivateSettlement

variable {D : Deployment} {env : Env} {w w' : World}

/-- Mark pairs of an escrow and a nonce nullifier. -/
def markAll (self : PrivateSettlement) : List (ℕ × ℕ) → PrivateSettlement
  | [] => self
  | pair :: pairs => markAll (self.markNullifiers pair.1 pair.2) pairs

/-- The effects of a settlement path: nullifiers spent in both contracts, commitments inserted, payments made, groups registered. -/
structure Settles (D : Deployment) (spends : List (ℕ × ℕ)) (commitments : List ℕ) (payments : List Payment)
    (registrations : List Registration) (w w' : World) : Prop where
  authorized : w.pool.authorizedSettlement = D.settlement
  pool : ∃ pool, Steps CommitmentPool.Spent (spends.map Prod.fst) w.pool pool ∧
    Steps (CommitmentPool.Inserted D) commitments pool w'.pool
  books : Steps (Paid D D.pool) payments w.books w'.books
  settlement : ∃ groups, Steps Registered registrations w.settlement.claimsGroups groups ∧
    w'.settlement = { w.settlement.markAll spends with claimsGroups := groups }

/-- Administration never touches the spent sets or the groups, keeps the platform fee below its maximum, and whitelists real tokens only. -/
theorem administer_ok {self self' : PrivateSettlement} {admin : Admin} (hadmin : self.administer env admin = .ok self') :
    self'.nullifiers = self.nullifiers ∧ self'.claimNullifiers = self.claimNullifiers ∧
      self'.claimsGroups = self.claimsGroups ∧
      (self.dexPlatformFeeBps ≤ maxDexPlatformFeeBps → self'.dexPlatformFeeBps ≤ maxDexPlatformFeeBps) ∧
      (self'.whitelistedTokens = self.whitelistedTokens ∨ ∃ token allowed, token ≠ 0 ∧
        self'.whitelistedTokens = Function.update self.whitelistedTokens token allowed) := by
  cases admin <;> simp only [administer, bind_eq_ok, require_eq_ok, pure_eq_ok] at hadmin <;>
    obtain ⟨_, hadmin⟩ := hadmin <;> grind

/-! ### Calls into the pool -/

theorem spendEscrowNullifier_ok {n : ℕ} (hspend : spendEscrowNullifier D env w n = .ok w') :
    w.pool.authorizedSettlement = D.settlement ∧
      ∃ pool, CommitmentPool.Spent n w.pool pool ∧ w' = { w with pool } := by
  simp only [spendEscrowNullifier, bind_eq_ok, pure_eq_ok] at hspend
  obtain ⟨pool, hspend, rfl⟩ := hspend
  obtain ⟨hsender, hspent⟩ := CommitmentPool.spendEscrowNullifier_ok hspend
  exact ⟨hsender.symm, pool, hspent, rfl⟩

theorem insertCommitment_ok {c : ℕ} (hinsert : insertCommitment D env w c = .ok w') :
    ∃ pool, CommitmentPool.Inserted D c w.pool pool ∧ w' = { w with pool } := by
  simp only [insertCommitment, bind_eq_ok, pure_eq_ok] at hinsert
  obtain ⟨pool, hinsert, rfl⟩ := hinsert
  exact ⟨pool, (CommitmentPool.insertCommitment_ok hinsert).2, rfl⟩

theorem maybeInsertCommitment_ok {c : ℕ} (hinsert : maybeInsertCommitment D env w c = .ok w') :
    ∃ pool, CommitmentPool.Inserted D c w.pool pool ∧ w' = { w with pool } := by
  rw [maybeInsertCommitment] at hinsert
  by_cases hzero : c = 0
  · rw [if_neg (not_not.mpr hzero), Except.ok.injEq] at hinsert
    exact ⟨w.pool, Or.inl ⟨hzero, rfl⟩, hinsert.symm⟩
  · rw [if_pos hzero] at hinsert
    exact insertCommitment_ok hinsert

theorem transferToSettlement_ok {token : Address} {amount : ℕ}
    (hauthorized : w.pool.authorizedSettlement = D.settlement)
    (htransfer : transferToSettlement D env w token amount = .ok w') :
    ∃ books, Paid D D.pool ⟨token, D.settlement, amount⟩ w.books books ∧ w' = { w with books } := by
  simp only [transferToSettlement, bind_eq_ok, pure_eq_ok] at htransfer
  obtain ⟨books, htransfer, rfl⟩ := htransfer
  obtain ⟨-, htransfer⟩ := CommitmentPool.transferToSettlement_ok htransfer
  rw [hauthorized] at htransfer
  exact ⟨books, Or.inr htransfer, rfl⟩

theorem transferLocked_ok {token : Address} {totalLocked : ℕ}
    (hauthorized : w.pool.authorizedSettlement = D.settlement)
    (htransfer : transferLocked D env w token totalLocked = .ok w') :
    ∃ books, Paid D D.pool ⟨token, D.settlement, totalLocked⟩ w.books books ∧ w' = { w with books } := by
  rw [transferLocked] at htransfer
  by_cases hpos : totalLocked > 0
  · rw [if_pos hpos] at htransfer
    exact transferToSettlement_ok hauthorized htransfer
  · rw [if_neg hpos, Except.ok.injEq] at htransfer
    exact ⟨w.books, Or.inl ⟨by simpa using hpos, rfl⟩, htransfer.symm⟩

/-- Who is paid a fee: the vault when there is one, else the relayer. -/
def feeTarget (self : PrivateSettlement) (relayer : Address) : Address :=
  if self.feeVault ≠ 0 then self.feeVault else relayer

/-- What a routed fee adds to a relayer's balance in a vault. -/
def vaultCredit (self : PrivateSettlement) (payment : Payment) (vault relayer token : Address) : ℕ :=
  if self.feeVault ≠ 0 ∧ vault = self.feeVault ∧ relayer = payment.target ∧ token = payment.token then
    payment.amount else 0

/-- A fee for a relayer: paid out of the pool, and credited in the vault when there is one. -/
structure FeeRouted (D : Deployment) (fee : Payment) (w w' : World) : Prop where
  paid : Paid D D.pool ⟨fee.token, w.settlement.feeTarget fee.target, fee.amount⟩ w.books w'.books
  credited : ∀ vault relayer token, (w'.vaults vault).balances relayer token =
    (w.vaults vault).balances relayer token + w.settlement.vaultCredit fee vault relayer token
  pool : w'.pool = w.pool
  settlement : w'.settlement = w.settlement

theorem routeFeeFromPoolTo_ok {token relayer : Address} {amount : ℕ}
    (hroute : routeFeeFromPoolTo D env w token amount relayer = .ok w') :
    FeeRouted D ⟨token, relayer, amount⟩ w w' := by
  rw [routeFeeFromPoolTo] at hroute
  by_cases hvault : w.settlement.feeVault ≠ 0
  · simp only [if_pos hvault, bind_eq_ok, pure_eq_ok] at hroute
    obtain ⟨books, htransfer, vault, hdeposit, rfl⟩ := hroute
    obtain ⟨-, htransfer⟩ := CommitmentPool.transferFee_ok htransfer
    refine ⟨Or.inr ?_, fun v r t => ?_, rfl, rfl⟩
    · rw [feeTarget, if_pos hvault]
      exact htransfer
    · by_cases hv : v = w.settlement.feeVault
      · subst hv
        simp only [Function.update_self, FeeVault.deposit_ok hdeposit, vaultCredit, ne_eq, hvault,
          not_false_eq_true, true_and]
      · simp only [Function.update_of_ne hv, vaultCredit, hv, false_and, and_false, if_false, Nat.add_zero]
  · simp only [if_neg hvault, bind_eq_ok, pure_eq_ok] at hroute
    obtain ⟨books, htransfer, rfl⟩ := hroute
    obtain ⟨-, htransfer⟩ := CommitmentPool.transferFee_ok htransfer
    refine ⟨Or.inr ?_, fun v r t => ?_, rfl, rfl⟩
    · rw [feeTarget, if_neg hvault]
      exact htransfer
    · rw [vaultCredit, if_neg fun h => hvault h.1, Nat.add_zero]

theorem routeFee_ok {token relayer : Address} {fee : ℕ}
    (hroute : routeFee D env w token fee relayer = .ok w') : FeeRouted D ⟨token, relayer, fee⟩ w w' := by
  rw [routeFee] at hroute
  by_cases hpos : fee > 0
  · rw [if_pos hpos] at hroute
    exact routeFeeFromPoolTo_ok hroute
  · rw [if_neg hpos, Except.ok.injEq] at hroute
    obtain rfl := hroute
    have hzero : fee = 0 := by simpa using hpos
    exact ⟨Or.inl ⟨hzero, rfl⟩, fun v r t => by simp [vaultCredit, hzero], rfl, rfl⟩

theorem registerClaimsGroup_ok {root totalLocked : ℕ} {token : Address} {tier : BitVec 8}
    (hregister : registerClaimsGroup w root token totalLocked tier = .ok w') :
    ∃ groups, Registered ⟨root, token, totalLocked, tier⟩ w.settlement.claimsGroups groups ∧
      w' = { w with settlement := { w.settlement with claimsGroups := groups } } := by
  simp only [registerClaimsGroup, bind_eq_ok, pure_eq_ok] at hregister
  obtain ⟨groups, hregister, rfl⟩ := hregister
  exact ⟨groups, SettleVerifyLib.registerClaimsGroup_ok hregister, rfl⟩

/-! ### The paths -/

/-- The payments of a matched trade: both claim totals to this contract, both fees to their relayers. -/
def SettleAuthParams.payments (D : Deployment) (self : PrivateSettlement) (p : SettleAuthParams) : List Payment :=
  [⟨p.maker.buyToken, D.settlement, p.maker.totalLocked.toNat⟩,
    ⟨p.taker.buyToken, D.settlement, p.taker.totalLocked.toNat⟩,
    ⟨p.maker.buyToken, self.feeTarget p.maker.relayer, p.feeTokenMaker.toNat⟩,
    ⟨p.taker.buyToken, self.feeTarget p.taker.relayer, p.feeTokenTaker.toNat⟩]

theorem settleAuth_ok {p : SettleAuthParams} (hsettle : settleAuth D env w p = .ok w') :
    SettleVerifyLib.CrossSide w.settlement.whitelistedTokens p.maker p.taker p.feeTokenMaker p.feeTokenTaker ∧
    (w.pool.tree.isKnownRoot p.maker.commitmentRoot = true ∧
      w.pool.tree.isKnownRoot p.taker.commitmentRoot = true) ∧
    Settles D [p.maker.spend, p.taker.spend] [p.maker.newCommitment, p.taker.newCommitment]
      (p.payments D w.settlement) [p.maker.registration, p.taker.registration] w w' ∧
    ∀ vault relayer token, (w'.vaults vault).balances relayer token =
      (w.vaults vault).balances relayer token +
        w.settlement.vaultCredit ⟨p.maker.buyToken, p.maker.relayer, p.feeTokenMaker.toNat⟩ vault relayer token +
        w.settlement.vaultCredit ⟨p.taker.buyToken, p.taker.relayer, p.feeTokenTaker.toNat⟩ vault relayer token := by
  simp only [settleAuth, bind_eq_ok, require_eq_ok] at hsettle
  obtain ⟨-, -, -, -, -, -, -, -, -, -, _, hvalid, -, -, -, -, -, -, -, -, -, -, -, -, -, hmakerRoot, -, htakerRoot,
    -, -, -, -, -, -, w₁, hspend₁, w₂, hspend₂, w₃, hinsert₁, w₄, hinsert₂, w₅, hlocked₁, w₆, hlocked₂, w₇, hfee₁,
    w₈, hfee₂, -, -, w₉, hregister₁, hregister₂⟩ := hsettle
  obtain ⟨hauthorized, pool₁, hspent₁, rfl⟩ := spendEscrowNullifier_ok hspend₁
  obtain ⟨-, pool₂, hspent₂, rfl⟩ := spendEscrowNullifier_ok hspend₂
  obtain ⟨pool₃, hinserted₁, rfl⟩ := maybeInsertCommitment_ok hinsert₁
  obtain ⟨pool₄, hinserted₂, rfl⟩ := maybeInsertCommitment_ok hinsert₂
  have hspends : Steps CommitmentPool.Spent [p.maker.nullifier, p.taker.nullifier] w.pool pool₂ :=
    ⟨pool₁, hspent₁, pool₂, hspent₂, rfl⟩
  have hinserts : Steps (CommitmentPool.Inserted D) [p.maker.newCommitment, p.taker.newCommitment] pool₂ pool₄ :=
    ⟨pool₃, hinserted₁, pool₄, hinserted₂, rfl⟩
  have hauthorized' : pool₄.authorizedSettlement = D.settlement := by
    rw [(CommitmentPool.inserted_steps hinserts).2, (CommitmentPool.spent_steps hspends).2.2.2]
    exact hauthorized
  obtain ⟨books₁, hpaid₁, rfl⟩ := transferLocked_ok hauthorized' hlocked₁
  obtain ⟨books₂, hpaid₂, rfl⟩ := transferLocked_ok hauthorized' hlocked₂
  have hrouted₁ := routeFee_ok hfee₁
  have hrouted₂ := routeFee_ok hfee₂
  obtain ⟨groups₁, hgroup₁, rfl⟩ := registerClaimsGroup_ok hregister₁
  obtain ⟨groups₂, hgroup₂, rfl⟩ := registerClaimsGroup_ok hregister₂
  have hsettlement := hrouted₂.settlement.trans hrouted₁.settlement
  have hpool := hrouted₂.pool.trans hrouted₁.pool
  have hpaid₄ := hrouted₂.paid
  have hcredit₂ := hrouted₂.credited
  rw [hrouted₁.settlement] at hpaid₄ hcredit₂
  rw [hsettlement] at hgroup₁
  refine ⟨SettleVerifyLib.validateCrossSide_ok hvalid, ⟨hmakerRoot, htakerRoot⟩,
    ⟨hauthorized, ⟨pool₂, hspends, ?_⟩, ⟨books₁, hpaid₁, books₂, hpaid₂, w₇.books, hrouted₁.paid, w₈.books, hpaid₄, rfl⟩,
      groups₂, ⟨groups₁, hgroup₁, groups₂, hgroup₂, rfl⟩, ?_⟩, fun v r t => ?_⟩
  · rw [hpool]
    exact hinserts
  · rw [hsettlement]
    rfl
  · rw [hcredit₂, hrouted₁.credited]
    rfl

theorem cancelPrivate_ok {p : CancelParams} (hcancel : cancelPrivate D env w p = .ok w') :
    p.newCommitment ≠ 0 ∧ w.pool.tree.isKnownRoot p.commitmentRoot = true ∧
    env.verifyProof w.settlement.cancelVerifier p.proof (p.pubSignals env.sender) = true ∧
    Settles D [(p.oldNullifier, p.oldNonceNullifier)] [p.newCommitment] [] [] w w' := by
  simp only [cancelPrivate, bind_eq_ok, require_eq_ok] at hcancel
  obtain ⟨-, -, -, -, -, hcommitment, -, -, -, -, -, -, -, hroot, -, hproof, w₁, hspend, hinsert⟩ := hcancel
  obtain ⟨hauthorized, pool₁, hspent, rfl⟩ := spendEscrowNullifier_ok hspend
  obtain ⟨pool₂, hinserted, rfl⟩ := insertCommitment_ok hinsert
  exact ⟨hcommitment, hroot, hproof, hauthorized, ⟨pool₁, ⟨pool₁, hspent, rfl⟩, pool₂, hinserted, rfl⟩, rfl,
    _, rfl, rfl⟩

theorem scatterDirectAuth_ok {p : ScatterDirectAuthParams} (hscatter : scatterDirectAuth D env w p = .ok w') :
    SettleVerifyLib.Scatter p.proof env.sender p.fee ∧
    w.pool.tree.isKnownRoot p.proof.commitmentRoot = true ∧
    Settles D [p.proof.spend] [p.proof.newCommitment]
      [⟨p.proof.buyToken, D.settlement, p.proof.totalLocked.toNat⟩,
        ⟨p.proof.buyToken, w.settlement.feeTarget env.sender, p.fee.toNat⟩]
      [p.proof.registration] w w' ∧
    ∀ vault relayer token, (w'.vaults vault).balances relayer token =
      (w.vaults vault).balances relayer token +
        w.settlement.vaultCredit ⟨p.proof.buyToken, env.sender, p.fee.toNat⟩ vault relayer token := by
  simp only [scatterDirectAuth, bind_eq_ok, require_eq_ok] at hscatter
  obtain ⟨-, -, -, -, -, -, _, hvalid, -, -, -, -, -, -, -, hroot, -, -, w₁, hspend, w₂, hinsert, w₃, hlocked, w₄,
    hfee, hregister⟩ := hscatter
  have hscatter := SettleVerifyLib.validateScatterAuth_ok hvalid
  rw [hscatter.sameToken] at hlocked hfee hregister
  obtain ⟨hauthorized, pool₁, hspent, rfl⟩ := spendEscrowNullifier_ok hspend
  obtain ⟨pool₂, hinserted, rfl⟩ := maybeInsertCommitment_ok hinsert
  have hauthorized' : pool₂.authorizedSettlement = D.settlement := by
    rw [hinserted.spec.2, hspent.2]
    exact hauthorized
  obtain ⟨books₁, hpaid, rfl⟩ := transferLocked_ok hauthorized' hlocked
  have hrouted := routeFee_ok hfee
  obtain ⟨groups, hgroup, rfl⟩ := registerClaimsGroup_ok hregister
  rw [hrouted.settlement] at hgroup
  refine ⟨hscatter, hroot, ⟨hauthorized, ⟨pool₁, ⟨pool₁, hspent, rfl⟩, pool₂, hinserted, hrouted.pool⟩,
    ⟨books₁, hpaid, w₄.books, hrouted.paid, rfl⟩, groups, ⟨groups, hgroup, rfl⟩, ?_⟩, hrouted.credited⟩
  rw [hrouted.settlement]
  rfl

/-! ### The swap -/

theorem runExternal_steps {calls : List ExternalCall} (hrun : runExternal D w calls = .ok w') :
    Steps (fun call w w' => ExternalCall.run D w call = .ok w') calls w w' := by
  induction calls generalizing w with
  | nil =>
    rw [runExternal, Except.ok.injEq] at hrun
    exact hrun.symm
  | cons call calls ih =>
    rw [runExternal, bind_eq_ok] at hrun
    obtain ⟨w₁, hcall, hrest⟩ := hrun
    exact ⟨w₁, hcall, ih hrest⟩

theorem lowLevelCall_ok {failure : Error} {calls : Option (List ExternalCall)}
    (hcall : lowLevelCall D w failure calls = .ok w') :
    ∃ done, calls = some done ∧ Steps (fun call w w' => ExternalCall.run D w call = .ok w') done w w' := by
  cases calls with
  | none => cases hcall
  | some done => exact ⟨done, rfl, runExternal_steps (mapError_eq_ok.mp hcall)⟩

theorem payPlatformFee_ok {token vault : Address} {platformFee : ℕ}
    (hpay : payPlatformFee D w token vault platformFee = .ok w') :
    ∃ amount ≤ platformFee, Paid D D.settlement ⟨token, vault, amount⟩ w.books w'.books ∧
      w'.pool = w.pool ∧ w'.settlement = w.settlement := by
  rw [payPlatformFee] at hpay
  by_cases hfee : platformFee > 0 ∧ vault ≠ 0
  · simp only [if_pos hfee, Deployment.safeTransfer, bind_eq_ok, orRevert_eq_ok, pure_eq_ok] at hpay
    obtain ⟨books, htransfer, -, -, rfl⟩ := hpay
    exact ⟨platformFee, le_rfl, Or.inr htransfer, rfl, rfl⟩
  · rw [if_neg hfee, Except.ok.injEq] at hpay
    obtain rfl := hpay
    exact ⟨0, Nat.zero_le _, Or.inl ⟨rfl, rfl⟩, rfl, rfl⟩

theorem callRouter_ok {token router : Address} {swapAmount : ℕ} {swap : Option (List ExternalCall)}
    (hcall : callRouter D w token router swapAmount swap = .ok w') :
    ∃ calls called, swap = some calls ∧
      Steps (fun call w w' => ExternalCall.run D w call = .ok w') calls
        { w with books := w.books.approve token D.settlement router swapAmount } called ∧
      w' = { called with books := called.books.approve token D.settlement router 0 } := by
  simp only [callRouter, bind_eq_ok, pure_eq_ok] at hcall
  obtain ⟨called, hcall, rfl⟩ := hcall
  obtain ⟨calls, rfl, hcalls⟩ := lowLevelCall_ok hcall
  exact ⟨calls, called, rfl, hcalls, rfl⟩

theorem returnUnspent_ok {sellToken buyToken : Address} {balanceBefore : ℕ} (htokens : sellToken ≠ buyToken)
    (hreturn : returnUnspent D w sellToken buyToken balanceBefore = .ok w') :
    ∃ books, Paid D D.settlement ⟨sellToken, D.pool, w.books.balanceOf sellToken D.settlement - balanceBefore⟩
      w.books books ∧ w' = { w with books } := by
  rw [returnUnspent] at hreturn
  by_cases hmore : w.books.balanceOf sellToken D.settlement > balanceBefore
  · simp only [if_pos (And.intro htokens hmore), Deployment.safeTransfer, bind_eq_ok, orRevert_eq_ok,
      pure_eq_ok] at hreturn
    obtain ⟨books, htransfer, rfl⟩ := hreturn
    exact ⟨books, Or.inr htransfer, rfl⟩
  · rw [if_neg fun h => hmore h.2, Except.ok.injEq] at hreturn
    exact ⟨w.books, Or.inl ⟨Nat.sub_eq_zero_of_le (not_lt.mp hmore), rfl⟩, hreturn.symm⟩

theorem paySurplus_ok {token vault : Address} {amountOut totalLocked : ℕ}
    (hpay : paySurplus D w token vault amountOut totalLocked = .ok w') :
    ∃ amount ≤ amountOut - totalLocked, Paid D D.settlement ⟨token, vault, amount⟩ w.books w'.books ∧
      w'.pool = w.pool ∧ w'.settlement = w.settlement := by
  rw [paySurplus] at hpay
  by_cases hsurplus : amountOut > totalLocked ∧ vault ≠ 0
  · simp only [if_pos hsurplus, Deployment.safeTransfer, bind_eq_ok, orRevert_eq_ok, pure_eq_ok] at hpay
    obtain ⟨books, htransfer, -, -, rfl⟩ := hpay
    exact ⟨amountOut - totalLocked, le_rfl, Or.inr htransfer, rfl, rfl⟩
  · rw [if_neg hsurplus, Except.ok.injEq] at hpay
    obtain rfl := hpay
    exact ⟨0, Nat.zero_le _, Or.inl ⟨rfl, rfl⟩, rfl, rfl⟩

/-- The stages of a swap after the sold amount arrived: the platform fee leaves `fee` as the books, the router leaves `called` as the world, the unspent rest goes back and leaves `returned`. -/
structure Swapped (D : Deployment) (p : SettleDexParams) (calls : List ExternalCall) (sellBalBefore : ℕ)
    (w : World) (fee : Books) (called : World) (returned : Books) (w' : World) : Prop where
  feePaid : ∃ vault, ∃ amount ≤ dexPlatformFee w p.proof.sellAmount.toNat,
    Paid D D.settlement ⟨p.proof.sellToken, vault, amount⟩ w.books fee
  routerCalled : ∃ vaults, Steps (fun call w w' => ExternalCall.run D w call = .ok w') calls
    { w with
      books := fee.approve p.proof.sellToken D.settlement p.dexRouter
        (p.proof.sellAmount.toNat - dexPlatformFee w p.proof.sellAmount.toNat)
      vaults } called
  unspentReturned : Paid D D.settlement
    ⟨p.proof.sellToken, D.pool, called.books.balanceOf p.proof.sellToken D.settlement - sellBalBefore⟩
    (called.books.approve p.proof.sellToken D.settlement p.dexRouter 0) returned
  received : fee.balanceOf p.proof.buyToken D.settlement + p.proof.totalLocked.toNat ≤
    returned.balanceOf p.proof.buyToken D.settlement
  surplusPaid : ∃ vault, ∃ amount ≤ returned.balanceOf p.proof.buyToken D.settlement -
      fee.balanceOf p.proof.buyToken D.settlement - p.proof.totalLocked.toNat,
    Paid D D.settlement ⟨p.proof.buyToken, vault, amount⟩ returned w'.books
  pool : w'.pool = called.pool
  settlement : ∃ groups, Registered p.proof.registration called.settlement.claimsGroups groups ∧
    w'.settlement = { called.settlement with claimsGroups := groups }

theorem settleWithDex_ok {p : SettleDexParams} {swap : Option (List ExternalCall)}
    (hsettle : settleWithDex D env w p swap = .ok w') :
    p.proof.sellToken ≠ p.proof.buyToken ∧ w.pool.tree.isKnownRoot p.proof.commitmentRoot = true ∧
    ∃ calls w₁, swap = some calls ∧
      Settles D [p.proof.spend] [p.proof.newCommitment]
        [⟨p.proof.sellToken, D.settlement, p.proof.sellAmount.toNat⟩] [] w w₁ ∧
      ∃ fee called returned,
        Swapped D p calls (w.books.balanceOf p.proof.sellToken D.settlement) w₁ fee called returned w' := by
  simp only [settleWithDex, bind_eq_ok, require_eq_ok] at hsettle
  obtain ⟨-, -, -, -, -, -, -, -, _, hvalid, -, -, -, -, -, hroot, -, -, w₁, hspend, w₂, hinsert, w₃, htransfer, w₄,
    hfee, w₅, hcall, w₆, hreturn, -, hsub, -, hout, w₇, hregister, hsurplus⟩ := hsettle
  have htokens := (SettleVerifyLib.validateDexProof_ok hvalid).2
  obtain ⟨hauthorized, pool₁, hspent, rfl⟩ := spendEscrowNullifier_ok hspend
  obtain ⟨pool₂, hinserted, rfl⟩ := maybeInsertCommitment_ok hinsert
  have hauthorized' : pool₂.authorizedSettlement = D.settlement := by
    rw [hinserted.spec.2, hspent.2]
    exact hauthorized
  obtain ⟨books₁, hpaid, rfl⟩ := transferToSettlement_ok hauthorized' htransfer
  obtain ⟨feeAmount, hfeeAmount, hfeePaid, hpool₄, hsettlement₄⟩ := payPlatformFee_ok hfee
  obtain ⟨calls, called, hswap, hcalls, rfl⟩ := callRouter_ok hcall
  obtain ⟨returned, hreturned, rfl⟩ := returnUnspent_ok htokens hreturn
  obtain ⟨groups, hgroup, rfl⟩ := registerClaimsGroup_ok hregister
  obtain ⟨surplus, hamount, hsurplusPaid, hpool', hsettlement'⟩ := paySurplus_ok hsurplus
  cases w₄
  cases hpool₄
  cases hsettlement₄
  let w₁ : World :=
    { w with
      books := books₁
      pool := pool₂
      settlement := w.settlement.markNullifiers p.proof.nullifier p.proof.nonceNullifier }
  have hsettles : Settles D [p.proof.spend] [p.proof.newCommitment]
      [⟨p.proof.sellToken, D.settlement, p.proof.sellAmount.toNat⟩] [] w w₁ :=
    ⟨hauthorized, ⟨pool₁, ⟨pool₁, hspent, rfl⟩, pool₂, hinserted, rfl⟩, ⟨books₁, hpaid, rfl⟩, _, rfl, rfl⟩
  exact ⟨htokens, hroot, calls, w₁, hswap, hsettles, _, called, returned, ⟨_, feeAmount, hfeeAmount, hfeePaid⟩,
    ⟨_, hcalls⟩, hreturned, Nat.add_le_of_le_sub' hsub (not_lt.mp hout), ⟨_, surplus, hamount, hsurplusPaid⟩, hpool',
    groups, hgroup, hsettlement'⟩

/-! ### Claims -/

/-- What an accepted claim has passed. -/
structure ClaimAccepted (env : Env) (storage : PrivateSettlement) (c : ClaimParams) : Prop where
  registered : (storage.claimsGroups c.claimsRoot).token ≠ 0
  unclaimed : storage.claimNullifiers c.claimNullifier = false
  covered : (storage.claimsGroups c.claimsRoot).totalClaimed + c.amount ≤ (storage.claimsGroups c.claimsRoot).totalLocked
  token : c.token = (storage.claimsGroups c.claimsRoot).token
  verified : env.verifyProof (storage.claimVerifierByTier (storage.claimsGroups c.claimsRoot).tier) c.proof
    c.pubSignals = true

/-- The storage after a claim. -/
def claimed (self : PrivateSettlement) (c : ClaimParams) : PrivateSettlement :=
  { self with
    claimNullifiers := Function.update self.claimNullifiers c.claimNullifier true
    claimsGroups := Function.update self.claimsGroups c.claimsRoot
      { self.claimsGroups c.claimsRoot with
        totalClaimed := (self.claimsGroups c.claimsRoot).totalClaimed + c.amount } }

theorem executeClaim_ok {c : ClaimParams} (hclaim : executeClaim D env w c = .ok w') :
    ClaimAccepted env w.settlement c ∧ payClaim D { w with settlement := w.settlement.claimed c } c = .ok w' := by
  simp only [executeClaim, bind_eq_ok, require_eq_ok] at hclaim
  obtain ⟨-, -, -, -, -, -, -, hregistered, -, hunclaimed, -, -, -, -, -, hcovered, -, -, -, htoken, -, -, -,
    hverified, hpay⟩ := hclaim
  exact ⟨⟨hregistered, Bool.eq_false_iff.mpr hunclaimed, not_lt.mp hcovered, htoken, hverified⟩, hpay⟩

/-- A claim is paid by a transfer, or in ETH for unwrapped WETH, and then the recipient's code runs. -/
theorem payClaim_ok {c : ClaimParams} (hpay : payClaim D w c = .ok w') :
    c.token ≠ D.weth ∧ (∃ books, w.books.transfer D.tax c.token D.settlement c.recipient c.amount = some books ∧
      w' = { w with books }) ∨
    c.token = D.weth ∧ ∃ burned books₁ books₂ calls, c.receive = some calls ∧
      w.books.burn c.token D.settlement c.amount = some burned ∧
      burned.transfer D.tax 0 D.weth D.settlement c.amount = some books₁ ∧
      books₁.transfer D.tax 0 D.settlement c.recipient c.amount = some books₂ ∧
      Steps (fun call w w' => ExternalCall.run D w call = .ok w') calls { w with books := books₂ } w' := by
  rw [payClaim] at hpay
  by_cases hweth : c.token = D.weth
  · simp only [if_pos hweth, Deployment.safeTransfer, bind_eq_ok, orRevert_eq_ok] at hpay
    obtain ⟨burned, hburn, books₁, hunwrap, books₂, hsend, hcall⟩ := hpay
    obtain ⟨calls, hreceive, hcalls⟩ := lowLevelCall_ok hcall
    rw [hweth]
    exact Or.inr ⟨rfl, burned, books₁, books₂, calls, hreceive, hburn, hunwrap, hsend, hcalls⟩
  · simp only [if_neg hweth, Deployment.safeTransfer, bind_eq_ok, orRevert_eq_ok, pure_eq_ok] at hpay
    obtain ⟨books, htransfer, rfl⟩ := hpay
    exact Or.inl ⟨hweth, books, htransfer, rfl⟩

theorem executeClaims_steps {claims : List ClaimParams} (hclaims : executeClaims D env w claims = .ok w') :
    Steps (fun c w w' => executeClaim D env w c = .ok w') claims w w' := by
  induction claims generalizing w with
  | nil =>
    rw [executeClaims, Except.ok.injEq] at hclaims
    exact hclaims.symm
  | cons c claims ih =>
    rw [executeClaims, bind_eq_ok] at hclaims
    obtain ⟨w₁, hclaim, hrest⟩ := hclaims
    exact ⟨w₁, hclaim, ih hrest⟩

theorem claimWithProof_ok {c : ClaimParams} (hclaim : claimWithProof D env w c = .ok w') :
    executeClaim D env w c = .ok w' := by
  simp only [claimWithProof, bind_eq_ok] at hclaim
  obtain ⟨-, -, hclaim⟩ := hclaim
  exact hclaim

theorem claimWithProofBatch_ok {claims : List ClaimParams} (hclaims : claimWithProofBatch D env w claims = .ok w') :
    Steps (fun c w w' => executeClaim D env w c = .ok w') claims w w' := by
  simp only [claimWithProofBatch, bind_eq_ok] at hclaims
  obtain ⟨-, -, -, -, -, -, hclaims⟩ := hclaims
  exact executeClaims_steps hclaims

end PrivateSettlement

end ScatterDex
