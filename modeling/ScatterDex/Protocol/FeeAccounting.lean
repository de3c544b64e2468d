import ScatterDex.Contract.FeeVaultPayout
import Mathlib.Algebra.BigOperators.Group.Finset.Piecewise
import Mathlib.Data.FinEnum
import Mathlib.Data.BitVec

/-!
# The accounts of the fee vault

What the vault owes never exceeds what it holds, at any moment of a claim, and its record of credits, claims and transfers adds up. The invariant counts the transfers that a claim has still to make among what is owed, so it holds while the code of a recipient runs, and the lock is what keeps a second claim out of that moment.
-/

namespace ScatterDex

open Fallible Transactions

/-! ### Reading the record -/

/-- What a list of transfers takes of a token. -/
def Payout.owed (ps : List Payout) (token : Address) : ℕ :=
  (ps.map fun p => if p.token = token then p.amount else 0).sum

namespace VaultEntry

/-- What an entry credits to a relayer. -/
def credit (relayer token : Address) : VaultEntry → ℕ
  | .credited r t amount => if r = relayer ∧ t = token then amount else 0
  | _ => 0

/-- What an entry takes of a relayer's balance. -/
def claim (relayer token : Address) : VaultEntry → ℕ
  | .claimed r t balance _ _ _ _ => if r = relayer ∧ t = token then balance else 0
  | _ => 0

def revenue (token : Address) : VaultEntry → ℕ
  | .accrued t amount => if t = token then amount else 0
  | _ => 0

def withdrawal (token : Address) : VaultEntry → ℕ
  | .withdrawn t _ amount => if t = token then amount else 0
  | _ => 0

/-- The parts of a claim make up the balance it took. -/
def Splits : VaultEntry → Prop
  | .claimed _ _ balance _ platformFee relayerAmount _ => relayerAmount + platformFee = balance
  | _ => True

/-- The sum of a measure over the record. -/
def total (measure : VaultEntry → ℕ) (log : List VaultEntry) : ℕ := (log.map measure).sum

variable {measure : VaultEntry → ℕ} {log : List VaultEntry} {entry : VaultEntry}

@[simp] theorem total_nil : total measure [] = 0 := rfl

@[simp] theorem total_append : total measure (log ++ [entry]) = total measure log + measure entry := by
  simp [total]

end VaultEntry

namespace Payout

variable {token target t : Address} {amount : ℕ} {ps qs : List Payout} {p : Payout}

@[simp] theorem owed_nil : owed [] t = 0 := rfl

@[simp] theorem owed_cons : owed (p :: ps) t = (if p.token = t then p.amount else 0) + owed ps t := by
  simp [owed]

@[simp] theorem owed_append : owed (ps ++ qs) t = owed ps t + owed qs t := by
  simp [owed]

@[simp] theorem owed_list : owed (list token target amount) t = if token = t then amount else 0 := by
  unfold list
  split
  · simp_all
  · simp

end Payout

/-! ### The invariant -/

/-- The vault's accounts, with transfers that it has still to make. -/
structure VaultWorld.Accounts (D : VaultDeployment) (w : VaultWorld) (remaining : List Payout) : Prop where
  tracked : ∀ t, w.storage.totalTracked t = ∑ r, w.storage.balances r t
  backed : ∀ t, w.storage.totalTracked t + w.storage.platformRevenue t + Payout.owed remaining t ≤
    w.books.balanceOf t D.vault
  credited : ∀ r t, VaultEntry.total (VaultEntry.credit r t) w.log =
    w.storage.balances r t + VaultEntry.total (VaultEntry.claim r t) w.log
  accrued : ∀ t, VaultEntry.total (VaultEntry.revenue t) w.log =
    w.storage.platformRevenue t + VaultEntry.total (VaultEntry.withdrawal t) w.log
  splits : ∀ entry ∈ w.log, entry.Splits
  sent : w.sent ++ remaining = w.log.flatMap VaultEntry.payouts
  native : w.storage.totalTracked 0 = 0 ∧ w.storage.platformRevenue 0 = 0
  allowance : ∀ t s, w.books.allowance t D.vault s = 0

namespace VaultWorld.Accounts

variable {D : VaultDeployment} {w w' : VaultWorld} {env : VaultEnv} {remaining ps : List Payout} {p : Payout}
  {relayer token : Address} {amount : ℕ}

theorem congr (hw : w.Accounts D remaining) {storage : VaultStorage} (hbalances : storage.balances = w.storage.balances)
    (htracked : storage.totalTracked = w.storage.totalTracked)
    (hrevenue : storage.platformRevenue = w.storage.platformRevenue) :
    VaultWorld.Accounts D { w with storage } remaining where
  tracked := by
    intro t
    simp only [htracked, hbalances]
    exact hw.tracked t
  backed := by
    intro t
    simp only [htracked, hrevenue]
    exact hw.backed t
  credited := by
    intro r t
    simp only [hbalances]
    exact hw.credited r t
  accrued := by
    intro t
    simp only [hrevenue]
    exact hw.accrued t
  splits := hw.splits
  sent := hw.sent
  native := by
    simp only [htracked, hrevenue]
    exact hw.native
  allowance := hw.allowance

theorem receive (hw : w.Accounts D remaining) {books : Books}
    (hbalance : ∀ t, w.books.balanceOf t D.vault ≤ books.balanceOf t D.vault)
    (hallowance : ∀ t s, books.allowance t D.vault s = 0) : VaultWorld.Accounts D { w with books } remaining where
  tracked := hw.tracked
  backed := fun t => (hw.backed t).trans (hbalance t)
  credited := hw.credited
  accrued := hw.accrued
  splits := hw.splits
  sent := hw.sent
  native := hw.native
  allowance := hallowance

theorem pay (hw : w.Accounts D (p :: ps)) (hpay : w.pay D p = .ok w') : w'.Accounts D ps := by
  simp only [VaultWorld.pay, bind_eq_ok, mapError_eq_ok, orRevert_eq_ok, pure_eq_ok] at hpay
  obtain ⟨books, htransfer, rfl⟩ := hpay
  refine ⟨hw.tracked, fun t => ?_, hw.credited, hw.accrued, hw.splits, ?_, hw.native, fun t s => ?_⟩
  · have hbacked := hw.backed t
    have hbalance := Ledger.transfer_balance htransfer t D.vault
    rw [Payout.owed_cons] at hbacked
    simp only [and_true, eq_comm (a := t)] at hbalance
    dsimp only
    by_cases htoken : p.token = t
    · rw [if_pos htoken] at hbacked
      rw [if_pos htoken] at hbalance
      omega
    · rw [if_neg htoken] at hbacked
      rw [if_neg htoken] at hbalance
      omega
  · rw [List.append_assoc]
    exact hw.sent
  · rw [Ledger.transfer_allowance htransfer]
    exact hw.allowance t s

theorem payAll (hw : w.Accounts D ps) (hpay : VaultWorld.payAll D w ps = .ok w') : w'.Accounts D [] := by
  induction ps generalizing w with
  | nil =>
    cases hpay
    exact hw
  | cons p ps ih =>
    simp only [VaultWorld.payAll, bind_eq_ok] at hpay
    obtain ⟨w₁, hfirst, hrest⟩ := hpay
    exact ih (hw.pay hfirst) hrest

theorem credit (hw : w.Accounts D []) (htoken : token ≠ 0)
    (hbacked : w.storage.totalTracked token + amount + w.storage.platformRevenue token ≤ w.books.balanceOf token D.vault) :
    VaultWorld.Accounts D { w with
      storage := { w.storage with toFeeVault := w.storage.toFeeVault.credit relayer token amount }
      log := w.log ++ [.credited relayer token amount] } [] where
  tracked := by
    intro t
    simp only [FeeVault.credit, hw.tracked t, Finset.sum_add_distrib]
    by_cases ht : t = token
    · simp [ht]
    · simp [ht]
  backed := by
    intro t
    have ht := hw.backed t
    simp only [FeeVault.credit, Payout.owed_nil] at ht ⊢
    by_cases htoken : t = token
    · subst htoken
      simp only [if_true]
      omega
    · simp only [if_neg htoken]
      omega
  credited := by
    intro r t
    have hrt := hw.credited r t
    simp only [FeeVault.credit, VaultEntry.total_append, VaultEntry.credit, VaultEntry.claim]
    simp only [eq_comm (a := relayer), eq_comm (a := token)]
    omega
  accrued := by
    intro t
    have ht := hw.accrued t
    simp only [FeeVault.credit, VaultEntry.total_append, VaultEntry.revenue, VaultEntry.withdrawal]
    omega
  splits := by
    intro entry hentry
    rcases List.mem_append.mp hentry with hold | hnew
    · exact hw.splits entry hold
    · rw [List.mem_singleton.mp hnew]
      trivial
  sent := by simpa [VaultEntry.payouts] using hw.sent
  native := by
    simp only [FeeVault.credit, if_neg htoken.symm, Nat.add_zero]
    exact hw.native
  allowance := hw.allowance

theorem deposit (hw : w.Accounts D []) (hdeposit : w.deposit D env relayer token amount = .ok w') : w'.Accounts D [] := by
  simp only [VaultWorld.deposit, bind_eq_ok, mapError_eq_ok, pure_eq_ok] at hdeposit
  obtain ⟨-, -, vault, hvault, rfl⟩ := hdeposit
  obtain ⟨rfl, htoken, hbacked⟩ := FeeVault.deposit_credit hvault
  refine hw.credit htoken ?_
  by_cases hzero : amount = 0
  · have hheld := hw.backed token
    rw [Payout.owed_nil] at hheld
    omega
  · exact hbacked hzero

theorem accrue (hw : w.Accounts D []) (haccrue : w.accrue D env token amount = .ok w') : w'.Accounts D [] := by
  simp only [VaultWorld.accrue, bind_eq_ok, mapError_eq_ok, pure_eq_ok] at haccrue
  obtain ⟨-, -, vault, hvault, rfl⟩ := haccrue
  obtain ⟨rfl, htoken, hbacked⟩ := FeeVault.accruePlatformRevenue_ok hvault
  refine ⟨hw.tracked, fun t => ?_, fun r t => ?_, fun t => ?_, fun entry hentry => ?_, ?_, ?_, hw.allowance⟩
  · have hheld := hw.backed t
    rw [Payout.owed_nil] at hheld ⊢
    by_cases ht : t = token
    · subst ht
      by_cases hzero : amount = 0
      · simp only [if_true]
        omega
      · simp only [if_true]
        have := hbacked hzero
        omega
    · simp only [if_neg ht]
      omega
  · simpa [VaultEntry.credit, VaultEntry.claim] using hw.credited r t
  · have ht := hw.accrued t
    simp only [VaultEntry.total_append, VaultEntry.revenue, VaultEntry.withdrawal, eq_comm (a := token)]
    omega
  · rcases List.mem_append.mp hentry with hold | hnew
    · exact hw.splits entry hold
    · rw [List.mem_singleton.mp hnew]
      trivial
  · simpa [VaultEntry.payouts] using hw.sent
  · simp only [if_neg htoken.symm, Nat.add_zero]
    exact hw.native

theorem withdrawPlatformRevenue (hw : w.Accounts D [])
    (hwithdraw : w.withdrawPlatformRevenue D env token = .ok w') : w'.Accounts D [] := by
  simp only [VaultWorld.withdrawPlatformRevenue, bind_eq_ok, require_eq_ok] at hwithdraw
  obtain ⟨-, -, -, -, -, htoken, -, hamount, hpay⟩ := hwithdraw
  refine Accounts.payAll ?_ hpay
  refine ⟨hw.tracked, fun t => ?_, fun r t => ?_, fun t => ?_, fun entry hentry => ?_, ?_, ?_, hw.allowance⟩
  · have hheld := hw.backed t
    rw [Payout.owed_nil] at hheld
    rw [VaultEntry.payouts, Payout.owed_list]
    by_cases ht : t = token
    · subst ht
      simp only [Function.update_self, if_true]
      omega
    · simp only [Function.update_of_ne ht, if_neg (Ne.symm ht)]
      omega
  · simpa [VaultEntry.credit, VaultEntry.claim] using hw.credited r t
  · have hrevenue := hw.accrued t
    simp only [VaultEntry.total_append, VaultEntry.revenue, VaultEntry.withdrawal]
    by_cases ht : t = token
    · subst ht
      simp only [Function.update_self, if_true]
      omega
    · simp only [Function.update_of_ne ht, if_neg (Ne.symm ht)]
      omega
  · rcases List.mem_append.mp hentry with hold | hnew
    · exact hw.splits entry hold
    · rw [List.mem_singleton.mp hnew]
      trivial
  · simpa using hw.sent
  · simp only [Function.update_of_ne htoken.symm]
    exact hw.native

/-- A claim that was opened: the balance left the storage, and its parts are owed. -/
theorem opened (hw : w.Accounts D []) {entry : VaultEntry} {treasury : Address} {platformFee relayerAmount : ℕ}
    {asEth : Bool} {books : Books} (hentry : entry =
      .claimed relayer token (w.storage.balances relayer token) treasury platformFee relayerAmount asEth)
    (htoken : token ≠ 0)
    (hsplit : relayerAmount + platformFee = w.storage.balances relayer token)
    (hallowance : ∀ t s, books.allowance t D.vault s = 0)
    (hbacked : ∀ t, w.storage.totalTracked t - (if t = token then w.storage.balances relayer token else 0) +
      w.storage.platformRevenue t + (if (if asEth then 0 else token) = t then w.storage.balances relayer token else 0) ≤
        books.balanceOf t D.vault) :
    VaultWorld.Accounts D ⟨w.storage.clearBalance relayer token, books, w.log ++ [entry], w.sent⟩ entry.payouts where
  tracked := by
    intro t
    have hsum : ∑ r, (w.storage.clearBalance relayer token).balances r t +
        (if t = token then w.storage.balances relayer token else 0) = ∑ r, w.storage.balances r t := by
      rw [← Finset.sum_congr rfl fun r _ => w.storage.clearBalance_balances relayer token r t, Finset.sum_add_distrib]
      by_cases ht : t = token
      · simp [ht]
      · simp [ht]
    have hall := hw.tracked t
    dsimp only
    rw [VaultStorage.clearBalance_totalTracked]
    omega
  backed := by
    intro t
    have ht := hbacked t
    have howed : Payout.owed entry.payouts t =
        if (if asEth then 0 else token) = t then w.storage.balances relayer token else 0 := by
      rw [hentry, VaultEntry.payouts, Payout.owed_append, Payout.owed_list, Payout.owed_list, ← hsplit]
      generalize (if asEth = true then 0 else token) = paid
      by_cases hpaid : paid = t
      · simp only [if_pos hpaid]
        omega
      · simp only [if_neg hpaid]
    rw [howed, VaultStorage.clearBalance_totalTracked]
    exact ht
  credited := by
    intro r t
    have hrt := hw.credited r t
    have hcleared := w.storage.clearBalance_balances relayer token r t
    simp only [hentry, VaultEntry.total_append, VaultEntry.credit, VaultEntry.claim, Nat.add_zero,
      eq_comm (a := relayer), eq_comm (a := token)]
    omega
  accrued := by
    intro t
    simpa [hentry, VaultEntry.revenue, VaultEntry.withdrawal, VaultStorage.clearBalance] using hw.accrued t
  splits := by
    intro e he
    rcases List.mem_append.mp he with hold | hnew
    · exact hw.splits e hold
    · rw [List.mem_singleton.mp hnew, hentry]
      exact hsplit
  sent := by simpa using hw.sent
  native := by
    rw [VaultStorage.clearBalance_totalTracked, if_neg htoken.symm, Nat.sub_zero]
    exact hw.native
  allowance := hallowance

theorem openClaim_ok {asEth : Bool} {entry : VaultEntry} (hopen : w.openClaim env token asEth = .ok (w', entry)) :
    ∃ platformFee relayerAmount, relayerAmount + platformFee = w.storage.balances env.sender token ∧
      w.storage.balances env.sender token ≤ w.storage.totalTracked token ∧
      entry = .claimed env.sender token (w.storage.balances env.sender token) w.storage.treasury platformFee relayerAmount
        asEth ∧
      w' = ⟨w.storage.clearBalance env.sender token, w.books, w.log ++ [entry], w.sent⟩ := by
  simp only [VaultWorld.openClaim, VaultStorage.takeBalance, VaultStorage.platformCut, bind_eq_ok, require_eq_ok,
    pure_eq_ok] at hopen
  obtain ⟨_, ⟨-, -, -, htracked, rfl⟩, _, ⟨-, -, -, hcut, rfl⟩, heq⟩ := hopen
  obtain ⟨rfl, rfl⟩ := Prod.mk.inj heq
  exact ⟨_, _, Nat.sub_add_cancel hcut, htracked, rfl, rfl⟩

theorem claim (hw : w.Accounts D []) (hclaim : w.claim D env token = .ok w') : w'.Accounts D [] := by
  simp only [VaultWorld.claim, bind_eq_ok, require_eq_ok] at hclaim
  obtain ⟨-, -, -, htoken, ⟨opened, entry⟩, hopen, hpay⟩ := hclaim
  obtain ⟨platformFee, relayerAmount, hsplit, htracked, hentry, rfl⟩ := openClaim_ok hopen
  refine Accounts.payAll (hw.opened hentry htoken hsplit hw.allowance fun t => ?_) hpay
  have ht := hw.backed t
  simp only [Payout.owed_nil, Bool.false_eq_true, if_false, eq_comm (a := token)] at ht ⊢
  split
  · rename_i hsame
    subst hsame
    omega
  · omega

theorem perform (hw : w.Accounts D remaining) {action : Ledger.Action Address Address} {books : Books}
    (hactor : action.actor ≠ some D.vault) (hperform : w.books.perform D.tax D.cap action = some books) :
    VaultWorld.Accounts D { w with books } remaining := by
  have hguarded := (Ledger.Guarded.refl hw.allowance 0 0).perform (by decide) hactor hperform
  exact hw.receive hguarded.unexposed.1 hguarded.unexposed.2

end VaultWorld.Accounts

/-! ### The lock -/

namespace VaultWorld

variable {D : VaultDeployment} {w w' : VaultWorld} {env : VaultEnv} {relayer token : Address} {amount : ℕ}

theorem deposit_unlocked (hdeposit : w.deposit D env relayer token amount = .ok w') : w.storage.entered = false := by
  simp only [deposit, VaultStorage.nonReentrant, bind_eq_ok, require_eq_ok] at hdeposit
  obtain ⟨-, hunlocked, -⟩ := hdeposit
  exact hunlocked

theorem accrue_unlocked (haccrue : w.accrue D env token amount = .ok w') : w.storage.entered = false := by
  simp only [accrue, VaultStorage.nonReentrant, bind_eq_ok, require_eq_ok] at haccrue
  obtain ⟨-, hunlocked, -⟩ := haccrue
  exact hunlocked

theorem withdraw_unlocked (hwithdraw : w.withdrawPlatformRevenue D env token = .ok w') : w.storage.entered = false := by
  simp only [withdrawPlatformRevenue, VaultStorage.nonReentrant, bind_eq_ok, require_eq_ok] at hwithdraw
  obtain ⟨-, hunlocked, -⟩ := hwithdraw
  exact hunlocked

theorem claim_unlocked (hclaim : w.claim D env token = .ok w') : w.storage.entered = false := by
  simp only [claim, VaultStorage.nonReentrant, bind_eq_ok, require_eq_ok] at hclaim
  obtain ⟨-, hunlocked, -⟩ := hclaim
  exact hunlocked

end VaultWorld

/-! ### Over runs -/

/-- The accounts at any moment: during a claim in ETH the lock is on, its transfers to come are owed, and the world it began in is sound. -/
def VaultState.Accounted (D : VaultDeployment) (s : VaultState) : Prop :=
  match s.frame with
  | none => s.world.Accounts D []
  | some frame => s.world.storage.entered = true ∧ s.world.Accounts D frame.remaining ∧ frame.checkpoint.Accounts D []

namespace VaultState.Accounted

variable {D : VaultDeployment} {s s' : VaultState} {w : VaultWorld} {env : VaultEnv} {token : Address}

/-- Outside a claim in ETH nothing is owed to its recipients. -/
theorem unlocked (hs : s.Accounted D) (hunlocked : s.world.storage.entered = false) :
    s.frame = none ∧ s.world.Accounts D [] := by
  unfold Accounted at hs
  split at hs
  · exact ⟨by assumption, hs⟩
  · exact absurd (hs.1.symm.trans hunlocked) Bool.true_eq_false.mp

theorem proceed {frame : VaultFrame} (hlocked : w.storage.entered = true) (hw : w.Accounts D frame.remaining)
    (hcheckpoint : frame.checkpoint.Accounts D []) (hproceed : VaultState.proceed D w frame = .ok s') : s'.Accounted D := by
  unfold VaultState.proceed at hproceed
  split at hproceed
  · rename_i hnone
    cases hproceed
    rw [hnone] at hw
    exact hw.congr rfl rfl rfl
  · rename_i p ps hremaining
    simp only [bind_eq_ok, mapError_eq_ok, pure_eq_ok] at hproceed
    obtain ⟨w', hpay, rfl⟩ := hproceed
    rw [hremaining] at hw
    refine ⟨?_, hw.pay hpay, hcheckpoint⟩
    simp only [VaultWorld.pay, bind_eq_ok, mapError_eq_ok, pure_eq_ok] at hpay
    obtain ⟨_, -, rfl⟩ := hpay
    exact hlocked

/-- A claim in ETH takes the balance in WETH and owes it in ETH. -/
theorem claimAsEth (hs : s.Accounted D) (hclaim : s.claimAsEth D env token = .ok s') : s'.Accounted D := by
  simp only [VaultState.claimAsEth, VaultStorage.nonReentrant, VaultWorld.unwrap, bind_eq_ok, mapError_eq_ok,
    require_eq_ok, orRevert_eq_ok, pure_eq_ok] at hclaim
  obtain ⟨-, hunlocked, -, hconfigured, -, rfl, ⟨opened, entry⟩, hopen, w, ⟨-, hweth, burned, hburn, books, htransfer, rfl⟩,
    hproceed⟩ := hclaim
  obtain ⟨-, hw⟩ := hs.unlocked hunlocked
  obtain ⟨platformFee, relayerAmount, hsplit, htracked, hentry, rfl⟩ := VaultWorld.Accounts.openClaim_ok hopen
  refine proceed rfl ?_ hw hproceed
  refine VaultWorld.Accounts.congr (hw.opened hentry hconfigured hsplit ?_ fun t => ?_) rfl rfl rfl
  · intro t spender
    rw [Ledger.transfer_allowance htransfer, Ledger.burn_allowance hburn]
    exact hw.allowance t spender
  · have hheld := hw.backed t
    have hslot : s.world.storage.weth = D.weth := hweth
    have hburned := Ledger.burn_balance hburn t D.vault
    have hreceived := Ledger.transfer_balance htransfer t D.vault
    rw [if_neg fun h => D.vault_ne_weth h.2, D.tax_native] at hreceived
    rw [← hslot] at hburned
    simp only [Payout.owed_nil, and_true, if_true, eq_comm (a := (0 : Address)), Nat.sub_zero] at hheld hburned hreceived ⊢
    by_cases hnative : t = 0
    · subst hnative
      obtain ⟨htracked, hrevenue⟩ := hw.native
      rw [if_neg hconfigured.symm] at hburned ⊢
      rw [if_pos rfl] at hreceived ⊢
      omega
    · rw [if_neg hnative] at hreceived ⊢
      -- the unwrapped WETH left the books as the balance left the storage
      by_cases ht : t = s.world.storage.weth
      · subst ht
        rw [if_pos rfl] at hburned ⊢
        omega
      · rw [if_neg ht] at hburned ⊢
        omega

end VaultState.Accounted

theorem VaultStorage.administer_accounts {self self' : VaultStorage} {env : VaultEnv} {admin : Admin}
    (hadmin : self.administer env admin = .ok self') :
    self'.balances = self.balances ∧ self'.totalTracked = self.totalTracked ∧
      self'.platformRevenue = self.platformRevenue ∧ self'.entered = self.entered := by
  cases admin with
  | renounceOwnership => cases hadmin
  | setAuthorizedDepositor depositor authorized =>
    simp only [administer, bind_eq_ok, pure_eq_ok] at hadmin
    obtain ⟨-, -, -, -, rfl⟩ := hadmin
    exact ⟨rfl, rfl, rfl, rfl⟩
  | setWeth weth =>
    simp only [administer, bind_eq_ok, pure_eq_ok] at hadmin
    obtain ⟨-, -, -, -, rfl⟩ := hadmin
    exact ⟨rfl, rfl, rfl, rfl⟩
  | scheduleFeeChange bps =>
    simp only [administer, bind_eq_ok, pure_eq_ok] at hadmin
    obtain ⟨-, -, -, -, -, -, rfl⟩ := hadmin
    exact ⟨rfl, rfl, rfl, rfl⟩
  | setFeeChangeDelay delay =>
    simp only [administer, bind_eq_ok, pure_eq_ok] at hadmin
    obtain ⟨-, -, -, -, rfl⟩ := hadmin
    exact ⟨rfl, rfl, rfl, rfl⟩
  | applyFeeChange =>
    simp only [administer, bind_eq_ok, pure_eq_ok] at hadmin
    obtain ⟨-, -, -, -, -, -, rfl⟩ := hadmin
    exact ⟨rfl, rfl, rfl, rfl⟩
  | cancelFeeChange =>
    simp only [administer, bind_eq_ok, pure_eq_ok] at hadmin
    obtain ⟨-, -, -, -, rfl⟩ := hadmin
    exact ⟨rfl, rfl, rfl, rfl⟩
  | setTreasury treasury =>
    simp only [administer, bind_eq_ok, pure_eq_ok] at hadmin
    obtain ⟨-, -, -, -, rfl⟩ := hadmin
    exact ⟨rfl, rfl, rfl, rfl⟩
  | transferOwnership newOwner =>
    simp only [administer, bind_eq_ok, pure_eq_ok] at hadmin
    obtain ⟨-, -, rfl⟩ := hadmin
    exact ⟨rfl, rfl, rfl, rfl⟩
  | acceptOwnership =>
    simp only [administer, bind_eq_ok, pure_eq_ok] at hadmin
    obtain ⟨-, -, rfl⟩ := hadmin
    exact ⟨rfl, rfl, rfl, rfl⟩

namespace VaultState.Accounted

variable {D : VaultDeployment} {s s' : VaultState}

theorem onStorage (hs : s.Accounted D) {storage : VaultStorage}
    (hsame : storage.balances = s.world.storage.balances ∧ storage.totalTracked = s.world.storage.totalTracked ∧
      storage.platformRevenue = s.world.storage.platformRevenue ∧ storage.entered = s.world.storage.entered) :
    VaultState.Accounted D { s with world := { s.world with storage } } := by
  obtain ⟨hbalances, htracked, hrevenue, hentered⟩ := hsame
  obtain ⟨world, frame⟩ := s
  cases frame with
  | none => exact VaultWorld.Accounts.congr hs hbalances htracked hrevenue
  | some frame => exact ⟨hentered.trans hs.1, hs.2.1.congr hbalances htracked hrevenue, hs.2.2⟩

theorem onBooks (hs : s.Accounted D) {books : Books}
    (hbooks : ∀ remaining, s.world.Accounts D remaining → VaultWorld.Accounts D { s.world with books } remaining) :
    VaultState.Accounted D { s with world := { s.world with books } } := by
  obtain ⟨world, frame⟩ := s
  cases frame with
  | none => exact hbooks _ hs
  | some frame => exact ⟨hs.1, hbooks _ hs.2.1, hs.2.2⟩

theorem onWorld (hs : s.Accounted D) {world : VaultWorld} (hunlocked : s.world.storage.entered = false)
    (hworld : s.world.Accounts D [] → world.Accounts D []) : VaultState.Accounted D { s with world } := by
  obtain ⟨hframe, hw⟩ := hs.unlocked hunlocked
  obtain ⟨world₀, frame⟩ := s
  obtain rfl : frame = none := hframe
  exact hworld hw

theorem run {step : VaultStep} (hs : s.Accounted D) (hrun : step.run D s = .ok s') : s'.Accounted D := by
  cases step with
  | initializeVault initialOwner treasury platformFeeBps =>
    simp only [VaultStep.run, VaultStep.onStorage, VaultStorage.initializeVault, bind_eq_ok, pure_eq_ok] at hrun
    obtain ⟨_, ⟨-, -, -, -, -, -, rfl⟩, rfl⟩ := hrun
    exact hs.onStorage ⟨rfl, rfl, rfl, rfl⟩
  | reinitializeFeeChangeDelay =>
    simp only [VaultStep.run, VaultStep.onStorage, VaultStorage.reinitializeFeeChangeDelay, bind_eq_ok, pure_eq_ok] at hrun
    obtain ⟨_, ⟨-, -, rfl⟩, rfl⟩ := hrun
    exact hs.onStorage ⟨rfl, rfl, rfl, rfl⟩
  | administer env admin =>
    simp only [VaultStep.run, VaultStep.onStorage, bind_eq_ok, pure_eq_ok] at hrun
    obtain ⟨storage, hadmin, rfl⟩ := hrun
    exact hs.onStorage (VaultStorage.administer_accounts hadmin)
  | deposit env relayer token amount =>
    simp only [VaultStep.run, VaultStep.onWorld, bind_eq_ok, pure_eq_ok] at hrun
    obtain ⟨world, hdeposit, rfl⟩ := hrun
    exact hs.onWorld (VaultWorld.deposit_unlocked hdeposit) fun hw => hw.deposit hdeposit
  | accrueDexFee env token amount =>
    simp only [VaultStep.run, VaultStep.onWorld, bind_eq_ok, pure_eq_ok] at hrun
    obtain ⟨world, haccrue, rfl⟩ := hrun
    exact hs.onWorld (VaultWorld.accrue_unlocked haccrue) fun hw => hw.accrue haccrue
  | accrueDexSurplus env token amount =>
    simp only [VaultStep.run, VaultStep.onWorld, bind_eq_ok, pure_eq_ok] at hrun
    obtain ⟨world, haccrue, rfl⟩ := hrun
    exact hs.onWorld (VaultWorld.accrue_unlocked haccrue) fun hw => hw.accrue haccrue
  | withdrawPlatformRevenue env token =>
    simp only [VaultStep.run, VaultStep.onWorld, bind_eq_ok, pure_eq_ok] at hrun
    obtain ⟨world, hwithdraw, rfl⟩ := hrun
    exact hs.onWorld (VaultWorld.withdraw_unlocked hwithdraw) fun hw => hw.withdrawPlatformRevenue hwithdraw
  | claim env token =>
    simp only [VaultStep.run, VaultStep.onWorld, bind_eq_ok, pure_eq_ok] at hrun
    obtain ⟨world, hclaim, rfl⟩ := hrun
    exact hs.onWorld (VaultWorld.claim_unlocked hclaim) fun hw => hw.claim hclaim
  | claimAsEth env token => exact hs.claimAsEth hrun
  | receive env amount =>
    simp only [VaultStep.run, bind_eq_ok, require_eq_ok, mapError_eq_ok, orRevert_eq_ok, pure_eq_ok] at hrun
    obtain ⟨-, hsender, -, -, books, htransfer, rfl⟩ := hrun
    refine hs.onBooks fun remaining hw => hw.receive (fun t => ?_) fun t spender => ?_
    · exact Ledger.transfer_balance_ge htransfer hsender.symm t
    · rw [Ledger.transfer_allowance htransfer]
      exact hw.allowance t spender
  | recipientReturns =>
    obtain ⟨world, frame⟩ := s
    cases frame with
    | none => cases hrun
    | some frame => exact proceed hs.1 hs.2.1 hs.2.2 hrun
  | recipientReverts =>
    obtain ⟨world, frame⟩ := s
    cases frame with
    | none => cases hrun
    | some frame =>
      cases hrun
      exact hs.2.2
  | books action =>
    simp only [VaultStep.run, bind_eq_ok, require_eq_ok, mapError_eq_ok, orRevert_eq_ok, pure_eq_ok] at hrun
    obtain ⟨-, hactor, books, hperform, rfl⟩ := hrun
    exact hs.onBooks fun remaining hw => hw.perform hactor hperform

end VaultState.Accounted

/-- A new vault. -/
def VaultState.fresh (books : Books) : VaultState := ⟨⟨.blank, books, [], []⟩, none⟩

/-- The transfers the claim under way has still to make. -/
def VaultState.remaining (s : VaultState) : List Payout := s.frame.elim [] VaultFrame.remaining

variable {D : VaultDeployment}

theorem VaultState.Accounted.fresh {books : Books} (hnone : ∀ t spender, books.allowance t D.vault spender = 0) :
    (VaultState.fresh books).Accounted D where
  tracked := fun _ => Finset.sum_const_zero.symm
  backed := fun _ => Nat.zero_le _
  credited := fun _ _ => rfl
  accrued := fun _ => rfl
  splits := fun _ hentry => absurd hentry List.not_mem_nil
  sent := rfl
  native := ⟨rfl, rfl⟩
  allowance := hnone

/-- The accounts of the world as it is, whether or not a claim is under way. -/
theorem VaultState.Accounted.accounts {s : VaultState} (hs : s.Accounted D) : s.world.Accounts D s.remaining := by
  obtain ⟨world, frame⟩ := s
  cases frame with
  | none => exact hs
  | some frame => exact hs.2.1

/-- **The vault's accounts add up** at every moment of every run: the tracked total is the sum of the balances, what is owed is held, every credited unit is in a balance or was taken by one claim, a claim's parts make up what it took, and the transfers made are those of the claims and withdrawals, each once. -/
theorem fee_vault_accounts {books : Books} (hnone : ∀ t spender, books.allowance t D.vault spender = 0)
    {steps : List VaultStep} {s : VaultState} (hs : s = after (VaultStep.run D) (.fresh books) steps) :
    (∀ t, s.world.storage.totalTracked t = ∑ r, s.world.storage.balances r t) ∧
      (∀ t, s.world.storage.totalTracked t + s.world.storage.platformRevenue t ≤ s.world.books.balanceOf t D.vault) ∧
      (∀ r t, VaultEntry.total (VaultEntry.credit r t) s.world.log =
        s.world.storage.balances r t + VaultEntry.total (VaultEntry.claim r t) s.world.log) ∧
      (∀ t, VaultEntry.total (VaultEntry.revenue t) s.world.log =
        s.world.storage.platformRevenue t + VaultEntry.total (VaultEntry.withdrawal t) s.world.log) ∧
      (∀ entry ∈ s.world.log, entry.Splits) ∧
      s.world.sent ++ s.remaining = s.world.log.flatMap VaultEntry.payouts := by
  subst hs
  have haccounted : (after (VaultStep.run D) (.fresh books) steps).Accounted D :=
    invariant (fun step _ s s' hs hrun => hs.run hrun) (.fresh hnone)
  have hw := haccounted.accounts
  exact ⟨hw.tracked, fun t => (Nat.le_add_right _ _).trans (hw.backed t), hw.credited, hw.accrued, hw.splits, hw.sent⟩

/-- A vault at 100 and WETH at 200. -/
def sampleVault : VaultDeployment := .small

def sampleVaultEnv (sender : Address) : VaultEnv := ⟨sender, 0, fun _ => 1⟩

/-- Relayer 5 earned 400 WETH and claims it as ETH. While the treasury runs, the relayer tries to claim again, and the owner changes the treasury. -/
def ethClaim : List VaultStep :=
  [.initializeVault 1 2 500, .administer (sampleVaultEnv 1) (.setAuthorizedDepositor 300 true),
    .administer (sampleVaultEnv 1) (.setWeth 200), .books (.mint 200 300 1000), .books (.mint 0 200 1000),
    .books (.transfer 200 300 100 400), .deposit (sampleVaultEnv 300) 5 200 400, .claimAsEth (sampleVaultEnv 5) 200,
    .claim (sampleVaultEnv 5) 200, .administer (sampleVaultEnv 1) (.setTreasury 3), .recipientReturns, .recipientReturns]

/-- 5% went to the treasury that was set when the claim began. -/
example : (after (VaultStep.run sampleVault) (.fresh (Ledger.soleHolder 0 0 0)) ethClaim).world.sent =
    [⟨0, 2, 20⟩, ⟨0, 5, 380⟩] := by decide +kernel

theorem fee_vault_accounts_ethClaim :
    (after (VaultStep.run sampleVault) (.fresh (Ledger.soleHolder 0 0 0)) ethClaim).world.storage.totalTracked 200 =
      ∑ r, (after (VaultStep.run sampleVault) (.fresh (Ledger.soleHolder 0 0 0)) ethClaim).world.storage.balances r 200 :=
  (fee_vault_accounts (fun _ _ => rfl) rfl).1 200

end ScatterDex
