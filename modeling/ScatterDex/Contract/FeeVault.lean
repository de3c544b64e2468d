import ScatterDex.Contract.Basic

/-!
# FeeVault

The part of the vault that the settlement contract calls: crediting a relayer's fee and accruing platform revenue. Both check after the fact that the vault's balance backs what it owes, so a credit without a transfer reverts.
-/

namespace ScatterDex

open Fallible

structure FeeVault where
  balances : (relayer token : Address) → ℕ
  totalTracked : Address → ℕ
  platformRevenue : Address → ℕ
  authorizedDepositors : Address → Bool

namespace FeeVault

variable (vault : FeeVault) (self : Address) (books : Books)

/-- `_assertBalanceBacked`. -/
def assertBalanceBacked (token : Address) : Except Error Unit :=
  require (¬books.balanceOf token self < vault.totalTracked token + vault.platformRevenue token)
    .insufficientTokenBalance

/-- Add to the balance of one relayer in one token. -/
def credit (relayer token : Address) (amount : ℕ) : FeeVault :=
  { vault with
    balances := fun r t => vault.balances r t + if r = relayer ∧ t = token then amount else 0
    totalTracked := fun t => vault.totalTracked t + if t = token then amount else 0 }

def deposit (sender relayer token : Address) (amount : ℕ) : Except Error FeeVault := do
  require (vault.authorizedDepositors sender = true) .notAuthorized
  require (¬(relayer = 0 ∨ token = 0)) .zeroAddress
  if amount = 0 then return vault
  else
    (vault.credit relayer token amount).assertBalanceBacked self books token
    return vault.credit relayer token amount

/-- `_accruePlatformRevenue`, the body of `accrueDexFee` and `accrueDexSurplus`. -/
def accruePlatformRevenue (sender token : Address) (amount : ℕ) : Except Error FeeVault := do
  require (vault.authorizedDepositors sender = true) .notAuthorized
  require (token ≠ 0) .zeroAddress
  if amount = 0 then return vault
  else
    let vault := { vault with
      platformRevenue := fun t => vault.platformRevenue t + if t = token then amount else 0 }
    vault.assertBalanceBacked self books token
    return vault

def accrueDexFee := accruePlatformRevenue

def accrueDexSurplus := accruePlatformRevenue

variable {vault self books}

theorem deposit_ok {sender relayer token : Address} {amount : ℕ} {vault' : FeeVault}
    (hdeposit : vault.deposit self books sender relayer token amount = .ok vault') (r t : Address) :
    vault'.balances r t = vault.balances r t + if r = relayer ∧ t = token then amount else 0 := by
  simp only [deposit, bind_eq_ok, require_eq_ok] at hdeposit
  obtain ⟨-, -, -, -, hdeposit⟩ := hdeposit
  by_cases hzero : amount = 0
  · rw [if_pos hzero, pure_eq_ok] at hdeposit
    rw [← hdeposit, hzero, ite_self, Nat.add_zero]
  · rw [if_neg hzero, bind_eq_ok] at hdeposit
    obtain ⟨-, -, heq⟩ := hdeposit
    rw [← pure_eq_ok.mp heq]
    rfl

/-- A successful deposit is a credit, and one of something was found backed. -/
theorem deposit_credit {sender relayer token : Address} {amount : ℕ} {vault' : FeeVault}
    (hdeposit : vault.deposit self books sender relayer token amount = .ok vault') :
    vault' = vault.credit relayer token amount ∧ token ≠ 0 ∧ (amount ≠ 0 →
      vault.totalTracked token + amount + vault.platformRevenue token ≤ books.balanceOf token self) := by
  simp only [deposit, bind_eq_ok, require_eq_ok, not_or] at hdeposit
  obtain ⟨-, -, -, ⟨-, htoken⟩, hdeposit⟩ := hdeposit
  by_cases hzero : amount = 0
  · rw [if_pos hzero, pure_eq_ok] at hdeposit
    refine ⟨?_, htoken, fun hnonzero => absurd hzero hnonzero⟩
    rw [← hdeposit, hzero]
    simp [credit]
  · rw [if_neg hzero, bind_eq_ok] at hdeposit
    obtain ⟨_, hbacked, heq⟩ := hdeposit
    refine ⟨(pure_eq_ok.mp heq).symm, htoken, fun _ => ?_⟩
    simpa [assertBalanceBacked, credit] using hbacked

theorem accruePlatformRevenue_ok {sender token : Address} {amount : ℕ} {vault' : FeeVault}
    (haccrue : vault.accruePlatformRevenue self books sender token amount = .ok vault') :
    vault' = { vault with platformRevenue := fun t => vault.platformRevenue t + if t = token then amount else 0 } ∧
      token ≠ 0 ∧ (amount ≠ 0 →
        vault.totalTracked token + (vault.platformRevenue token + amount) ≤ books.balanceOf token self) := by
  simp only [accruePlatformRevenue, bind_eq_ok, require_eq_ok] at haccrue
  obtain ⟨-, -, -, htoken, haccrue⟩ := haccrue
  by_cases hzero : amount = 0
  · rw [if_pos hzero, pure_eq_ok] at haccrue
    refine ⟨?_, htoken, fun hnonzero => absurd hzero hnonzero⟩
    rw [← haccrue, hzero]
    simp
  · rw [if_neg hzero, bind_eq_ok] at haccrue
    obtain ⟨_, hbacked, heq⟩ := haccrue
    refine ⟨(pure_eq_ok.mp heq).symm, htoken, fun _ => ?_⟩
    simpa [assertBalanceBacked] using hbacked

end FeeVault

end ScatterDex
