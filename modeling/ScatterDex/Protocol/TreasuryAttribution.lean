import ScatterDex.Contract.Treasury

/-!
# What is attributed is there

The attributed part of every balance of the treasury is covered by the balance, between any two steps of any calls inside calls, and a rescue takes from the rest only. Attribution falls before a payment leaves, so the code a payment calls finds the bound in place; whatever that code undoes goes back to a state that had it too.
-/

namespace ScatterDex

open CallStack Fallible Transactions

variable {D : TreasuryDeployment} {w w' : TreasuryWorld} {c c' : TreasuryCalls}

/-- The treasury acts through its own functions only. -/
def TreasuryStep.ByOthers (D : TreasuryDeployment) : TreasuryStep → Prop
  | .books action => action.actor ≠ some D.treasury
  | .pay sender _ => sender ≠ D.treasury
  | _ => True

namespace TreasuryWorld

/-- Every attributed amount is in the balance, and nobody may spend from it. -/
structure Covered (D : TreasuryDeployment) (w : TreasuryWorld) : Prop where
  attributed_le : ∀ token, w.treasury.attributed token ≤ w.onHand D token
  allowance : ∀ token spender, w.books.allowance token D.treasury spender = 0

theorem Covered.congr (hw : Covered D w) (hattributed : w'.treasury.attributed = w.treasury.attributed)
    (hbooks : w'.books = w.books) : Covered D w' where
  attributed_le token := by
    rw [hattributed, onHand, hbooks]
    exact hw.attributed_le token
  allowance := by
    rw [hbooks]
    exact hw.allowance

/-! ### What each call does -/

theorem attributed_update (self : Treasury) (token : Address) (hne : token ≠ 0) (amount : ℕ) (t : Address) :
    ({ self with attributedERC20 := Function.update self.attributedERC20 token amount } : Treasury).attributed t =
      if t = token then amount else self.attributed t := by
  unfold Treasury.attributed
  by_cases ht : t = token
  · subst ht
    rw [if_neg hne, if_pos rfl]
    exact Function.update_self ..
  · rw [if_neg ht]
    show (if t = 0 then _ else Function.update self.attributedERC20 token amount t) = _
    rw [Function.update_of_ne ht]

theorem attributed_native (self : Treasury) (amount : ℕ) (t : Address) :
    ({ self with attributedETH := amount } : Treasury).attributed t = if t = 0 then amount else self.attributed t := by
  unfold Treasury.attributed
  by_cases ht : t = 0
  · rw [if_pos ht, if_pos ht]
  · rw [if_neg ht, if_neg ht, if_neg ht]

theorem administer_attributed {self self' : Treasury} {sender : Address} {admin : Treasury.Admin}
    (hadmin : self.administer sender admin = .ok self') : self'.attributed = self.attributed := by
  cases admin with
  | acceptOwnership =>
    simp only [Treasury.administer, bind_eq_ok, require_eq_ok, pure_eq_ok] at hadmin
    obtain ⟨-, -, rfl⟩ := hadmin
    rfl
  | renounceOwnership => cases hadmin
  | transferOwnership newOwner =>
    simp only [Treasury.administer, bind_eq_ok, pure_eq_ok] at hadmin
    obtain ⟨-, -, rfl⟩ := hadmin
    rfl
  | initializeTreasury | setBeneficiary | setReporter | pause | unpause =>
    simp only [Treasury.administer, bind_eq_ok, require_eq_ok, pure_eq_ok] at hadmin
    obtain ⟨-, -, -, -, rfl⟩ := hadmin
    rfl

theorem recordRevenue_attributed {self self' : Treasury} {sender token : Address} {amount onHand : ℕ}
    (hrecord : self.recordRevenue sender token amount onHand = .ok self') :
    self.attributed token + amount ≤ onHand ∧
      ∀ t, self'.attributed t = if t = token then self.attributed token + amount else self.attributed t := by
  simp only [Treasury.recordRevenue, bind_eq_ok, require_eq_ok, pure_eq_ok] at hrecord
  obtain ⟨-, -, -, -, -, htoken, -, -, -, -, -, hle, rfl⟩ := hrecord
  have hself : self.attributed token = self.attributedERC20 token := if_neg htoken
  rw [hself]
  exact ⟨not_lt.mp hle, attributed_update self token htoken _⟩

theorem receiveEth_attributed {self self' : Treasury} {value : ℕ} (hreceive : self.receiveEth value = .ok self') (t : Address) :
    self'.attributed t = self.attributed t + if t = 0 then value else 0 := by
  unfold Treasury.receiveEth at hreceive
  split at hreceive
  · simp only [bind_eq_ok, require_eq_ok, pure_eq_ok] at hreceive
    obtain ⟨-, -, rfl⟩ := hreceive
    rw [attributed_native]
    split
    · subst t
      rfl
    · rfl
  · have hzero : value = 0 := by omega
    obtain rfl := pure_eq_ok.mp hreceive
    rw [hzero, ite_self, Nat.add_zero]

/-- A transfer by the treasury takes the amount off its balance, unless it is the receiver. -/
theorem send_spec {token target : Address} {amount : ℕ} (hsend : w.send D token target amount = .ok w') :
    w'.treasury = w.treasury ∧ w'.books.allowance = w.books.allowance ∧ amount ≤ w.onHand D token ∧
      ∀ t, w'.onHand D t + (if t = token then amount else 0) =
        w.onHand D t + if t = token ∧ D.treasury = target then amount - D.tax token amount else 0 := by
  unfold send at hsend
  split at hsend
  · rename_i ledger htransfer
    obtain rfl := Except.ok.inj hsend
    have hbalance := fun t => Ledger.transfer_balance htransfer t D.treasury
    simp only [and_true] at hbalance
    exact ⟨rfl, Ledger.transfer_allowance htransfer, Ledger.transfer_le htransfer, hbalance⟩
  · cases hsend

/-- What a payment leaves to the code it calls: the attributed amount of the token has fallen by some of what was paid, or is zero. -/
structure Paid (D : TreasuryDeployment) (w w' : TreasuryWorld) (token target : Address) (amount : ℕ) (released : ℕ → ℕ) : Prop where
  attributed : ∀ t, w'.treasury.attributed t = if t = token then released (w.treasury.attributed token) else w.treasury.attributed t
  allowance : w'.books.allowance = w.books.allowance
  enough : amount ≤ w.onHand D token
  balance : ∀ t, w'.onHand D t + (if t = token then amount else 0) =
    w.onHand D t + if t = token ∧ D.treasury = target then amount - D.tax token amount else 0

theorem withdraw_paid {sender token target : Address} {amount : ℕ} (hwithdraw : w.withdraw D sender token target amount = .ok w') :
    Paid D w w' token target amount (· - amount) := by
  simp only [withdraw, payable, bind_eq_ok, require_eq_ok] at hwithdraw
  obtain ⟨-, ⟨-, -, -, -, -, -, -, haddress, -⟩, -, -, hsend⟩ := hwithdraw
  obtain ⟨htreasury, hallowance, henough, hbalance⟩ := send_spec hsend
  have htoken : token ≠ 0 := fun h => haddress (Or.inl (decide_eq_true h))
  have hself : w.treasury.attributed token = w.treasury.attributedERC20 token := if_neg htoken
  refine ⟨fun t => ?_, hallowance, henough, hbalance⟩
  rw [htreasury]
  refine (attributed_update w.treasury token htoken _ t).trans ?_
  rw [hself]
  split
  · split <;> omega
  · rfl

theorem withdrawETH_paid {sender target : Address} {amount : ℕ} (hwithdraw : w.withdrawETH D sender target amount = .ok w') :
    Paid D w w' 0 target amount (· - amount) := by
  simp only [withdrawETH, payable, bind_eq_ok, require_eq_ok] at hwithdraw
  obtain ⟨-, -, -, -, hsend⟩ := hwithdraw
  obtain ⟨htreasury, hallowance, henough, hbalance⟩ := send_spec hsend
  refine ⟨fun t => ?_, hallowance, henough, hbalance⟩
  rw [htreasury]
  have hself : w.treasury.attributed 0 = w.treasury.attributedETH := if_pos rfl
  refine (attributed_native w.treasury
    (if w.treasury.attributedETH > amount then w.treasury.attributedETH - amount else 0) t).trans ?_
  rw [hself]
  split
  · split <;> omega
  · rfl

theorem rescuable_le {token : Address} {amount : ℕ} (hamount : ¬amount > w.rescuable D token) :
    amount + w.treasury.attributed token ≤ w.onHand D token ∨ amount = 0 := by
  unfold rescuable at hamount
  split at hamount <;> omega

theorem rescue_paid {sender token target : Address} {amount : ℕ} (hrescue : w.rescue D sender token target amount = .ok w') :
    Paid D w w' token target amount id ∧ amount + w.treasury.attributed token ≤ w.onHand D token := by
  simp only [rescue, payable, bind_eq_ok, require_eq_ok] at hrescue
  obtain ⟨-, ⟨-, -, -, -, -, -, -, -, -, hamount, -⟩, -, hle, hsend⟩ := hrescue
  obtain ⟨htreasury, hallowance, henough, hbalance⟩ := send_spec hsend
  refine ⟨⟨fun t => ?_, hallowance, henough, hbalance⟩, (rescuable_le hle).resolve_right hamount⟩
  rw [htreasury, id]
  split
  · subst t
    rfl
  · rfl

theorem rescueETH_paid {sender target : Address} {amount : ℕ} (hrescue : w.rescueETH D sender target amount = .ok w') :
    Paid D w w' 0 target amount id ∧ amount + w.treasury.attributed 0 ≤ w.onHand D 0 := by
  simp only [rescueETH, payable, bind_eq_ok, require_eq_ok] at hrescue
  obtain ⟨-, ⟨-, -, -, -, -, -, -, -, -, hamount, -⟩, -, hle, hsend⟩ := hrescue
  obtain ⟨htreasury, hallowance, henough, hbalance⟩ := send_spec hsend
  refine ⟨⟨fun t => ?_, hallowance, henough, hbalance⟩, (rescuable_le hle).resolve_right hamount⟩
  rw [htreasury, id]
  split
  · subst t
    rfl
  · rfl

/-! ### The bound -/

theorem Covered.paid {token target : Address} {amount : ℕ} {released : ℕ → ℕ} (hw : Covered D w)
    (hpaid : Paid D w w' token target amount released)
    (hreleased : released (w.treasury.attributed token) + amount ≤ w.onHand D token ∨ released (w.treasury.attributed token) = 0) :
    Covered D w' where
  attributed_le t := by
    have hold := hw.attributed_le t
    have hbalance := hpaid.balance t
    have henough := hpaid.enough
    rw [hpaid.attributed t]
    by_cases ht : t = token
    · subst ht
      rw [if_pos rfl] at hbalance ⊢
      omega
    · rw [if_neg ht] at hbalance ⊢
      rw [if_neg fun h => ht h.1] at hbalance
      omega
  allowance := by
    rw [hpaid.allowance]
    exact hw.allowance

/-- A payment of native ETH to the treasury itself comes back in full, and is attributed. -/
theorem Covered.paidOwn {amount : ℕ} {released : ℕ → ℕ} {w'' : TreasuryWorld} (hw : Covered D w)
    (hpaid : Paid D w w' 0 D.treasury amount released) (hown : w'.receiveOwn amount = .ok w'')
    (hreleased : released (w.treasury.attributed 0) + amount ≤ w.onHand D 0 ∨ released (w.treasury.attributed 0) = 0) :
    Covered D w'' ∧ ∀ t, w''.treasury.attributed t =
      if t = 0 then released (w.treasury.attributed 0) + amount else w.treasury.attributed t := by
  simp only [receiveOwn, bind_eq_ok, mapError_eq_ok, pure_eq_ok] at hown
  obtain ⟨treasury, hreceive, rfl⟩ := hown
  have hattributed : ∀ t, treasury.attributed t =
      if t = 0 then released (w.treasury.attributed 0) + amount else w.treasury.attributed t := by
    intro t
    rw [receiveEth_attributed hreceive, hpaid.attributed]
    split <;> rfl
  refine ⟨⟨fun t => ?_, ?_⟩, hattributed⟩
  · have hbalance := hpaid.balance t
    have henough := hpaid.enough
    have hold := hw.attributed_le t
    show treasury.attributed t ≤ w'.onHand D t
    rw [hattributed t]
    by_cases ht : t = 0
    · subst ht
      rw [if_pos rfl, if_pos ⟨rfl, rfl⟩, D.tax_native, Nat.sub_zero] at hbalance
      rw [if_pos rfl]
      omega
    · rw [if_neg ht, if_neg fun h => ht h.1] at hbalance
      rw [if_neg ht]
      omega
  · show ∀ token spender, w'.books.allowance token D.treasury spender = 0
    rw [hpaid.allowance]
    exact hw.allowance

theorem Covered.grow (hw : Covered D w) (htreasury : w'.treasury.attributed = w.treasury.attributed)
    (hbalance : ∀ t, w.onHand D t ≤ w'.onHand D t) (hallowance : ∀ t s, w'.books.allowance t D.treasury s = 0) : Covered D w' where
  attributed_le t := by
    rw [htreasury]
    exact (hw.attributed_le t).trans (hbalance t)
  allowance := hallowance

theorem Covered.resume (hw : Covered D w) (pending : TreasuryFrame) : Covered D (pending.resume w) := by
  cases pending with
  | payment => exact hw.congr rfl rfl
  | other => exact hw

end TreasuryWorld

/-! ### Steps -/

open TreasuryWorld

theorem released_sub {attributed onHand amount : ℕ} (hle : attributed ≤ onHand) :
    attributed - amount + amount ≤ onHand ∨ attributed - amount = 0 := by omega

theorem TreasuryStep.covered {a : TreasuryStep} (hc : c.Everywhere (Covered D)) (ha : a.ByOthers D)
    (hstep : a.run D c = .ok c') : c'.Everywhere (Covered D) := by
  have hw := hc.state
  cases a with
  | books action =>
    simp only [run] at hstep
    split at hstep
    · rename_i ledger hperform
      obtain rfl := Except.ok.inj hstep
      have hguarded := (Ledger.Guarded.refl hw.allowance 0 0).perform (by decide) ha hperform
      obtain ⟨hbalance, hallowance⟩ := hguarded.unexposed
      exact hc.goto (hw.grow rfl hbalance hallowance)
    · cases hstep
  | pay sender value =>
    simp only [run] at hstep
    split at hstep
    · rename_i ledger htransfer
      simp only [bind_eq_ok, pure_eq_ok] at hstep
      obtain ⟨treasury, hreceive, rfl⟩ := hstep
      refine hc.goto ⟨fun t => ?_, fun t s => ?_⟩
      · have hbalance := Ledger.transfer_balance htransfer t D.treasury
        have hold := hw.attributed_le t
        show treasury.attributed t ≤ ledger.balanceOf t D.treasury
        rw [receiveEth_attributed hreceive]
        rw [if_neg fun h => ha h.2.symm] at hbalance
        unfold onHand at hold
        by_cases ht : t = 0
        · subst ht
          rw [if_pos ⟨rfl, rfl⟩, D.tax_native, Nat.sub_zero] at hbalance
          rw [if_pos rfl]
          omega
        · rw [if_neg fun h => ht h.1] at hbalance
          rw [if_neg ht]
          omega
      · show ledger.allowance t D.treasury s = 0
        rw [Ledger.transfer_allowance htransfer]
        exact hw.allowance t s
    · cases hstep
  | administer sender admin =>
    simp only [run, bind_eq_ok, pure_eq_ok] at hstep
    obtain ⟨treasury, hadmin, rfl⟩ := hstep
    exact hc.goto (hw.congr (administer_attributed hadmin) rfl)
  | recordRevenue sender token amount =>
    simp only [run, bind_eq_ok, pure_eq_ok] at hstep
    obtain ⟨treasury, hrecord, rfl⟩ := hstep
    obtain ⟨hle, hattributed⟩ := recordRevenue_attributed hrecord
    refine hc.goto ⟨fun t => ?_, hw.allowance⟩
    show treasury.attributed t ≤ c.state.onHand D t
    rw [hattributed t]
    split
    · subst t
      exact hle
    · exact hw.attributed_le t
  | withdraw sender token target amount =>
    simp only [run, bind_eq_ok, pure_eq_ok] at hstep
    obtain ⟨w, hwithdraw, rfl⟩ := hstep
    exact hc.enter .payment (hw.paid (withdraw_paid hwithdraw) (released_sub (hw.attributed_le token)))
  | withdrawETH sender target amount =>
    simp only [run, bind_eq_ok] at hstep
    obtain ⟨w, hwithdraw, hstep⟩ := hstep
    have hpaid := withdrawETH_paid hwithdraw
    split at hstep
    · subst target
      simp only [bind_eq_ok, pure_eq_ok] at hstep
      obtain ⟨w', hown, rfl⟩ := hstep
      exact hc.goto (hw.paidOwn hpaid hown (released_sub (hw.attributed_le 0))).1
    · obtain rfl := pure_eq_ok.mp hstep
      exact hc.enter .payment (hw.paid hpaid (released_sub (hw.attributed_le 0)))
  | rescue sender token target amount =>
    simp only [run, bind_eq_ok, pure_eq_ok] at hstep
    obtain ⟨w, hrescue, rfl⟩ := hstep
    obtain ⟨hpaid, hsurplus⟩ := rescue_paid hrescue
    exact hc.enter .payment (hw.paid hpaid (Or.inl (Nat.add_comm .. ▸ hsurplus)))
  | rescueETH sender target amount =>
    simp only [run, bind_eq_ok] at hstep
    obtain ⟨w, hrescue, hstep⟩ := hstep
    obtain ⟨hpaid, hsurplus⟩ := rescueETH_paid hrescue
    rw [Nat.add_comm] at hsurplus
    split at hstep
    · subst target
      simp only [bind_eq_ok, pure_eq_ok] at hstep
      obtain ⟨w', hown, rfl⟩ := hstep
      exact hc.goto (hw.paidOwn hpaid hown (Or.inl hsurplus)).1
    · obtain rfl := pure_eq_ok.mp hstep
      exact hc.enter .payment (hw.paid hpaid (Or.inl hsurplus))
  | enter =>
    obtain rfl := Except.ok.inj hstep
    exact hc.enter .other hw
  | leave success =>
    simp only [run, orError_eq_ok] at hstep
    exact hc.leave (fun pending w hw => hw.resume pending) hstep

/-- A rescue took an amount of a token that was not attributed: what was attributed stays so, and no other balance fell. -/
structure TookSurplus (D : TreasuryDeployment) (w w' : TreasuryWorld) (token : Address) (amount : ℕ) : Prop where
  surplus : amount + w.treasury.attributed token ≤ w.onHand D token
  attributed : ∀ t, w.treasury.attributed t ≤ w'.treasury.attributed t
  balance : ∀ t, w.onHand D t ≤ w'.onHand D t + if t = token then amount else 0

theorem tookSurplus_rescue {sender token target : Address} {amount : ℕ}
    (hstep : (TreasuryStep.rescue sender token target amount).run D c = .ok c') :
    TookSurplus D c.state c'.state token amount := by
  simp only [TreasuryStep.run, bind_eq_ok, pure_eq_ok] at hstep
  obtain ⟨w, hrescue, rfl⟩ := hstep
  obtain ⟨hpaid, hsurplus⟩ := rescue_paid hrescue
  refine ⟨hsurplus, fun t => ?_, fun t => ?_⟩
  · show _ ≤ w.treasury.attributed t
    rw [hpaid.attributed]
    split
    · subst t
      exact le_rfl
    · exact le_rfl
  · exact (Nat.le_add_right _ _).trans (hpaid.balance t).ge

theorem tookSurplus_rescueETH {sender target : Address} {amount : ℕ} (hw : Covered D c.state)
    (hstep : (TreasuryStep.rescueETH sender target amount).run D c = .ok c') :
    TookSurplus D c.state c'.state 0 amount := by
  simp only [TreasuryStep.run, bind_eq_ok] at hstep
  obtain ⟨w, hrescue, hstep⟩ := hstep
  obtain ⟨hpaid, hsurplus⟩ := rescueETH_paid hrescue
  have hbalance : ∀ t, c.state.onHand D t ≤ w.onHand D t + if t = 0 then amount else 0 :=
    fun t => (Nat.le_add_right _ _).trans (hpaid.balance t).ge
  split at hstep
  · subst target
    simp only [bind_eq_ok, pure_eq_ok] at hstep
    obtain ⟨w', hown, rfl⟩ := hstep
    have hattributed := (hw.paidOwn hpaid hown (Or.inl (Nat.add_comm .. ▸ hsurplus))).2
    simp only [receiveOwn, bind_eq_ok, mapError_eq_ok, pure_eq_ok] at hown
    obtain ⟨treasury, -, rfl⟩ := hown
    refine ⟨hsurplus, fun t => ?_, hbalance⟩
    refine le_of_le_of_eq ?_ (hattributed t).symm
    split
    · subst t
      exact Nat.le_add_right _ _
    · exact le_rfl
  · obtain rfl := pure_eq_ok.mp hstep
    refine ⟨hsurplus, fun t => ?_, hbalance⟩
    show _ ≤ w.treasury.attributed t
    rw [hpaid.attributed]
    split
    · subst t
      exact le_rfl
    · exact le_rfl

/-! ### Runs -/

instance (D : TreasuryDeployment) (a : TreasuryStep) : Decidable (a.ByOthers D) := by
  cases a <;> unfold TreasuryStep.ByOthers <;> infer_instance

/-- A proxy that was just deployed, at an address that may have received tokens before. -/
def deployedTreasury (books : Books) : TreasuryCalls := idle ⟨books, .blank⟩

/-- **What is attributed is in the treasury**, whatever is called from where, and a rescue takes only from the rest. -/
theorem attribution_covered {books : Books} (hfresh : ∀ token spender, books.allowance token D.treasury spender = 0)
    (as : List TreasuryStep) (hothers : ∀ a ∈ as, a.ByOthers D) :
    (∀ token, (after (TreasuryStep.run D) (deployedTreasury books) as).state.treasury.attributed token ≤
        (after (TreasuryStep.run D) (deployedTreasury books) as).state.onHand D token) ∧
      (∀ sender token target amount c',
        (TreasuryStep.rescue sender token target amount).run D (after (TreasuryStep.run D) (deployedTreasury books) as) = .ok c' →
        TookSurplus D (after (TreasuryStep.run D) (deployedTreasury books) as).state c'.state token amount) ∧
      ∀ sender target amount c',
        (TreasuryStep.rescueETH sender target amount).run D (after (TreasuryStep.run D) (deployedTreasury books) as) = .ok c' →
        TookSurplus D (after (TreasuryStep.run D) (deployedTreasury books) as).state c'.state 0 amount := by
  have hstart : Covered D ⟨books, .blank⟩ := by
    refine ⟨fun token => ?_, hfresh⟩
    have hnone : Treasury.blank.attributed token = 0 := by
      unfold Treasury.attributed
      split <;> rfl
    show Treasury.blank.attributed token ≤ _
    rw [hnone]
    exact Nat.zero_le _
  have hcovered := invariant (I := Everywhere (Covered D)) (fun a ha c c' hc hstep => TreasuryStep.covered hc (hothers a ha) hstep)
    (everywhere_idle hstart)
  exact ⟨hcovered.state.attributed_le, fun _ _ _ _ _ hstep => tookSurplus_rescue hstep,
    fun _ _ _ _ hstep => tookSurplus_rescueETH hcovered.state hstep⟩

def smallTreasury : TreasuryDeployment where
  treasury := 1
  tax := Ledger.untaxed
  cap _ := 0
  tax_native := native_untaxed

/-- The treasury withdraws to itself, then to a receiver that sends some of it back before it returns. -/
def ownBeneficiary : List TreasuryStep :=
  [.administer 7 (.initializeTreasury 7), .administer 7 (.setBeneficiary 1 true), .administer 7 (.setBeneficiary 9 true),
    .books (.transfer 0 9 1 30), .pay 9 50, .withdrawETH 7 1 70, .withdrawETH 7 9 40, .pay 9 15, .leave true]

def ownBeneficiaryPaid : TreasuryWorld :=
  (after (TreasuryStep.run smallTreasury) (deployedTreasury (Ledger.soleHolder 0 9 100)) ownBeneficiary).state

theorem attribution_covered_own : ownBeneficiaryPaid.treasury.attributed 0 = 45 ∧
    ∀ token, ownBeneficiaryPaid.treasury.attributed token ≤ ownBeneficiaryPaid.onHand smallTreasury token :=
  ⟨by decide +kernel, (attribution_covered (D := smallTreasury) (fun _ _ => rfl) ownBeneficiary (by decide)).1⟩

end ScatterDex
