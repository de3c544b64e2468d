import ScatterDex.Contract.RelayerRegistry
import Mathlib.Algebra.BigOperators.Ring.Finset

/-!
# Bonds are paid back in kind

What a relayer paid in since it registered is read off the books, token by token. The registry keeps one token and one amount for it. The two agree after any calls, and the registry holds what it recorded, as long as the migration hook does not rewrite the token of a native bond. Nothing stops it from doing so once on a proxy that was never migrated.
-/

namespace ScatterDex

open Fallible RelayerRegistry

variable {D : RegistryDeployment} {env : RegistryEnv} {w w' : RegistryWorld}

/-! ### What was paid in -/

/-- What each relayer paid in, by token, since it last registered. -/
abbrev PaidIn : Type := Address → Address → ℕ

/-- The payment a transaction makes, by how the balances of the registry moved. -/
def PaidIn.record (D : RegistryDeployment) (paid : PaidIn) (w w' : RegistryWorld) : RegistryTransaction → PaidIn
  | .register env _ _ _ _ | .addBond env _ => fun account token =>
    paid account token +
      if account = env.sender then w'.books.balanceOf token D.registry - w.books.balanceOf token D.registry else 0
  | .executeExit env _ => Function.update paid env.sender fun _ => 0
  | .call _ => paid

/-- A transaction, with the payments it records. -/
def RegistryTransaction.recorded (D : RegistryDeployment) (tx : RegistryTransaction) (s : RegistryWorld × PaidIn) :
    Except RelayerRegistry.Error (RegistryWorld × PaidIn) := do
  let w ← tx.run D s.1
  return (w, s.2.record D s.1 w tx)

/-- The registry acts through its own functions only. -/
def RegistryCall.ByOthers (D : RegistryDeployment) : RegistryCall → Prop
  | .books action => action.actor ≠ some D.registry
  | _ => True

def RegistryTransaction.ByOthers (D : RegistryDeployment) : RegistryTransaction → Prop
  | .call c => c.ByOthers D
  | .register env _ _ _ _ | .addBond env _ => env.sender ≠ D.registry
  | .executeExit env receive => env.sender ≠ D.registry ∧ ∀ call ∈ receive.getD [], call.ByOthers D

/-! ### When a migration is harmless -/

/-- A migration that still can run finds no native bond to rewrite. -/
def RegistryCall.Harmless (w : RegistryWorld) : RegistryCall → Prop
  | .reinitializeV2 => w.registry.initialized < 2 → w.registry.bondToken = 0 ∨
      ∀ account ∈ w.registry.relayerList,
        (w.registry.relayers account).bond = 0 ∨ (w.registry.relayers account).bondToken ≠ 0
  | _ => True

/-- The same of calls one after another. -/
def RegistryCall.AllHarmless (D : RegistryDeployment) : RegistryWorld → List RegistryCall → Prop
  | _, [] => True
  | w, call :: calls => call.Harmless w ∧ ∀ w', call.run D w = .ok w' → AllHarmless D w' calls

def RegistryTransaction.Harmless (D : RegistryDeployment) (w : RegistryWorld) : RegistryTransaction → Prop
  | .call c => c.Harmless w
  | .executeExit env receive => ∀ w', payExit D env w = .ok w' → RegistryCall.AllHarmless D w' (receive.getD [])
  | _ => True

/-! ### The invariant -/

/-- The registry's records against what was paid in. -/
structure BondLedger (D : RegistryDeployment) (w : RegistryWorld) (paid : PaidIn) : Prop where
  recorded : ∀ account token, paid account token =
    if token = (w.registry.relayers account).bondToken then (w.registry.relayers account).bond else 0
  backed : ∀ token (accounts : Finset Address), ∑ account ∈ accounts, paid account token ≤
    w.books.balanceOf token D.registry
  inactive : ∀ account, (w.registry.relayers account).active = false → (w.registry.relayers account).bond = 0
  allowance : ∀ token spender, w.books.allowance token D.registry spender = 0

namespace BondLedger

variable {paid : PaidIn}

theorem congr (hw : BondLedger D w paid)
    (hbonds : ∀ account, (w'.registry.relayers account).bond = (w.registry.relayers account).bond ∧
      (w'.registry.relayers account).bondToken = (w.registry.relayers account).bondToken ∧
      (w'.registry.relayers account).active = (w.registry.relayers account).active)
    (hbalance : ∀ token, w.books.balanceOf token D.registry ≤ w'.books.balanceOf token D.registry)
    (hallowance : ∀ token spender, w'.books.allowance token D.registry spender = 0) : BondLedger D w' paid where
  recorded := by
    intro account token
    obtain ⟨hbond, htoken, -⟩ := hbonds account
    rw [hbond, htoken]
    exact hw.recorded account token
  backed := fun token accounts => (hw.backed token accounts).trans (hbalance token)
  inactive := by
    intro account hinactive
    obtain ⟨hbond, -, hactive⟩ := hbonds account
    rw [hbond]
    exact hw.inactive account (hactive ▸ hinactive)
  allowance := hallowance

theorem update_bonds {relayers : Address → Relayer} {account : Address} {r : Relayer}
    (hbond : r.bond = (relayers account).bond) (htoken : r.bondToken = (relayers account).bondToken)
    (hactive : r.active = (relayers account).active) (a : Address) :
    (Function.update relayers account r a).bond = (relayers a).bond ∧
      (Function.update relayers account r a).bondToken = (relayers a).bondToken ∧
      (Function.update relayers account r a).active = (relayers a).active := by
  by_cases ha : a = account
  · subst ha
    rw [Function.update_self]
    exact ⟨hbond, htoken, hactive⟩
  · rw [Function.update_of_ne ha]
    exact ⟨rfl, rfl, rfl⟩

end BondLedger

/-! ### Calls that move no bond -/

namespace RelayerRegistry

theorem administer_bonds {self self' : RelayerRegistry} {admin : Admin} (hadmin : self.administer env admin = .ok self') :
    ∀ account, (self'.relayers account).bond = (self.relayers account).bond ∧
      (self'.relayers account).bondToken = (self.relayers account).bondToken ∧
      (self'.relayers account).active = (self.relayers account).active := by
  intro account
  cases admin with
  | adminRemoveRelayer relayer =>
    simp only [administer, bind_eq_ok, require_eq_ok, pure_eq_ok] at hadmin
    obtain ⟨-, -, -, -, -, -, rfl⟩ := hadmin
    refine BondLedger.update_bonds ?_ ?_ ?_ account <;> rfl
  | setBond bondToken minBond =>
    simp only [administer, setBondToken, bind_eq_ok, require_eq_ok, pure_eq_ok] at hadmin
    obtain ⟨-, -, _, ⟨-, -, rfl⟩, rfl⟩ := hadmin
    exact ⟨rfl, rfl, rfl⟩
  | renounceOwnership => cases hadmin
  | setMinBond | setOperationalKycRequired | acceptOwnership =>
    simp only [administer, bind_eq_ok, require_eq_ok, pure_eq_ok] at hadmin
    obtain ⟨-, -, rfl⟩ := hadmin
    exact ⟨rfl, rfl, rfl⟩
  | setTreasury | setExitCooldown | setBondToken | setIdentityRegistry | setKycApprovalRegistry | transferOwnership =>
    simp only [administer, setBondToken, bind_eq_ok, require_eq_ok, pure_eq_ok] at hadmin
    obtain ⟨-, -, -, -, rfl⟩ := hadmin
    exact ⟨rfl, rfl, rfl⟩

theorem backfill_apply (bondToken : Address) (relayers : Address → Relayer) (relayerList : List Address) (a : Address) :
    backfill bondToken relayers relayerList a =
      if a ∈ relayerList ∧ (relayers a).bond ≠ 0 ∧ (relayers a).bondToken = 0 then { relayers a with bondToken }
      else relayers a := by
  induction relayerList generalizing relayers with
  | nil => simp [backfill]
  | cons account accounts ih =>
    rw [backfill, List.foldl_cons, ← backfill, ih]
    by_cases ha : a = account
    · subst ha
      by_cases hnative : (relayers a).bond ≠ 0 ∧ (relayers a).bondToken = 0
      · simp [hnative]
      · rw [if_neg hnative, if_neg fun h => hnative h.2, if_neg fun h => hnative h.2]
    · split <;> simp [ha]

theorem backfill_eq {bondToken : Address} {relayers : Address → Relayer} {relayerList : List Address}
    (hharmless : bondToken = 0 ∨ ∀ account ∈ relayerList, (relayers account).bond = 0 ∨ (relayers account).bondToken ≠ 0) :
    backfill bondToken relayers relayerList = relayers := by
  funext a
  rw [backfill_apply]
  split
  · rename_i hnative
    rcases hharmless with rfl | hlisted
    · rw [← hnative.2.2]
    · exact absurd (hlisted a hnative.1) (by simp [hnative.2.1, hnative.2.2])
  · rfl

end RelayerRegistry

theorem RegistryCall.run_keeps {paid : PaidIn} {call : RegistryCall} (hw : BondLedger D w paid)
    (hothers : call.ByOthers D) (hharmless : call.Harmless w) (hrun : call.run D w = .ok w') : BondLedger D w' paid := by
  cases call with
  | initializeRegistry initialOwner treasury identityRegistry bondToken =>
    simp only [run, RelayerRegistry.initializeRegistry, bind_eq_ok, require_eq_ok, pure_eq_ok] at hrun
    obtain ⟨_, ⟨-, -, -, -, -, -, -, -, rfl⟩, rfl⟩ := hrun
    exact hw.congr (fun _ => ⟨rfl, rfl, rfl⟩) (fun _ => le_rfl) hw.allowance
  | reinitializeV2 =>
    simp only [run, RelayerRegistry.reinitializeV2, bind_eq_ok, require_eq_ok, pure_eq_ok] at hrun
    obtain ⟨_, ⟨-, hversion, rfl⟩, rfl⟩ := hrun
    refine hw.congr (fun account => ?_) (fun _ => le_rfl) hw.allowance
    dsimp only
    rw [backfill_eq (hharmless hversion)]
    exact ⟨rfl, rfl, rfl⟩
  | updateInfo env url name fee =>
    simp only [run, RelayerRegistry.updateInfo, bind_eq_ok, require_eq_ok, pure_eq_ok] at hrun
    obtain ⟨_, ⟨-, -, -, -, -, -, rfl⟩, rfl⟩ := hrun
    exact hw.congr (BondLedger.update_bonds (by rfl) (by rfl) (by rfl)) (fun _ => le_rfl) hw.allowance
  | requestExit env =>
    simp only [run, RelayerRegistry.requestExit, bind_eq_ok, require_eq_ok, pure_eq_ok] at hrun
    obtain ⟨_, ⟨-, -, -, -, -, -, rfl⟩, rfl⟩ := hrun
    exact hw.congr (BondLedger.update_bonds (by rfl) (by rfl) (by rfl)) (fun _ => le_rfl) hw.allowance
  | administer env admin =>
    simp only [run, bind_eq_ok, pure_eq_ok] at hrun
    obtain ⟨_, hadmin, rfl⟩ := hrun
    exact hw.congr (administer_bonds hadmin) (fun _ => le_rfl) hw.allowance
  | books action =>
    rw [run] at hrun
    split at hrun
    · rename_i ledger hperform
      cases hrun
      have hguarded := (Ledger.Guarded.refl hw.allowance 0 0).perform (by decide) hothers hperform
      exact hw.congr (fun _ => ⟨rfl, rfl, rfl⟩) hguarded.unexposed.1 hguarded.unexposed.2
    · cases hrun

theorem RegistryCall.runAll_keeps {paid : PaidIn} {calls : List RegistryCall} (hw : BondLedger D w paid)
    (hothers : ∀ call ∈ calls, call.ByOthers D) (hharmless : AllHarmless D w calls)
    (hrun : runAll D w calls = .ok w') : BondLedger D w' paid := by
  induction calls generalizing w with
  | nil =>
    cases hrun
    exact hw
  | cons call calls ih =>
    rw [runAll, bind_eq_ok] at hrun
    obtain ⟨w₁, hcall, hrest⟩ := hrun
    have hw₁ := run_keeps hw (hothers call List.mem_cons_self) hharmless.1 hcall
    exact ih hw₁ (fun call hcall => hothers call (List.mem_cons_of_mem _ hcall)) (hharmless.2 w₁ hcall) hrest

/-! ### Calls that move a bond -/

namespace RelayerRegistry

variable {paid : PaidIn}

theorem pullBond_ok {token : Address} {bondAmount bond : ℕ} {w₁ w₂ : RegistryWorld} (hsender : env.sender ≠ D.registry)
    (hallowance : ∀ token spender, w.books.allowance token D.registry spender = 0)
    (hvalue : receiveValue D env w = .ok w₁) (hpull : pullBond D env w₁ token bondAmount = .ok (bond, w₂)) :
    w₁.registry = w.registry ∧ w₂.registry = w.registry ∧
      (∀ t, w₂.books.balanceOf t D.registry = w.books.balanceOf t D.registry + if t = token then bond else 0) ∧
      ∀ t spender, w₂.books.allowance t D.registry spender = 0 := by
  have horFail : ∀ {α : Type} {e : Error} {result : Option α} {value : α}, orFail e result = .ok value → result = some value := by
    intro α e result value h
    cases result with
    | none => cases h
    | some v => exact congrArg some (Except.ok.inj h)
  simp only [receiveValue, bind_eq_ok, pure_eq_ok] at hvalue
  obtain ⟨books₁, hreceived, rfl⟩ := hvalue
  have hreceived := horFail hreceived
  have hether := fun t => Ledger.transfer_balance hreceived t D.registry
  have hallowance₁ : ∀ t spender, books₁.allowance t D.registry spender = 0 := by
    rw [Ledger.transfer_allowance hreceived]
    exact hallowance
  simp only [hsender.symm, and_false, if_false, Nat.add_zero, and_true, D.tax_native, Nat.sub_zero] at hether
  rw [pullBond] at hpull
  split at hpull
  · rename_i hnative
    subst hnative
    simp only [bind_eq_ok, require_eq_ok, pure_eq_ok, Prod.mk.injEq] at hpull
    obtain ⟨-, -, rfl, rfl⟩ := hpull
    exact ⟨rfl, rfl, hether, hallowance₁⟩
  · simp only [bind_eq_ok, require_eq_ok] at hpull
    obtain ⟨-, hzero, hpull⟩ := hpull
    simp only [hzero, ite_self, Nat.add_zero] at hether
    split at hpull
    · simp only [pure_eq_ok, Prod.mk.injEq] at hpull
      obtain ⟨rfl, rfl⟩ := hpull
      exact ⟨rfl, rfl, fun t => by rw [hether, ite_self, Nat.add_zero], hallowance₁⟩
    · simp only [bind_eq_ok, require_eq_ok, pure_eq_ok, Prod.mk.injEq] at hpull
      obtain ⟨books₂, hpulled, -, -, rfl, rfl⟩ := hpull
      have hpulled := horFail hpulled
      refine ⟨rfl, rfl, fun t => ?_, fun t spender => ?_⟩
      · have hbalance := Ledger.transferFrom_balance hpulled t D.registry
        have htoken := Ledger.transferFrom_balance hpulled token D.registry
        simp only [hsender.symm, and_false, if_false, Nat.add_zero, and_true, if_true] at hbalance htoken
        dsimp only
        rw [hbalance, hether, htoken, Nat.add_sub_cancel_left]
      · rw [Ledger.transferFrom_allowance_of_ne hpulled hsender.symm]
        exact hallowance₁ t spender

end RelayerRegistry

theorem BondLedger.deposit {paid : PaidIn} (hw : BondLedger D w paid) {account token : Address} {bond : ℕ}
    (hbalance : ∀ t, w'.books.balanceOf t D.registry =
      w.books.balanceOf t D.registry + if t = token then bond else 0)
    (hallowance : ∀ t spender, w'.books.allowance t D.registry spender = 0)
    (hothers : ∀ a ≠ account, w'.registry.relayers a = w.registry.relayers a)
    (hactive : (w'.registry.relayers account).active = true) (htoken : (w'.registry.relayers account).bondToken = token)
    (hbond : (w'.registry.relayers account).bond = (w.registry.relayers account).bond + bond)
    (hsame : (w.registry.relayers account).bond = 0 ∨ (w.registry.relayers account).bondToken = token) :
    BondLedger D w' fun a t => paid a t +
      if a = account then w'.books.balanceOf t D.registry - w.books.balanceOf t D.registry else 0 := by
  have hreceived : ∀ t, w'.books.balanceOf t D.registry - w.books.balanceOf t D.registry =
      if t = token then bond else 0 := by
    intro t
    rw [hbalance, Nat.add_sub_cancel_left]
  refine ⟨fun a t => ?_, fun t accounts => ?_, fun a hinactive => ?_, hallowance⟩
  · rw [hw.recorded, hreceived]
    by_cases ha : a = account
    · subst ha
      rw [if_pos rfl, htoken, hbond]
      rcases hsame with hnone | hsame
      · simp only [hnone, ite_self, Nat.zero_add]
      · rw [hsame]
        split <;> rfl
    · rw [if_neg ha, hothers a ha, Nat.add_zero]
  · rw [Finset.sum_add_distrib, Finset.sum_ite_eq' accounts account, hreceived, hbalance]
    have hbacked := hw.backed t accounts
    split <;> omega
  · by_cases ha : a = account
    · subst ha
      exact absurd (hinactive.symm.trans hactive) Bool.false_ne_true
    · rw [hothers a ha] at hinactive ⊢
      exact hw.inactive a hinactive

/-- What `executeExit` pays: the whole bond, in its token, to the relayer. -/
theorem RelayerRegistry.payExit_ok (hpay : payExit D env w = .ok w') :
    (w.registry.relayers env.sender).active = true ∧
    ((w.registry.relayers env.sender).bond = 0 ∧ w'.books = w.books ∨
      w.books.transfer D.tax (w.registry.relayers env.sender).bondToken D.registry env.sender
        (w.registry.relayers env.sender).bond = some w'.books) ∧
    w'.registry = { w.registry with
      relayers := Function.update w.registry.relayers env.sender
        { w.registry.relayers env.sender with active := false, bond := 0 } } := by
  simp only [payExit, bind_eq_ok, require_eq_ok] at hpay
  obtain ⟨-, hactive, -, -, -, -, -, -, hpush⟩ := hpay
  rw [pushBond] at hpush
  split at hpush
  · rename_i hnone
    cases hpush
    exact ⟨hactive, Or.inl ⟨hnone, rfl⟩, rfl⟩
  · simp only [bind_eq_ok, pure_eq_ok] at hpush
    obtain ⟨books, hsent, rfl⟩ := hpush
    refine ⟨hactive, Or.inr ?_, rfl⟩
    dsimp only at hsent ⊢
    cases htransfer : w.books.transfer D.tax (w.registry.relayers env.sender).bondToken D.registry env.sender
        (w.registry.relayers env.sender).bond with
    | none =>
      rw [htransfer] at hsent
      cases hsent
    | some L =>
      rw [htransfer] at hsent
      cases hsent
      rfl

theorem BondLedger.exit {paid : PaidIn} (hw : BondLedger D w paid) (hsender : env.sender ≠ D.registry)
    (hpay : payExit D env w = .ok w') : BondLedger D w' (Function.update paid env.sender fun _ => 0) := by
  obtain ⟨-, hsent, hregistry⟩ := payExit_ok hpay
  have hallowance : w'.books.allowance = w.books.allowance := by
    rcases hsent with ⟨-, hsame⟩ | htransfer
    · rw [hsame]
    · exact Ledger.transfer_allowance htransfer
  have hbalance : ∀ t, w'.books.balanceOf t D.registry + paid env.sender t = w.books.balanceOf t D.registry := by
    intro t
    rw [hw.recorded]
    rcases hsent with ⟨hnone, hsame⟩ | htransfer
    · rw [hnone, ite_self, hsame, Nat.add_zero]
    · have hmoved := Ledger.transfer_balance htransfer t D.registry
      simpa only [hsender.symm, and_false, if_false, Nat.add_zero, and_true] using hmoved
  refine ⟨fun a t => ?_, fun t accounts => ?_, fun a hinactive => ?_, fun t spender => ?_⟩
  · rw [hregistry]
    by_cases ha : a = env.sender
    · subst ha
      simp only [Function.update_self, ite_self]
    · simp only [Function.update_of_ne ha]
      exact hw.recorded a t
  · have hall := hw.backed t (insert env.sender accounts)
    have hrest : ∑ a ∈ accounts, Function.update paid env.sender (fun _ => 0) a t ≤
        ∑ a ∈ insert env.sender accounts, Function.update paid env.sender (fun _ => 0) a t :=
      Finset.sum_le_sum_of_subset (Finset.subset_insert _ _)
    have hsplit : ∑ a ∈ insert env.sender accounts, Function.update paid env.sender (fun _ => 0) a t +
        paid env.sender t = ∑ a ∈ insert env.sender accounts, paid a t := by
      rw [← Finset.sum_erase_add _ _ (Finset.mem_insert_self env.sender accounts),
        ← Finset.sum_erase_add _ (fun a => paid a t) (Finset.mem_insert_self env.sender accounts), Function.update_self,
        Nat.add_zero]
      congr 1
      refine Finset.sum_congr rfl fun a ha => ?_
      rw [Function.update_of_ne (Finset.ne_of_mem_erase ha)]
    have hpaid := hbalance t
    omega
  · rw [hregistry] at hinactive ⊢
    by_cases ha : a = env.sender
    · subst ha
      simp only [Function.update_self]
    · simp only [Function.update_of_ne ha] at hinactive ⊢
      exact hw.inactive a hinactive
  · rw [hallowance]
    exact hw.allowance t spender

theorem RelayerRegistry.pushBond_pays {token target : Address} {amount : ℕ}
    (hfunds : amount ≤ w.books.balanceOf token D.registry) : ∃ w', pushBond D w token target amount = .ok w' := by
  rw [pushBond]
  by_cases hnone : amount = 0
  · exact ⟨w, if_pos hnone⟩
  · have htransfer : ∃ books, w.books.transfer D.tax token D.registry target amount = some books :=
      Ledger.transfer_ok hfunds
    obtain ⟨books, htransfer⟩ := htransfer
    rw [if_neg hnone, htransfer]
    exact ⟨{ w with books }, rfl⟩

namespace RelayerRegistry

variable {paid : PaidIn}

theorem register_keeps {url name : String} {fee bondAmount : ℕ} (hw : BondLedger D w paid)
    (hsender : env.sender ≠ D.registry) (hregister : register D env w url name fee bondAmount = .ok w') :
    BondLedger D w' (paid.record D w w' (.register env url name fee bondAmount)) := by
  simp only [register, bind_eq_ok, require_eq_ok, pure_eq_ok, Prod.exists] at hregister
  obtain ⟨w₁, hvalue, -, hinactive, -, -, -, -, -, -, bond, w₂, hpull, -, -, rfl⟩ := hregister
  obtain ⟨hregistry₁, hregistry, hbalance, hallowance⟩ := pullBond_ok hsender hw.allowance hvalue hpull
  rw [hregistry₁] at hinactive
  have hnone := hw.inactive env.sender (Bool.eq_false_iff.mpr hinactive)
  refine hw.deposit hbalance hallowance (fun a ha => ?_) ?_ ?_ ?_ (Or.inl hnone)
  · simp only [Function.update_of_ne ha, hregistry]
  · simp only [Function.update_self]
  · simp only [Function.update_self]
  · simp only [Function.update_self, hnone, Nat.zero_add]

theorem addBond_keeps {bondAmount : ℕ} (hw : BondLedger D w paid) (hsender : env.sender ≠ D.registry)
    (hadd : addBond D env w bondAmount = .ok w') : BondLedger D w' (paid.record D w w' (.addBond env bondAmount)) := by
  simp only [addBond, bind_eq_ok, require_eq_ok, pure_eq_ok, Prod.exists] at hadd
  obtain ⟨w₁, hvalue, -, hactive, bond, w₂, hpull, -, -, -, -, rfl⟩ := hadd
  obtain ⟨hregistry₁, hregistry, hbalance, hallowance⟩ := pullBond_ok hsender hw.allowance hvalue hpull
  rw [hregistry₁] at hactive hbalance
  refine hw.deposit hbalance hallowance (fun a ha => ?_) ?_ ?_ ?_ (Or.inr rfl)
  · simp only [Function.update_of_ne ha, hregistry]
  · simp only [Function.update_self, hregistry₁, hactive]
  · simp only [Function.update_self, hregistry₁]
  · simp only [Function.update_self, hregistry₁]

theorem executeExit_keeps {receive : Option (List RegistryCall)} (hw : BondLedger D w paid)
    (hothers : RegistryTransaction.ByOthers D (.executeExit env receive))
    (hharmless : RegistryTransaction.Harmless D w (.executeExit env receive))
    (hexit : executeExit D env w receive = .ok w') :
    BondLedger D w' (paid.record D w w' (.executeExit env receive)) := by
  simp only [executeExit, bind_eq_ok] at hexit
  obtain ⟨w₁, hpay, hcalled⟩ := hexit
  have hw₁ := hw.exit hothers.1 hpay
  split at hcalled
  · cases receive with
    | none => cases hcalled
    | some calls => exact RegistryCall.runAll_keeps hw₁ hothers.2 (hharmless w₁ hpay) (mapError_eq_ok.mp hcalled)
  · obtain rfl := pure_eq_ok.mp hcalled
    exact hw₁

end RelayerRegistry

/-- **The step lemma.** -/
theorem RegistryTransaction.run_keeps {paid : PaidIn} {tx : RegistryTransaction} (hw : BondLedger D w paid)
    (hothers : tx.ByOthers D) (hharmless : tx.Harmless D w) (hrun : tx.run D w = .ok w') :
    BondLedger D w' (paid.record D w w' tx) := by
  cases tx with
  | call c => exact RegistryCall.run_keeps hw hothers hharmless hrun
  | register env url name fee bondAmount => exact register_keeps hw hothers hrun
  | addBond env bondAmount => exact addBond_keeps hw hothers hrun
  | executeExit env receive => exact executeExit_keeps hw hothers hharmless hrun

/-! ### Runs -/

/-- **What the registry owes its relayers.** The recorded bond is what was paid in, in the recorded token and no other; the balance of every token covers the bonds in it; and an exit that is due goes through and sends exactly that. -/
structure BondsAccounted (D : RegistryDeployment) (w : RegistryWorld) (paid : PaidIn) : Prop where
  recorded : ∀ account token, paid account token =
    if token = (w.registry.relayers account).bondToken then (w.registry.relayers account).bond else 0
  backed : ∀ token (accounts : Finset Address), ∑ account ∈ accounts with
    (w.registry.relayers account).bondToken = token, (w.registry.relayers account).bond ≤ w.books.balanceOf token D.registry
  pays : ∀ env, (w.registry.relayers env.sender).active = true → (w.registry.relayers env.sender).exitRequestedAt ≠ 0 →
    (w.registry.relayers env.sender).exitRequestedAt + w.registry.exitCooldown < 2 ^ 256 →
    (w.registry.relayers env.sender).exitRequestedAt + w.registry.exitCooldown ≤ env.timestamp →
    ∃ w', payExit D env w = .ok w' ∧ ((∀ token, paid env.sender token = 0) ∧ w'.books = w.books ∨
      w.books.transfer D.tax (w.registry.relayers env.sender).bondToken D.registry env.sender
        (paid env.sender (w.registry.relayers env.sender).bondToken) = some w'.books)

theorem BondLedger.accounted {paid : PaidIn} (hw : BondLedger D w paid) : BondsAccounted D w paid := by
  have hbond : ∀ account, paid account (w.registry.relayers account).bondToken = (w.registry.relayers account).bond := by
    intro account
    rw [hw.recorded, if_pos rfl]
  refine ⟨hw.recorded, fun token accounts => ?_, fun env hactive hrequested hfits hdue => ?_⟩
  · rw [Finset.sum_filter]
    apply le_trans (Finset.sum_le_sum fun account _ => le_of_eq ?_) (hw.backed token accounts)
    rw [hw.recorded]
    exact if_congr eq_comm rfl rfl
  · have hfunds := hw.backed (w.registry.relayers env.sender).bondToken {env.sender}
    rw [Finset.sum_singleton, hbond] at hfunds
    have hpass : ∀ {condition : Prop} [Decidable condition] {e : RelayerRegistry.Error}, condition →
        require condition e = .ok () := fun hcondition => require_eq_ok.mpr hcondition
    have hpays : ∃ w', payExit D env w = .ok w' := by
      simp only [payExit, hpass hactive, hpass hrequested, hpass hfits, hpass (not_lt.mpr hdue)]
      exact pushBond_pays hfunds
    obtain ⟨w', hpay⟩ := hpays
    refine ⟨w', hpay, ?_⟩
    obtain ⟨-, ⟨hnone, hsame⟩ | htransfer, -⟩ := payExit_ok hpay
    · refine Or.inl ⟨fun token => ?_, hsame⟩
      rw [hw.recorded, hnone, ite_self]
    · rw [hbond]
      exact Or.inr htransfer

/-- **Bond accounting.** On a proxy initialised once, in every run of calls by others in which a migration, whenever it can still run, finds no native bond to rewrite, all bonds are accounted for. -/
theorem bonds_accounted {initialOwner treasury identityRegistry bondToken : Address} {registry : RelayerRegistry}
    {books : Books} (hinit : blank.initializeRegistry initialOwner treasury identityRegistry bondToken = .ok registry)
    (hallowance : ∀ token spender, books.allowance token D.registry spender = 0) {txs : List RegistryTransaction}
    (halong : Transactions.Along (RegistryTransaction.recorded D)
      (fun s tx => tx.ByOthers D ∧ tx.Harmless D s.1) (⟨books, registry⟩, fun _ _ => 0) txs) :
    BondsAccounted D (Transactions.after (RegistryTransaction.recorded D) (⟨books, registry⟩, fun _ _ => 0) txs).1
      (Transactions.after (RegistryTransaction.recorded D) (⟨books, registry⟩, fun _ _ => 0) txs).2 := by
  have hstart : BondLedger D ⟨books, registry⟩ fun _ _ => 0 := by
    simp only [initializeRegistry, bind_eq_ok, require_eq_ok, pure_eq_ok] at hinit
    obtain ⟨-, -, -, -, -, -, -, -, rfl⟩ := hinit
    refine ⟨fun account token => ?_, fun token accounts => ?_, fun account _ => rfl, hallowance⟩
    · exact (ite_self 0).symm
    · rw [Finset.sum_const_zero]
      exact Nat.zero_le _
  have hstep : ∀ (s : RegistryWorld × PaidIn) (tx : RegistryTransaction) s', BondLedger D s.1 s.2 →
      tx.ByOthers D ∧ tx.Harmless D s.1 → tx.recorded D s = .ok s' → BondLedger D s'.1 s'.2 := by
    intro s tx s' hs hcondition hrun
    obtain ⟨hothers, hharmless⟩ := hcondition
    simp only [RegistryTransaction.recorded, bind_eq_ok, pure_eq_ok] at hrun
    obtain ⟨w, hrun, rfl⟩ := hrun
    exact RegistryTransaction.run_keeps hs hothers hharmless hrun
  have hkept := Transactions.invariant_along (I := fun s : RegistryWorld × PaidIn => BondLedger D s.1 s.2) hstep hstart
    halong
  exact hkept.accounted

/-! ### A migration that is not -/

/-- The registry at address `1`, and account `33` with `100` ETH. -/
def bondDeployment : RegistryDeployment := ⟨1, Ledger.untaxed, fun _ => 2 ^ 128, native_untaxed⟩

def RegistryEnv.permissive (sender : Address) (value : ℕ) : RegistryEnv :=
  ⟨sender, value, 1000, fun _ => 1, fun _ _ => true, fun _ _ => true⟩

/-- A fresh proxy in native mode, owned by account `7`. -/
def freshRegistry : RelayerRegistry :=
  { blank with initialized := 1, owner := 7, treasury := 8, identityRegistry := 9, exitCooldown := defaultExitCooldown }

def bondStart : RegistryWorld × PaidIn := (⟨Ledger.soleHolder 0 33 100, freshRegistry⟩, fun _ _ => 0)

/-- The migration hook is spent at once; account `33` stakes `60`, the owner moves on to token `13`, and account `33` tops its bond up and leaves. -/
def switchedBonds : List RegistryTransaction :=
  [.call .reinitializeV2,
    .register (.permissive 33 60) "https://relayer" "A" 30 0,
    .call (.administer (.permissive 7 0) (.setBond 13 5)),
    .addBond (.permissive 33 40) 0,
    .call (.administer (.permissive 7 0) (.setExitCooldown 0)),
    .call (.requestExit (.permissive 33 0)),
    .executeExit (.permissive 33 0) (some [])]

/-- Account `33` is paid its `100` back. -/
theorem bonds_accounted_switched :
    (Transactions.after (RegistryTransaction.recorded bondDeployment) bondStart switchedBonds).1.books.balanceOf 0 33 = 100 ∧
    BondsAccounted bondDeployment
      (Transactions.after (RegistryTransaction.recorded bondDeployment) bondStart switchedBonds).1
      (Transactions.after (RegistryTransaction.recorded bondDeployment) bondStart switchedBonds).2 := by
  have hinit : blank.initializeRegistry 7 8 9 0 = .ok freshRegistry := rfl
  refine ⟨by decide +kernel, bonds_accounted hinit (fun _ _ => rfl) ⟨⟨trivial, fun _ => Or.inl rfl⟩, ?_⟩⟩
  apply Transactions.along_of_forall
  simp [RegistryTransaction.ByOthers, RegistryTransaction.Harmless, RegistryCall.ByOthers, RegistryCall.Harmless,
    RegistryCall.AllHarmless, RegistryEnv.permissive, bondDeployment]

/-- Account `33` stakes `60`, the owner moves on to token `13`, and anybody calls the migration hook. -/
def migratedBonds : List RegistryTransaction :=
  [.register (.permissive 33 60) "https://relayer" "A" 30 0,
    .call (.administer (.permissive 7 0) (.setBond 13 5)),
    .call .reinitializeV2]

/-- The bond of `60` ETH is recorded in a token the registry has none of. -/
theorem migratedBonds_not_accounted :
    (blank.initializeRegistry 7 8 9 0 = .ok freshRegistry ∧ ∀ tx ∈ migratedBonds, tx.ByOthers bondDeployment) ∧
    ¬BondsAccounted bondDeployment
      (Transactions.after (RegistryTransaction.recorded bondDeployment) bondStart migratedBonds).1
      (Transactions.after (RegistryTransaction.recorded bondDeployment) bondStart migratedBonds).2 := by
  refine ⟨⟨rfl, ?_⟩, fun haccounted => ?_⟩
  · simp [migratedBonds, RegistryTransaction.ByOthers, RegistryCall.ByOthers, RegistryEnv.permissive, bondDeployment]
  · have hrecorded := haccounted.recorded 33 0
    revert hrecorded
    decide +kernel

end ScatterDex
