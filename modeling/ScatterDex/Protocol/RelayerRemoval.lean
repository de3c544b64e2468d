import ScatterDex.Library.Tenure
import ScatterDex.Protocol.BondAccounting

/-!
# Removal of relayers

The registrations, notices and exits of a run are recorded beside it. A relayer under notice, its own or the owner's, is no active relayer until it has left and registered again; it gets its bond once, when the cooldown is over. The recipient of a native bond may call the registry, so a run that stops in the middle of those calls is a run too.
-/

namespace ScatterDex

open Fallible RelayerRegistry Tenure

variable {D : RegistryDeployment} {env : RegistryEnv} {w w' : RegistryWorld} {events : List (Event Address)}

/-! ### The history of a run -/

/-- What a call that succeeds adds to the history. -/
def RegistryCall.extend (events : List (Event Address)) : RegistryCall → List (Event Address)
  | .requestExit env => .notified env.sender env.timestamp :: events
  | .administer env (.adminRemoveRelayer relayer) => .notified relayer env.timestamp :: events
  | _ => events

def RegistryTransaction.extend (w : RegistryWorld) (events : List (Event Address)) :
    RegistryTransaction → List (Event Address)
  | .call c => c.extend events
  | .register env _ _ _ _ => .entered env.sender :: events
  | .addBond _ _ => events
  | .executeExit env receive =>
    let r := w.registry.relayers env.sender
    -- the recipient's code runs for a native bond only
    (if r.bondToken = 0 ∧ r.bond ≠ 0 then receive.getD [] else []).foldl RegistryCall.extend
      (.left env.sender env.timestamp w.registry.exitCooldown :: events)

/-- A transaction, with what it adds to the history. -/
def RegistryTransaction.logged (D : RegistryDeployment) (tx : RegistryTransaction)
    (s : RegistryWorld × List (Event Address)) : Except RelayerRegistry.Error (RegistryWorld × List (Event Address)) := do
  let w ← tx.run D s.1
  return (w, tx.extend s.1 s.2)

/-- The block has a timestamp: zero stands for no notice. -/
def RegistryCall.Mined : RegistryCall → Prop
  | .requestExit env | .administer env _ => env.timestamp ≠ 0
  | _ => True

def RegistryTransaction.Mined : RegistryTransaction → Prop
  | .call c => c.Mined
  | .executeExit _ receive => ∀ call ∈ receive.getD [], call.Mined
  | _ => True

/-- The bond a transaction returns. -/
def RegistryTransaction.returned (w : RegistryWorld) : RegistryTransaction → Address → ℕ
  | .executeExit env _, token =>
    if token = (w.registry.relayers env.sender).bondToken then (w.registry.relayers env.sender).bond else 0
  | _, _ => 0

/-! ### The invariant -/

/-- The entry of a relayer, by its standing. -/
def Relayer.StandsAs (r : Relayer) : Standing → Prop
  | .out => r.active = false
  | .seated => r.active = true ∧ r.exitRequestedAt = 0
  | .leaving since => r.active = true ∧ r.exitRequestedAt = since ∧ since ≠ 0

namespace Relayer.StandsAs

variable {r r' : Relayer} {s : Standing}

theorem congr (hr : r.StandsAs s) (hactive : r'.active = r.active) (hexit : r'.exitRequestedAt = r.exitRequestedAt) :
    r'.StandsAs s := by
  cases s with
  | out => exact hactive.trans hr
  | seated => exact ⟨hactive.trans hr.1, hexit.trans hr.2⟩
  | leaving since => exact ⟨hactive.trans hr.1, hexit.trans hr.2.1, hr.2.2⟩

theorem out_of_inactive (hr : r.StandsAs s) (hinactive : ¬r.active = true) : s = .out := by
  cases s with
  | out => rfl
  | seated => exact absurd hr.1 hinactive
  | leaving since => exact absurd hr.1 hinactive

theorem ne_out (hr : r.StandsAs s) (hactive : r.active = true) : s ≠ .out := by
  rintro rfl
  exact Bool.false_ne_true (hr.symm.trans hactive)

theorem leaving_of_requested (hr : r.StandsAs s) (hactive : r.active = true) (hrequested : r.exitRequestedAt ≠ 0) :
    s = .leaving r.exitRequestedAt := by
  cases s with
  | out => exact absurd (hr.symm.trans hactive) Bool.false_ne_true
  | seated => exact absurd hr.2 hrequested
  | leaving since => rw [hr.2.1]

end Relayer.StandsAs

/-- The registry follows the history. -/
structure RelayerRegistry.Follows (registry : RelayerRegistry) (events : List (Event Address)) : Prop where
  sound : Sound events
  stands : ∀ a, (registry.relayers a).StandsAs (standing a events)
  nodup : registry.relayerList.Nodup
  inList : ∀ a, registry.inList a = true ↔ a ∈ registry.relayerList
  listed : ∀ a, a ∈ registry.relayerList ↔ .entered a ∈ events

namespace RelayerRegistry.Follows

variable {self self' : RelayerRegistry}

theorem congr (hself : self.Follows events)
    (hrelayers : ∀ a, (self'.relayers a).active = (self.relayers a).active ∧
      (self'.relayers a).exitRequestedAt = (self.relayers a).exitRequestedAt)
    (hinList : self'.inList = self.inList) (hlist : self'.relayerList = self.relayerList) : self'.Follows events where
  sound := hself.sound
  stands := fun a => (hself.stands a).congr (hrelayers a).1 (hrelayers a).2
  nodup := hlist ▸ hself.nodup
  inList := by
    rw [hinList, hlist]
    exact hself.inList
  listed := by
    rw [hlist]
    exact hself.listed

/-- A notice to an active relayer; one that is leaving already keeps its date. -/
theorem notify (hself : self.Follows events) {relayer : Address} {time : ℕ} (htime : time ≠ 0)
    (hactive : (self.relayers relayer).active = true) {exitRequestedAt : ℕ}
    (hexit : exitRequestedAt = if (self.relayers relayer).exitRequestedAt = 0 then time
      else (self.relayers relayer).exitRequestedAt) :
    RelayerRegistry.Follows { self with
      relayers := Function.update self.relayers relayer { self.relayers relayer with exitRequestedAt } }
      (.notified relayer time :: events) where
  sound := ⟨(hself.stands relayer).ne_out hactive, hself.sound⟩
  stands := by
    intro a
    have hstands := hself.stands a
    by_cases ha : a = relayer
    · subst ha
      simp only [Function.update_self, standing, if_true]
      cases hstanding : standing a events with
      | out =>
        rw [hstanding] at hstands
        exact absurd (hstands.symm.trans hactive) Bool.false_ne_true
      | seated =>
        rw [hstanding] at hstands
        exact ⟨hactive, hexit.trans (if_pos hstands.2), htime⟩
      | leaving since =>
        rw [hstanding] at hstands
        obtain ⟨-, hsince, hne⟩ := hstands
        rw [hsince, if_neg hne] at hexit
        exact ⟨hactive, hexit, hne⟩
    · simp only [Function.update_of_ne ha, standing, if_neg (Ne.symm ha)]
      exact hstands
  nodup := hself.nodup
  inList := hself.inList
  listed := by simpa using hself.listed

theorem administer (hself : self.Follows events) {admin : Admin} (htime : env.timestamp ≠ 0)
    (hadmin : self.administer env admin = .ok self') :
    self'.Follows (RegistryCall.extend events (.administer env admin)) := by
  cases admin with
  | adminRemoveRelayer relayer =>
    simp only [RelayerRegistry.administer, bind_eq_ok, require_eq_ok, pure_eq_ok] at hadmin
    obtain ⟨-, -, -, hactive, -, -, rfl⟩ := hadmin
    exact hself.notify htime hactive rfl
  | setBond bondToken minBond =>
    simp only [RelayerRegistry.administer, setBondToken, bind_eq_ok, require_eq_ok, pure_eq_ok] at hadmin
    obtain ⟨-, -, _, ⟨-, -, rfl⟩, rfl⟩ := hadmin
    exact hself.congr (fun _ => ⟨rfl, rfl⟩) rfl rfl
  | renounceOwnership => cases hadmin
  | setMinBond | setOperationalKycRequired | acceptOwnership =>
    simp only [RelayerRegistry.administer, bind_eq_ok, require_eq_ok, pure_eq_ok] at hadmin
    obtain ⟨-, -, rfl⟩ := hadmin
    exact hself.congr (fun _ => ⟨rfl, rfl⟩) rfl rfl
  | setTreasury | setExitCooldown | setBondToken | setIdentityRegistry | setKycApprovalRegistry | transferOwnership =>
    simp only [RelayerRegistry.administer, setBondToken, bind_eq_ok, require_eq_ok, pure_eq_ok] at hadmin
    obtain ⟨-, -, -, -, rfl⟩ := hadmin
    exact hself.congr (fun _ => ⟨rfl, rfl⟩) rfl rfl

end RelayerRegistry.Follows

/-! ### Steps -/

namespace RegistryCall

theorem run_follows {call : RegistryCall} (hw : w.registry.Follows events) (hmined : call.Mined)
    (hrun : call.run D w = .ok w') : w'.registry.Follows (call.extend events) := by
  cases call with
  | initializeRegistry initialOwner treasury identityRegistry bondToken =>
    simp only [run, RelayerRegistry.initializeRegistry, bind_eq_ok, require_eq_ok, pure_eq_ok] at hrun
    obtain ⟨_, ⟨-, -, -, -, -, -, -, -, rfl⟩, rfl⟩ := hrun
    exact hw.congr (fun _ => ⟨rfl, rfl⟩) rfl rfl
  | reinitializeV2 =>
    simp only [run, RelayerRegistry.reinitializeV2, bind_eq_ok, require_eq_ok, pure_eq_ok] at hrun
    obtain ⟨_, ⟨-, -, rfl⟩, rfl⟩ := hrun
    refine hw.congr (fun a => ?_) rfl rfl
    dsimp only
    rw [backfill_apply]
    split <;> exact ⟨rfl, rfl⟩
  | updateInfo env url name fee =>
    simp only [run, RelayerRegistry.updateInfo, bind_eq_ok, require_eq_ok, pure_eq_ok] at hrun
    obtain ⟨_, ⟨-, -, -, -, -, -, rfl⟩, rfl⟩ := hrun
    refine hw.congr (fun a => ?_) rfl rfl
    by_cases ha : a = env.sender
    · subst ha
      simp only [Function.update_self, and_self]
    · simp only [Function.update_of_ne ha, and_self]
  | requestExit env =>
    simp only [run, RelayerRegistry.requestExit, bind_eq_ok, require_eq_ok, pure_eq_ok] at hrun
    obtain ⟨_, ⟨-, hactive, -, hfresh, -, -, rfl⟩, rfl⟩ := hrun
    exact hw.notify hmined hactive (if_pos (Nat.eq_zero_of_not_pos hfresh)).symm
  | administer env admin =>
    simp only [run, bind_eq_ok, pure_eq_ok] at hrun
    obtain ⟨_, hadmin, rfl⟩ := hrun
    exact hw.administer hmined hadmin
  | books action =>
    rw [run] at hrun
    split at hrun
    · cases hrun
      exact hw
    · cases hrun

theorem runAll_follows {calls : List RegistryCall} (hw : w.registry.Follows events)
    (hmined : ∀ call ∈ calls, call.Mined) (hrun : runAll D w calls = .ok w') :
    w'.registry.Follows (calls.foldl extend events) := by
  induction calls generalizing w events with
  | nil =>
    cases hrun
    exact hw
  | cons call calls ih =>
    rw [runAll, bind_eq_ok] at hrun
    obtain ⟨w₁, hcall, hrest⟩ := hrun
    exact ih (run_follows hw (hmined call List.mem_cons_self) hcall)
      (fun call hcall => hmined call (List.mem_cons_of_mem _ hcall)) hrest

end RegistryCall

namespace RelayerRegistry

theorem receiveValue_registry (hvalue : receiveValue D env w = .ok w') : w'.registry = w.registry := by
  simp only [receiveValue, bind_eq_ok, pure_eq_ok] at hvalue
  obtain ⟨_, -, rfl⟩ := hvalue
  rfl

theorem pullBond_registry {token : Address} {bondAmount bond : ℕ} (hpull : pullBond D env w token bondAmount = .ok (bond, w')) :
    w'.registry = w.registry := by
  rw [pullBond] at hpull
  split at hpull
  · simp only [bind_eq_ok, pure_eq_ok, Prod.mk.injEq] at hpull
    obtain ⟨-, -, -, rfl⟩ := hpull
    rfl
  · simp only [bind_eq_ok] at hpull
    obtain ⟨-, -, hpull⟩ := hpull
    split at hpull
    · obtain ⟨-, rfl⟩ := Prod.mk.inj (pure_eq_ok.mp hpull)
      rfl
    · simp only [bind_eq_ok, pure_eq_ok, Prod.mk.injEq] at hpull
      obtain ⟨_, -, -, -, -, rfl⟩ := hpull
      rfl

/-- A registration seats somebody who was out, and lists whoever was not. -/
theorem register_follows {url name : String} {fee bondAmount : ℕ} (hw : w.registry.Follows events)
    (hregister : register D env w url name fee bondAmount = .ok w') :
    w'.registry.Follows (.entered env.sender :: events) := by
  simp only [register, bind_eq_ok, require_eq_ok, pure_eq_ok, Prod.exists] at hregister
  obtain ⟨w₁, hvalue, -, hinactive, -, -, -, -, -, -, bond, w₂, hpull, -, -, rfl⟩ := hregister
  rw [← receiveValue_registry hvalue] at hw
  rw [← pullBond_registry hpull] at hw hinactive
  have hout := (hw.stands env.sender).out_of_inactive hinactive
  refine ⟨⟨hout, hw.sound⟩, fun a => ?_, ?_, fun a => ?_, fun a => ?_⟩
  · by_cases ha : a = env.sender
    · subst ha
      simp only [Function.update_self, standing, if_true]
      exact ⟨rfl, rfl⟩
    · simp only [Function.update_of_ne ha, standing, if_neg (Ne.symm ha)]
      exact hw.stands a
  · dsimp only
    split
    · exact hw.nodup
    · rename_i hunlisted
      rw [hw.inList] at hunlisted
      exact List.nodup_append.mpr ⟨hw.nodup, List.nodup_singleton _, by
        rintro a ha b hb rfl
        exact hunlisted (List.mem_singleton.mp hb ▸ ha)⟩
  · dsimp only
    have hlisted := hw.inList a
    by_cases ha : a = env.sender
    · subst ha
      split <;> simp_all
    · rw [Function.update_of_ne ha]
      split <;> simp [hlisted, ha]
  · dsimp only
    have hlisted := hw.listed a
    have hin := hw.inList env.sender
    by_cases ha : a = env.sender
    · subst ha
      split <;> simp_all
    · split <;> simp [hlisted, ha]

theorem addBond_follows {bondAmount : ℕ} (hw : w.registry.Follows events)
    (hadd : addBond D env w bondAmount = .ok w') : w'.registry.Follows events := by
  simp only [addBond, bind_eq_ok, pure_eq_ok, Prod.exists] at hadd
  obtain ⟨w₁, hvalue, -, -, bond, w₂, hpull, -, -, -, -, rfl⟩ := hadd
  have hregistry := pullBond_registry hpull
  rw [← receiveValue_registry hvalue] at hw
  refine hw.congr (fun a => ?_) (by rw [hregistry]) (by rw [hregistry])
  by_cases ha : a = env.sender
  · subst ha
    simp only [Function.update_self, and_self]
  · simp only [Function.update_of_ne ha, hregistry, and_self]

/-- Who leaves was under notice for the cooldown. -/
theorem payExit_follows (hw : w.registry.Follows events) (hpay : payExit D env w = .ok w') :
    w'.registry.Follows (.left env.sender env.timestamp w.registry.exitCooldown :: events) := by
  obtain ⟨hactive, -, hregistry⟩ := payExit_ok hpay
  simp only [payExit, bind_eq_ok, require_eq_ok] at hpay
  obtain ⟨-, -, -, hrequested, -, -, -, hwaited, -⟩ := hpay
  have hleaving := (hw.stands env.sender).leaving_of_requested hactive hrequested
  refine ⟨⟨⟨_, hleaving, not_lt.mp hwaited⟩, hw.sound⟩, fun a => ?_, ?_, ?_, ?_⟩ <;> rw [hregistry]
  · by_cases ha : a = env.sender
    · subst ha
      simp only [Function.update_self, standing, if_true]
      rfl
    · simp only [Function.update_of_ne ha, standing, if_neg (Ne.symm ha)]
      exact hw.stands a
  · exact hw.nodup
  · exact hw.inList
  · simpa using hw.listed

theorem executeExit_follows {receive : Option (List RegistryCall)} (hw : w.registry.Follows events)
    (hmined : ∀ call ∈ receive.getD [], call.Mined) (hexit : executeExit D env w receive = .ok w') :
    w'.registry.Follows ((RegistryTransaction.executeExit env receive).extend w events) := by
  simp only [executeExit, bind_eq_ok] at hexit
  obtain ⟨w₁, hpay, hcalled⟩ := hexit
  have hw₁ := payExit_follows hw hpay
  rw [RegistryTransaction.extend]
  split at hcalled
  · rename_i hnative
    cases receive with
    | none => cases hcalled
    | some calls =>
      rw [if_pos hnative]
      exact RegistryCall.runAll_follows hw₁ hmined (mapError_eq_ok.mp hcalled)
  · rename_i hother
    obtain rfl := pure_eq_ok.mp hcalled
    rw [if_neg hother]
    exact hw₁

end RelayerRegistry

/-- **The step lemma.** -/
theorem RegistryTransaction.run_follows {tx : RegistryTransaction} (hw : w.registry.Follows events) (hmined : tx.Mined)
    (hrun : tx.run D w = .ok w') : w'.registry.Follows (tx.extend w events) := by
  cases tx with
  | call c => exact RegistryCall.run_follows hw hmined hrun
  | register env url name fee bondAmount => exact register_follows hw hrun
  | addBond env bondAmount => exact addBond_follows hw hrun
  | executeExit env receive => exact executeExit_follows hw hmined hrun

/-! ### What leaves the registry -/

theorem RegistryCall.run_holdings {call : RegistryCall}
    (hallowance : ∀ token spender, w.books.allowance token D.registry spender = 0) (hothers : call.ByOthers D)
    (hrun : call.run D w = .ok w') :
    (∀ token, w.books.balanceOf token D.registry ≤ w'.books.balanceOf token D.registry) ∧
      ∀ token spender, w'.books.allowance token D.registry spender = 0 := by
  cases call with
  | initializeRegistry | reinitializeV2 | updateInfo | requestExit | administer =>
    simp only [run, bind_eq_ok, pure_eq_ok] at hrun
    obtain ⟨_, -, rfl⟩ := hrun
    exact ⟨fun _ => le_rfl, hallowance⟩
  | books action =>
    rw [run] at hrun
    split at hrun
    · rename_i ledger hperform
      cases hrun
      exact ((Ledger.Guarded.refl hallowance 0 0).perform (by decide) hothers hperform).unexposed
    · cases hrun

theorem RegistryCall.runAll_holdings {calls : List RegistryCall}
    (hallowance : ∀ token spender, w.books.allowance token D.registry spender = 0)
    (hothers : ∀ call ∈ calls, call.ByOthers D) (hrun : runAll D w calls = .ok w') :
    (∀ token, w.books.balanceOf token D.registry ≤ w'.books.balanceOf token D.registry) ∧
      ∀ token spender, w'.books.allowance token D.registry spender = 0 := by
  induction calls generalizing w with
  | nil =>
    cases hrun
    exact ⟨fun _ => le_rfl, hallowance⟩
  | cons call calls ih =>
    rw [runAll, bind_eq_ok] at hrun
    obtain ⟨w₁, hcall, hrest⟩ := hrun
    obtain ⟨hmore, hallowance₁⟩ := run_holdings hallowance (hothers call List.mem_cons_self) hcall
    obtain ⟨hrest, hallowance'⟩ := ih hallowance₁ (fun call hcall => hothers call (List.mem_cons_of_mem _ hcall)) hrest
    exact ⟨fun token => (hmore token).trans (hrest token), hallowance'⟩

theorem RelayerRegistry.payExit_holdings (hallowance : ∀ token spender, w.books.allowance token D.registry spender = 0)
    (hsender : env.sender ≠ D.registry) (hpay : payExit D env w = .ok w') :
    (∀ token, w'.books.balanceOf token D.registry + (if token = (w.registry.relayers env.sender).bondToken then
        (w.registry.relayers env.sender).bond else 0) = w.books.balanceOf token D.registry) ∧
      ∀ token spender, w'.books.allowance token D.registry spender = 0 := by
  obtain ⟨-, ⟨hnone, hsame⟩ | htransfer, -⟩ := payExit_ok hpay
  · refine ⟨fun token => ?_, ?_⟩
    · rw [hnone, hsame, ite_self, Nat.add_zero]
    · rw [hsame]
      exact hallowance
  · refine ⟨fun token => ?_, ?_⟩
    · have hmoved := Ledger.transfer_balance htransfer token D.registry
      simpa only [hsender.symm, and_false, if_false, Nat.add_zero, and_true] using hmoved
    · rw [Ledger.transfer_allowance htransfer]
      exact hallowance

theorem RegistryTransaction.run_holdings {tx : RegistryTransaction}
    (hallowance : ∀ token spender, w.books.allowance token D.registry spender = 0) (hothers : tx.ByOthers D)
    (hrun : tx.run D w = .ok w') :
    (∀ token, w.books.balanceOf token D.registry ≤ w'.books.balanceOf token D.registry + tx.returned w token) ∧
      ∀ token spender, w'.books.allowance token D.registry spender = 0 := by
  cases tx with
  | call c => exact RegistryCall.run_holdings hallowance hothers hrun
  | register env url name fee bondAmount =>
    simp only [run, RelayerRegistry.register, bind_eq_ok, pure_eq_ok, Prod.exists] at hrun
    obtain ⟨w₁, hvalue, -, -, -, -, -, -, -, -, bond, w₂, hpull, -, -, rfl⟩ := hrun
    obtain ⟨-, -, hbalance, hallowance'⟩ := pullBond_ok hothers hallowance hvalue hpull
    exact ⟨fun token => (hbalance token).symm ▸ Nat.le_add_right _ _, hallowance'⟩
  | addBond env bondAmount =>
    simp only [run, RelayerRegistry.addBond, bind_eq_ok, pure_eq_ok, Prod.exists] at hrun
    obtain ⟨w₁, hvalue, -, -, bond, w₂, hpull, -, -, -, -, rfl⟩ := hrun
    obtain ⟨-, -, hbalance, hallowance'⟩ := pullBond_ok hothers hallowance hvalue hpull
    exact ⟨fun token => (hbalance token).symm ▸ Nat.le_add_right _ _, hallowance'⟩
  | executeExit env receive =>
    simp only [run, RelayerRegistry.executeExit, bind_eq_ok] at hrun
    obtain ⟨w₁, hpay, hcalled⟩ := hrun
    obtain ⟨hpaid, hallowance₁⟩ := payExit_holdings hallowance hothers.1 hpay
    have hcalls : (∀ token, w₁.books.balanceOf token D.registry ≤ w'.books.balanceOf token D.registry) ∧
        ∀ token spender, w'.books.allowance token D.registry spender = 0 := by
      split at hcalled
      · cases receive with
        | none => cases hcalled
        | some calls => exact RegistryCall.runAll_holdings hallowance₁ hothers.2 (mapError_eq_ok.mp hcalled)
      · obtain rfl := pure_eq_ok.mp hcalled
        exact ⟨fun _ => le_rfl, hallowance₁⟩
    refine ⟨fun token => ?_, hcalls.2⟩
    rw [← hpaid token]
    exact Nat.add_le_add_right (hcalls.1 token) _

/-! ### Runs -/

/-- **What a notice means.** From a relayer's notice to its next registration, which follows its exit, it is no active relayer, whatever the identity and approval registries answer. It exits once for each registration, after a notice in that tenure which was as long as the cooldown in force at the exit. The list has everybody who registered, once. -/
structure RemovalHolds (registry : RelayerRegistry) (events : List (Event Address)) : Prop where
  hidden : ∀ {newer older relayer time}, events = newer ++ .notified relayer time :: older → ¬Returned relayer newer →
    ∀ isVerified isApproved, registry.isActiveRelayer isVerified isApproved relayer = some false
  once : ∀ {newest newer older relayer time cooldown time' cooldown'},
    events = newest ++ .left relayer time' cooldown' :: (newer ++ .left relayer time cooldown :: older) →
      .entered relayer ∈ newer
  cooled : ∀ {newer older relayer time cooldown}, events = newer ++ .left relayer time cooldown :: older →
    ∃ since middle oldest, older = middle ++ .notified relayer since :: oldest ∧ .entered relayer ∉ middle ∧
      since + cooldown ≤ time
  nodup : registry.relayerList.Nodup
  listed : ∀ relayer, relayer ∈ registry.relayerList ↔ .entered relayer ∈ events

theorem RelayerRegistry.Follows.removal {registry : RelayerRegistry} (hregistry : registry.Follows events) :
    RemovalHolds registry events where
  hidden := by
    intro newer older relayer time hevents hreturned isVerified isApproved
    have hstands := hregistry.stands relayer
    rw [isActiveRelayer, isOperational]
    apply if_pos
    cases hstanding : standing relayer events with
    | out =>
      rw [hstanding] at hstands
      exact Or.inl (Bool.eq_false_iff.mp hstands)
    | seated => exact absurd hstanding (hregistry.sound.not_seated hevents hreturned)
    | leaving since =>
      rw [hstanding] at hstands
      exact Or.inr (hstands.2.1 ▸ hstands.2.2)
  once := hregistry.sound.left_once
  cooled := hregistry.sound.left_noticed
  nodup := hregistry.nodup
  listed := hregistry.listed

/-- **Removal cannot be dodged**, in every run of a fresh proxy, by any callers. As long as the registry gave no allowance and acts through its own functions only, the bond of an exit is also all that a transaction can take out of it. -/
theorem relayer_removal {books : Books} {txs : List RegistryTransaction} (hmined : ∀ tx ∈ txs, tx.Mined)
    {s : RegistryWorld × List (Event Address)}
    (hs : s = Transactions.after (RegistryTransaction.logged D) (⟨books, blank⟩, []) txs) :
    s.1 = Transactions.after (RegistryTransaction.run D) ⟨books, blank⟩ txs ∧ RemovalHolds s.1.registry s.2 ∧
      ((∀ token spender, books.allowance token D.registry spender = 0) → (∀ tx ∈ txs, tx.ByOthers D) →
        ∀ (tx : RegistryTransaction) (w' : RegistryWorld), tx.ByOthers D → tx.run D s.1 = .ok w' → ∀ token,
          s.1.books.balanceOf token D.registry ≤ w'.books.balanceOf token D.registry + tx.returned s.1 token) := by
  subst hs
  have hworld : ∀ (s : RegistryWorld × List (Event Address)) (txs : List RegistryTransaction),
      (Transactions.after (RegistryTransaction.logged D) s txs).1 = Transactions.after (RegistryTransaction.run D) s.1 txs := by
    intro s txs
    induction txs generalizing s with
    | nil => rfl
    | cons tx txs ih =>
      rw [Transactions.after_cons, Transactions.after_cons, ih]
      congr 1
      unfold Transactions.transact RegistryTransaction.logged
      cases tx.run D s.1 <;> rfl
  have hblank : blank.Follows [] :=
    ⟨trivial, fun _ => rfl, List.nodup_nil, fun _ => by simp [blank], fun _ => by simp [blank]⟩
  refine ⟨hworld _ txs, ?_, fun hallowance hothers tx w' htx hrun => ?_⟩
  · have hfollows : (Transactions.after (RegistryTransaction.logged D) (⟨books, blank⟩, []) txs).1.registry.Follows
        (Transactions.after (RegistryTransaction.logged D) (⟨books, blank⟩, []) txs).2 :=
      Transactions.invariant (I := fun s : RegistryWorld × List (Event Address) => s.1.registry.Follows s.2) ?_ hblank
    · exact hfollows.removal
    · intro tx htx s s' hs hrun
      simp only [RegistryTransaction.logged, bind_eq_ok, pure_eq_ok] at hrun
      obtain ⟨w, hrun, rfl⟩ := hrun
      exact RegistryTransaction.run_follows hs (hmined tx htx) hrun
  · rw [hworld] at hrun ⊢
    have hkept : ∀ token spender,
        (Transactions.after (RegistryTransaction.run D) ⟨books, blank⟩ txs).books.allowance token D.registry spender = 0 :=
      Transactions.invariant (I := fun w => ∀ token spender, w.books.allowance token D.registry spender = 0) (fun tx htx w w' hw hrun => (RegistryTransaction.run_holdings hw (hothers tx htx) hrun).2) hallowance
    exact (RegistryTransaction.run_holdings hkept htx hrun).1

/-- Account `33` stakes `60` ETH and is removed. It tops its bond up, tries to register anew, and to leave too early. -/
def removedRelayer : List RegistryTransaction :=
  [.call (.initializeRegistry 7 8 9 0),
    .register (.permissive 33 60) "https://relayer" "A" 30 0,
    .call (.administer (.permissive 7 0) (.adminRemoveRelayer 33)),
    .addBond (.permissive 33 40) 0,
    .register (.permissive 33 0) "https://relayer" "A" 30 0,
    .executeExit (.permissive 33 0) (some [])]

theorem relayer_removal_removedRelayer :
    (Transactions.after (RegistryTransaction.logged bondDeployment) (⟨Ledger.soleHolder 0 33 100, blank⟩, [])
        removedRelayer).2 = [.notified 33 1000, .entered 33] ∧
      ∀ isVerified isApproved, RelayerRegistry.isActiveRelayer (Transactions.after (RegistryTransaction.run bondDeployment)
        ⟨Ledger.soleHolder 0 33 100, blank⟩ removedRelayer).registry isVerified isApproved 33 = some false := by
  have hmined : ∀ tx ∈ removedRelayer, tx.Mined := by
    simp [removedRelayer, RegistryTransaction.Mined, RegistryCall.Mined, RegistryEnv.permissive]
  have hevents : (Transactions.after (RegistryTransaction.logged bondDeployment) (⟨Ledger.soleHolder 0 33 100, blank⟩, [])
      removedRelayer).2 = [.notified 33 1000, .entered 33] := by
    rfl
  obtain ⟨hworld, hremoval, -⟩ := relayer_removal hmined (D := bondDeployment)
    (s := Transactions.after (RegistryTransaction.logged bondDeployment) (⟨Ledger.soleHolder 0 33 100, blank⟩, []) removedRelayer) rfl
  refine ⟨hevents, ?_⟩
  rw [← hworld]
  refine hremoval.hidden (show _ = [] ++ _ :: _ from hevents) ?_
  rintro ⟨newer, older, time, notice, hsplit, -⟩
  exact absurd (congrArg List.length hsplit) (by simp)

end ScatterDex
