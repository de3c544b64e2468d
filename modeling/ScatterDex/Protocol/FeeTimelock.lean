import ScatterDex.Contract.FeeVaultPayout
import ScatterDex.Library.Timelock

/-!
# The timelock of the platform fee

The platform's rate changes through `scheduleFeeChange` and `applyFeeChange` only. The history of the rate is recorded along a run; a recipient that reverts takes the history back with the storage. Whatever happens to the delay in between, a pending change keeps the one it was scheduled with.
-/

namespace ScatterDex

open Fallible Transactions Timelock

/-- A vault with the history of its rate, and the history where the claim under way began. -/
structure FeeHistory where
  state : VaultState
  events : List (Event ℕ)
  checkpoint : List (Event ℕ)

namespace FeeHistory

/-- What a step that succeeds in a state adds to the history of the rate. -/
def extend (storage : VaultStorage) (events : List (Event ℕ)) : VaultStep → List (Event ℕ)
  | .administer env (.scheduleFeeChange bps) => .scheduled bps env.timestamp storage.feeChangeDelay :: events
  | .administer _ .cancelFeeChange => .cancelled :: events
  | .administer env .applyFeeChange => .applied storage.pendingFeeBps env.timestamp :: events
  | _ => events

/-- A step of the vault, recorded. -/
def run (D : VaultDeployment) (step : VaultStep) (h : FeeHistory) : Except VaultError FeeHistory := do
  let state ← step.run D h.state
  return {
    state
    events := match step with
      | .recipientReverts => h.checkpoint
      | step => extend h.state.world.storage h.events step
    checkpoint := match step with
      | .claimAsEth _ _ => h.events
      | _ => h.checkpoint }

theorem after_state (D : VaultDeployment) (h : FeeHistory) (steps : List VaultStep) :
    (after (run D) h steps).state = after (VaultStep.run D) h.state steps := by
  induction steps generalizing h with
  | nil => rfl
  | cons step steps ih =>
    rw [after_cons, after_cons, ih]
    congr 1
    unfold transact run
    cases step.run D h.state <;> rfl

end FeeHistory

/-- The rate of a storage is the one its history leads to, and what is pending is what the history has pending. -/
structure VaultStorage.RateOf (storage : VaultStorage) (initial : ℕ) (events : List (Event ℕ)) : Prop where
  initialized : storage.initialized ≠ 0
  rate : storage.platformFeeBps = current initial events
  rate_le : storage.platformFeeBps ≤ MAX_PLATFORM_FEE
  pending_le : storage.pendingFeeBps ≤ MAX_PLATFORM_FEE
  pending : storage.pendingFeeEffectiveTime ≠ 0 → ∃ scheduledAt delay,
    Timelock.pending events = some (storage.pendingFeeBps, scheduledAt, delay) ∧
      storage.pendingFeeEffectiveTime = scheduledAt + delay
  sound : Sound events

/-- The fields the timelock reads. -/
def VaultStorage.rateConfig (storage : VaultStorage) : ℕ × ℕ × ℕ × ℕ :=
  (storage.initialized, storage.platformFeeBps, storage.pendingFeeBps, storage.pendingFeeEffectiveTime)

theorem VaultStorage.RateOf.congr {storage storage' : VaultStorage} {initial : ℕ} {events : List (Event ℕ)}
    (hrate : storage.RateOf initial events) (hsame : storage'.rateConfig = storage.rateConfig) :
    storage'.RateOf initial events := by
  simp only [rateConfig, Prod.mk.injEq] at hsame
  obtain ⟨hinitialized, hfee, hpending, htime⟩ := hsame
  obtain ⟨h₁, h₂, h₃, h₄, h₅, h₆⟩ := hrate
  constructor <;> simp_all

/-! ### What leaves the rate alone -/

namespace VaultWorld

variable {D : VaultDeployment} {w w' : VaultWorld} {env : VaultEnv} {relayer token : Address} {amount : ℕ}

theorem pay_storage {p : Payout} (hpay : w.pay D p = .ok w') : w'.storage = w.storage := by
  simp only [pay, bind_eq_ok, pure_eq_ok] at hpay
  obtain ⟨books, -, rfl⟩ := hpay
  rfl

theorem payAll_storage {ps : List Payout} (hpay : payAll D w ps = .ok w') : w'.storage = w.storage := by
  induction ps generalizing w with
  | nil =>
    obtain rfl := Except.ok.inj hpay
    rfl
  | cons p ps ih =>
    rw [payAll, bind_eq_ok] at hpay
    obtain ⟨w₁, hfirst, hrest⟩ := hpay
    exact (ih hrest).trans (pay_storage hfirst)

theorem deposit_rate (hdeposit : w.deposit D env relayer token amount = .ok w') :
    w'.storage.rateConfig = w.storage.rateConfig := by
  simp only [deposit, bind_eq_ok, pure_eq_ok] at hdeposit
  obtain ⟨-, -, vault, -, rfl⟩ := hdeposit
  rfl

theorem accrue_rate (haccrue : w.accrue D env token amount = .ok w') :
    w'.storage.rateConfig = w.storage.rateConfig := by
  simp only [accrue, bind_eq_ok, pure_eq_ok] at haccrue
  obtain ⟨-, -, vault, -, rfl⟩ := haccrue
  rfl

theorem withdrawPlatformRevenue_rate (hwithdraw : w.withdrawPlatformRevenue D env token = .ok w') :
    w'.storage.rateConfig = w.storage.rateConfig := by
  simp only [withdrawPlatformRevenue, bind_eq_ok] at hwithdraw
  obtain ⟨-, -, -, -, -, -, -, -, hpay⟩ := hwithdraw
  rw [payAll_storage hpay]
  rfl

theorem openClaim_rate {asEth : Bool} {entry : VaultEntry} (hopen : w.openClaim env token asEth = .ok (w', entry)) :
    w'.storage.rateConfig = w.storage.rateConfig := by
  simp only [openClaim, VaultStorage.takeBalance, bind_eq_ok, pure_eq_ok, Prod.mk.injEq] at hopen
  obtain ⟨⟨balance, storage⟩, ⟨-, -, -, -, -, rfl⟩, platformFee, -, rfl, -⟩ := hopen
  rfl

theorem claim_rate (hclaim : w.claim D env token = .ok w') : w'.storage.rateConfig = w.storage.rateConfig := by
  simp only [claim, bind_eq_ok] at hclaim
  obtain ⟨-, -, -, -, ⟨w₁, entry⟩, hopen, hpay⟩ := hclaim
  rw [payAll_storage hpay]
  exact openClaim_rate hopen

theorem unwrap_storage {balance : ℕ} (hunwrap : w.unwrap D balance = .ok w') : w'.storage = w.storage := by
  simp only [unwrap, bind_eq_ok, pure_eq_ok] at hunwrap
  obtain ⟨-, -, _, -, _, -, rfl⟩ := hunwrap
  rfl

end VaultWorld

/-- Going on with a claim leaves the rate, and the checkpoint of what is left of it. -/
theorem VaultState.proceed_rate {D : VaultDeployment} {w : VaultWorld} {frame : VaultFrame} {s' : VaultState}
    (hproceed : VaultState.proceed D w frame = .ok s') :
    s'.world.storage.rateConfig = w.storage.rateConfig ∧ ∀ frame' ∈ s'.frame, frame'.checkpoint = frame.checkpoint := by
  obtain ⟨remaining, checkpoint⟩ := frame
  cases remaining with
  | nil =>
    obtain rfl := Except.ok.inj hproceed
    exact ⟨rfl, fun _ hnone => by cases hnone⟩
  | cons p ps =>
    simp only [proceed, bind_eq_ok, mapError_eq_ok, pure_eq_ok] at hproceed
    obtain ⟨w₁, hpay, rfl⟩ := hproceed
    refine ⟨by rw [VaultWorld.pay_storage hpay], ?_⟩
    rintro frame' hframe
    obtain rfl := Option.some.inj hframe
    rfl

/-! ### The invariant -/

/-- The rate of the vault follows its history, also where the claim under way began. -/
structure FeeHistory.Follows (initial : ℕ) (h : FeeHistory) : Prop where
  rate : h.state.world.storage.RateOf initial h.events
  checkpoint : ∀ frame ∈ h.state.frame, frame.checkpoint.storage.RateOf initial h.checkpoint

/-- The owner's calls keep the rate in step with the history. -/
theorem VaultStorage.RateOf.administer {storage storage' : VaultStorage} {initial : ℕ} {events : List (Event ℕ)}
    {env : VaultEnv} {admin : VaultStorage.Admin} (hrate : storage.RateOf initial events)
    (hadmin : storage.administer env admin = .ok storage') :
    storage'.RateOf initial (FeeHistory.extend storage events (.administer env admin)) := by
  cases admin with
  | scheduleFeeChange bps =>
    simp only [VaultStorage.administer, bind_eq_ok, require_eq_ok, pure_eq_ok] at hadmin
    obtain ⟨-, -, -, hbps, -, -, rfl⟩ := hadmin
    exact ⟨hrate.initialized, hrate.rate, hrate.rate_le, not_lt.mp hbps, fun _ => ⟨_, _, rfl, rfl⟩, hrate.sound⟩
  | cancelFeeChange =>
    simp only [VaultStorage.administer, bind_eq_ok, require_eq_ok, pure_eq_ok] at hadmin
    obtain ⟨-, -, -, -, rfl⟩ := hadmin
    exact ⟨hrate.initialized, hrate.rate, hrate.rate_le, Nat.zero_le _, fun hne => absurd rfl hne, hrate.sound⟩
  | applyFeeChange =>
    simp only [VaultStorage.administer, bind_eq_ok, require_eq_ok, pure_eq_ok] at hadmin
    obtain ⟨-, -, -, hpending, -, hready, rfl⟩ := hadmin
    obtain ⟨scheduledAt, delay, hscheduled, htime⟩ := hrate.pending hpending
    have hwaited : scheduledAt + delay ≤ env.timestamp := by omega
    exact ⟨hrate.initialized, rfl, hrate.pending_le, Nat.zero_le _, fun hne => absurd rfl hne,
      ⟨scheduledAt, delay, hscheduled, hwaited⟩, hrate.sound⟩
  | setAuthorizedDepositor depositor authorized =>
    simp only [VaultStorage.administer, bind_eq_ok, pure_eq_ok] at hadmin
    obtain ⟨-, -, -, -, rfl⟩ := hadmin
    exact hrate.congr rfl
  | setWeth weth =>
    simp only [VaultStorage.administer, bind_eq_ok, pure_eq_ok] at hadmin
    obtain ⟨-, -, -, -, rfl⟩ := hadmin
    exact hrate.congr rfl
  | setFeeChangeDelay delay =>
    simp only [VaultStorage.administer, bind_eq_ok, pure_eq_ok] at hadmin
    obtain ⟨-, -, -, -, rfl⟩ := hadmin
    exact hrate.congr rfl
  | setTreasury treasury =>
    simp only [VaultStorage.administer, bind_eq_ok, pure_eq_ok] at hadmin
    obtain ⟨-, -, -, -, rfl⟩ := hadmin
    exact hrate.congr rfl
  | transferOwnership newOwner =>
    simp only [VaultStorage.administer, bind_eq_ok, pure_eq_ok] at hadmin
    obtain ⟨-, -, rfl⟩ := hadmin
    exact hrate.congr rfl
  | acceptOwnership =>
    simp only [VaultStorage.administer, bind_eq_ok, pure_eq_ok] at hadmin
    obtain ⟨-, -, rfl⟩ := hadmin
    exact hrate.congr rfl
  | renounceOwnership => cases hadmin

namespace FeeHistory.Follows

variable {D : VaultDeployment} {initial : ℕ} {h h' : FeeHistory}

theorem keep (hh : h.Follows initial) {state : VaultState}
    (hrate : state.world.storage.rateConfig = h.state.world.storage.rateConfig)
    (hframe : ∀ frame ∈ state.frame, ∃ frame₀ ∈ h.state.frame, frame.checkpoint = frame₀.checkpoint) :
    FeeHistory.Follows initial ⟨state, h.events, h.checkpoint⟩ where
  rate := hh.rate.congr hrate
  checkpoint := by
    intro frame hmem
    obtain ⟨frame₀, hmem₀, heq⟩ := hframe frame hmem
    rw [heq]
    exact hh.checkpoint frame₀ hmem₀

theorem onWorld (hh : h.Follows initial) {world : VaultWorld}
    (hrate : world.storage.rateConfig = h.state.world.storage.rateConfig) :
    FeeHistory.Follows initial ⟨{ h.state with world }, h.events, h.checkpoint⟩ :=
  hh.keep hrate fun frame hmem => ⟨frame, hmem, rfl⟩

theorem run (hh : h.Follows initial) {step : VaultStep} (hrun : FeeHistory.run D step h = .ok h') :
    h'.Follows initial := by
  obtain ⟨⟨world, frame⟩, events, checkpoint⟩ := h
  simp only [FeeHistory.run, bind_eq_ok, pure_eq_ok] at hrun
  obtain ⟨state, hstep, rfl⟩ := hrun
  cases step with
  | initializeVault initialOwner treasury platformFeeBps =>
    simp only [VaultStep.run, VaultStep.onStorage, VaultStorage.initializeVault, bind_eq_ok, require_eq_ok, pure_eq_ok]
      at hstep
    obtain ⟨_, ⟨-, hblank, -⟩, -⟩ := hstep
    exact absurd hblank hh.rate.initialized
  | reinitializeFeeChangeDelay =>
    simp only [VaultStep.run, VaultStep.onStorage, VaultStorage.reinitializeFeeChangeDelay, bind_eq_ok, pure_eq_ok] at hstep
    obtain ⟨_, ⟨-, -, rfl⟩, rfl⟩ := hstep
    obtain ⟨⟨-, h₂, h₃, h₄, h₅, h₆⟩, hcheckpoint⟩ := hh
    exact ⟨⟨two_ne_zero, h₂, h₃, h₄, h₅, h₆⟩, hcheckpoint⟩
  | administer env admin =>
    simp only [VaultStep.run, VaultStep.onStorage, bind_eq_ok, pure_eq_ok] at hstep
    obtain ⟨storage, hadmin, rfl⟩ := hstep
    exact ⟨hh.rate.administer hadmin, hh.checkpoint⟩
  | deposit env relayer token amount =>
    simp only [VaultStep.run, VaultStep.onWorld, bind_eq_ok, pure_eq_ok] at hstep
    obtain ⟨world', hdeposit, rfl⟩ := hstep
    exact hh.onWorld (VaultWorld.deposit_rate hdeposit)
  | accrueDexFee env token amount =>
    simp only [VaultStep.run, VaultStep.onWorld, bind_eq_ok, pure_eq_ok] at hstep
    obtain ⟨world', haccrue, rfl⟩ := hstep
    exact hh.onWorld (VaultWorld.accrue_rate haccrue)
  | accrueDexSurplus env token amount =>
    simp only [VaultStep.run, VaultStep.onWorld, bind_eq_ok, pure_eq_ok] at hstep
    obtain ⟨world', haccrue, rfl⟩ := hstep
    exact hh.onWorld (VaultWorld.accrue_rate haccrue)
  | withdrawPlatformRevenue env token =>
    simp only [VaultStep.run, VaultStep.onWorld, bind_eq_ok, pure_eq_ok] at hstep
    obtain ⟨world', hwithdraw, rfl⟩ := hstep
    exact hh.onWorld (VaultWorld.withdrawPlatformRevenue_rate hwithdraw)
  | claim env token =>
    simp only [VaultStep.run, VaultStep.onWorld, bind_eq_ok, pure_eq_ok] at hstep
    obtain ⟨world', hclaim, rfl⟩ := hstep
    exact hh.onWorld (VaultWorld.claim_rate hclaim)
  | claimAsEth env token =>
    simp only [VaultStep.run, VaultState.claimAsEth, bind_eq_ok] at hstep
    obtain ⟨-, -, -, -, -, -, ⟨w₁, entry⟩, hopen, w₂, hunwrap, hproceed⟩ := hstep
    obtain ⟨hrate, hframe⟩ := VaultState.proceed_rate hproceed
    have hsame : state.world.storage.rateConfig = world.storage.rateConfig := by
      rw [hrate, ← VaultWorld.openClaim_rate hopen, ← VaultWorld.unwrap_storage hunwrap]
      rfl
    exact ⟨hh.rate.congr hsame, fun frame' hmem => by
      rw [hframe frame' hmem]
      exact hh.rate⟩
  | receive env amount =>
    simp only [VaultStep.run, bind_eq_ok, pure_eq_ok] at hstep
    obtain ⟨-, -, -, -, books, -, rfl⟩ := hstep
    exact hh.onWorld rfl
  | recipientReturns =>
    cases frame with
    | none => cases hstep
    | some frame =>
      obtain ⟨hrate, hframe⟩ := VaultState.proceed_rate hstep
      exact hh.keep hrate fun frame' hmem => ⟨frame, rfl, hframe frame' hmem⟩
  | recipientReverts =>
    cases frame with
    | none => cases hstep
    | some frame =>
      obtain rfl := Except.ok.inj hstep
      exact ⟨hh.checkpoint frame rfl, fun _ hnone => by cases hnone⟩
  | books action =>
    simp only [VaultStep.run, bind_eq_ok, pure_eq_ok] at hstep
    obtain ⟨-, -, books, -, rfl⟩ := hstep
    exact hh.onWorld rfl

end FeeHistory.Follows

/-- A vault whose proxy was just deployed and initialized. -/
def VaultState.deployed (storage : VaultStorage) (books : Books) : VaultState := ⟨⟨storage, books, [], []⟩, none⟩

variable {D : VaultDeployment} {books : Books} {storage : VaultStorage} {initialOwner treasury : Address}
  {platformFeeBps : ℕ}

/-- **The platform's rate obeys its timelock** on every run of an initialized vault. The rate stays at or below half. It is the initial one or the one applied last, and whatever was applied had been scheduled by the last event before, so it was neither cancelled nor replaced in between, at least the delay earlier that was in force when it was scheduled. -/
theorem fee_timelock (hdeploy : VaultStorage.blank.initializeVault initialOwner treasury platformFeeBps = .ok storage)
    {steps : List VaultStep} {h : FeeHistory}
    (hh : h = after (FeeHistory.run D) ⟨.deployed storage books, [], []⟩ steps) :
    h.state = after (VaultStep.run D) (.deployed storage books) steps ∧
      h.state.world.storage.platformFeeBps ≤ 5000 ∧
      h.state.world.storage.platformFeeBps = current platformFeeBps h.events ∧
      ∀ newer older bps time, h.events = newer ++ .applied bps time :: older →
        ∃ scheduledAt delay oldest, older = .scheduled bps scheduledAt delay :: oldest ∧ scheduledAt + delay ≤ time := by
  have hstart : FeeHistory.Follows platformFeeBps ⟨.deployed storage books, [], []⟩ := by
    simp only [VaultStorage.initializeVault, bind_eq_ok, require_eq_ok, pure_eq_ok] at hdeploy
    obtain ⟨-, -, -, -, -, hfee, rfl⟩ := hdeploy
    exact ⟨⟨one_ne_zero, rfl, not_lt.mp hfee, Nat.zero_le _, fun hne => absurd rfl hne, trivial⟩,
      fun _ hnone => by cases hnone⟩
  subst hh
  have hfollows : (after (FeeHistory.run D) ⟨.deployed storage books, [], []⟩ steps).Follows platformFeeBps :=
    invariant (fun step _ h h' hh hrun => hh.run hrun) hstart
  exact ⟨FeeHistory.after_state D _ steps, hfollows.rate.rate_le, hfollows.rate.rate,
    fun newer older bps time hevents => hfollows.rate.sound.scheduled hevents⟩

/-! ### A shortened delay -/

/-- A vault owned by account `1` at five percent. -/
def initializedStorage : VaultStorage :=
  { VaultStorage.blank with
    owner := 1
    treasury := 2
    platformFeeBps := 500
    feeChangeDelay := DEFAULT_FEE_CHANGE_DELAY
    initialized := 1 }

def ownerAt (timestamp : ℕ) : VaultEnv := ⟨1, timestamp, fun _ => 0⟩

/-- The owner schedules seven percent and takes the delay away. The first attempt to apply is still too early. -/
def shortenedDelay : List VaultStep :=
  [.administer (ownerAt 10) (.scheduleFeeChange 700), .administer (ownerAt 11) (.setFeeChangeDelay 0),
    .administer (ownerAt 12) .applyFeeChange, .administer (ownerAt 86410) .applyFeeChange]

def freeVault : VaultDeployment := .small

theorem fee_timelock_shortenedDelay :
    (after (FeeHistory.run freeVault) ⟨.deployed initializedStorage (Ledger.soleHolder 0 0 0), [], []⟩
        shortenedDelay).events = [.applied 700 86410, .scheduled 700 10 86400] ∧
      ∃ scheduledAt delay oldest, [Event.scheduled 700 10 86400] = .scheduled 700 scheduledAt delay :: oldest ∧
        scheduledAt + delay ≤ 86410 := by
  have hevents : (after (FeeHistory.run freeVault) ⟨.deployed initializedStorage (Ledger.soleHolder 0 0 0), [], []⟩
      shortenedDelay).events = [.applied 700 86410, .scheduled 700 10 86400] := rfl
  have hdeploy : VaultStorage.blank.initializeVault 1 2 500 = .ok initializedStorage := rfl
  have hrun := @fee_timelock freeVault (Ledger.soleHolder 0 0 0) _ _ _ _ hdeploy shortenedDelay _ rfl
  exact ⟨hevents, hrun.2.2.2 [] _ 700 86410 hevents⟩

end ScatterDex
