import ScatterDex.Library.Steps
import ScatterDex.Pro.ClaimsBundle

/-!
# The backup of the claims

A bundle has one claim of its order, and its file is named for the label. So the folder has all claims of all orders, and no write replaces a bundle of another order, exactly when every order is added with `claim` as its one claim and under a label that no earlier bundle has.
-/

namespace ScatterDex

open Sdk

namespace Pro

def PlacedOrder.allClaims (order : PlacedOrder) : List OrderClaim := order.toOrderRecord.allClaims

/-- All claims of an order are its `claim`. -/
def PlacedOrder.Single (order : PlacedOrder) : Prop := ∀ c ∈ order.allClaims, order.claim = some c

/-- Two orders that both have a bundle have different labels. -/
def PlacedOrder.Apart (order order' : PlacedOrder) : Prop := order.claim.isSome → order'.claim.isSome → order.label ≠ order'.label

/-- The order that is added has one claim at most, and its bundle has a name of its own. -/
def ClaimsEvent.BacksUp : ClaimsEvent → ClaimsWorkspace → Prop
  | .place _ id claim claims, s => (s.nextOrder id claim claims).Single ∧ ∀ o ∈ s.added, o.Apart (s.nextOrder id claim claims)
  | _, _ => True

instance : Std.Symm PlacedOrder.Apart := ⟨fun _ _ happart hclaim hclaim' heq => happart hclaim' hclaim heq.symm⟩

namespace ClaimsWorkspace

/-- The folder has every claim of every order that was added, in a bundle of the order. -/
def Complete (s : ClaimsWorkspace) : Prop :=
  ∀ o ∈ s.added, ∀ c ∈ o.allClaims, ∃ name bundle, s.bundleFiles name = some bundle ∧ bundle.orderId = o.id ∧ bundle.claim = c

/-- All bundles have been written. -/
def Settled (s : ClaimsWorkspace) : Prop := s.bundleWrites = []

variable {s s' : ClaimsWorkspace}

/-! ### Bundles and their files -/

theorem bundleFilename_injective : Function.Injective bundleFilename := fileFor_injective "scatter-pro-claims-"

theorem persist_eq_some_iff {o : PlacedOrder} {name : String} {bundle : ClaimsBundle} :
    persistOrderClaimsBundle o = some (name, bundle) ↔
      ∃ c, o.claim = some c ∧ name = bundleFilename o.label ∧ bundle = ⟨o.id, o.label, c⟩ := by
  unfold persistOrderClaimsBundle buildClaimsBundleJson
  cases hclaim : o.claim with
  | none => simp
  | some c => simp [orderClaimsBundleFilename, eq_comm]

theorem exists_allClaims {o : PlacedOrder} {c : OrderClaim} (hclaim : o.claim = some c) : ∃ d, d ∈ o.allClaims := by
  show ∃ d, d ∈ o.toOrderRecord.allClaims
  unfold OrderRecord.allClaims
  split
  · next d ds _ => exact ⟨d, List.mem_cons_self⟩
  · exact ⟨c, hclaim ▸ List.mem_singleton_self c⟩

/-! ### What a step does to the bundles -/

theorem foldl_update (us : List OrdersUpdate) (s : ClaimsWorkspace) :
    (us.foldl update s).added = s.added ∧ (us.foldl update s).bundleWrites = s.bundleWrites ∧
      (us.foldl update s).bundleFiles = s.bundleFiles ∧ (us.foldl update s).overwritten = s.overwritten := by
  induction us generalizing s with
  | nil => exact ⟨rfl, rfl, rfl, rfl⟩
  | cons u us ih =>
    obtain ⟨hadded, hwrites, hfiles, hoverwritten⟩ := ih (s.update u)
    cases u <;> exact ⟨hadded, hwrites, hfiles, hoverwritten⟩

theorem step_cases {event : ClaimsEvent} (hstep : Step event s s') :
    (∃ key id claim claims, event = .place key id claim claims ∧ id ∉ s.added.map PlacedOrder.id ∧
      s' = s.place key (s.nextOrder id claim claims)) ∨
    (∃ i name bundle, event = .landBundle i ∧ s.bundleWrites[i]? = some (name, bundle) ∧
      s' = { s with bundleWrites := s.bundleWrites.eraseIdx i }.saveBundle name bundle) ∨
    ((∀ t, event.BacksUp t) ∧ s'.added = s.added ∧ s'.bundleWrites = s.bundleWrites ∧ s'.bundleFiles = s.bundleFiles ∧
      s'.overwritten = s.overwritten) := by
  cases event with
  | place key id claim claims => exact Or.inl ⟨key, id, claim, claims, rfl, hstep.1, hstep.2⟩
  | landBundle i =>
    obtain ⟨name, bundle, hget, hs'⟩ := hstep
    exact Or.inr (Or.inl ⟨i, name, bundle, rfl, hget, hs'⟩)
  | remove key id =>
    obtain rfl := hstep
    exact Or.inr (Or.inr ⟨fun _ => trivial, rfl, rfl, rfl, rfl⟩)
  | mount key =>
    obtain rfl := hstep
    exact Or.inr (Or.inr ⟨fun _ => trivial, rfl, rfl, rfl, rfl⟩)
  | read =>
    obtain ⟨-, rfl⟩ := hstep
    exact Or.inr (Or.inr ⟨fun _ => trivial, rfl, rfl, rfl, rfl⟩)
  | hydrate =>
    obtain ⟨_, -, rfl⟩ := hstep
    exact Or.inr (Or.inr ⟨fun _ => trivial, rfl, rfl, rfl, rfl⟩)
  | render =>
    obtain rfl := hstep
    exact Or.inr (Or.inr ⟨fun _ => trivial, foldl_update s.updates s⟩)
  | landOrder i =>
    obtain ⟨_, _, -, rfl⟩ := hstep
    exact Or.inr (Or.inr ⟨fun _ => trivial, rfl, rfl, rfl, rfl⟩)

/-! ### The orders of a run -/

/-- The orders that were added could all be backed up. -/
def Distinct (orders : List PlacedOrder) : Prop := (∀ o ∈ orders, o.Single) ∧ orders.Pairwise PlacedOrder.Apart

theorem distinct_append_singleton {orders : List PlacedOrder} {order : PlacedOrder} :
    Distinct (orders ++ [order]) ↔ Distinct orders ∧ order.Single ∧ ∀ o ∈ orders, o.Apart order := by
  unfold Distinct
  rw [List.forall_mem_append, List.pairwise_append, List.forall_mem_singleton]
  constructor
  · intro ⟨⟨hsingle, horder⟩, hapart, _, hbetween⟩
    exact ⟨⟨hsingle, hapart⟩, horder, fun o ho => hbetween o ho order (List.mem_singleton_self _)⟩
  · intro ⟨⟨hsingle, hapart⟩, horder, hbetween⟩
    refine ⟨⟨hsingle, horder⟩, hapart, List.pairwise_singleton _ _, fun o ho o' ho' => ?_⟩
    rw [List.mem_singleton.mp ho']
    exact hbetween o ho

theorem step_distinct {event : ClaimsEvent} (hstep : Step event s s') :
    Distinct s'.added ↔ Distinct s.added ∧ event.BacksUp s := by
  rcases step_cases hstep with ⟨key, id, claim, claims, rfl, -, rfl⟩ | ⟨i, name, bundle, rfl, -, rfl⟩ | ⟨hbacks, hadded, -⟩
  · exact distinct_append_singleton
  · exact (and_iff_left trivial).symm
  · rw [hadded]
    exact (and_iff_left (hbacks s)).symm

theorem steps_distinct {events : List ClaimsEvent} (hrun : Steps Step events s s') :
    Distinct s'.added ↔ Distinct s.added ∧ Steps (fun event t t' => Step event t t' ∧ event.BacksUp t) events s s' := by
  induction events generalizing s with
  | nil =>
    obtain rfl := hrun
    exact (and_iff_left rfl).symm
  | cons event events ih =>
    obtain ⟨t, hstep, hrest⟩ := hrun
    constructor
    · intro hdistinct
      obtain ⟨ht, hbacked⟩ := (ih hrest).mp hdistinct
      obtain ⟨hs, hevent⟩ := (step_distinct hstep).mp ht
      exact ⟨hs, t, ⟨hstep, hevent⟩, hbacked⟩
    · intro ⟨hs, u, ⟨hstep', hevent⟩, hbacked⟩
      have hu : Distinct u.added := (step_distinct hstep').mpr ⟨hs, hevent⟩
      exact (ih (hbacked.mono fun _ _ _ h => h.1)).mpr ⟨hu, hbacked⟩

/-! ### The folder -/

/-- Every bundle is of an order that was added, and the orders have different ids. -/
structure Sourced (s : ClaimsWorkspace) : Prop where
  nodup : (s.added.map PlacedOrder.id).Nodup
  pending : ∀ write ∈ s.bundleWrites, ∃ o ∈ s.added, persistOrderClaimsBundle o = some write
  filed : ∀ name bundle, s.bundleFiles name = some bundle → ∃ o ∈ s.added, persistOrderClaimsBundle o = some (name, bundle)

/-- Every bundle is in the folder or on its way, and none was replaced by that of another order. -/
structure Kept (s : ClaimsWorkspace) : Prop where
  placed : ∀ o ∈ s.added, ∀ name bundle, persistOrderClaimsBundle o = some (name, bundle) →
    (name, bundle) ∈ s.bundleWrites ∨ s.bundleFiles name = some bundle
  overwritten : s.overwritten = []

theorem Sourced.eq_of_id (hs : s.Sourced) {o o' : PlacedOrder} (ho : o ∈ s.added) (ho' : o' ∈ s.added) (hid : o.id = o'.id) : o = o' :=
  List.inj_on_of_nodup_map hs.nodup ho ho' hid

theorem Sourced.opened (key : OrdersKey) : (ClaimsWorkspace.opened key).Sourced :=
  ⟨List.nodup_nil, fun _ h => absurd h List.not_mem_nil, fun _ _ h => absurd h (Option.some_ne_none _).symm⟩

theorem Sourced.step {event : ClaimsEvent} (hs : s.Sourced) (hstep : Step event s s') : s'.Sourced := by
  rcases step_cases hstep with ⟨key, id, claim, claims, -, hid, rfl⟩ | ⟨i, name, bundle, -, hget, rfl⟩ | ⟨-, hadded, hwrites, hfiles, -⟩
  · refine ⟨?_, fun write hwrite => ?_, fun name bundle hfile => ?_⟩
    · show ((s.added ++ [_]).map PlacedOrder.id).Nodup
      rw [List.map_append, List.nodup_append]
      refine ⟨hs.nodup, List.nodup_singleton _, fun a ha b hb => ?_⟩
      rw [List.mem_singleton.mp hb]
      intro heq
      apply hid
      show (s.nextOrder id claim claims).id ∈ _
      exact heq ▸ ha
    · rcases List.mem_append.mp hwrite with hold | hnew
      · obtain ⟨o, ho, hpersist⟩ := hs.pending write hold
        exact ⟨o, List.mem_append_left _ ho, hpersist⟩
      · exact ⟨_, List.mem_append_right _ (List.mem_singleton_self _), Option.mem_toList.mp hnew⟩
    · obtain ⟨o, ho, hpersist⟩ := hs.filed name bundle hfile
      exact ⟨o, List.mem_append_left _ ho, hpersist⟩
  · refine ⟨hs.nodup, fun write hwrite => hs.pending write (List.mem_of_mem_eraseIdx hwrite), fun name' bundle' hfile => ?_⟩
    have hfile' : Function.update s.bundleFiles name (some bundle) name' = some bundle' := hfile
    by_cases hname : name' = name
    · rw [hname, Function.update_self] at hfile'
      obtain rfl := Option.some.inj hfile'
      rw [hname]
      exact hs.pending _ (List.mem_of_getElem? hget)
    · rw [Function.update_of_ne hname] at hfile'
      exact hs.filed name' bundle' hfile'
  · refine ⟨hadded ▸ hs.nodup, ?_, ?_⟩
    · rw [hadded, hwrites]
      exact hs.pending
    · rw [hadded, hfiles]
      exact hs.filed

/-- Orders that are apart have their bundles in different files. -/
theorem Distinct.eq_of_name {orders : List PlacedOrder} (hdistinct : Distinct orders) {o o' : PlacedOrder} (ho : o ∈ orders) (ho' : o' ∈ orders)
    {name : String} {bundle bundle' : ClaimsBundle} (hpersist : persistOrderClaimsBundle o = some (name, bundle))
    (hpersist' : persistOrderClaimsBundle o' = some (name, bundle')) : o = o' := by
  obtain ⟨c, hclaim, hname, -⟩ := persist_eq_some_iff.mp hpersist
  obtain ⟨c', hclaim', hname', -⟩ := persist_eq_some_iff.mp hpersist'
  have hlabel : o.label = o'.label := bundleFilename_injective (hname.symm.trans hname')
  by_contra hne
  exact hdistinct.2.forall ho ho' hne (Option.isSome_of_eq_some hclaim) (Option.isSome_of_eq_some hclaim') hlabel

theorem Kept.step {event : ClaimsEvent} (hs : s.Sourced) (hkept : s.Kept) (hstep : Step event s s') (hdistinct : Distinct s'.added) : s'.Kept := by
  rcases step_cases hstep with ⟨key, id, claim, claims, -, -, rfl⟩ | ⟨i, name, bundle, -, hget, rfl⟩ | ⟨-, hadded, hwrites, hfiles, hoverwritten⟩
  · refine ⟨fun o ho name bundle hpersist => ?_, hkept.overwritten⟩
    rcases List.mem_append.mp ho with hold | hnew
    · rcases hkept.placed o hold name bundle hpersist with hwrite | hfile
      · exact Or.inl (List.mem_append_left _ hwrite)
      · exact Or.inr hfile
    · rw [List.mem_singleton.mp hnew] at hpersist
      exact Or.inl (List.mem_append_right _ (Option.mem_toList.mpr hpersist))
  · obtain ⟨order, horder, hlanded⟩ := hs.pending _ (List.mem_of_getElem? hget)
    refine ⟨fun o ho name' bundle' hpersist => ?_, ?_⟩
    · by_cases hname : name' = name
      · subst hname
        obtain rfl := hdistinct.eq_of_name ho horder hpersist hlanded
        obtain ⟨-, rfl⟩ := Prod.mk.inj (Option.some.inj (hpersist.symm.trans hlanded))
        exact Or.inr (Function.update_self _ _ _)
      · rcases hkept.placed o ho name' bundle' hpersist with hwrite | hfile
        · obtain ⟨j, hgetj⟩ := List.mem_iff_getElem?.mp hwrite
          refine Or.inl (List.mem_eraseIdx_iff_getElem?.mpr ⟨j, fun hji => hname ?_, hgetj⟩)
          rw [hji, hget] at hgetj
          exact (Prod.mk.inj (Option.some.inj hgetj)).1.symm
        · exact Or.inr ((Function.update_of_ne hname _ _).trans hfile)
    · show s.overwritten ++ (s.bundleFiles name).toList.filter _ = []
      rw [hkept.overwritten, List.nil_append, List.filter_eq_nil_iff]
      intro old hold
      obtain ⟨o, ho, hpersist⟩ := hs.filed name old (Option.mem_toList.mp hold)
      obtain rfl := hdistinct.eq_of_name ho horder hpersist hlanded
      obtain ⟨-, rfl⟩ := Prod.mk.inj (Option.some.inj (hpersist.symm.trans hlanded))
      simp
  · refine ⟨?_, hoverwritten ▸ hkept.overwritten⟩
    rw [hadded, hwrites, hfiles]
    exact hkept.placed

theorem kept_of_run {events : List ClaimsEvent} {key : OrdersKey} (hrun : Steps Step events (opened key) s) (hdistinct : Distinct s.added) :
    s.Sourced ∧ s.Kept := by
  have hkeep : ∀ t t', (t.Sourced ∧ (Distinct t.added → t.Kept)) → ∀ event, Step event t t' → t'.Sourced ∧ (Distinct t'.added → t'.Kept) := by
    intro t t' ⟨ht, hkept⟩ event hstep
    exact ⟨ht.step hstep, fun hdistinct' => (hkept ((step_distinct hstep).mp hdistinct').1).step ht hstep hdistinct'⟩
  have hopened : (opened key).Kept := ⟨fun _ ho => absurd ho List.not_mem_nil, rfl⟩
  obtain ⟨hsourced, hkept⟩ := hrun.invariant (I := fun t => t.Sourced ∧ (Distinct t.added → t.Kept))
    (fun event _ t t' ht hstep => hkeep t t' ht event hstep) ⟨Sourced.opened key, fun _ => hopened⟩
  exact ⟨hsourced, hkept hdistinct⟩

/-- A folder that has all claims was filled with distinct orders. -/
theorem Sourced.distinct (hs : s.Sourced) (hcomplete : s.Complete) : Distinct s.added := by
  have hheld : ∀ o ∈ s.added, ∀ c ∈ o.allClaims, o.claim = some c ∧ s.bundleFiles (bundleFilename o.label) = some ⟨o.id, o.label, c⟩ := by
    intro o ho c hc
    obtain ⟨name, bundle, hfile, hid, hclaim⟩ := hcomplete o ho c hc
    obtain ⟨o', ho', hpersist⟩ := hs.filed name bundle hfile
    obtain ⟨c', hclaim', rfl, rfl⟩ := persist_eq_some_iff.mp hpersist
    obtain rfl := hs.eq_of_id ho' ho hid
    obtain rfl : c' = c := hclaim
    exact ⟨hclaim', hfile⟩
  refine ⟨fun o ho c hc => (hheld o ho c hc).1, ?_⟩
  refine (List.pairwise_map.mp hs.nodup).imp_of_mem fun {o o'} ho ho' hid hclaim hclaim' hlabel => hid ?_
  obtain ⟨_, hc⟩ := Option.isSome_iff_exists.mp hclaim
  obtain ⟨_, hc'⟩ := Option.isSome_iff_exists.mp hclaim'
  obtain ⟨d, hd⟩ := exists_allClaims hc
  obtain ⟨d', hd'⟩ := exists_allClaims hc'
  have hfile := (hheld o ho d hd).2
  rw [hlabel, (hheld o' ho' d' hd').2] at hfile
  exact (congrArg ClaimsBundle.orderId (Option.some.inj hfile)).symm

/-- **The claims backup.** When all bundles of a run have been written, the folder has every claim of every order that was added and no bundle replaced one of another order, exactly when each addition had one claim at most and a label that was free. -/
theorem claims_backed_up {events : List ClaimsEvent} {key : OrdersKey} (hrun : Steps Step events (opened key) s) (hsettled : s.Settled) :
    (s.Complete ∧ s.overwritten = []) ↔ Steps (fun event t t' => Step event t t' ∧ event.BacksUp t) events (opened key) s := by
  have hempty : Distinct (opened key).added := ⟨fun _ ho => absurd ho List.not_mem_nil, List.Pairwise.nil⟩
  have hiff : Distinct s.added ↔ Steps (fun event t t' => Step event t t' ∧ event.BacksUp t) events (opened key) s :=
    (steps_distinct hrun).trans (and_iff_right hempty)
  rw [← hiff]
  constructor
  · intro ⟨hcomplete, _⟩
    have hsourced : s.Sourced := hrun.invariant (fun event _ t t' ht hstep => ht.step hstep) (Sourced.opened key)
    exact hsourced.distinct hcomplete
  · intro hdistinct
    obtain ⟨-, hkept⟩ := kept_of_run hrun hdistinct
    refine ⟨fun o ho c hc => ?_, hkept.overwritten⟩
    have hpersist := persist_eq_some_iff.mpr ⟨c, hdistinct.1 o ho c hc, rfl, rfl⟩
    rcases hkept.placed o ho _ _ hpersist with hwrite | hfile
    · exact absurd (hsettled ▸ hwrite) List.not_mem_nil
    · exact ⟨_, _, hfile, rfl, rfl⟩

/-! ### Two recipients, two accounts -/

def backupClaim (secret : ℕ) (leafIndex : ℤ) : OrderClaim := ⟨secret, "0xf3", "0x8a", 4205, 0, leafIndex, some 7⟩

def firstKey : OrdersKey := ⟨1, "0xaa"⟩

/-- Two orders of one account, each of one recipient. -/
def twoOrders : List ClaimsEvent :=
  [.place firstKey "a" (some (backupClaim 5 0)) (some [backupClaim 5 0]), .landBundle 0,
    .place firstKey "b" (some (backupClaim 6 0)) (some [backupClaim 6 0]), .landBundle 0]

/-- What is left when the first bundle on the way is written. -/
def landFirst (s : ClaimsWorkspace) : ClaimsWorkspace :=
  match s.bundleWrites with
  | [] => s
  | (name, bundle) :: rest => { s with bundleWrites := rest }.saveBundle name bundle

theorem claims_backed_up_orders : ∃ s, Steps Step twoOrders (opened firstKey) s ∧ s.Complete ∧ s.overwritten = [] := by
  let order := (opened firstKey).nextOrder "a" (some (backupClaim 5 0)) (some [backupClaim 5 0])
  let first := landFirst ((opened firstKey).place firstKey order)
  let order' := first.nextOrder "b" (some (backupClaim 6 0)) (some [backupClaim 6 0])
  let second := landFirst (first.place firstKey order')
  have hfresh : "b" ∉ first.added.map PlacedOrder.id := by decide
  have hplace : Step (.place firstKey "a" order.claim order.claims) (opened firstKey) ((opened firstKey).place firstKey order) :=
    ⟨List.not_mem_nil, rfl⟩
  have hland : Step (.landBundle 0) ((opened firstKey).place firstKey order) first := ⟨_, _, rfl, rfl⟩
  have hplace' : Step (.place firstKey "b" order'.claim order'.claims) first (first.place firstKey order') := ⟨hfresh, rfl⟩
  have hland' : Step (.landBundle 0) (first.place firstKey order') second := ⟨_, _, rfl, rfl⟩
  have hrun : Steps Step twoOrders (opened firstKey) second := ⟨_, hplace, _, hland, _, hplace', _, hland', rfl⟩
  have hsingle : order.Single ∧ order'.Single := by
    constructor <;> intro c hc <;> rw [List.mem_singleton.mp hc] <;> rfl
  have hlabel : seqLabel 1 ≠ seqLabel 2 := by decide
  have hapart : ∀ o ∈ first.added, o.Apart order' := by
    intro o ho _ _
    rw [List.mem_singleton.mp ho]
    exact hlabel
  refine ⟨second, hrun, (claims_backed_up hrun rfl).mpr ⟨_, ⟨hplace, hsingle.1, ?_⟩, _, ⟨hland, trivial⟩, _, ⟨hplace', hsingle.2, hapart⟩, _,
    ⟨hland', trivial⟩, rfl⟩⟩
  exact fun _ ho => absurd ho List.not_mem_nil

/-- The order of a second recipient. -/
def twoRecipients : List ClaimsEvent :=
  [.place firstKey "a" (some (backupClaim 5 0)) (some [backupClaim 5 0, backupClaim 6 1]), .landBundle 0]

/-- An order of one account, a switch of the account, and an order of the other. -/
def twoAccounts : List ClaimsEvent :=
  [.place firstKey "a" (some (backupClaim 5 0)) (some [backupClaim 5 0]), .landBundle 0, .mount ⟨1, "0xbb"⟩,
    .place ⟨1, "0xbb"⟩ "b" (some (backupClaim 6 0)) (some [backupClaim 6 0]), .landBundle 0]

theorem not_complete_of_only {o : PlacedOrder} {c : OrderClaim} {name : String} {bundle : ClaimsBundle} (ho : o ∈ s.added) (hc : c ∈ o.allClaims)
    (hfiles : s.bundleFiles = Function.update (fun _ => none) name (some bundle)) (hother : bundle.claim ≠ c) : ¬s.Complete := by
  intro hcomplete
  obtain ⟨name', bundle', hfile, -, hclaim⟩ := hcomplete o ho c hc
  rw [hfiles] at hfile
  by_cases hname : name' = name
  · rw [hname, Function.update_self] at hfile
    exact hother (Option.some.inj hfile ▸ hclaim)
  · rw [Function.update_of_ne hname] at hfile
    exact Option.some_ne_none _ hfile.symm

/-- The claim of the second recipient is in no bundle, and the bundle of the first account is replaced by that of the second. -/
theorem claims_not_backed_up : (∃ s, Steps Step twoRecipients (opened firstKey) s ∧ s.Settled ∧ ¬s.Complete) ∧
    ∃ s, Steps Step twoAccounts (opened firstKey) s ∧ s.Settled ∧ ¬s.Complete ∧ s.overwritten = [⟨"a", "ord-1", backupClaim 5 0⟩] := by
  constructor
  · let order := (opened firstKey).nextOrder "a" (some (backupClaim 5 0)) (some [backupClaim 5 0, backupClaim 6 1])
    let placed := (opened firstKey).place firstKey order
    refine ⟨landFirst placed, ⟨placed, ⟨List.not_mem_nil, rfl⟩, _, ⟨_, _, rfl, rfl⟩, rfl⟩, rfl, ?_⟩
    have hclaim : backupClaim 6 1 ∈ order.allClaims := List.mem_cons_of_mem _ (List.mem_singleton_self _)
    exact not_complete_of_only (List.mem_singleton_self order) hclaim rfl (by decide)
  · let order := (opened firstKey).nextOrder "a" (some (backupClaim 5 0)) (some [backupClaim 5 0])
    let first := landFirst ((opened firstKey).place firstKey order)
    let switched := first.mount ⟨1, "0xbb"⟩
    let second := switched.place ⟨1, "0xbb"⟩ (switched.nextOrder "b" (some (backupClaim 6 0)) (some [backupClaim 6 0]))
    have hfresh : "b" ∉ switched.added.map PlacedOrder.id := by decide
    refine ⟨landFirst second, ⟨_, ⟨List.not_mem_nil, rfl⟩, first, ⟨_, _, rfl, rfl⟩, switched, rfl, second, ⟨hfresh, rfl⟩, _, ⟨_, _, rfl, rfl⟩, rfl⟩,
      rfl, ?_, by decide +kernel⟩
    have hfiles : (landFirst second).bundleFiles = Function.update (fun _ => none) (bundleFilename (seqLabel 1)) (some ⟨"b", seqLabel 1, backupClaim 6 0⟩) :=
      Function.update_idem _ _ _
    have hclaim : backupClaim 5 0 ∈ order.allClaims := List.mem_singleton_self _
    exact not_complete_of_only (List.mem_cons_self) hclaim hfiles (by decide)

end ClaimsWorkspace

end Pro

end ScatterDex
