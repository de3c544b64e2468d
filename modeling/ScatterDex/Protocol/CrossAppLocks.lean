import ScatterDex.Protocol.NoteDurability
import ScatterDex.Pro.NoteStatus

/-!
# Locks across the apps

Pro classifies a note by its own order records, and the other apps by the files that Pro wrote. Both come to the same locked and discarded notes, because an order and its file agree on what the classification reads: status, funding note, change commitment and expiry.
-/

namespace ScatterDex

open Fallible Sdk Relayer

namespace Pro

/-! ### The values in a file -/

def hexText (v : ℤ) : String := "0x" ++ String.ofList (Nat.toDigits 16 v.toNat)

theorem bigintToHex_eq_ok {v : ℤ} {s : String} : bigintToHex v = .ok s ↔ 0 ≤ v ∧ s = hexText v := by
  unfold bigintToHex
  split
  · next hneg =>
    constructor
    · intro h
      cases h
    · intro ⟨hv, _⟩
      omega
  · next hv =>
    rw [bigIntToString, if_neg hv]
    exact ⟨fun h => ⟨by omega, (Except.ok.inj h).symm⟩, fun h => congrArg Except.ok h.2.symm⟩

theorem toBigInt_hexText {v : ℤ} (hv : 0 ≤ v) : toBigInt (hexText v) = .ok v := by
  rw [hexText, toBigInt_hex, Int.toNat_of_nonneg hv]

theorem cleanHex_hexText (v : ℤ) : cleanHex (hexText v) = some v.toNat := by
  have hchars : (hexText v).toList = '0' :: 'x' :: Nat.toDigits 16 v.toNat := by
    rw [hexText, String.toList_append, String.toList_ofList, String.toList_ofList]
    rfl
  have hdigits : (Nat.toDigits 16 v.toNat).all isHexDigit = true :=
    List.all_eq_true.mpr fun c hc => isHexDigit_of_mem_toDigits (by decide) le_rfl hc
  rw [cleanHex, hchars]
  show (if _ then _ else _) = _
  rw [if_pos ⟨Nat.toDigits_ne_nil, hdigits⟩, toLower_toDigits (by decide) le_rfl, readDigits_toDigits (by decide) le_rfl]

theorem mapM_bigintToHex {v : Option ℤ} {s : Option String} :
    v.mapM bigintToHex = .ok s ↔ (∀ x, v = some x → 0 ≤ x) ∧ s = v.map hexText := by
  rw [optionMapM_eq_ok]
  constructor
  · intro h
    cases h with
    | none => exact ⟨fun x hx => absurd hx (Option.some_ne_none x).symm, rfl⟩
    | some hs =>
      obtain ⟨hx, rfl⟩ := bigintToHex_eq_ok.mp hs
      exact ⟨fun y hy => Option.some.inj hy ▸ hx, rfl⟩
  · intro ⟨hv, hs⟩
    rw [hs]
    cases v with
    | none => exact Option.Rel.none
    | some x => exact Option.Rel.some (bigintToHex_eq_ok.mpr ⟨hv x rfl, rfl⟩)

theorem mapM_toBigInt {v : Option ℤ} (hv : ∀ x, v = some x → 0 ≤ x) : (v.map hexText).mapM toBigInt = .ok v := by
  rw [optionMapM_eq_ok]
  cases v with
  | none => exact Option.Rel.none
  | some x => exact Option.Rel.some (toBigInt_hexText (hv x rfl))

/-! ### The way to a file and back -/

theorem deserializeClaim_serialize {c : ClaimFields} {w : WireClaim} (hw : serializeClaim c = .ok w) : deserializeClaim w = .ok c := by
  simp only [serializeClaim, bind_eq_ok, pure_eq_ok, bigintToHex_eq_ok] at hw
  obtain ⟨_, ⟨hsecret, rfl⟩, _, ⟨hamount, rfl⟩, _, ⟨hrelease, rfl⟩, rfl⟩ := hw
  simp only [deserializeClaim, toBigInt_hexText hsecret, toBigInt_hexText hamount, toBigInt_hexText hrelease]
  rfl

theorem mapM_deserializeClaim {cs : List ClaimFields} {ws : List WireClaim} (hws : cs.mapM serializeClaim = .ok ws) :
    ws.mapM deserializeClaim = .ok cs := by
  rw [mapM_eq_ok] at hws ⊢
  induction hws with
  | nil => exact List.Forall₂.nil
  | cons hw _ ih => exact List.Forall₂.cons (deserializeClaim_serialize hw) ih

/-- The claims of a record that was read. -/
def OrderFields.claimsList (o : OrderFields) : Option (List ClaimFields) :=
  match o.claims, o.claim with
  | some (c :: claims), _ => some (c :: claims)
  | _, some claim => some [claim]
  | _, none => none

/-- The record that is read for one that was written. -/
def OrderFields.reread (o : OrderFields) : OrderFields :=
  { o with claim := o.claim.or (o.claimsList.bind List.head?), claims := o.claimsList }

/-- What the fields of a file are that the classification reads. -/
structure Written (o : OrderFields) (w : WireOrder) : Prop where
  status : w.status = o.status
  noteId : w.noteId = o.noteId
  changeCommitment : (∀ c, o.changeCommitment = some c → 0 ≤ c) ∧ w.changeCommitmentHex = o.changeCommitment.map hexText
  expiry : (∀ e, o.expiry = some e → 0 ≤ e) ∧ w.expiryHex = o.expiry.map hexText

theorem serialize_written {o : OrderFields} {w : WireOrder} (hw : serialize o = .ok w) : Written o w := by
  simp only [serialize, bind_eq_ok, pure_eq_ok] at hw
  obtain ⟨_, _, _, _, _, _, change, hchange, expiry, hexpiry, _, _, _, _, rfl⟩ := hw
  exact ⟨rfl, rfl, mapM_bigintToHex.mp hchange, mapM_bigintToHex.mp hexpiry⟩

theorem singleClaim_serialize {o : OrderFields} {w : WireOrder} (hclaim : o.claim.mapM serializeClaim = .ok w.claim)
    (claimsList : Option (List ClaimFields)) : w.singleClaim claimsList = .ok (o.claim.or (claimsList.bind List.head?)) := by
  rw [optionMapM_eq_ok] at hclaim
  unfold WireOrder.singleClaim
  cases ho : o.claim with
  | none =>
    rw [ho] at hclaim
    cases hw : w.claim with
    | none => rfl
    | some wire =>
      rw [hw] at hclaim
      cases hclaim
  | some c =>
    rw [ho] at hclaim
    cases hw : w.claim with
    | none =>
      rw [hw] at hclaim
      cases hclaim
    | some wire =>
      rw [hw] at hclaim
      cases hclaim with
      | some hc =>
        show some <$> deserializeClaim wire = _
        rw [deserializeClaim_serialize hc]
        rfl

theorem claimsList_serialize {o : OrderFields} {w : WireOrder} (hclaim : o.claim.mapM serializeClaim = .ok w.claim)
    (hclaims : (o.claims.mapM fun claims => claims.mapM serializeClaim) = .ok w.claims) : w.claimsList = .ok o.claimsList := by
  rw [optionMapM_eq_ok] at hclaim hclaims
  obtain ⟨_, _, _, _, _, _, _, claim, claims, _, _, _, _, _, _, _, _, _, _⟩ := o
  obtain ⟨_, _, _, _, _, _, _, wclaim, wclaims, _, _, _, _, _, _, _, _, _, _⟩ := w
  have hsingle : ∀ {c : ClaimFields} {wire : WireClaim}, serializeClaim c = .ok wire →
      (fun c => some [c]) <$> deserializeClaim wire = Except.ok (some [c]) := by
    intro c wire hc
    rw [deserializeClaim_serialize hc]
    rfl
  cases hclaims with
  | none =>
    cases hclaim with
    | none => rfl
    | some hc => exact hsingle hc
  | @some cs ws hcs =>
    cases cs with
    | nil =>
      cases hcs
      cases hclaim with
      | none => rfl
      | some hc => exact hsingle hc
    | cons c cs =>
      have hread := mapM_deserializeClaim hcs
      cases ws with
      | nil => cases hread
      | cons wire ws =>
        show some <$> (wire :: ws).mapM deserializeClaim = _
        rw [hread]
        rfl

theorem deserialize_serialize {o : OrderFields} {w : WireOrder} (hw : serialize o = .ok w) : deserialize w = .ok o.reread := by
  simp only [serialize, bind_eq_ok, pure_eq_ok] at hw
  obtain ⟨claim, hclaim, claims, hclaims, nonce, hnonce, change, hchange, expiry, hexpiry, sell, hsell, buy, hbuy, hw⟩ := hw
  have hlist : w.claimsList = .ok o.claimsList := by
    apply claimsList_serialize
    · rw [← hw]
      exact hclaim
    · rw [← hw]
      exact hclaims
  obtain rfl := hw
  obtain ⟨hnonce', rfl⟩ := mapM_bigintToHex.mp hnonce
  obtain ⟨hchange', rfl⟩ := mapM_bigintToHex.mp hchange
  obtain ⟨hexpiry', rfl⟩ := mapM_bigintToHex.mp hexpiry
  obtain ⟨hsell', rfl⟩ := mapM_bigintToHex.mp hsell
  obtain ⟨hbuy', rfl⟩ := mapM_bigintToHex.mp hbuy
  simp only [deserialize, bind_eq_ok, pure_eq_ok]
  exact ⟨_, hlist, _, singleClaim_serialize hclaim _, _, mapM_toBigInt hnonce', _, mapM_toBigInt hchange', _, mapM_toBigInt hexpiry',
    _, mapM_toBigInt hsell', _, mapM_toBigInt hbuy', rfl⟩

/-! ### The classification -/

/-- An open order that has not expired. -/
def OrderFields.Pins (o : OrderFields) (nowMs : ℚ) : Prop := o.status ∈ OPEN_STATUSES ∧ o.isExpiredMatching nowMs = false

theorem isSome_setKey {κ : Type} [DecidableEq κ] {m : κ → Option OrderFields} {key : Option κ} {o : OrderFields} {k : κ} :
    (setKey m key o k).isSome ↔ (m k).isSome ∨ key = some k := by
  cases key with
  | none => simp [setKey]
  | some j =>
    by_cases hk : k = j
    · subst hk
      simp [setKey]
    · have hne : j ≠ k := Ne.symm hk
      simp [setKey, Function.update_of_ne hk, hne]

theorem isSome_setFirst {κ : Type} [DecidableEq κ] {m : κ → Option OrderFields} {key : Option κ} {o : OrderFields} {k : κ} :
    (setFirst m key o k).isSome ↔ (m k).isSome ∨ key = some k := by
  unfold setFirst
  split
  · next hin =>
    constructor
    · exact Or.inl
    · intro h
      rcases h with h | rfl
      · exact h
      · exact hin
  · exact isSome_setKey

theorem buildOrderIndex_concat (orders : List OrderFields) (o : OrderFields) (nowMs : ℚ) :
    buildOrderIndex (orders ++ [o]) nowMs = (buildOrderIndex orders nowMs).enter nowMs o := List.foldl_concat _ _ _ _

theorem exists_mem_concat {orders : List OrderFields} {o : OrderFields} {p : OrderFields → Prop} :
    (∃ x ∈ orders ++ [o], p x) ↔ (∃ x ∈ orders, p x) ∨ p o := by
  simp only [List.mem_append, List.mem_singleton, or_and_right, exists_or, exists_eq_left]

theorem buildOrderIndex_spec (orders : List OrderFields) (nowMs : ℚ) :
    (∀ id, ((buildOrderIndex orders nowMs).byNoteId id).isSome ↔ ∃ o ∈ orders, o.Pins nowMs ∧ o.noteId = some id) ∧
    (∀ c, ((buildOrderIndex orders nowMs).byChangeCommitment c).isSome ↔ ∃ o ∈ orders, o.Pins nowMs ∧ o.changeCommitment = some c) ∧
    ∀ c, ((buildOrderIndex orders nowMs).expiredMatchingByChangeCommitment c).isSome ↔
      ∃ o ∈ orders, o.isExpiredMatching nowMs = true ∧ o.changeCommitment = some c := by
  induction orders using List.reverseRecOn with
  | nil => simp [buildOrderIndex, OrderIndex.empty]
  | append_singleton orders o ih =>
    obtain ⟨hnote, hchange, hexpired⟩ := ih
    rw [buildOrderIndex_concat]
    simp only [exists_mem_concat, ← hnote, ← hchange, ← hexpired]
    unfold OrderIndex.enter
    by_cases hopen : o.status ∉ OPEN_STATUSES
    · have hpins : ¬o.Pins nowMs := fun h => hopen h.1
      have hunexpired : o.isExpiredMatching nowMs ≠ true := by
        intro h
        have hmatching := (of_decide_eq_true h).1
        exact hopen (hmatching ▸ List.mem_cons_self)
      rw [if_pos hopen]
      simp [hpins, hunexpired]
    · rw [if_neg hopen]
      by_cases hold : o.isExpiredMatching nowMs = true
      · have hpins : ¬o.Pins nowMs := fun h => absurd (hold.symm.trans h.2) (by decide)
        rw [if_pos hold]
        simp [hpins, hold, isSome_setKey]
      · have hpins : o.Pins nowMs := ⟨not_not.mp hopen, Bool.not_eq_true _ ▸ hold⟩
        rw [if_neg hold]
        simp [hpins, hold, isSome_setFirst]

theorem status_eq_locked {note : VaultNote} {orders : List OrderFields} {nowMs : ℚ} (hleaf : 0 ≤ note.leafIndex) :
    (deriveNoteStatus note orders nowMs none).status = .locked ↔ ∃ o ∈ orders, o.Pins nowMs ∧ o.noteId = some note.id := by
  rw [← (buildOrderIndex_spec orders nowMs).1 note.id, deriveNoteStatus, classifyAgainstIndex, if_neg (by omega)]
  cases (buildOrderIndex orders nowMs).byNoteId note.id with
  | some o => simp
  | none =>
    simp only [Option.any_none, Bool.false_eq_true, if_false]
    split <;> simp

theorem status_eq_discarded {note : VaultNote} {orders : List OrderFields} {nowMs : ℚ} (hleaf : note.leafIndex < 0) :
    (deriveNoteStatus note orders nowMs none).status = .discarded ↔
      (¬∃ o ∈ orders, o.Pins nowMs ∧ o.changeCommitment = some (note.commitment : ℤ)) ∧
        ∃ o ∈ orders, o.isExpiredMatching nowMs = true ∧ o.changeCommitment = some (note.commitment : ℤ) := by
  obtain ⟨-, hchange, hexpired⟩ := buildOrderIndex_spec orders nowMs
  rw [← hchange, ← hexpired, deriveNoteStatus, classifyAgainstIndex, if_pos hleaf]
  cases (buildOrderIndex orders nowMs).byChangeCommitment (note.commitment : ℤ) with
  | some o => simp
  | none =>
    cases (buildOrderIndex orders nowMs).expiredMatchingByChangeCommitment (note.commitment : ℤ) with
    | some o => simp
    | none => simp

/-! ### A file as the other apps read it -/

theorem text_eq_matching {status : OrderStatus} : status.text = "matching" ↔ status = .matching := by
  cases status <;> decide

theorem text_mem_open {status : OrderStatus} : status.text ∈ OPEN_ORDER_STATUSES ↔ status ∈ OPEN_STATUSES := by
  cases status <;> decide

/-- Both apps see a deadline pass at the same time. -/
theorem isOrderExpiredHex_hexText {o : OrderFields} (hexpiry : ∀ e, o.expiry = some e → 0 ≤ e) (nowMs : ℚ) :
    isOrderExpiredHex (o.expiry.map hexText) nowMs = o.isOrderExpired nowMs := by
  unfold isOrderExpiredHex OrderFields.isOrderExpired
  cases ho : o.expiry with
  | none => rfl
  | some e =>
    have he : ((e.toNat : ℕ) : ℤ) = e := Int.toNat_of_nonneg (hexpiry e ho)
    simp only [Option.map_some, Option.bind_some, cleanHex_hexText, Option.any_some, he]
    unfold JsNumber.ofInt
    cases toDouble e.natAbs with
    | some m => simp [JsNumber.isFinite]
    | none =>
      have hneg : decide (e < 0) = false := decide_eq_false (by have := hexpiry e ho; omega)
      simp [JsNumber.isFinite, JsNumber.thousandfold, JsNumber.le, hneg]

namespace Written

variable {o : OrderFields} {w : WireOrder}

theorem expiredMatching (hw : Written o w) (nowMs : ℚ) : w.row.expiredMatching nowMs = o.isExpiredMatching nowMs := by
  have hexpired : isOrderExpiredHex w.row.expiryHex nowMs = o.isOrderExpired nowMs := by
    show isOrderExpiredHex w.expiryHex nowMs = _
    rw [hw.expiry.2]
    exact isOrderExpiredHex_hexText hw.expiry.1 nowMs
  have hstatus : w.row.status = some "matching" ↔ o.status = .matching := by
    show some w.status.text = some "matching" ↔ _
    rw [Option.some_inj, text_eq_matching, hw.status]
  unfold OrderLockRow.expiredMatching OrderFields.isExpiredMatching
  rw [hexpired]
  exact decide_eq_decide.mpr (and_congr_left fun _ => hstatus)

theorem locks (hw : Written o w) (nowMs : ℚ) (hnote : o.noteId ≠ some "") {id : String} (hid : o.noteId = some id) :
    w.row.orderRowLocksNote nowMs = true ↔ o.Pins nowMs := by
  have hnamed : ¬(w.row.noteId = none ∨ w.row.noteId = some "") := by
    show ¬(w.noteId = none ∨ w.noteId = some "")
    rw [hw.noteId]
    intro h
    rcases h with h | h
    · exact absurd (hid.symm.trans h) (Option.some_ne_none _)
    · exact hnote h
  have hopen : w.row.status.any (· ∈ OPEN_ORDER_STATUSES) = decide (o.status ∈ OPEN_STATUSES) := by
    show decide (w.status.text ∈ OPEN_ORDER_STATUSES) = _
    rw [hw.status]
    exact decide_eq_decide.mpr text_mem_open
  unfold OrderLockRow.orderRowLocksNote OrderFields.Pins
  rw [if_neg hnamed, hopen, hw.expiredMatching]
  by_cases hstatus : o.status ∈ OPEN_STATUSES
  · cases o.isExpiredMatching nowMs <;> simp [hstatus]
  · simp [hstatus]

theorem noteIdForCommitmentHex (hw : Written o w) {id : String} :
    Sdk.noteIdForCommitmentHex w.row.changeCommitmentHex = some id ↔
      ∃ c : ℕ, o.changeCommitment = some (c : ℤ) ∧ id = String.ofList (idForCommitment c) := by
  have hchange : w.row.changeCommitmentHex = o.changeCommitment.map hexText := hw.changeCommitment.2
  unfold Sdk.noteIdForCommitmentHex
  rw [hchange]
  cases ho : o.changeCommitment with
  | none => simp
  | some c =>
    have hc := hw.changeCommitment.1 c ho
    simp only [Option.map_some, Option.bind_some, cleanHex_hexText, Option.some_inj]
    constructor
    · intro h
      exact ⟨c.toNat, (Int.toNat_of_nonneg hc).symm, h.symm⟩
    · intro ⟨n, hn, hid⟩
      rw [hid, hn, Int.toNat_natCast]

end Written

/-! ### The folder -/

/-- The form of the ids that `newId` makes, a UUID or two numbers to the base 36. -/
def IsNewId (id : String) : Prop := id.toList ≠ [] ∧ ∀ c ∈ id.toList, isSlugChar c = true ∨ c = '-'

theorem isDot_of_isNewId {id : String} (hid : IsNewId id) : id.toList.all isDot = true := by
  rw [List.all_eq_true]
  intro c hc
  rcases hid.2 c hc with hslug | rfl
  · have hlt : 45 < c.toNat ∧ c.toNat < 123 := by
      simp only [isSlugChar, Bool.decide_or, Bool.decide_and, Bool.or_eq_true, Bool.and_eq_true, decide_eq_true_eq, Char.le_def,
        UInt32.le_iff_toNat_le] at hslug
      change 45 < c.val.toNat ∧ c.val.toNat < 123
      rcases hslug with ⟨hlow, hhigh⟩ | ⟨hlow, hhigh⟩
      · exact ⟨Nat.lt_of_lt_of_le (by decide) hlow, Nat.lt_of_le_of_lt hhigh (by decide)⟩
      · exact ⟨Nat.lt_of_lt_of_le (by decide) hlow, Nat.lt_of_le_of_lt hhigh (by decide)⟩
    have hn : c ≠ '\n' := by
      rintro rfl
      exact absurd hlt.1 (by decide)
    have hr : c ≠ '\r' := by
      rintro rfl
      exact absurd hlt.1 (by decide)
    exact decide_eq_true ⟨hn, hr, by omega, by omega⟩
  · decide

theorem orderFileApp_own {chainId : ℕ} {accountKey id : String} (hid : IsNewId id) :
    orderFileApp chainId (String.ofList (toLowerCase accountKey)) (orderFileName chainId accountKey id) = some "pro" := by
  generalize hacct : String.ofList (toLowerCase accountKey) = acct
  let middle := ("-order-" ++ toString chainId ++ "-" ++ acct ++ "-").toList
  have hname : (orderFileName chainId accountKey id).toList = "zkscatter-".toList ++ ("pro".toList ++ (middle ++ (id.toList ++ ".json".toList))) := by
    have hstart : "zkscatter-pro-order-".toList = "zkscatter-".toList ++ ("pro".toList ++ "-order-".toList) := by decide
    simp only [orderFileName, fileFor, hacct, middle, String.toList_append, List.append_assoc, hstart]
  let rest := middle ++ (id.toList ++ ".json".toList)
  have hchars : (orderFileName chainId accountKey id).toList.drop "zkscatter-".length = "pro".toList ++ rest := by
    rw [hname]
    exact List.drop_left' rfl
  have hrest : ∃ t, rest = '-' :: t := by
    refine ⟨("order-".toList ++ ((toString chainId).toList ++ ("-".toList ++ (acct.toList ++ "-".toList)))) ++ (id.toList ++ ".json".toList), ?_⟩
    have hdash : "-order-".toList = '-' :: "order-".toList := by decide
    simp only [rest, middle, String.toList_append, List.append_assoc, hdash, List.cons_append]
  obtain ⟨t, ht⟩ := hrest
  have hslug : ∀ c ∈ "pro".toList, isSlugChar c = true := List.all_eq_true.mp (by decide : "pro".toList.all isSlugChar = true)
  have htake : ("pro".toList ++ rest).takeWhile isSlugChar = "pro".toList := by
    rw [List.takeWhile_append_of_pos hslug, ht, List.takeWhile_cons_of_neg (by decide), List.append_nil]
  have hdropWhile : ("pro".toList ++ rest).dropWhile isSlugChar = rest := by
    rw [List.dropWhile_append_of_pos hslug, ht, List.dropWhile_cons_of_neg (by decide)]
  have hbody : rest.drop middle.length = id.toList ++ ".json".toList := List.drop_left
  have htaken : (id.toList ++ ".json".toList).take ((id.toList ++ ".json".toList).length - ".json".length) = id.toList := by
    rw [List.length_append]
    exact List.take_left' (Nat.add_sub_cancel _ _).symm
  unfold orderFileApp
  dsimp only
  rw [hchars, htake, hdropWhile]
  show (if _ ∧ _ ∧ middle <+: rest ∧ ".json".toList <:+ rest.drop middle.length ∧
    (rest.drop middle.length).take ((rest.drop middle.length).length - ".json".length) ≠ [] ∧
    ((rest.drop middle.length).take ((rest.drop middle.length).length - ".json".length)).all isDot = true then _ else _) = _
  rw [hbody, htaken, if_pos]
  · rfl
  · have hstarts : "zkscatter-".toList <+: (orderFileName chainId accountKey id).toList := by
      rw [hname]
      exact List.prefix_append _ _
    have happ : "pro".toList ≠ [] := by decide
    have hmiddle : middle <+: rest := List.prefix_append middle _
    exact ⟨hstarts, happ, hmiddle, List.suffix_append _ _, hid.1, isDot_of_isNewId hid⟩

theorem orderFileName_injective (chainId : ℕ) (accountKey : String) : Function.Injective (orderFileName chainId accountKey) :=
  fileFor_injective _

theorem mem_putOrders {chainId : ℕ} {accountKey : String} {orders : List OrderFields} {folder : List FolderRow}
    (hnodup : (orders.map OrderFields.id).Nodup) (hwritten : ∀ o ∈ orders, ∃ w, serialize o = .ok w) {file : FolderRow} :
    file ∈ orders.foldl (putOrder chainId accountKey) folder ↔
      (file ∈ folder ∧ ∀ o ∈ orders, file.1 ≠ orderFileName chainId accountKey o.id) ∨
        ∃ o ∈ orders, ∃ w, serialize o = .ok w ∧ file = (orderFileName chainId accountKey o.id, some w.row) := by
  induction orders generalizing folder with
  | nil => simp
  | cons o orders ih =>
    obtain ⟨hfresh, hnodup⟩ := List.nodup_cons.mp hnodup
    obtain ⟨⟨w, hw⟩, hwritten⟩ := List.forall_mem_cons.mp hwritten
    have hput : putOrder chainId accountKey folder o =
        (folder.filter fun file => file.1 ≠ orderFileName chainId accountKey o.id) ++ [(orderFileName chainId accountKey o.id, some w.row)] := by
      unfold putOrder
      rw [hw]
    have hkept : ∀ o' ∈ orders, orderFileName chainId accountKey o.id ≠ orderFileName chainId accountKey o'.id := by
      intro o' ho' heq
      exact hfresh (orderFileName_injective chainId accountKey heq ▸ List.mem_map_of_mem ho')
    rw [List.foldl_cons, ih hnodup hwritten, hput, List.mem_append, List.mem_filter, List.mem_singleton, List.forall_mem_cons, decide_eq_true_eq]
    constructor
    · intro h
      rcases h with ⟨⟨hfile, hname⟩ | rfl, hnames⟩ | ⟨o', ho', hrow⟩
      · exact Or.inl ⟨hfile, hname, hnames⟩
      · exact Or.inr ⟨o, List.mem_cons_self, w, hw, rfl⟩
      · exact Or.inr ⟨o', List.mem_cons_of_mem _ ho', hrow⟩
    · intro h
      rcases h with ⟨hfile, hname, hnames⟩ | ⟨o', ho', w', hw', rfl⟩
      · exact Or.inl ⟨Or.inl ⟨hfile, hname⟩, hnames⟩
      · rcases List.mem_cons.mp ho' with rfl | ho'
        · obtain rfl : w' = w := Except.ok.inj (hw'.symm.trans hw)
          exact Or.inl ⟨Or.inr rfl, hkept⟩
        · exact Or.inr ⟨o', ho', w', hw', rfl⟩

/-! ### The two apps agree -/

section Folder

variable {chainId : ℕ} {accountKey : String} {excludeApp : Option String} {nowMs : ℚ} {base : List FolderRow} {orders : List OrderFields}
  (hids : ∀ o ∈ orders, IsNewId o.id) (hnodup : (orders.map OrderFields.id).Nodup) (hwritten : ∀ o ∈ orders, ∃ w, serialize o = .ok w)
  (hbase : ∀ file ∈ base, orderFileApp chainId (String.ofList (toLowerCase accountKey)) file.1 = none)
  (hexclude : ∀ app, excludeApp = some app → (String.ofList (trim app)).toLower ≠ "pro")

include hids hnodup hwritten hbase hexclude

theorem mem_rows {row : OrderLockRow} :
    row ∈ orderRows chainId accountKey excludeApp (some (orders.foldl (putOrder chainId accountKey) base)) ↔
      ∃ o ∈ orders, ∃ w, serialize o = .ok w ∧ row = w.row := by
  have hother : some "pro" ≠ excludeApp.map fun app => (String.ofList (trim app)).toLower := by
    intro heq
    obtain ⟨app, happ, hpro⟩ := Option.map_eq_some_iff.mp heq.symm
    exact hexclude app happ hpro
  unfold orderRows
  simp only [Option.getD_some, List.mem_filterMap, List.mem_filter, mem_putOrders hnodup hwritten]
  constructor
  · intro ⟨file, ⟨hfile, hmatch⟩, hrow⟩
    rcases hfile with ⟨hold, -⟩ | ⟨o, ho, w, hw, rfl⟩
    · rw [hbase file hold] at hmatch
      exact absurd hmatch Bool.false_ne_true
    · exact ⟨o, ho, w, hw, (Option.some.inj hrow).symm⟩
  · intro ⟨o, ho, w, hw, hrow⟩
    refine ⟨(orderFileName chainId accountKey o.id, some w.row), ⟨Or.inr ⟨o, ho, w, hw, rfl⟩, ?_⟩, by rw [hrow]⟩
    rw [orderFileApp_own (hids o ho)]
    exact decide_eq_true hother

theorem mem_lockedNoteIds (hnoteIds : ∀ o ∈ orders, o.noteId ≠ some "") {id : String} :
    id ∈ (loadCrossAppNoteStates chainId accountKey excludeApp nowMs (some (orders.foldl (putOrder chainId accountKey) base))).lockedNoteIds ↔
      ∃ o ∈ orders, o.Pins nowMs ∧ o.noteId = some id := by
  unfold loadCrossAppNoteStates
  simp only [List.mem_filterMap, List.mem_filter, mem_rows hids hnodup hwritten hbase hexclude]
  constructor
  · intro ⟨row, ⟨⟨o, ho, w, hw, hrow⟩, hlocks⟩, hid⟩
    have hwrote := serialize_written hw
    rw [hrow] at hlocks hid
    have hnote : o.noteId = some id := hwrote.noteId ▸ hid
    exact ⟨o, ho, (hwrote.locks nowMs (hnoteIds o ho) hnote).mp hlocks, hnote⟩
  · intro ⟨o, ho, hpins, hnote⟩
    obtain ⟨w, hw⟩ := hwritten o ho
    have hwrote := serialize_written hw
    exact ⟨w.row, ⟨⟨o, ho, w, hw, rfl⟩, (hwrote.locks nowMs (hnoteIds o ho) hnote).mpr hpins⟩, hwrote.noteId.trans hnote⟩

theorem mem_discardedNoteIds {id : String} :
    id ∈ (loadCrossAppNoteStates chainId accountKey excludeApp nowMs (some (orders.foldl (putOrder chainId accountKey) base))).discardedNoteIds ↔
      ∃ o ∈ orders, o.isExpiredMatching nowMs = true ∧
        ∃ c : ℕ, o.changeCommitment = some (c : ℤ) ∧ id = String.ofList (idForCommitment c) := by
  unfold loadCrossAppNoteStates
  simp only [List.mem_filterMap, List.mem_filter, mem_rows hids hnodup hwritten hbase hexclude]
  constructor
  · intro ⟨row, ⟨⟨o, ho, w, hw, hrow⟩, hexpired⟩, hid⟩
    have hwrote := serialize_written hw
    rw [hrow] at hexpired hid
    exact ⟨o, ho, (hwrote.expiredMatching nowMs).symm.trans hexpired, hwrote.noteIdForCommitmentHex.mp hid⟩
  · intro ⟨o, ho, hexpired, hchange⟩
    obtain ⟨w, hw⟩ := hwritten o ho
    have hwrote := serialize_written hw
    exact ⟨w.row, ⟨⟨o, ho, w, hw, rfl⟩, (hwrote.expiredMatching nowMs).trans hexpired⟩, hwrote.noteIdForCommitmentHex.mpr hchange⟩

end Folder

theorem eq_of_changeCommitment {orders : List OrderFields} (hchange : (orders.filterMap OrderFields.changeCommitment).Nodup)
    {o o' : OrderFields} (ho : o ∈ orders) (ho' : o' ∈ orders) {c : ℤ} (hc : o.changeCommitment = some c) (hc' : o'.changeCommitment = some c) :
    o = o' := by
  induction orders with
  | nil => cases ho
  | cons x orders ih =>
    have hlater : ∀ {y : OrderFields}, y ∈ orders → y.changeCommitment = some c → x.changeCommitment ≠ some c := by
      intro y hy hyc hxc
      rw [List.filterMap_cons_some hxc] at hchange
      exact (List.nodup_cons.mp hchange).1 (List.mem_filterMap.mpr ⟨y, hy, hyc⟩)
    have hrest : (orders.filterMap OrderFields.changeCommitment).Nodup := by
      cases hx : x.changeCommitment with
      | none => rwa [List.filterMap_cons_none hx] at hchange
      | some d =>
        rw [List.filterMap_cons_some hx] at hchange
        exact (List.nodup_cons.mp hchange).2
    rcases List.mem_cons.mp ho with hfirst | hin
    · rcases List.mem_cons.mp ho' with hfirst' | hin'
      · exact hfirst.trans hfirst'.symm
      · exact absurd (hfirst ▸ hc) (hlater hin' hc')
    · rcases List.mem_cons.mp ho' with hfirst' | hin'
      · exact absurd (hfirst' ▸ hc') (hlater hin hc)
      · exact ih hrest hin hin'

/-! ### The classification of what is read back -/

def OrderIndex.map (f : OrderFields → OrderFields) (index : OrderIndex) : OrderIndex where
  byNoteId id := (index.byNoteId id).map f
  byChangeCommitment c := (index.byChangeCommitment c).map f
  expiredMatchingByChangeCommitment c := (index.expiredMatchingByChangeCommitment c).map f
  recoverableNoteIds := index.recoverableNoteIds

theorem setKey_map {κ : Type} [DecidableEq κ] (f : OrderFields → OrderFields) (m : κ → Option OrderFields) (key : Option κ) (o : OrderFields) :
    setKey (fun k => (m k).map f) key (f o) = fun k => (setKey m key o k).map f := by
  cases key with
  | none => rfl
  | some j =>
    funext k
    by_cases hk : k = j
    · subst hk
      simp [setKey]
    · simp [setKey, Function.update_of_ne hk]

theorem setFirst_map {κ : Type} [DecidableEq κ] (f : OrderFields → OrderFields) (m : κ → Option OrderFields) (key : Option κ) (o : OrderFields) :
    setFirst (fun k => (m k).map f) key (f o) = fun k => (setFirst m key o k).map f := by
  have hsome : (key.bind fun k => (m k).map f).isSome = (key.bind m).isSome := by
    cases key <;> simp
  unfold setFirst
  rw [hsome]
  split
  · rfl
  · exact setKey_map f m key o

theorem enter_reread (nowMs : ℚ) (index : OrderIndex) (o : OrderFields) :
    (index.map OrderFields.reread).enter nowMs o.reread = (index.enter nowMs o).map OrderFields.reread := by
  have hexpired : o.reread.isExpiredMatching nowMs = o.isExpiredMatching nowMs := rfl
  unfold OrderIndex.enter
  rw [hexpired]
  show (if o.status ∉ OPEN_STATUSES then _ else _) = _
  split
  · rfl
  · split
    · show OrderIndex.mk _ _ (setKey _ o.changeCommitment o.reread) _ = _
      rw [OrderIndex.map, setKey_map]
      rfl
    · show OrderIndex.mk (setFirst _ o.noteId o.reread) (setFirst _ o.changeCommitment o.reread) _ _ = _
      rw [OrderIndex.map, setFirst_map, setFirst_map]
      rfl

theorem buildOrderIndex_reread (orders : List OrderFields) (nowMs : ℚ) :
    buildOrderIndex (orders.map OrderFields.reread) nowMs = (buildOrderIndex orders nowMs).map OrderFields.reread := by
  induction orders using List.reverseRecOn with
  | nil => rfl
  | append_singleton orders o ih =>
    rw [List.map_append, List.map_singleton, buildOrderIndex_concat, ih, enter_reread, buildOrderIndex_concat]

theorem status_reread (note : VaultNote) (orders : List OrderFields) (nowMs : ℚ) (crossApp : Option CrossAppNoteStates) :
    (deriveNoteStatus note (orders.map OrderFields.reread) nowMs crossApp).status = (deriveNoteStatus note orders nowMs crossApp).status := by
  unfold deriveNoteStatus
  rw [buildOrderIndex_reread]
  unfold classifyAgainstIndex OrderIndex.map
  dsimp only
  split
  · cases (buildOrderIndex orders nowMs).byChangeCommitment note.commitment with
    | some o => rfl
    | none => cases (buildOrderIndex orders nowMs).expiredMatchingByChangeCommitment note.commitment <;> rfl
  · cases (buildOrderIndex orders nowMs).byNoteId note.id <;> rfl

/-- **The lock classification across apps.** For the orders of a chain and an account and the files that Pro wrote for them, the other apps come to the same locked and discarded notes as Pro does, and the records that are read back are classified as those that were written. -/
theorem cross_app_locks_agree {chainId : ℕ} {accountKey : String} {excludeApp : Option String} {nowMs : ℚ} {base : List FolderRow}
    {orders : List OrderFields} {note : VaultNote} (hids : ∀ o ∈ orders, IsNewId o.id) (hnodup : (orders.map OrderFields.id).Nodup)
    (hwritten : ∀ o ∈ orders, ∃ w, serialize o = .ok w)
    (hbase : ∀ file ∈ base, orderFileApp chainId (String.ofList (toLowerCase accountKey)) file.1 = none)
    (hexclude : ∀ app, excludeApp = some app → (String.ofList (trim app)).toLower ≠ "pro")
    (hnoteIds : ∀ o ∈ orders, o.noteId ≠ some "") (hchange : (orders.filterMap OrderFields.changeCommitment).Nodup)
    (hid : note.id = String.ofList (idForCommitment note.commitment)) :
    let states := loadCrossAppNoteStates chainId accountKey excludeApp nowMs (some (orders.foldl (putOrder chainId accountKey) base))
    (0 ≤ note.leafIndex → (note.id ∈ states.lockedNoteIds ↔ (deriveNoteStatus note orders nowMs none).status = .locked)) ∧
    (note.leafIndex < 0 → (note.id ∈ states.discardedNoteIds ↔ (deriveNoteStatus note orders nowMs none).status = .discarded)) ∧
    ∃ orders', orders.mapM (fun o => serialize o >>= deserialize) = .ok orders' ∧ ∀ note' nowMs' crossApp,
      (deriveNoteStatus note' orders' nowMs' crossApp).status = (deriveNoteStatus note' orders nowMs' crossApp).status := by
  refine ⟨fun hleaf => ?_, fun hleaf => ?_, orders.map OrderFields.reread, ?_, fun note' nowMs' crossApp => status_reread note' orders nowMs' crossApp⟩
  · rw [mem_lockedNoteIds hids hnodup hwritten hbase hexclude hnoteIds, status_eq_locked hleaf]
  · rw [mem_discardedNoteIds hids hnodup hwritten hbase hexclude, status_eq_discarded hleaf, hid]
    constructor
    · intro ⟨o, ho, hexpired, c, hc, heq⟩
      obtain rfl : note.commitment = c := idForCommitment_inj (String.ofList_injective heq)
      refine ⟨fun ⟨o', ho', hpins, hc'⟩ => ?_, o, ho, hexpired, hc⟩
      obtain rfl := eq_of_changeCommitment hchange ho ho' hc hc'
      exact absurd (hexpired.symm.trans hpins.2) (by decide)
    · intro ⟨_, o, ho, hexpired, hc⟩
      exact ⟨o, ho, hexpired, note.commitment, hc, rfl⟩
  · rw [mapM_eq_ok, List.forall₂_map_right_iff, List.forall₂_same]
    intro o ho
    obtain ⟨w, hw⟩ := hwritten o ho
    exact bind_eq_ok.mpr ⟨w, hw, deserialize_serialize hw⟩

def lockOrder (id : String) (status : OrderStatus) (changeCommitment : Option ℤ) : OrderFields where
  id
  label := "ord-1"
  sell := true
  pair := "ETH/USDC"
  price := "1"
  size := "1"
  status
  claim := none
  claims := none
  claimedLeafIndexes := none
  nonce := none
  noteId := some "c-5"
  changeCommitment
  expiry := some 100
  relayer := none
  createdAt := 0
  settleTxHash := none
  signedSellWei := none
  signedBuyWei := none

/-- Two orders of one note, one of which expired before it was matched. -/
def lockOrders : List OrderFields := [lockOrder "a1" .matching (some 7), lockOrder "b2" .claimable none]

theorem cross_app_locks_agree_shared :
    "c-5" ∈ (loadCrossAppNoteStates 1 "0xAA" (some "pay") 200000 (some (lockOrders.foldl (putOrder 1 "0xAA") []))).lockedNoteIds := by
  have hslug : ∀ id : String, id.toList ≠ [] ∧ id.toList.all isSlugChar = true → IsNewId id :=
    fun id hid => ⟨hid.1, fun c hc => Or.inl (List.all_eq_true.mp hid.2 c hc)⟩
  have hids : ∀ o ∈ lockOrders, IsNewId o.id := by
    intro o ho
    rcases List.mem_cons.mp ho with rfl | ho
    · exact hslug _ (by decide)
    · obtain rfl := List.mem_singleton.mp ho
      exact hslug _ (by decide)
  have hwritten : ∀ o ∈ lockOrders, ∃ w, serialize o = .ok w := by
    intro o ho
    rcases List.mem_cons.mp ho with rfl | ho
    · exact ⟨_, rfl⟩
    · obtain rfl := List.mem_singleton.mp ho
      exact ⟨_, rfl⟩
  have hexclude : ∀ app, some "pay" = some app → (String.ofList (trim app)).toLower ≠ "pro" := by
    intro app happ
    rw [← Option.some.inj happ]
    decide +kernel
  let note : VaultNote := ⟨"c-5", 5, 0⟩
  have hagree := @cross_app_locks_agree 1 "0xAA" (some "pay") 200000 [] lockOrders note hids (by decide) hwritten
    (fun _ hfile => absurd hfile List.not_mem_nil) hexclude (by decide) (by decide) (by decide)
  exact (hagree.1 le_rfl).mpr (by decide +kernel)

end Pro

end ScatterDex
