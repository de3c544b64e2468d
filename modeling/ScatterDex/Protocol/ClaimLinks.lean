import ScatterDex.Sdk.ClaimInbox

/-!
# Claim links and the inbox

A package goes through its link and comes out as it was. A string that is taken for a link may hold anything, and what `isClaimPackage` lets through is what the inbox has to live with.
-/

namespace ScatterDex

namespace Protocol

open Sdk Json Program Fallible

/-- The value has the type `ClaimPackage`. -/
structure HasClaimPackageType (v : Json JsonNumber) : Prop where
  version : field v "version" = some (.number (.integer 1))
  numbers : ∀ name ∈ ["chainId", "tokenDecimals"], ∃ x, field v name = some (.number x)
  strings : ∀ name ∈ ["settlementAddress", "claimsRoot", "recipient", "token", "tokenSymbol", "amount", "releaseTime", "secret"],
    ∃ s, field v name = some (.string s)
  optional : ∀ name ∈ ["senderLabel", "runLabel", "relayerUrl", "ephemeralPubKey"], ∀ w, field v name = some w → ∃ s, w = .string s
  path : ∃ pathElements pathIndices leafIndex, field v "pathElements" = some (.array pathElements) ∧ field v "pathIndices" = some (.array pathIndices) ∧
    field v "leafIndex" = some (.number (.integer leafIndex)) ∧ (∀ e ∈ pathElements, ∃ s, e = .string s) ∧ (∀ i ∈ pathIndices, ∃ x, i = .number x) ∧
    pathIndices.length = pathElements.length ∧ 0 ≤ leafIndex ∧ leafIndex < 2 ^ pathElements.length

/-- `senderLabel` and `runLabel` are strings, where the value has them. -/
def LabelsAreStrings (v : Json JsonNumber) : Prop := ∀ name ∈ ["senderLabel", "runLabel"], ∀ w, field v name = some w → ∃ s, w = .string s

theorem hasClaimPackageType_iff {newURL : List CodeUnit → Option (String × String)} {v : Json JsonNumber} (hv : isClaimPackage newURL v = true) :
    HasClaimPackageType v ↔ LabelsAreStrings v := by
  obtain ⟨hversion, hchain, hsettlement, hroot, hrecipient, htoken, hsymbol, hdecimals, hamount, hrelease, hsecret, hpath, hrelayer, hephemeral⟩ :=
    of_decide_eq_true hv
  have hoptional : ∀ {p : List CodeUnit → Bool} {name : String}, (field v name).isNone = true ∨ isString p (field v name) = true →
      ∀ w, field v name = some w → ∃ s, w = .string s := by
    intro p name hname w hw
    rcases hname with hnone | hstring
    · rw [hw] at hnone
      exact absurd hnone (by simp)
    · obtain ⟨s, hs⟩ := exists_of_isString hstring
      exact ⟨s, Option.some.inj (hw.symm.trans hs)⟩
  constructor
  · intro htype name hname
    apply htype.optional name
    simp only [List.mem_cons, List.not_mem_nil, or_false] at hname ⊢
    exact hname.elim Or.inl fun h => Or.inr (Or.inl h)
  · intro hlabels
    refine ⟨?_, ?_, ?_, ?_, exists_path_of_hasPath hpath⟩
    · obtain ⟨n, hn, hone⟩ := exists_of_isInteger hversion
      rw [hn, of_decide_eq_true hone]
    · have hnumber : ∀ {name : String}, isInteger (fun _ => true) (field v name) = true → ∃ x, field v name = some (.number x) := by
        intro name hname
        obtain ⟨n, hn, -⟩ := exists_of_isInteger hname
        exact ⟨_, hn⟩
      simp only [List.forall_mem_cons]
      exact ⟨hnumber hchain, hnumber hdecimals, fun _ h => absurd h List.not_mem_nil⟩
    · simp only [List.forall_mem_cons]
      exact ⟨exists_of_isString hsettlement, exists_of_isString hroot, exists_of_isString hrecipient, exists_of_isString htoken,
        exists_of_isString hsymbol, exists_of_isString hamount, exists_of_isString hrelease, exists_of_isString hsecret,
        fun _ h => absurd h List.not_mem_nil⟩
    · simp only [List.forall_mem_cons]
      exact ⟨hlabels _ (by decide), hlabels _ (by decide), hoptional hrelayer, hoptional hephemeral, fun _ h => absurd h List.not_mem_nil⟩

/-! ### What a string brings into the inbox -/

/-- The JSON value in a string. -/
def payload (s : List CodeUnit) : Option (Json JsonNumber) := (base64UrlDecode s).bind fun bytes => parse nearest (Utf8.decode bytes)

theorem decodeClaimPackage_eq_ok {newURL : List CodeUnit → Option (String × String)} {s : List CodeUnit} {v : Json JsonNumber} :
    decodeClaimPackage newURL s = .ok v ↔ payload s = some v ∧ isClaimPackage newURL v = true := by
  unfold decodeClaimPackage payload
  cases base64UrlDecode s with
  | none => simp
  | some bytes =>
    dsimp only [Option.bind_some]
    cases parse nearest (Utf8.decode bytes) with
    | none => simp
    | some parsed =>
      dsimp only
      split
      · next haccepted =>
        constructor
        · intro h
          rw [← Except.ok.inj h]
          exact ⟨rfl, haccepted⟩
        · intro ⟨h, _⟩
          rw [Option.some.inj h]
      · next hrefused =>
        constructor
        · intro h
          exact absurd h (by simp)
        · intro ⟨h, hv⟩
          rw [← Option.some.inj h] at hv
          exact absurd hv hrefused

/-- The errors of `decodeClaimPackage` -/
def decodeErrors : List String :=
  ["decodeClaimPackage: malformed base64url payload", "decodeClaimPackage: payload is not valid JSON",
    "decodeClaimPackage: payload does not match ClaimPackage v1 shape"]

/-- An inbox that fell into groups still does when the package was added to it, in whatever order it is shown. -/
def KeepsGroups (newURL : List CodeUnit → Option (String × String)) (rawInput : List CodeUnit) (pkg : Json JsonNumber) : Prop :=
  ∀ (namespaced : Bool) (files : InboxFiles) (entries : List ClaimInboxEntry) (id : String) (now : ℕ),
    inbox ⟨newURL, namespaced⟩ files = .ok entries → (∃ groups, groupClaimInbox entries = .ok groups) →
    ∃ added files' entries', exec inboxHandle (addClaimInboxEntry ⟨newURL, namespaced⟩ id now rawInput pkg) files = (.ok added, files') ∧
      inbox ⟨newURL, namespaced⟩ files' = .ok entries' ∧ ∀ shown, shown.Perm entries' → ∃ groups, groupClaimInbox shown = .ok groups

/-- A string is refused with an error of its own, or gives a package of the type, which the inbox can take. -/
def SoundLink (newURL : List CodeUnit → Option (String × String)) (s : List CodeUnit) : Prop :=
  match decodeClaimPackage newURL s with
  | .error message => message ∈ decodeErrors
  | .ok pkg => HasClaimPackageType pkg ∧ KeepsGroups newURL s pkg

theorem mem_decodeErrors {newURL : List CodeUnit → Option (String × String)} {s : List CodeUnit} {message : String}
    (h : decodeClaimPackage newURL s = .error message) : message ∈ decodeErrors := by
  unfold decodeClaimPackage at h
  split at h
  · rw [← Except.error.inj h]
    decide
  split at h
  · rw [← Except.error.inj h]
    decide
  split at h
  · exact absurd h (by simp)
  · rw [← Except.error.inj h]
    decide

/-! ### The inbox after a package was added -/

theorem groupLabel_of_type {pkg : Json JsonNumber} (hlabels : LabelsAreStrings pkg) : ∃ label, groupLabel pkg = .ok label := by
  unfold groupLabel
  cases hfield : field pkg "runLabel" with
  | none => exact ⟨none, rfl⟩
  | some w =>
    obtain ⟨s, rfl⟩ := hlabels "runLabel" (by decide) w hfield
    exact ⟨_, rfl⟩

theorem exists_inbox_append {setup : InboxSetup} {files : InboxFiles} {entries targetEntries : List ClaimInboxEntry} {e : ClaimInboxEntry}
    (hinbox : inbox setup files = .ok entries) (htarget : parseInbox setup (files (targetInbox setup)) = .ok targetEntries)
    (he : isValidEntry setup e = true) :
    ∃ entries', inbox setup (Function.update files (targetInbox setup) (.entries (targetEntries ++ [e]))) = .ok entries' ∧
      ∀ e' ∈ entries', e' ∈ entries ∨ e' = e := by
  have hread := parseInbox_append htarget he
  unfold inbox at hinbox ⊢
  unfold targetInbox at htarget ⊢
  split at hinbox
  · next hnamespaced =>
    rw [if_pos hnamespaced] at htarget ⊢
    obtain ⟨appEntries, happ, hrest⟩ := bind_eq_ok.mp hinbox
    obtain ⟨legacyEntries, hlegacy, hunion⟩ := bind_eq_ok.mp hrest
    rw [← Except.ok.inj (htarget.symm.trans happ)] at hunion
    rw [if_pos hnamespaced, Function.update_self, Function.update_of_ne (by decide), hread, hlegacy]
    refine ⟨_, rfl, ?_⟩
    intro e' he'
    rw [← pure_eq_ok.mp hunion]
    unfold union at he' ⊢
    rcases List.mem_append.mp he' with hmem | hmem
    · rcases List.mem_append.mp hmem with hmem | hmem
      · exact Or.inl (List.mem_append_left _ hmem)
      · exact Or.inr (List.mem_singleton.mp hmem)
    · obtain ⟨hold, hother⟩ := List.mem_filter.mp hmem
      rw [List.all_append, Bool.and_eq_true] at hother
      exact Or.inl (List.mem_append_right _ (List.mem_filter.mpr ⟨hold, hother.1⟩))
  · next hplain =>
    rw [if_neg hplain] at htarget ⊢
    rw [if_neg hplain, Function.update_self]
    rw [← Except.ok.inj (htarget.symm.trans hinbox)]
    refine ⟨_, hread, ?_⟩
    intro e' he'
    rcases List.mem_append.mp he' with hmem | hmem
    · exact Or.inl hmem
    · exact Or.inr (List.mem_singleton.mp hmem)

theorem keepsGroups_of_type {newURL : List CodeUnit → Option (String × String)} {rawInput : List CodeUnit} {pkg : Json JsonNumber}
    (hpkg : isClaimPackage newURL pkg = true) (hlabels : LabelsAreStrings pkg) : KeepsGroups newURL rawInput pkg := by
  intro namespaced files entries id now hinbox hgroups
  rw [exists_groups] at hgroups
  cases hfound : entries.find? fun e => sameClaim e.pkg pkg with
  | some existing =>
    refine ⟨_, _, entries, exec_add_existing hinbox hfound id now rawInput, hinbox, ?_⟩
    intro shown hshown
    rw [exists_groups]
    exact fun e he => hgroups e (hshown.mem_iff.mp he)
  | none =>
    obtain ⟨targetEntries, htarget⟩ := exists_target_of_inbox hinbox
    obtain ⟨entries', hinbox', hentries'⟩ := exists_inbox_append (e := ⟨id, now, rawInput, pkg, .available, none, none⟩) hinbox htarget hpkg
    refine ⟨_, _, entries', exec_add_new hinbox hfound htarget id now rawInput, hinbox', ?_⟩
    intro shown hshown
    rw [exists_groups]
    intro e he
    rcases hentries' e (hshown.mem_iff.mp he) with hold | rfl
    · exact hgroups e hold
    · exact groupLabel_of_type hlabels

/-! ### The codec -/

theorem soundLink_iff {newURL : List CodeUnit → Option (String × String)} {s : List CodeUnit} :
    SoundLink newURL s ↔ ∀ v, payload s = some v → isClaimPackage newURL v = true → LabelsAreStrings v := by
  unfold SoundLink
  cases hdecode : decodeClaimPackage newURL s with
  | error message =>
    refine ⟨fun _ v hv haccepted => ?_, fun _ => mem_decodeErrors hdecode⟩
    rw [decodeClaimPackage_eq_ok.mpr ⟨hv, haccepted⟩] at hdecode
    exact absurd hdecode (by simp)
  | ok pkg =>
    obtain ⟨hpayload, hpkg⟩ := decodeClaimPackage_eq_ok.mp hdecode
    constructor
    · intro ⟨htype, _⟩ v hv _
      rw [← Option.some.inj (hpayload.symm.trans hv)]
      exact (hasClaimPackageType_iff hpkg).mp htype
    · intro hlabels
      have hpkgLabels := hlabels pkg hpayload hpkg
      exact ⟨(hasClaimPackageType_iff hpkg).mpr hpkgLabels, keepsGroups_of_type hpkg hpkgLabels⟩

/-- Every package comes back from its link, whose characters need no escape. A string is sound when the labels in its payload are strings, wherever the payload passes for a package. -/
theorem claimLink_codec (newURL : List CodeUnit → Option (String × String)) :
    (∀ pkg, Json.Forall IsIntegerDouble pkg → isClaimPackage newURL pkg = true →
      decodeClaimPackage newURL (encodeClaimPackage pkg) = .ok pkg ∧ ∀ u ∈ encodeClaimPackage pkg, isUrlSafe u = true) ∧
      ∀ s, SoundLink newURL s ↔ ∀ v, payload s = some v → isClaimPackage newURL v = true → LabelsAreStrings v :=
  ⟨fun pkg hnumbers hpkg => ⟨decodeClaimPackage_encode hnumbers hpkg, isUrlSafe_encodeClaimPackage pkg⟩, fun _ => soundLink_iff⟩

/-! ### Two titles -/

def addressText : Json JsonNumber := .string (units "0x" ++ List.replicate 40 (unit 0x30))

/-- A package as any recipient gets one, with more members. -/
def packageWith (labels : List (List CodeUnit × Json JsonNumber)) : Json JsonNumber :=
  .object ([(units "version", .number (.integer 1)), (units "chainId", .number (.integer 1)), (units "settlementAddress", addressText),
    (units "claimsRoot", .string (units "0x" ++ List.replicate 64 (unit 0x31))), (units "recipient", addressText), (units "token", addressText),
    (units "tokenSymbol", .string (units "USDC")), (units "tokenDecimals", .number (.integer 6)), (units "amount", .string (units "1000000")),
    (units "releaseTime", .string (units "0")), (units "secret", .string (units "7")), (units "leafIndex", .number (.integer 3)),
    (units "pathElements", .array (List.replicate 4 (.string (units "0")))),
    (units "pathIndices", .array (List.replicate 4 (.number (.integer 0))))] ++ labels)

theorem packageWith_integers {labels : List (List CodeUnit × Json JsonNumber)} (hlabels : ∀ m ∈ labels, Json.Forall IsIntegerDouble m.2) :
    Json.Forall IsIntegerDouble (packageWith labels) := by
  have hsmall : ∀ n ∈ [0, 1, 3, 6], IsDouble n := by
    unfold IsDouble
    decide +kernel
  have hnumber : ∀ n ∈ [0, 1, 3, 6], Json.Forall IsIntegerDouble (.number (.integer n)) := fun n hn => .number ⟨n, rfl, hsmall n hn⟩
  apply Json.Forall.object
  simp only [List.forall_mem_append, List.forall_mem_cons]
  refine ⟨⟨hnumber 1 (by decide), hnumber 1 (by decide), .string _, .string _, .string _, .string _, .string _, hnumber 6 (by decide), .string _,
    .string _, .string _, hnumber 3 (by decide), ?_, ?_, fun _ h => absurd h List.not_mem_nil⟩, hlabels⟩
  · apply Json.Forall.array
    intro v hv
    rw [List.eq_of_mem_replicate hv]
    exact .string _
  · apply Json.Forall.array
    intro v hv
    rw [List.eq_of_mem_replicate hv]
    exact hnumber 0 (by decide)

def labelledPackage : Json JsonNumber :=
  packageWith [(units "senderLabel", .string (units "Łódź Labs")), (units "runLabel", .string (units "Pay, \"May\""))]

theorem claimLink_codec_labelled :
    decodeClaimPackage (fun _ => none) (encodeClaimPackage labelledPackage) = .ok labelledPackage ∧
      SoundLink (fun _ => none) (encodeClaimPackage labelledPackage) := by
  have haccepted : isClaimPackage (fun _ => none) labelledPackage = true := by decide +kernel
  have hnumbers : Json.Forall IsIntegerDouble labelledPackage := by
    apply packageWith_integers
    simp only [List.forall_mem_cons]
    exact ⟨.string _, .string _, fun _ h => absurd h List.not_mem_nil⟩
  obtain ⟨hcodec, hsound⟩ := claimLink_codec fun _ => none
  have hdecode := (hcodec labelledPackage hnumbers haccepted).1
  refine ⟨hdecode, (hsound _).mpr ?_⟩
  intro v hv _
  obtain rfl := Option.some.inj ((decodeClaimPackage_eq_ok.mp hdecode).1.symm.trans hv)
  simp only [LabelsAreStrings, List.forall_mem_cons]
  refine ⟨?_, ?_, fun _ h => absurd h List.not_mem_nil⟩
  · intro w hw
    exact ⟨_, (Option.some.inj hw).symm⟩
  · intro w hw
    exact ⟨_, (Option.some.inj hw).symm⟩

/-- The title of the run is a number. -/
def numberedPackage : Json JsonNumber := packageWith [(units "runLabel", .number (.integer 5))]

/-- The link is taken for one of a package, and the inbox it is saved in no longer falls into groups. -/
theorem numberedPackage_breaks_inbox :
    decodeClaimPackage (fun _ => none) (encodeClaimPackage numberedPackage) = .ok numberedPackage ∧
      ¬SoundLink (fun _ => none) (encodeClaimPackage numberedPackage) ∧
      groupClaimInbox [⟨"a1", 0, encodeClaimPackage numberedPackage, numberedPackage, .available, none, none⟩] =
        .error "e.pkg.runLabel?.trim is not a function" := by
  have haccepted : isClaimPackage (fun _ => none) numberedPackage = true := by decide +kernel
  have hnumbers : Json.Forall IsIntegerDouble numberedPackage := by
    have hfive : IsDouble 5 := by
      unfold IsDouble
      decide +kernel
    apply packageWith_integers
    intro m hm
    rw [List.mem_singleton.mp hm]
    exact .number ⟨5, rfl, hfive⟩
  have hdecode := decodeClaimPackage_encode hnumbers haccepted
  have hlabel : field numberedPackage "runLabel" = some (.number (.integer 5)) := by rfl
  refine ⟨hdecode, ?_, ?_⟩
  · intro hsound
    rw [SoundLink, hdecode] at hsound
    obtain ⟨s, hs⟩ := hsound.1.optional "runLabel" (by decide) _ hlabel
    exact absurd hs (by simp)
  · have hgroup : groupLabel numberedPackage = .error "e.pkg.runLabel?.trim is not a function" := by rw [groupLabel, hlabel]
    rw [groupClaimInbox, List.foldlM_cons, hgroup]
    rfl

end Protocol

end ScatterDex
