import ScatterDex.Pay.RepairClaims
import ScatterDex.Pro.OrderForm
import ScatterDex.Protocol.ProverCompleteness

/-!
# Repaired claim links

A repair picks the first backup of the run's chain and token whose root is settled: the seed that is meant to tell the payouts of a wallet apart is the same for all of them. So a record is repaired from its own backup exactly when no other payout in that token is settled and listed before it, or when nothing of the other one fits the record.
-/

namespace ScatterDex

open Bn254 Fallible Sdk

namespace Pay

variable (P : Poseidon) (ethers : Ethers)

/-! ### What a repair has to be -/

/-- A backup of a payout: one with its chain, its token and its claims. -/
def Payout.Owns (seed : ℕ) (payout : Payout) (backup : ClaimsBackup) : Prop :=
  ∃ own, payout.backup P ethers seed = .ok own ∧ backup.chainId = own.chainId ∧ backup.token = own.token ∧
    backup.claims = own.claims

/-- A package for a row, from a backup: the claim at the row's leaf, with the row's recipient and amount and a path to the backup's root. -/
structure PackageFrom (payout : Payout) (backup : ClaimsBackup) (row : RecipientRow) (pkg : ClaimPackage) : Prop where
  root_eq : pkg.claimsRoot = backup.claimsRoot
  leafIndex_eq : pkg.leafIndex = (row.rowIndex : ℤ)
  claim : ∃ claim, backup.claims[row.rowIndex]? = some claim ∧ pkg.secret = claim.secret ∧ pkg.amount = claim.amount ∧
    pkg.releaseTime = claim.releaseTime
  recipient : eqAddr pkg.recipient row.address = true
  amount : ethers.parseUnits (cleanAmount row.amount) payout.tokenDecimals = .ok pkg.amount
  path : ∃ tier ∈ Sdk.tiers, tier.cap = backup.tierCap ∧ ∃ claim, pkg.entry.fields = .ok claim ∧
    MerkleTree.PathTo P.hashWords tier.claimsTreeDepth (claim.leaf P) backup.claimsRoot pkg.pathElements pkg.pathIndices

/-- A repair of a payout's record is sound: what it writes comes from a settled backup of that payout, and it repairs nothing when only others are settled. -/
structure RepairSound (seed : ℕ) (payout : Payout) (record : RunRecord) (backups : List ClaimsBackup)
    (isRootSettled : ℕ → Except String Bool) : Prop where
  written : ∀ repaired settledRoot count,
    repairRunClaims P ethers record backups isRootSettled = .ok (.repaired repaired settledRoot count) →
    List.Forall₂ (fun row row' => row' = row ∨ ∃ backup ∈ backups, payout.Owns P ethers seed backup ∧
      safeIsRootSettled isRootSettled backup.claimsRoot = true ∧
      ∃ pkg, row'.claimPackage = some (.package pkg) ∧ PackageFrom P ethers payout backup row pkg)
      record.recipients repaired.recipients
  others : (∀ backup ∈ backups, safeIsRootSettled isRootSettled backup.claimsRoot = true →
      ¬payout.Owns P ethers seed backup) →
    ∀ repaired settledRoot count,
      repairRunClaims P ethers record backups isRootSettled ≠ .ok (.repaired repaired settledRoot count)

/-- The claims folder of a wallet: each file is the backup of a payout of that wallet, under its root. -/
structure Folder (keccak256 : List UInt8 → ℕ) (privateKey : List UInt8) (seed : ℕ) (history : List Payout)
    (backups : List ClaimsBackup) : Prop where
  seed_eq : claimSeedFromKey keccak256 privateKey = .ok seed
  written : ∀ backup ∈ backups, ∃ payout ∈ history, (claimSeedFromKey keccak256 privateKey >>= payout.backup P ethers) = .ok backup
  keyed : (backups.map ClaimsBackup.claimsRoot).Nodup

/-- The record of a payout carries no package of another payout. -/
def Issued (seed : ℕ) (payout : Payout) (backups : List ClaimsBackup) (claimPackages : ℕ → Option PackageText) : Prop :=
  ∀ i pkg, claimPackages i = some (.package pkg) → ∀ backup ∈ backups, pkg.claimsRoot = backup.claimsRoot →
    payout.Owns P ethers seed backup

variable {P ethers} {seed : ℕ} {payout : Payout} {backup : ClaimsBackup}

/-! ### What a backup is -/

theorem parseRecipientRows_spec {decimals releaseTime : ℕ} {rows : List WizardRow} {recipients : List PayoutRecipient}
    (hparse : parseRecipientRows ethers decimals releaseTime rows = .ok recipients) :
    List.Forall₂ (fun row r => r.recipient = row.address ∧ isAddress row.address.toList = true ∧
      ethers.parseUnits (cleanAmount row.amount) decimals = .ok r.amount) rows recipients := by
  induction rows generalizing recipients with
  | nil =>
    obtain rfl := Except.ok.inj hparse
    exact .nil
  | cons row rows ih =>
    simp only [parseRecipientRows, bind_eq_ok, require_eq_ok, pure_eq_ok] at hparse
    obtain ⟨-, -, -, haddress, amount, hamount, rest, hrest, rfl⟩ := hparse
    exact .cons ⟨rfl, haddress, hamount⟩ (ih hrest)

/-- The backup of a payout: a claim for each row, and the root of their tree. -/
structure Payout.Backup (P : Poseidon) (ethers : Ethers) (payout : Payout) (backup : ClaimsBackup) (tier : CircuitTier)
    (claims : List FieldClaim) : Prop where
  tier_mem : tier ∈ Sdk.tiers
  tierCap : backup.tierCap = tier.cap
  rows : List.Forall₂ (fun row c => c.recipient = row.address ∧ isAddress row.address.toList = true ∧
    ethers.parseUnits (cleanAmount row.amount) payout.tokenDecimals = .ok c.amount) payout.rows backup.claims
  claims_le : backup.claims.length ≤ tier.cap
  fields : (backup.claims.map (ClaimsBackupClaim.entry backup.token)).mapM ClaimEntry.fields = .ok claims
  root : backup.claimsRoot = MerkleTree.root P.hashWords 0 tier.claimsTreeDepth (claimLeaves P tier claims)

theorem Payout.batch_ok {batch : PayoutBatch} (hbatch : payout.batch P ethers seed = .ok batch) :
    batch.tier ∈ Sdk.tiers ∧ batch.claims.length ≤ batch.tier.cap ∧
      List.Forall₂ (fun row (c : ClaimEntry) => c.recipient = row.address ∧ c.token = payout.tokenAddress ∧
        isAddress row.address.toList = true ∧
        ethers.parseUnits (cleanAmount row.amount) payout.tokenDecimals = .ok c.amount) payout.rows batch.claims := by
  simp only [Payout.batch, bind_eq_ok] at hbatch
  obtain ⟨recipients, hparse, seeded, hseeded, batches, hsplit, hsingle⟩ := hbatch
  split at hsingle
  · rename_i single
    obtain rfl := Except.ok.inj hsingle
    obtain ⟨htier, hfits, hclaims⟩ := splitPayout_single hsplit
    obtain ⟨hlength₁, hrows⟩ := List.forall₂_iff_get.mp (parseRecipientRows_spec hparse)
    obtain ⟨hlength₂, hkept⟩ := List.forall₂_iff_get.mp (withDeterministicSecrets_spec hseeded)
    obtain ⟨hlength₃, hbatched⟩ := List.forall₂_iff_get.mp
      (batchClaims_spec payout.tokenAddress (fun _ => 0) 0 seeded)
    rw [hclaims]
    refine ⟨htier, by omega, List.forall₂_iff_get.mpr ⟨by omega, fun i hi hi' => ?_⟩⟩
    obtain ⟨hrecipient, haddress, hamount⟩ := hrows i hi (by omega)
    obtain ⟨hrecipient', hamount', -⟩ := hkept i (by omega) (by omega)
    obtain ⟨hrecipient'', hamount'', -, htoken⟩ := hbatched i (by omega) hi'
    refine ⟨by rw [hrecipient'', hrecipient', hrecipient], htoken, haddress, ?_⟩
    rw [hamount'', hamount', hamount]
  · exact absurd hsingle (by simp [throw, throwThe, MonadExceptOf.throw])

theorem Payout.backup_ok (hbackup : payout.backup P ethers seed = .ok backup) :
    ∃ tier claims, payout.Backup P ethers backup tier claims ∧ backup.chainId = payout.chainId ∧
      backup.token = payout.tokenAddress ∧ backup.payoutSeed = some seed := by
  simp only [Payout.backup, bind_eq_ok, pure_eq_ok] at hbackup
  obtain ⟨batch, hbatch, claims, hfields, tree, htree, rfl⟩ := hbackup
  obtain ⟨htier, hfits, hrows⟩ := Payout.batch_ok hbatch
  obtain ⟨hpow, -, hpos, hdepth⟩ := tiers_spec htier
  obtain ⟨hlength, hget⟩ := List.forall₂_iff_get.mp hrows
  have hread := (mapM_eq_ok.mp hfields).length_eq
  have hentries : (batch.claims.map fun c => ClaimsBackupClaim.entry payout.tokenAddress
      ⟨c.recipient, c.amount, c.releaseTime, c.secret⟩) = batch.claims := by
    refine (List.map_congr_left fun c hc => ?_).trans (List.map_id _)
    obtain ⟨i, hi, rfl⟩ := List.getElem_of_mem hc
    have htoken : batch.claims[i].token = payout.tokenAddress := (hget i (by omega) hi).2.1
    rw [id, ClaimsBackupClaim.entry, ← htoken]
  refine ⟨batch.tier, claims, ⟨htier, rfl, ?_, by rwa [List.length_map], ?_, ?_⟩, rfl, rfl, rfl⟩
  · refine List.forall₂_iff_get.mpr ⟨by rwa [List.length_map], fun i hi hi' => ?_⟩
    obtain ⟨hrecipient, -, haddress, hamount⟩ := hget i hi (by rwa [List.length_map] at hi')
    simp only [List.get_eq_getElem, List.getElem_map] at hrecipient hamount ⊢
    exact ⟨hrecipient, haddress, hamount⟩
  · rw [List.map_map]
    exact (congrArg (List.mapM ClaimEntry.fields) hentries).trans hfields
  · have hwidth : (claimLeaves P batch.tier claims).length = batch.tier.cap :=
      claimColumn_length (FieldClaim.leaf P) (show claims.length ≤ batch.tier.cap by omega)
    rw [buildMerkleTree_eq hpos (by omega) (by rw [hwidth, hpow]), Except.ok.injEq] at htree
    rw [← htree]

/-! ### What is rebuilt from a backup -/

/-- The addresses of a backup have the checksum that ethers asks for. -/
def Ethers.Accepts (ethers : Ethers) (backup : ClaimsBackup) : Prop :=
  ∀ claim ∈ backup.claims, (∃ recipient, ethers.getAddress claim.recipient = .ok recipient) ∧
    ∃ token, ethers.getAddress backup.token = .ok token

theorem tiers_find {tier : CircuitTier} (htier : tier ∈ Sdk.tiers) :
    Sdk.tiers.find? (fun t => t.cap = tier.cap) = some tier := by
  simp only [Sdk.tiers, List.mem_cons, List.not_mem_nil, or_false] at htier
  rcases htier with rfl | rfl | rfl <;> rfl

variable {tier : CircuitTier} {claims : List FieldClaim}

/-- The tree rebuilt from a backup is the one of its root, so the packages are cut from it. -/
theorem Payout.Backup.rebuild_eq (hbackup : payout.Backup P ethers backup tier claims) :
    ∃ tree : ClaimsTree, rebuildClaimPackages P ethers backup =
        (backup.claims.zipIdx.mapM fun (c, i) => rebuildPackage ethers backup tree i c) ∧
      ∀ i < backup.claims.length, getMerkleProof tree.layers (i : ℕ) =
        .ok (MerkleTree.pathElements P.hashWords (MerkleTree.padded 0 (claimLeaves P tier claims)) i tier.claimsTreeDepth,
          MerkleTree.pathIndices i tier.claimsTreeDepth) := by
  have hlength : (backup.claims.map (ClaimsBackupClaim.entry backup.token)).length ≤ tier.cap := by
    rw [List.length_map]
    exact hbackup.claims_le
  obtain ⟨tree, htree, hroot, hproof⟩ := buildClaimsTree_eq (P := P) hbackup.tier_mem hbackup.fields hlength
  refine ⟨tree, ?_, fun i hi => hproof i (Nat.lt_of_lt_of_le hi hbackup.claims_le)⟩
  have hcheck : ¬tree.root ≠ backup.claimsRoot := not_not.mpr (hroot.trans hbackup.root.symm)
  have hrequire : require (¬tree.root ≠ backup.claimsRoot)
      "Rebuilt claimsRoot does not match the backup — claim inputs are inconsistent." = .ok () := if_pos hcheck
  rw [rebuildClaimPackages, hbackup.tierCap, tiers_find hbackup.tier_mem]
  dsimp only
  rw [htree]
  change (require _ _ >>= fun _ => _) = _
  rw [hrequire]
  rfl

/-- A rebuilt package: the claim of its leaf, to the same recipient, with its path. -/
theorem Payout.Backup.package (hlawful : ethers.Lawful) (hbackup : payout.Backup P ethers backup tier claims)
    (htoken : isAddress backup.token.toList = true) {tree : ClaimsTree} {pkg : ClaimPackage} {i : ℕ}
    (hi : i < backup.claims.length)
    (hproof : getMerkleProof tree.layers (i : ℕ) =
      .ok (MerkleTree.pathElements P.hashWords (MerkleTree.padded 0 (claimLeaves P tier claims)) i tier.claimsTreeDepth,
        MerkleTree.pathIndices i tier.claimsTreeDepth))
    (hpackage : rebuildPackage ethers backup tree i backup.claims[i] = .ok pkg) :
    pkg.claimsRoot = backup.claimsRoot ∧ pkg.leafIndex = (i : ℤ) ∧ pkg.secret = backup.claims[i].secret ∧
      pkg.amount = backup.claims[i].amount ∧ pkg.releaseTime = backup.claims[i].releaseTime ∧
      toLowerCase pkg.recipient = toLowerCase backup.claims[i].recipient ∧
      ∃ claim, pkg.entry.fields = .ok claim ∧ MerkleTree.PathTo P.hashWords tier.claimsTreeDepth (claim.leaf P)
        backup.claimsRoot pkg.pathElements pkg.pathIndices := by
  obtain ⟨hrows, hget⟩ := List.forall₂_iff_get.mp hbackup.rows
  obtain ⟨haddress, hvalid, -⟩ := hget i (by omega) hi
  simp only [List.get_eq_getElem] at haddress hvalid
  obtain ⟨hread, hfields⟩ := List.forall₂_iff_get.mp (mapM_eq_ok.mp hbackup.fields)
  rw [List.length_map] at hread
  have hfield := hfields i (by rwa [List.length_map]) (by omega)
  simp only [List.get_eq_getElem, List.getElem_map] at hfield
  obtain ⟨hrecipient, htokenRead, -⟩ := ClaimEntry.fields_ok hfield
  simp only [rebuildPackage, bind_eq_ok, pure_eq_ok, hproof, Except.ok.injEq] at hpackage
  obtain ⟨_, rfl, recipient, hnormal, token, htokenNormal, rfl⟩ := hpackage
  have hlower := hlawful _ _ (haddress ▸ hvalid) hnormal
  have htokenLower := hlawful _ _ htoken htokenNormal
  refine ⟨rfl, rfl, rfl, rfl, rfl, hlower, claims[i], ?_, ?_⟩
  · rw [ClaimEntry.fields] at hfield ⊢
    rw [← hfield]
    simp only [ClaimPackage.entry, bigInt_congr hlower.symm hrecipient, bigInt_congr htokenLower.symm htokenRead, hrecipient,
      htokenRead]
    rfl
  · rw [hbackup.root]
    exact pathTo_claim hbackup.tier_mem (by rw [← hread]; exact hbackup.claims_le) (by omega)

theorem Payout.Backup.rebuilt (hbackup : payout.Backup P ethers backup tier claims) :
    ((∃ packages, rebuildClaimPackages P ethers backup = .ok packages) ↔ ethers.Accepts backup) ∧
      ∀ packages, rebuildClaimPackages P ethers backup = .ok packages → ∃ tree : ClaimsTree,
        (∀ i < backup.claims.length, getMerkleProof tree.layers (i : ℕ) =
          .ok (MerkleTree.pathElements P.hashWords (MerkleTree.padded 0 (claimLeaves P tier claims)) i tier.claimsTreeDepth,
            MerkleTree.pathIndices i tier.claimsTreeDepth)) ∧
        packages.length = backup.claims.length ∧
        ∀ i (hi : i < backup.claims.length) (hi' : i < packages.length),
          rebuildPackage ethers backup tree i backup.claims[i] = .ok packages[i] := by
  obtain ⟨tree, hrebuild, hproof⟩ := hbackup.rebuild_eq
  have hread : ∀ packages, rebuildClaimPackages P ethers backup = .ok packages →
      packages.length = backup.claims.length ∧
        ∀ i (hi : i < backup.claims.length) (hi' : i < packages.length),
          rebuildPackage ethers backup tree i backup.claims[i] = .ok packages[i] := by
    intro packages hpackages
    rw [hrebuild] at hpackages
    obtain ⟨hlength, hget⟩ := List.forall₂_iff_get.mp (mapM_eq_ok.mp hpackages)
    rw [List.length_zipIdx] at hlength
    refine ⟨hlength.symm, fun i hi hi' => ?_⟩
    have hpackage := hget i (by rwa [List.length_zipIdx]) hi'
    simpa only [List.get_eq_getElem, List.getElem_zipIdx, Nat.zero_add] using hpackage
  refine ⟨⟨?_, fun haccepts => ?_⟩, fun packages hpackages => ⟨tree, hproof, hread packages hpackages⟩⟩
  · rintro ⟨packages, hpackages⟩ claim hclaim
    obtain ⟨hlength, hget⟩ := hread packages hpackages
    obtain ⟨i, hi, rfl⟩ := List.getElem_of_mem hclaim
    have hpackage := hget i hi (by omega)
    simp only [rebuildPackage, bind_eq_ok] at hpackage
    obtain ⟨_, -, recipient, hrecipient, token, htoken, -⟩ := hpackage
    exact ⟨⟨recipient, hrecipient⟩, token, htoken⟩
  · rw [hrebuild]
    apply exists_mapM
    rintro ⟨claim, i⟩ hmem
    obtain ⟨-, hi, hclaim⟩ := List.mem_zipIdx hmem
    obtain ⟨⟨recipient, hrecipient⟩, token, htoken⟩ := haccepts claim (by rw [hclaim]; exact List.getElem_mem _)
    simp only [rebuildPackage, bind_eq_ok, pure_eq_ok, hproof i (by omega), hrecipient, htoken, Except.ok.injEq]
    exact ⟨_, _, rfl, _, rfl, _, rfl, rfl⟩

theorem find_by_position {α : Type} {xs : List α} {key : α → ℤ} (hkey : ∀ j (hj : j < xs.length), key xs[j] = (j : ℕ)) (i : ℕ) :
    xs.reverse.find? (fun x => key x = (i : ℤ)) = xs[i]? := by
  by_cases hi : i < xs.length
  · rw [List.getElem?_eq_getElem hi]
    cases hfind : xs.reverse.find? fun x => key x = (i : ℤ) with
    | none =>
      have hnone := List.find?_eq_none.mp hfind xs[i] (List.mem_reverse.mpr (List.getElem_mem _))
      exact absurd (decide_eq_true (hkey i hi)) hnone
    | some x =>
      obtain ⟨j, hj, rfl⟩ := List.getElem_of_mem (List.mem_reverse.mp (List.mem_of_find?_eq_some hfind))
      have hfound : decide (key xs[j] = (i : ℤ)) = true := List.find?_some (p := fun x => decide (key x = (i : ℤ))) hfind
      obtain rfl : j = i := Int.ofNat.inj ((hkey j hj).symm.trans (of_decide_eq_true hfound))
      rfl
  · rw [List.getElem?_eq_none (not_lt.mp hi), List.find?_eq_none]
    intro x hx
    obtain ⟨j, hj, rfl⟩ := List.getElem_of_mem (List.mem_reverse.mp hx)
    rw [decide_eq_true_eq, hkey j hj]
    omega

/-! ### Which backup is taken -/

/-- A backup in the token of a payout. -/
def Payout.sameToken (payout : Payout) (backup : ClaimsBackup) : Bool :=
  backup.chainId = payout.chainId ∧ eqAddr backup.token payout.tokenAddress

/-- The first backup in the token of a payout whose root is settled. -/
def Payout.firstSettled (payout : Payout) (backups : List ClaimsBackup) (isRootSettled : ℕ → Except String Bool) :
    Option ClaimsBackup :=
  backups.find? fun backup => payout.sameToken backup && safeIsRootSettled isRootSettled backup.claimsRoot

variable (P ethers) in
/-- Nothing of another payout gets into the record: its own root is settled; or the first settled backup in the token, if there is one, is its own, cannot be read, or fits no row while its own one is settled too. -/
def RepairsOwn (seed : ℕ) (payout : Payout) (record : RunRecord) (backups : List ClaimsBackup)
    (isRootSettled : ℕ → Except String Bool) : Prop :=
  (recordClaimsRoot record).any (safeIsRootSettled isRootSettled) = true ∨
    ∀ backup, payout.firstSettled backups isRootSettled = some backup →
      payout.Owns P ethers seed backup ∨ ¬ethers.Accepts backup ∨
        (∃ own ∈ backups, payout.Owns P ethers seed own ∧ safeIsRootSettled isRootSettled own.claimsRoot = true) ∧
        ∀ row ∈ record.recipients, ∀ claim, backup.claims[row.rowIndex]? = some claim →
          eqAddr claim.recipient row.address = false

section

variable {keccak256 : List UInt8 → ℕ} {privateKey : List UInt8} {history : List Payout} {backups : List ClaimsBackup}
  {isRootSettled : ℕ → Except String Bool}
  {claimPackages : ℕ → Option PackageText}

theorem Folder.writer (hfolder : Folder P ethers keccak256 privateKey seed history backups) (hbackup : backup ∈ backups) :
    ∃ writer ∈ history, writer.backup P ethers seed = .ok backup := by
  obtain ⟨writer, hwriter, hwritten⟩ := hfolder.written backup hbackup
  rw [hfolder.seed_eq] at hwritten
  exact ⟨writer, hwriter, hwritten⟩

/-- The seed tells no two payouts of a wallet apart. -/
theorem backupMatchesRun_eq (hfolder : Folder P ethers keccak256 privateKey seed history backups) (hbackup : backup ∈ backups) :
    backupMatchesRun backup (buildRunRecord seed claimPackages payout) = payout.sameToken backup := by
  obtain ⟨writer, -, hwritten⟩ := hfolder.writer hbackup
  obtain ⟨-, -, -, -, -, hseed⟩ := Payout.backup_ok hwritten
  simp only [backupMatchesRun, buildRunRecord, hseed, Payout.sameToken]
  by_cases hchain : backup.chainId = payout.chainId <;> by_cases htoken : eqAddr backup.token payout.tokenAddress = true <;>
    simp [hchain, htoken]

variable (payout claimPackages) in
/-- What a repair returns. -/
theorem repairRunClaims_repaired (hfolder : Folder P ethers keccak256 privateKey seed history backups) {repaired : RunRecord} {settledRoot count : ℕ} :
    repairRunClaims P ethers (buildRunRecord seed claimPackages payout) backups isRootSettled =
        .ok (.repaired repaired settledRoot count) ↔
      ¬(recordClaimsRoot (buildRunRecord seed claimPackages payout)).any (safeIsRootSettled isRootSettled) = true ∧
        ∃ backup packages, payout.firstSettled backups isRootSettled = some backup ∧
          rebuildClaimPackages P ethers backup = .ok packages ∧
          applyPackagesToRecord (buildRunRecord seed claimPackages payout) packages = repaired ∧
          backup.claimsRoot = settledRoot ∧ packages.length = count := by
  have hcandidates : backups.filter (fun b => backupMatchesRun b (buildRunRecord seed claimPackages payout)) =
      backups.filter payout.sameToken :=
    List.filter_congr fun b hb => backupMatchesRun_eq hfolder hb
  have hfirst : settledBackup isRootSettled (backups.filter payout.sameToken) = payout.firstSettled backups isRootSettled := by
    rw [settledBackup, List.find?_filter, Payout.firstSettled]
    simp only [Bool.decide_and, Bool.decide_eq_true]
  unfold repairRunClaims
  rw [hcandidates]
  by_cases hcurrent : (recordClaimsRoot (buildRunRecord seed claimPackages payout)).any (safeIsRootSettled isRootSettled) = true
  · simp [hcurrent]
  rw [if_neg hcurrent]
  dsimp only
  by_cases hempty : (backups.filter payout.sameToken).length = 0
  · rw [List.length_eq_zero_iff] at hempty
    rw [hempty] at hfirst
    simp [hempty, ← hfirst, settledBackup]
  rw [if_neg hempty, hfirst]
  cases payout.firstSettled backups isRootSettled with
  | none => simp
  | some b =>
    simp only [bind_eq_ok, pure_eq_ok, RepairResult.repaired.injEq]
    constructor
    · rintro ⟨packages, hpackages, hrest⟩
      exact ⟨hcurrent, b, packages, rfl, hpackages, hrest⟩
    · rintro ⟨-, _, packages, hb, hpackages, hrest⟩
      obtain rfl := Option.some.inj hb
      exact ⟨packages, hpackages, hrest⟩

theorem row_of_mem {row : RecipientRow} (hrow : row ∈ (buildRunRecord seed claimPackages payout).recipients) :
    ∃ (k : ℕ) (hk : k < payout.rows.length),
      row = ⟨k, lower payout.rows[k].address, payout.rows[k].amount, claimPackages k⟩ := by
  obtain ⟨k, hk, rfl⟩ := List.mem_mapIdx.mp hrow
  exact ⟨k, hk, rfl⟩

theorem packageFor_eq {packages : List ClaimPackage}
    (hindex : ∀ j (hj : j < packages.length), packages[j].leafIndex = (j : ℕ)) (row : RecipientRow) :
    packageFor packages row = packages[row.rowIndex]?.filter fun pkg => eqAddr pkg.recipient row.address := by
  rw [packageFor, find_by_position hindex]

theorem firstSettled_spec (hfirst : payout.firstSettled backups isRootSettled = some backup) :
    backup ∈ backups ∧ safeIsRootSettled isRootSettled backup.claimsRoot = true := by
  have hfound := List.find?_some (p := fun b => payout.sameToken b && safeIsRootSettled isRootSettled b.claimsRoot) hfirst
  exact ⟨List.mem_of_find?_eq_some hfirst, (Bool.and_eq_true_iff.mp hfound).2⟩

theorem Folder.rebuilt (hfolder : Folder P ethers keccak256 privateKey seed history backups) (hlawful : ethers.Lawful) (hbackup : backup ∈ backups)
    {packages : List ClaimPackage} (hrebuild : rebuildClaimPackages P ethers backup = .ok packages) :
    packages.length = backup.claims.length ∧ ∀ i (hi : i < backup.claims.length) (hi' : i < packages.length),
      packages[i].claimsRoot = backup.claimsRoot ∧ packages[i].leafIndex = (i : ℕ) ∧
      packages[i].secret = backup.claims[i].secret ∧ packages[i].amount = backup.claims[i].amount ∧
      packages[i].releaseTime = backup.claims[i].releaseTime ∧
      toLowerCase packages[i].recipient = toLowerCase backup.claims[i].recipient ∧
      ∃ tier ∈ Sdk.tiers, tier.cap = backup.tierCap ∧ ∃ claim, packages[i].entry.fields = .ok claim ∧
        MerkleTree.PathTo P.hashWords tier.claimsTreeDepth (claim.leaf P) backup.claimsRoot packages[i].pathElements
          packages[i].pathIndices := by
  obtain ⟨writer, -, hwritten⟩ := hfolder.writer hbackup
  obtain ⟨tier, claims, hvalid, -, htoken, -⟩ := Payout.backup_ok hwritten
  obtain ⟨tree, hproof, hlength, hget⟩ := hvalid.rebuilt.2 packages hrebuild
  refine ⟨hlength, fun i hi hi' => ?_⟩
  obtain ⟨hroot, hindex, hsecret, hamount, htime, hrecipient, hpath⟩ := hvalid.package hlawful
    (htoken ▸ writer.tokenAddress_valid) hi (hproof i hi) (hget i hi hi')
  exact ⟨hroot, hindex, hsecret, hamount, htime, hrecipient, tier, hvalid.tier_mem, hvalid.tierCap.symm, hpath⟩

/-- What is written from a payout's own backup is what its rows are due. -/
theorem applied_own (hfolder : Folder P ethers keccak256 privateKey seed history backups) (hlawful : ethers.Lawful) (hbackup : backup ∈ backups)
    (howns : payout.Owns P ethers seed backup) {packages : List ClaimPackage}
    (hrebuild : rebuildClaimPackages P ethers backup = .ok packages) :
    List.Forall₂ (fun row row' => row' = row ∨
        ∃ pkg, row'.claimPackage = some (.package pkg) ∧ PackageFrom P ethers payout backup row pkg)
      (buildRunRecord seed claimPackages payout).recipients
      (applyPackagesToRecord (buildRunRecord seed claimPackages payout) packages).recipients := by
  obtain ⟨hlength, hget⟩ := hfolder.rebuilt hlawful hbackup hrebuild
  have hindex : ∀ j (hj : j < packages.length), packages[j].leafIndex = (j : ℕ) :=
    fun j hj => (hget j (by omega) hj).2.1
  obtain ⟨own, hown, -, -, hclaims⟩ := howns
  obtain ⟨tier, claims, hvalid, -⟩ := Payout.backup_ok hown
  obtain ⟨hrows, hdue⟩ := List.forall₂_iff_get.mp hvalid.rows
  rw [applyPackagesToRecord, List.forall₂_map_right_iff, List.forall₂_same]
  intro row hrow
  obtain ⟨k, hk, rfl⟩ := row_of_mem hrow
  rw [packageFor_eq hindex]
  cases hfound : packages[k]?.filter fun pkg => eqAddr pkg.recipient (lower payout.rows[k].address) with
  | none => exact Or.inl rfl
  | some pkg =>
    obtain ⟨hpkg, hfits⟩ := Option.filter_eq_some_iff.mp hfound
    obtain ⟨hk', rfl⟩ := List.getElem?_eq_some_iff.mp hpkg
    obtain ⟨hroot, hleaf, hsecret, hamount, htime, -, hpath⟩ := hget k (by omega) hk'
    refine Or.inr ⟨packages[k], rfl, hroot, hleaf, ⟨_, List.getElem?_eq_getElem (show k < _ by omega), hsecret, hamount, htime⟩,
      hfits, ?_, hpath⟩
    have hk'' : k < own.claims.length := by rw [← hclaims]; omega
    have hsame : backup.claims[k] = own.claims[k] := by simp only [hclaims]
    rw [hamount, hsame]
    exact (hdue k hk hk'').2.2

/-- A backup of another payout that fits a row gets its package into the record. -/
theorem applied_other (hfolder : Folder P ethers keccak256 privateKey seed history backups) (hlawful : ethers.Lawful)
    (hbackup : backup ∈ backups) {packages : List ClaimPackage} (hrebuild : rebuildClaimPackages P ethers backup = .ok packages)
    {row : RecipientRow} {claim : ClaimsBackupClaim} (hclaim : backup.claims[row.rowIndex]? = some claim)
    (hfits : eqAddr claim.recipient row.address = true) :
    ∃ pkg, packageFor packages row = some pkg ∧ pkg.claimsRoot = backup.claimsRoot := by
  obtain ⟨hlength, hget⟩ := hfolder.rebuilt hlawful hbackup hrebuild
  obtain ⟨hi, rfl⟩ := List.getElem?_eq_some_iff.mp hclaim
  have hi' : row.rowIndex < packages.length := by omega
  obtain ⟨hroot, -, -, -, -, hrecipient, -⟩ := hget row.rowIndex hi hi'
  refine ⟨packages[row.rowIndex], ?_, hroot⟩
  rw [packageFor_eq fun j hj => (hget j (by omega) hj).2.1, List.getElem?_eq_getElem hi', Option.filter_eq_some_iff]
  exact ⟨rfl, (eqAddr_congr hrecipient).trans hfits⟩

theorem applied_none (hfolder : Folder P ethers keccak256 privateKey seed history backups) (hlawful : ethers.Lawful)
    (hbackup : backup ∈ backups) {packages : List ClaimPackage} (hrebuild : rebuildClaimPackages P ethers backup = .ok packages)
    {row : RecipientRow}
    (hnone : ∀ claim, backup.claims[row.rowIndex]? = some claim → eqAddr claim.recipient row.address = false) :
    packageFor packages row = none := by
  obtain ⟨hlength, hget⟩ := hfolder.rebuilt hlawful hbackup hrebuild
  rw [packageFor_eq fun j hj => (hget j (by omega) hj).2.1, Option.filter_eq_none_iff]
  intro pkg hpkg
  obtain ⟨hi', rfl⟩ := List.getElem?_eq_some_iff.mp hpkg
  have hi : row.rowIndex < backup.claims.length := by omega
  obtain ⟨-, -, -, -, -, hrecipient, -⟩ := hget row.rowIndex hi hi'
  rw [eqAddr_congr hrecipient, hnone _ (List.getElem?_eq_getElem hi)]
  exact Bool.false_ne_true

/-- **A repair of a payout's record is sound exactly when the first settled backup in its token is its own**, or does no harm. -/
theorem repair_sound_iff (hlawful : ethers.Lawful) (hfolder : Folder P ethers keccak256 privateKey seed history backups)
    (hissued : Issued P ethers seed payout backups claimPackages) :
    RepairSound P ethers seed payout (buildRunRecord seed claimPackages payout) backups isRootSettled ↔
      RepairsOwn P ethers seed payout (buildRunRecord seed claimPackages payout) backups isRootSettled := by
  constructor
  · intro hsound
    by_cases hcurrent : (recordClaimsRoot (buildRunRecord seed claimPackages payout)).any (safeIsRootSettled isRootSettled) = true
    · exact Or.inl hcurrent
    refine Or.inr fun backup hfirst => ?_
    by_cases howns : payout.Owns P ethers seed backup
    · exact Or.inl howns
    by_cases haccepts : ethers.Accepts backup
    swap
    · exact Or.inr (Or.inl haccepts)
    obtain ⟨hbackup, -⟩ := firstSettled_spec hfirst
    obtain ⟨writer, -, hwritten⟩ := hfolder.writer hbackup
    obtain ⟨tier, claims, hvalid, -⟩ := Payout.backup_ok hwritten
    obtain ⟨packages, hrebuild⟩ := hvalid.rebuilt.1.mpr haccepts
    have hrepaired := (repairRunClaims_repaired payout claimPackages hfolder).mpr
      ⟨hcurrent, backup, packages, hfirst, hrebuild, rfl, rfl, rfl⟩
    refine Or.inr (Or.inr ⟨?_, fun row hrow claim hclaim => ?_⟩)
    · by_contra hnone
      exact hsound.others (fun own hown hsettled hmine => hnone ⟨own, hown, hmine, hsettled⟩) _ _ _ hrepaired
    · by_contra hfits
      obtain ⟨pkg, hgiven, hroot⟩ := applied_other hfolder hlawful hbackup hrebuild hclaim (Bool.not_eq_false _ ▸ hfits)
      have hwrote := hsound.written _ _ _ hrepaired
      rw [applyPackagesToRecord, List.forall₂_map_right_iff, List.forall₂_same] at hwrote
      obtain ⟨k, hk, rfl⟩ := row_of_mem hrow
      rcases hwrote _ hrow with hsame | ⟨own, hown, hmine, -, pkg', hwritten', hfrom⟩
      · -- the row had this package before, so it is one of the payout's own
        rw [hgiven] at hsame
        have hissuedHere : claimPackages k = some (.package pkg) := (RecipientRow.mk.inj hsame).2.2.2.symm
        exact howns (hissued k pkg hissuedHere backup hbackup hroot)
      · -- the folder has one backup for each root
        rw [hgiven] at hwritten'
        obtain rfl : pkg = pkg' := PackageText.package.inj (Option.some.inj hwritten')
        obtain rfl := List.inj_on_of_nodup_map hfolder.keyed hown hbackup (hfrom.root_eq.symm.trans hroot)
        exact howns hmine
  · intro hown
    have hcases : ∀ repaired settledRoot count,
        repairRunClaims P ethers (buildRunRecord seed claimPackages payout) backups isRootSettled =
          .ok (.repaired repaired settledRoot count) →
        ∃ backup ∈ backups, safeIsRootSettled isRootSettled backup.claimsRoot = true ∧ ∃ packages,
          rebuildClaimPackages P ethers backup = .ok packages ∧
          applyPackagesToRecord (buildRunRecord seed claimPackages payout) packages = repaired ∧
          (payout.Owns P ethers seed backup ∨
            (∃ own ∈ backups, payout.Owns P ethers seed own ∧ safeIsRootSettled isRootSettled own.claimsRoot = true) ∧
            ∀ row ∈ (buildRunRecord seed claimPackages payout).recipients, ∀ claim,
              backup.claims[row.rowIndex]? = some claim → eqAddr claim.recipient row.address = false) := by
      intro repaired settledRoot count hrepaired
      obtain ⟨hcurrent, backup, packages, hfirst, hrebuild, hrecord, -⟩ := (repairRunClaims_repaired payout claimPackages hfolder).mp hrepaired
      obtain ⟨hbackup, hsettled⟩ := firstSettled_spec hfirst
      obtain ⟨writer, -, hwritten⟩ := hfolder.writer hbackup
      obtain ⟨tier, claims, hvalid, -⟩ := Payout.backup_ok hwritten
      have haccepts := hvalid.rebuilt.1.mp ⟨packages, hrebuild⟩
      refine ⟨backup, hbackup, hsettled, packages, hrebuild, hrecord, ?_⟩
      rcases hown.resolve_left hcurrent backup hfirst with hmine | hrefused | hharmless
      · exact Or.inl hmine
      · exact absurd haccepts hrefused
      · exact Or.inr hharmless
    constructor
    · intro repaired settledRoot count hrepaired
      obtain ⟨backup, hbackup, hsettled, packages, hrebuild, rfl, hmine | ⟨-, hnone⟩⟩ := hcases _ _ _ hrepaired
      · refine (applied_own hfolder hlawful hbackup hmine hrebuild).imp fun row row' hwrote => ?_
        obtain hsame | ⟨pkg, hpkg, hfrom⟩ := hwrote
        · exact Or.inl hsame
        · exact Or.inr ⟨backup, hbackup, hmine, hsettled, pkg, hpkg, hfrom⟩
      · rw [applyPackagesToRecord, List.forall₂_map_right_iff, List.forall₂_same]
        intro row hrow
        rw [applied_none hfolder hlawful hbackup hrebuild (hnone row hrow)]
        exact Or.inl rfl
    · intro hothers repaired settledRoot count hrepaired
      obtain ⟨backup, hbackup, hsettled, packages, -, -, hmine | ⟨⟨own, hown, hmine, hsettled'⟩, -⟩⟩ := hcases _ _ _ hrepaired
      · exact hothers backup hbackup hsettled hmine
      · exact hothers own hown hsettled' hmine

end

/-! ### Two payouts of a wallet to one recipient -/

def payoutTable : List (List Scalar × Scalar) :=
  [([0, 0],
      0x2098f5fb9e239eab3ceac3f27b81e481dc3124d55ffed523a839ee8446b64864),
    ([0x2098f5fb9e239eab3ceac3f27b81e481dc3124d55ffed523a839ee8446b64864,
      0x2098f5fb9e239eab3ceac3f27b81e481dc3124d55ffed523a839ee8446b64864],
      0x1069673dcdb12263df301a6ff584a7ec261a44cb9dc68df067a4774460b1f1e1),
    ([0x1069673dcdb12263df301a6ff584a7ec261a44cb9dc68df067a4774460b1f1e1,
      0x1069673dcdb12263df301a6ff584a7ec261a44cb9dc68df067a4774460b1f1e1],
      0x18f43331537ee2af2e3d758d50f72106467c6eea50371dd528d57eb2b856d238),
    ([0x16505d2cfc8a2c30df1034232066922bdf6466a28b0ed8806fd635c88ed74b11, 0x1111111111111111111111111111111111111111,
      0x2222222222222222222222222222222222222222, 1000000, 1000, 0],
      0x27a18173ecb9fd404714ef9b8a4f43394c495d9f54baaed6540e3d3d27933f6b),
    ([0x27a18173ecb9fd404714ef9b8a4f43394c495d9f54baaed6540e3d3d27933f6b, 0x1111111111111111111111111111111111111111,
      0x2222222222222222222222222222222222222222, 1000000, 1000],
      0x242129311aee1360af9354d5f8e20888b811d442c992e2c3ec893716935abf61),
    ([0x242129311aee1360af9354d5f8e20888b811d442c992e2c3ec893716935abf61, 0],
      0x11be16989c2ce9c5f3cbd120c8d4789e2ee2cca4b7a805c99be1b746fcbea454),
    ([0x11be16989c2ce9c5f3cbd120c8d4789e2ee2cca4b7a805c99be1b746fcbea454,
      0x2098f5fb9e239eab3ceac3f27b81e481dc3124d55ffed523a839ee8446b64864],
      0x17d45f42e876b6742c470de6aefb9defaff1ab582ef7ae90028143a9c9111758),
    ([0x17d45f42e876b6742c470de6aefb9defaff1ab582ef7ae90028143a9c9111758,
      0x1069673dcdb12263df301a6ff584a7ec261a44cb9dc68df067a4774460b1f1e1],
      0x64dc858c655d6d99501f78fb21935be9e934fe4811fcb7ed8c6737374e9508a),
    ([0x64dc858c655d6d99501f78fb21935be9e934fe4811fcb7ed8c6737374e9508a,
      0x18f43331537ee2af2e3d758d50f72106467c6eea50371dd528d57eb2b856d238],
      0xe7a4b64782c34c1e25a64433ea52f1fc0e5f8ba7eaa45ae24c0637997613828),
    ([0x16505d2cfc8a2c30df1034232066922bdf6466a28b0ed8806fd635c88ed74b11, 0x1111111111111111111111111111111111111111,
      0x2222222222222222222222222222222222222222, 2000000, 2000, 0],
      0x9685889aaced7567dc33c7587caaba0dd4abcdaff71ec0c6e05b252a457191e),
    ([0x9685889aaced7567dc33c7587caaba0dd4abcdaff71ec0c6e05b252a457191e, 0x1111111111111111111111111111111111111111,
      0x2222222222222222222222222222222222222222, 2000000, 2000],
      0x1fbdc8e9b494a32edc4b9b26705ce46fdb2b3f57d88c5de2eb43dcbd09614cfb),
    ([0x1fbdc8e9b494a32edc4b9b26705ce46fdb2b3f57d88c5de2eb43dcbd09614cfb, 0],
      0x6fc86725cbb98be124fba992444f76372a57eb478e3e6e7190ad7d6cf4e5eb9),
    ([0x6fc86725cbb98be124fba992444f76372a57eb478e3e6e7190ad7d6cf4e5eb9,
      0x2098f5fb9e239eab3ceac3f27b81e481dc3124d55ffed523a839ee8446b64864],
      0x2a94bc45ca17c2702d93096a70101f4981b18f192905ce54be52bc8ef3b5aed0),
    ([0x2a94bc45ca17c2702d93096a70101f4981b18f192905ce54be52bc8ef3b5aed0,
      0x1069673dcdb12263df301a6ff584a7ec261a44cb9dc68df067a4774460b1f1e1],
      0x1624f7c9a1a866bb8700a01f77082672aac2b794bcc557af0b2a7010619c374d),
    ([0x1624f7c9a1a866bb8700a01f77082672aac2b794bcc557af0b2a7010619c374d,
      0x18f43331537ee2af2e3d758d50f72106467c6eea50371dd528d57eb2b856d238],
      0x252072c9431a0be433b991d1f8a82b9cc90aa8e506219eea83f79843d4cf4186)]

def payoutPoseidon : Poseidon := .ofTable payoutTable (by decide +kernel) (by decide +kernel)

def walletKey : List UInt8 := List.replicate 32 1

/-- The keccak of the domain tag and the key of the wallet. -/
def walletDigest (_ : List UInt8) : ℕ := 0x16505d2cfc8a2c30df1034232066922bdf6466a28b0ed8806fd635c88ed74b11

/-- Addresses without letters are their own checksummed form. -/
def digitEthers : Ethers where
  getAddress := .ok
  parseUnits := Pro.parseUnits

def march : Payout where
  createdAt := 900
  chainId := 1
  settlementAddress := "0x3333333333333333333333333333333333333333"
  tokenAddress := "0x2222222222222222222222222222222222222222"
  tokenAddress_valid := by decide
  tokenSymbol := "USDC"
  tokenDecimals := 6
  rows := [⟨"0x1111111111111111111111111111111111111111", "1"⟩]
  claimFrom := 1000
  label := "march"
  account := none
  relayerUrl := "https://relayer"

def april : Payout :=
  { march with
    createdAt := 1900
    rows := [⟨"0x1111111111111111111111111111111111111111", "2"⟩]
    claimFrom := 2000
    label := "april" }

def marchBackup : ClaimsBackup where
  createdAt := 900
  chainId := 1
  settlementAddress := "0x3333333333333333333333333333333333333333"
  claimsRoot := 0xe7a4b64782c34c1e25a64433ea52f1fc0e5f8ba7eaa45ae24c0637997613828
  tierCap := 16
  token := "0x2222222222222222222222222222222222222222"
  tokenSymbol := "USDC"
  tokenDecimals := 6
  payoutSeed := some (walletDigest walletKey)
  runLabel := some "march"
  senderLabel := none
  relayerUrl := some "https://relayer"
  claims := [{
    recipient := "0x1111111111111111111111111111111111111111"
    amount := 1000000
    releaseTime := 1000
    secret := 0x27a18173ecb9fd404714ef9b8a4f43394c495d9f54baaed6540e3d3d27933f6b }]

def aprilBackup : ClaimsBackup :=
  { marchBackup with
    createdAt := 1900
    claimsRoot := 0x252072c9431a0be433b991d1f8a82b9cc90aa8e506219eea83f79843d4cf4186
    runLabel := some "april"
    claims := [{
      recipient := "0x1111111111111111111111111111111111111111"
      amount := 2000000
      releaseTime := 2000
      secret := 0x9685889aaced7567dc33c7587caaba0dd4abcdaff71ec0c6e05b252a457191e }] }

theorem march_backup : march.backup payoutPoseidon digitEthers (walletDigest walletKey) = .ok marchBackup := by decide +kernel

theorem april_backup : april.backup payoutPoseidon digitEthers (walletDigest walletKey) = .ok aprilBackup := by decide +kernel

theorem digitEthers_lawful : digitEthers.Lawful := by
  rintro address normalized - hnormal
  rw [Except.ok.inj hnormal]

theorem wallet_folder : Folder payoutPoseidon digitEthers walletDigest walletKey (walletDigest walletKey) [march, april]
    [aprilBackup, marchBackup] where
  seed_eq := by decide +kernel
  written := by
    intro backup hbackup
    have hseed : claimSeedFromKey walletDigest walletKey = .ok (walletDigest walletKey) := by decide +kernel
    rw [hseed]
    simp only [List.mem_cons, List.not_mem_nil, or_false] at hbackup
    rcases hbackup with rfl | rfl
    · exact ⟨april, by simp, april_backup⟩
    · exact ⟨march, by simp, march_backup⟩
  keyed := by decide +kernel

theorem unissued (payout : Payout) (backups : List ClaimsBackup) :
    Issued payoutPoseidon digitEthers (walletDigest walletKey) payout backups fun _ => none :=
  fun _ _ hnone => by cases hnone

theorem repair_sound_march :
    RepairSound payoutPoseidon digitEthers (walletDigest walletKey) march
      (buildRunRecord (walletDigest walletKey) (fun _ => none) march) [aprilBackup, marchBackup]
      fun root => .ok (root = marchBackup.claimsRoot) := by
  refine (repair_sound_iff digitEthers_lawful wallet_folder (unissued _ _)).mpr (Or.inr fun backup hfirst => Or.inl ?_)
  have hmarch : march.firstSettled [aprilBackup, marchBackup] (fun root => .ok (root = marchBackup.claimsRoot)) =
      some marchBackup := by decide +kernel
  obtain rfl := Option.some.inj (hmarch.symm.trans hfirst)
  exact ⟨marchBackup, march_backup, rfl, rfl, rfl⟩

/-- With the payout of April settled and that of March not, the record of March gets the package of April. -/
theorem march_gets_april :
    digitEthers.Lawful ∧
      Folder payoutPoseidon digitEthers walletDigest walletKey (walletDigest walletKey) [march, april]
        [aprilBackup, marchBackup] ∧
      Issued payoutPoseidon digitEthers (walletDigest walletKey) march [aprilBackup, marchBackup] (fun _ => none) ∧
      ¬RepairSound payoutPoseidon digitEthers (walletDigest walletKey) march
        (buildRunRecord (walletDigest walletKey) (fun _ => none) march) [aprilBackup, marchBackup]
        fun root => .ok (root = aprilBackup.claimsRoot) := by
  refine ⟨digitEthers_lawful, wallet_folder, unissued _ _, fun hsound => ?_⟩
  have hfirst : march.firstSettled [aprilBackup, marchBackup] (fun root => .ok (root = aprilBackup.claimsRoot)) =
      some aprilBackup := by decide +kernel
  obtain ⟨tier, claims, hvalid, -⟩ := Payout.backup_ok april_backup
  obtain ⟨packages, hrebuild⟩ := hvalid.rebuilt.1.mpr fun _ _ => ⟨⟨_, rfl⟩, _, rfl⟩
  have hrepaired := (repairRunClaims_repaired march (fun _ => none) wallet_folder).mpr
    ⟨by decide, aprilBackup, packages, hfirst, hrebuild, rfl, rfl, rfl⟩
  refine hsound.others (fun backup hbackup hsettled hown => ?_) _ _ _ hrepaired
  obtain ⟨own, hown, -, -, hclaims⟩ := hown
  obtain rfl := Except.ok.inj (march_backup.symm.trans hown)
  simp only [List.mem_cons, List.not_mem_nil, or_false] at hbackup
  rcases hbackup with rfl | rfl
  · exact absurd hclaims (by decide)
  · exact absurd hsettled (by decide)

end Pay

end ScatterDex
