import ScatterDex.Sdk.ClaimPackage
import ScatterDex.Sdk.Payout
import ScatterDex.Sdk.Text

/-!
# The repair of claim links in Pay

`payouts/new/page.tsx` and `_buildRunRecord.ts` up to the backup and the run record of a payout, `claimsBackup.ts`, and `repairClaims.ts`. Numbers in records and backups are the numbers their strings spell, and dates are seconds since 1970.
-/

namespace ScatterDex

open Fallible Sdk

namespace Pay

/-- What ethers does with addresses and amounts. -/
structure Ethers where
  getAddress : String → Except String String
  parseUnits : String → ℕ → Except String ℕ

/-- `getAddress` changes nothing but the case of the letters of a hexadecimal address. -/
def Ethers.Lawful (ethers : Ethers) : Prop :=
  ∀ address normalized, isAddress address.toList = true → ethers.getAddress address = .ok normalized →
    toLowerCase normalized = toLowerCase address

variable (P : Poseidon) (ethers : Ethers)

/-! ### Payouts -/

/-- A row of the wizard. -/
structure WizardRow where
  address : String
  amount : String

/-- `replace(/[,_\s]/g, "")` -/
def cleanAmount (amount : String) : String :=
  String.ofList (amount.toList.filter fun c => ¬(c = ',' ∨ c = '_' ∨ isWhitespace c))

def parseRecipientRows (decimals releaseTime : ℕ) : List WizardRow → Except String (List PayoutRecipient)
  | [] => .ok []
  | r :: rows => do
    let cleaned := cleanAmount r.amount
    require (isDecimal cleaned.toList) s!"invalid amount: {r.amount}"
    require (isAddress r.address.toList) s!"invalid address: {r.address}"
    let amount ← ethers.parseUnits cleaned decimals
    let rest ← parseRecipientRows decimals releaseTime rows
    return { recipient := r.address, amount, releaseTime, secret := none } :: rest

/-- A payout, as it is submitted. Its token is one of the network configuration. -/
structure Payout where
  createdAt : ℕ
  chainId : ℕ
  settlementAddress : String
  tokenAddress : String
  tokenAddress_valid : isAddress tokenAddress.toList = true
  tokenSymbol : String
  tokenDecimals : ℕ
  rows : List WizardRow
  claimFrom : ℕ
  label : String
  account : Option String
  relayerUrl : String

structure ClaimsBackupClaim where
  recipient : String
  amount : ℕ
  releaseTime : ℕ
  secret : ℕ
  deriving DecidableEq

structure ClaimsBackup where
  createdAt : ℕ
  chainId : ℕ
  settlementAddress : String
  claimsRoot : ℕ
  tierCap : ℕ
  token : String
  tokenSymbol : String
  tokenDecimals : ℕ
  payoutSeed : Option ℕ
  runLabel : Option String
  senderLabel : Option String
  relayerUrl : Option String
  claims : List ClaimsBackupClaim
  deriving DecidableEq

/-- The batch of a payout: it has to fit one settlement. -/
def Payout.batch (seed : ℕ) (payout : Payout) : Except String PayoutBatch := do
  let recipients ← parseRecipientRows ethers payout.tokenDecimals payout.claimFrom payout.rows
  let seeded ← withDeterministicSecrets P seed payout.tokenAddress 0 recipients
  -- no secret is missing, so none is drawn
  let batches ← splitPayout payout.tokenAddress (fun _ => 0) seeded
  match batches with
  | [batch] => return batch
  | _ => throw s!"This payout would need {batches.length} settlement transactions; Pay caps at one per payout. Reduce recipients to 128 or fewer, or split into multiple runs."

/-- The backup that a payout writes before it is sent. Its root is that of the authorize proof. -/
def Payout.backup (seed : ℕ) (payout : Payout) : Except String ClaimsBackup := do
  let batch ← payout.batch P ethers seed
  let claims ← batch.claims.mapM ClaimEntry.fields
  let tree ← buildMerkleTree P (claimLeaves P batch.tier claims) batch.tier.claimsTreeDepth
  return {
    createdAt := payout.createdAt
    chainId := payout.chainId
    settlementAddress := payout.settlementAddress
    claimsRoot := tree.root
    tierCap := batch.tier.cap
    token := payout.tokenAddress
    tokenSymbol := payout.tokenSymbol
    tokenDecimals := payout.tokenDecimals
    payoutSeed := some seed
    runLabel := some payout.label
    senderLabel := payout.account
    relayerUrl := some payout.relayerUrl
    claims := batch.claims.map fun c => {
      recipient := c.recipient
      amount := c.amount
      releaseTime := c.releaseTime
      secret := c.secret } }

/-! ### Run records -/

/-- The encoded package of a row: one that `decodeClaimPackage` reads, or another text. -/
inductive PackageText
  | package (pkg : ClaimPackage)
  | malformed

structure RecipientRow where
  rowIndex : ℕ
  address : String
  amount : String
  claimPackage : Option PackageText

structure RunRecord where
  label : String
  chainId : ℕ
  tokenAddress : String
  payoutSeed : Option ℕ
  recipients : List RecipientRow

def lower (s : String) : String := String.ofList (toLowerCase s)

/-- `buildRunRecord`, with the packages that the run has for its rows. -/
def buildRunRecord (seed : ℕ) (claimPackages : ℕ → Option PackageText) (payout : Payout) : RunRecord where
  label := payout.label
  chainId := payout.chainId
  tokenAddress := payout.tokenAddress
  payoutSeed := some seed
  recipients := payout.rows.mapIdx fun i r => {
    rowIndex := i
    address := lower r.address
    amount := r.amount
    claimPackage := claimPackages i }

/-! ### repairClaims.ts -/

def ClaimsBackupClaim.entry (token : String) (c : ClaimsBackupClaim) : ClaimEntry where
  secret := c.secret
  recipient := c.recipient
  token
  amount := c.amount
  releaseTime := c.releaseTime

/-- The package of the leaf at index `i`. -/
def rebuildPackage (backup : ClaimsBackup) (tree : ClaimsTree) (i : ℕ) (c : ClaimsBackupClaim) : Except String ClaimPackage := do
  let (pathElements, pathIndices) ← getMerkleProof tree.layers i
  let recipient ← ethers.getAddress c.recipient
  let token ← ethers.getAddress backup.token
  return {
    chainId := backup.chainId
    settlementAddress := backup.settlementAddress
    claimsRoot := backup.claimsRoot
    recipient
    token
    tokenSymbol := backup.tokenSymbol
    tokenDecimals := backup.tokenDecimals
    amount := c.amount
    releaseTime := c.releaseTime
    secret := c.secret
    leafIndex := i
    pathElements
    pathIndices
    senderLabel := backup.senderLabel
    runLabel := backup.runLabel
    relayerUrl := backup.relayerUrl }

def rebuildClaimPackages (backup : ClaimsBackup) : Except String (List ClaimPackage) := do
  match Sdk.tiers.find? fun t => t.cap = backup.tierCap with
  | none => throw s!"Unsupported tierCap {backup.tierCap} in claims backup"
  | some tier =>
    let tree ← buildClaimsTree P (backup.claims.map (ClaimsBackupClaim.entry backup.token)) tier
    require (¬tree.root ≠ backup.claimsRoot) "Rebuilt claimsRoot does not match the backup — claim inputs are inconsistent."
    backup.claims.zipIdx.mapM fun (c, i) => rebuildPackage ethers backup tree i c

/-- The root of the first package of a record that can be read. -/
def recordClaimsRoot (record : RunRecord) : Option ℕ :=
  record.recipients.findSome? fun r => match r.claimPackage with
    | some (.package pkg) => some pkg.claimsRoot
    | _ => none

/-- Equal counts of every address, in lower case. -/
def countsEqual (a b : List String) : Bool :=
  let as := a.map toLowerCase
  let bs := b.map toLowerCase
  as.dedup.length = bs.dedup.length ∧ as.all fun k => as.count k = bs.count k

def backupMatchesRun (backup : ClaimsBackup) (record : RunRecord) : Bool :=
  if backup.chainId ≠ record.chainId then false
  else if ¬eqAddr backup.token record.tokenAddress then false
  else match backup.payoutSeed, record.payoutSeed with
    | some backupSeed, some recordSeed => backupSeed = recordSeed
    | _, _ => countsEqual (record.recipients.map RecipientRow.address) (backup.claims.map ClaimsBackupClaim.recipient)

/-- The package a row is given: the one of its leaf, if it is for the row's address. -/
def packageFor (packages : List ClaimPackage) (r : RecipientRow) : Option ClaimPackage :=
  -- a later package takes the place of an earlier one of the same leaf
  (packages.reverse.find? fun p => p.leafIndex = (r.rowIndex : ℤ)).filter fun pkg => eqAddr pkg.recipient r.address

def applyPackagesToRecord (record : RunRecord) (packages : List ClaimPackage) : RunRecord :=
  { record with
    recipients := record.recipients.map fun r => match packageFor packages r with
      | some pkg => { r with claimPackage := some (.package pkg) }
      | none => r }

def safeIsRootSettled (isRootSettled : ℕ → Except String Bool) (claimsRoot : ℕ) : Bool :=
  match isRootSettled claimsRoot with
  | .ok settled => settled
  | .error _ => false

inductive RepairResult
  | ok
  | noBackup
  | noSettledRoot
  | repaired (record : RunRecord) (settledRoot recoveredCount : ℕ)

/-- The first backup of the run whose root is settled. -/
def settledBackup (isRootSettled : ℕ → Except String Bool) (candidates : List ClaimsBackup) : Option ClaimsBackup :=
  candidates.find? fun b => safeIsRootSettled isRootSettled b.claimsRoot

def repairRunClaims (record : RunRecord) (backups : List ClaimsBackup) (isRootSettled : ℕ → Except String Bool) :
    Except String RepairResult :=
  if (recordClaimsRoot record).any (safeIsRootSettled isRootSettled) then .ok .ok
  else
    let candidates := backups.filter fun b => backupMatchesRun b record
    if candidates.length = 0 then .ok .noBackup
    else match settledBackup isRootSettled candidates with
      | none => .ok .noSettledRoot
      | some settled => do
        let packages ← rebuildClaimPackages P ethers settled
        return .repaired (applyPackagesToRecord record packages) settled.claimsRoot packages.length

end Pay

end ScatterDex
