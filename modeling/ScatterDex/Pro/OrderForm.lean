import ScatterDex.Sdk.Authorize
import ScatterDex.Sdk.Text

/-!
# The order form of Pro

`tradeForm.tsx`, `parseUnits.ts`, `fee.ts` and `OrderModal.tsx`: from the rows of the form to the input of the authorize prover. Random numbers, the clock and `Date.parse` are parameters; a date is a number of milliseconds since 1970.
-/

namespace ScatterDex

open Fallible Sdk

namespace Pro

/-! ### Amounts -/

/-- `replace(/,/g, "")` -/
def withoutCommas (s : String) : String := String.ofList (s.toList.filter (· ≠ ','))

/-- `parseUnits`: a decimal amount in base units. -/
def parseUnits (amount : String) (decimals : ℕ) : Except String ℕ := do
  let trimmed := trim amount
  require (¬trimmed = []) "parseUnits: empty amount"
  require (isDecimal trimmed) "parseUnits: invalid number"
  let whole := trimmed.takeWhile (· ≠ '.')
  let frac := (trimmed.dropWhile (· ≠ '.')).drop 1
  require (¬frac.length > decimals)
    s!"parseUnits: too many fractional digits ({frac.length} > {decimals})"
  let padded := frac ++ List.replicate (decimals - frac.length) '0'
  bigInt (String.ofList (whole ++ padded))

/-- `formatTokenAmount`, on an amount that is not negative. -/
def formatTokenAmount (amount decimals : ℕ) : String :=
  let digits := (toString (amount % 10 ^ decimals)).toList
  let frac := (List.replicate (decimals - digits.length) '0' ++ digits).rdropWhile (· = '0')
  if decimals = 0 then toString amount
  else if frac = [] then toString (amount / 10 ^ decimals)
  else s!"{amount / 10 ^ decimals}.{String.ofList frac}"

/-! ### The form -/

structure RecipientRow where
  address : String
  amount : String
  releaseAt : String

def maxRecipients : ℕ := 128

/-- The recipients of the form: it starts with one row, keeps the last one and adds none past the maximum. -/
structure Recipients where
  rows : List RecipientRow
  length_pos : 0 < rows.length
  length_le : rows.length ≤ maxRecipients

structure Token where
  address : String
  symbol : String
  decimals : ℕ

inductive Side
  | sell
  | buy
  deriving DecidableEq

/-- The relayer of an order, with its quoted fee. -/
structure Relayer where
  address : String
  fee : ℕ

/-- What the form holds when it is submitted. -/
structure OrderForm where
  recipients : Recipients
  side : Side
  price : String
  size : String
  /-- The amounts of the order taken, which are signed as they are. -/
  takeMode : Option (ℕ × ℕ)
  baseToken : Token
  quoteToken : Token
  selectedRelayer : Option Relayer

/-- What a submission reads besides the form: the wallet, the funding note with its path, the clock and the random numbers. -/
structure Session where
  account : String
  note : CommitmentNote
  leafIndex : ℤ
  merkleProof : MerkleProof
  eddsaPrivateKey : List UInt8
  nowSec : ℕ
  dateParse : String → Option ℕ
  secrets : ℕ → ℕ
  nonce : ℕ
  newSalt : ℕ

def OrderForm.sellToken (form : OrderForm) : Token :=
  if form.side = .sell then form.baseToken else form.quoteToken

def OrderForm.buyToken (form : OrderForm) : Token :=
  if form.side = .sell then form.quoteToken else form.baseToken

def zeroAddress : String := "0x0000000000000000000000000000000000000000"

/-- `applyFeeBig`: the fee and what is left. -/
def applyFeeBig (gross bps : ℕ) : ℕ × ℕ :=
  let fee := gross * bps / 10000
  (fee, if gross > fee then gross - fee else 0)

/-- The two amounts of the order: those of the order taken, or size and price. -/
def OrderForm.amounts (form : OrderForm) : Except String (ℕ × ℕ) :=
  match form.takeMode with
  | some amounts => .ok amounts
  | none => do
    let cleanPrice := withoutCommas form.price
    let cleanSize := withoutCommas form.size
    let sizeBaseUnits ← parseUnits cleanSize form.baseToken.decimals
    let priceUnits ← parseUnits cleanPrice form.quoteToken.decimals
    let quoted := priceUnits * sizeBaseUnits / 10 ^ form.baseToken.decimals
    return if form.side = .sell then (sizeBaseUnits, quoted) else (quoted, sizeBaseUnits)

/-! ### Recipients -/

/-- The loop that adds up the amounts of the rows. -/
def sumAmounts (decimals : ℕ) : ℕ → List RecipientRow → Except String ℕ
  | _, [] => .ok 0
  | i, r :: rows => do
    require (¬trim r.amount = []) s!"Recipient #{i + 1} is missing an amount."
    let amount ← (parseUnits (withoutCommas r.amount) decimals).mapError fun _ =>
      s!"Recipient #{i + 1} amount \"{r.amount}\" is not a valid number."
    let total ← sumAmounts decimals (i + 1) rows
    return amount + total

def checkAddresses : ℕ → List RecipientRow → Except String Unit
  | _, [] => .ok ()
  | i, r :: rows => do
    let trimmed := trim r.address
    require (trimmed = [] ∨ isAddress trimmed)
      s!"Recipient #{i + 1} address \"{String.ofList trimmed}\" is not a valid 0x… address."
    checkAddresses (i + 1) rows

def rowAmount (buyTokenDecimals : ℕ) (autoFill : Option ℕ) (r : RecipientRow) : Except String ℕ :=
  match autoFill with
  | some netReceive => .ok netReceive
  | none => parseUnits (withoutCommas r.amount) buyTokenDecimals

/-- The claim of each row. An empty address is the connected wallet, and a single row without an amount takes everything. -/
def claimEntries (secrets : ℕ → ℕ) (defaultRecipient buyTokenAddress : String) (buyTokenDecimals : ℕ)
    (autoFill : Option ℕ) : ℕ → List RecipientRow → Except String (List ClaimEntry)
  | _, [] => .ok []
  | i, r :: rows => do
    let trimmed := trim r.address
    let amount ← rowAmount buyTokenDecimals autoFill r
    let entries ← claimEntries secrets defaultRecipient buyTokenAddress buyTokenDecimals autoFill (i + 1) rows
    return {
      secret := secrets i
      recipient := if trimmed = [] then defaultRecipient else String.ofList trimmed
      token := buyTokenAddress
      amount
      releaseTime := 0 } :: entries

def autoFillSingle (rows : List RecipientRow) : Bool :=
  match rows with
  | [r] => trim r.amount = []
  | _ => false

def resolveClaims (secrets : ℕ → ℕ) (rows : List RecipientRow) (defaultRecipient buyTokenAddress : String)
    (buyTokenDecimals netReceive : ℕ) : Except String (List ClaimEntry) := do
  if autoFillSingle rows then
    checkAddresses 0 rows
    claimEntries secrets defaultRecipient buyTokenAddress buyTokenDecimals (some netReceive) 0 rows
  else
    let total ← sumAmounts buyTokenDecimals 0 rows
    let diff := if total > netReceive then total - netReceive else netReceive - total
    let sign := if total > netReceive then "+" else "−"
    require (¬total ≠ netReceive)
      s!"Recipient amounts must sum to the post-fee net receive. Off by {sign}{formatTokenAmount diff buyTokenDecimals}."
    checkAddresses 0 rows
    claimEntries secrets defaultRecipient buyTokenAddress buyTokenDecimals none 0 rows

/-! ### The submission, up to the prover -/

def releaseAtToUnixSec (dateParse : String → Option ℕ) (nowSec : ℕ) (row : RecipientRow) : ℕ :=
  if row.releaseAt = "" then nowSec
  else match dateParse row.releaseAt with
    | some ms => ms / 1000
    | none => nowSec

/-- The latest settlement time: five minutes before the earliest claim that is still locked. -/
def expirySec (nowSec : ℕ) (claims : List ClaimEntry) : Except String ℕ :=
  match ((claims.map ClaimEntry.releaseTime).filter (· > nowSec)).min? with
  | none => .ok (nowSec + 3600)
  | some minClaim => do
    require (¬minClaim - nowSec < 360)
      s!"Earliest claim time is {minClaim - nowSec} sec away — too tight to settle before. Push the claim time at least 6 minutes out."
    return minClaim - 300

/-- `submit` up to the prover, past the gates on the wallet, on the status of the note and on the identity of the recipients. -/
def OrderForm.proofInput (form : OrderForm) (session : Session) : Except String AuthorizeProofInput := do
  let rows := form.recipients.rows
  let sellTokenAddress ← bigInt form.sellToken.address
  require (¬session.note.token ≠ sellTokenAddress)
    s!"Vault note is in a different token than {form.sellToken.symbol}. Deposit {form.sellToken.symbol} or switch side / pair."
  let (sellAmount, buyAmount) ← form.amounts
  require (¬(sellAmount = 0 ∨ buyAmount = 0)) "Price and size must be positive."
  require (¬sellAmount > session.note.amount) s!"Order size ({form.size}) exceeds the vault note's balance."
  let relayerFeeBps := (form.selectedRelayer.map Relayer.fee).getD 0
  let netReceive := (applyFeeBig buyAmount relayerFeeBps).2
  let resolved ← resolveClaims session.secrets rows session.account form.buyToken.address form.buyToken.decimals netReceive
  let claims := List.zipWith (fun claim row =>
    { claim with releaseTime := releaseAtToUnixSec session.dateParse session.nowSec row }) resolved rows
  let expiry ← expirySec session.nowSec claims
  let change := session.note.amount - sellAmount
  return {
    note := session.note
    leafIndex := session.leafIndex
    allLeaves := none
    merkleProof := some session.merkleProof
    sellAmount
    buyToken := form.buyToken.address
    buyAmount
    maxFee := relayerFeeBps
    expiry
    nonce := session.nonce
    relayer := (form.selectedRelayer.map Relayer.address).getD zeroAddress
    eddsaPrivateKey := session.eddsaPrivateKey
    claims
    newSalt := if change > 0 then some session.newSalt else none }

/-! ### What a resolved list of recipients is -/

/-- An address the submission can use: a row's own one, or that of the connected wallet. -/
def Usable (defaultRecipient recipient : String) : Prop :=
  recipient = defaultRecipient ∨ isAddress recipient.toList = true

theorem checkAddresses_ok {i : ℕ} {rows : List RecipientRow} {u : Unit} (hcheck : checkAddresses i rows = .ok u) :
    ∀ r ∈ rows, trim r.address = [] ∨ isAddress (trim r.address) = true := by
  induction rows generalizing i with
  | nil => simp
  | cons r rows ih =>
    simp only [checkAddresses, bind_eq_ok, require_eq_ok] at hcheck
    obtain ⟨-, haddress, hrest⟩ := hcheck
    exact List.forall_mem_cons.mpr ⟨haddress, ih hrest⟩

variable {secrets : ℕ → ℕ} {defaultRecipient buyTokenAddress : String} {buyTokenDecimals : ℕ}

theorem claimEntries_spec {autoFill : Option ℕ} {i : ℕ} {rows : List RecipientRow} {entries : List ClaimEntry}
    (haddresses : ∀ r ∈ rows, trim r.address = [] ∨ isAddress (trim r.address) = true)
    (hentries : claimEntries secrets defaultRecipient buyTokenAddress buyTokenDecimals autoFill i rows = .ok entries) :
    entries.length = rows.length ∧
      ∀ entry ∈ entries, entry.token = buyTokenAddress ∧ Usable defaultRecipient entry.recipient := by
  induction rows generalizing i entries with
  | nil =>
    obtain rfl := Except.ok.inj hentries
    simp
  | cons r rows ih =>
    simp only [claimEntries, bind_eq_ok, pure_eq_ok] at hentries
    obtain ⟨amount, -, entries', hrest, rfl⟩ := hentries
    obtain ⟨haddress, haddresses⟩ := List.forall_mem_cons.mp haddresses
    obtain ⟨hlength, hall⟩ := ih haddresses hrest
    refine ⟨by rw [List.length_cons, List.length_cons, hlength], List.forall_mem_cons.mpr ⟨⟨rfl, ?_⟩, hall⟩⟩
    by_cases hempty : trim r.address = []
    · exact Or.inl (if_pos hempty)
    · refine Or.inr ?_
      rw [if_neg hempty, String.toList_ofList]
      exact haddress.resolve_left hempty

theorem claimEntries_sum {i : ℕ} {rows : List RecipientRow} {entries : List ClaimEntry} {total : ℕ}
    (hsum : sumAmounts buyTokenDecimals i rows = .ok total)
    (hentries : claimEntries secrets defaultRecipient buyTokenAddress buyTokenDecimals none i rows = .ok entries) :
    (entries.map ClaimEntry.amount).sum = total := by
  induction rows generalizing i entries total with
  | nil =>
    obtain rfl := Except.ok.inj hentries
    obtain rfl := Except.ok.inj hsum
    rfl
  | cons r rows ih =>
    simp only [claimEntries, bind_eq_ok, pure_eq_ok] at hentries
    simp only [sumAmounts, bind_eq_ok, pure_eq_ok, mapError_eq_ok] at hsum
    obtain ⟨amount, hamount, entries', hrest, rfl⟩ := hentries
    obtain ⟨-, -, amount', hamount', total', hrest', rfl⟩ := hsum
    obtain rfl := Except.ok.inj (hamount.symm.trans hamount')
    rw [List.map_cons, List.sum_cons, ih hrest' hrest]

/-- **A resolved list of recipients**: one claim a row, of the bought token, to addresses, for the net receive in all. -/
theorem resolveClaims_spec {rows : List RecipientRow} {netReceive : ℕ} {entries : List ClaimEntry}
    (hresolve : resolveClaims secrets rows defaultRecipient buyTokenAddress buyTokenDecimals netReceive = .ok entries) :
    entries.length = rows.length ∧ (entries.map ClaimEntry.amount).sum = netReceive ∧
      ∀ entry ∈ entries, entry.token = buyTokenAddress ∧ Usable defaultRecipient entry.recipient := by
  unfold resolveClaims at hresolve
  split at hresolve
  · next hauto =>
    obtain ⟨u, hcheck, hentries⟩ := bind_eq_ok.mp hresolve
    obtain ⟨hlength, hall⟩ := claimEntries_spec (checkAddresses_ok hcheck) hentries
    refine ⟨hlength, ?_, hall⟩
    unfold autoFillSingle at hauto
    split at hauto
    · simp only [claimEntries, rowAmount, bind_eq_ok, pure_eq_ok, Except.ok.injEq] at hentries
      obtain ⟨amount, rfl, entries', rfl, rfl⟩ := hentries
      simp
    · exact absurd hauto Bool.false_ne_true
  · simp only [bind_eq_ok, require_eq_ok, not_not] at hresolve
    obtain ⟨total, hsum, _, rfl, u, hcheck, hentries⟩ := hresolve
    obtain ⟨hlength, hall⟩ := claimEntries_spec (checkAddresses_ok hcheck) hentries
    exact ⟨hlength, claimEntries_sum hsum hentries, hall⟩

/-! ### What the prover is handed -/

/-- The fee leaves at least the share that the prover asks for. -/
theorem applyFeeBig_share (gross : ℕ) {bps : ℕ} (hbps : bps ≤ 10000) :
    gross * (10000 - bps) ≤ (applyFeeBig gross bps).2 * 10000 := by
  have hfloor := Nat.div_mul_le_self (gross * bps) 10000
  have hfee : gross * bps / 10000 ≤ gross := Nat.div_le_of_le_mul (by rw [Nat.mul_comm]; exact Nat.mul_le_mul_right _ hbps)
  have hshare : gross * (10000 - bps) + gross * bps = gross * 10000 := by
    rw [← Nat.mul_add, Nat.sub_add_cancel hbps]
  have hnet : (applyFeeBig gross bps).2 = gross - gross * bps / 10000 := by
    rw [applyFeeBig]
    dsimp only
    split <;> omega
  rw [hnet, Nat.sub_mul]
  omega

variable {form : OrderForm} {session : Session} {input : AuthorizeProofInput}

/-- The input of the prover for a form that was let through. -/
structure Prepared (form : OrderForm) (session : Session) (input : AuthorizeProofInput) : Prop where
  claims_length : input.claims.length = form.recipients.rows.length
  claims_token : ∀ claim ∈ input.claims, claim.token = input.buyToken
  claims_recipient : ∀ claim ∈ input.claims, Usable session.account claim.recipient
  claims_sum : (input.claims.map ClaimEntry.amount).sum = (applyFeeBig input.buyAmount input.maxFee).2
  sellAmount_le : input.sellAmount ≤ input.note.amount
  buyToken : input.buyToken = form.buyToken.address
  maxFee : input.maxFee = (form.selectedRelayer.map Relayer.fee).getD 0
  relayer : input.relayer = (form.selectedRelayer.map Relayer.address).getD zeroAddress
  merkleProof : input.merkleProof = some session.merkleProof

theorem map_zipWith_left {α β γ : Type} {f : α → β → α} {g : α → γ} (hkept : ∀ a b, g (f a b) = g a) {xs : List α}
    {ys : List β} (hlength : xs.length = ys.length) : (List.zipWith f xs ys).map g = xs.map g := by
  induction xs generalizing ys with
  | nil => rfl
  | cons x xs ih =>
    cases ys with
    | nil => exact absurd hlength (Nat.succ_ne_zero _)
    | cons y ys =>
      rw [List.zipWith_cons_cons, List.map_cons, List.map_cons, hkept, ih (Nat.succ.inj hlength)]

theorem OrderForm.proofInput_ok (hprepare : form.proofInput session = .ok input) : Prepared form session input := by
  simp only [OrderForm.proofInput, bind_eq_ok, require_eq_ok, pure_eq_ok] at hprepare
  obtain ⟨_, -, _, -, ⟨sellAmount, buyAmount⟩, -, _, -, _, hsell, resolved, hresolve, expiry, -, rfl⟩ := hprepare
  obtain ⟨hlength, hsum, hall⟩ := resolveClaims_spec hresolve
  let patch (claim : ClaimEntry) (row : RecipientRow) : ClaimEntry :=
    { claim with releaseTime := releaseAtToUnixSec session.dateParse session.nowSec row }
  have hkept : ∀ claim ∈ List.zipWith patch resolved form.recipients.rows,
      claim.token = form.buyToken.address ∧ Usable session.account claim.recipient := by
    intro claim hclaim
    have hmap := map_zipWith_left (f := patch) (g := fun claim => (claim.token, claim.recipient)) (fun _ _ => rfl) hlength
    have hmem := List.mem_map_of_mem (f := fun claim => (claim.token, claim.recipient)) hclaim
    rw [hmap, List.mem_map] at hmem
    obtain ⟨entry, hentry, heq⟩ := hmem
    obtain ⟨htoken, hrecipient⟩ := Prod.mk.inj heq
    rw [← htoken, ← hrecipient]
    exact hall entry hentry
  exact {
    claims_length := by rw [List.length_zipWith, hlength, Nat.min_self]
    claims_token := fun claim hclaim => (hkept claim hclaim).1
    claims_recipient := fun claim hclaim => (hkept claim hclaim).2
    claims_sum := by
      have hamounts : (List.zipWith patch resolved form.recipients.rows).map ClaimEntry.amount =
          resolved.map ClaimEntry.amount := map_zipWith_left (f := patch) (fun _ _ => rfl) hlength
      exact (congrArg List.sum hamounts).trans hsum
    sellAmount_le := not_lt.mp hsell
    buyToken := rfl
    maxFee := rfl
    relayer := rfl
    merkleProof := rfl }

end Pro

end ScatterDex
