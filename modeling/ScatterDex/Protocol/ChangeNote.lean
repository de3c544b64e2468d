import ScatterDex.Library.Mempool
import ScatterDex.Library.Transactions
import ScatterDex.Pay.RealSettle
import ScatterDex.Protocol.ClaimRepair

/-!
# The change of a settlement

Pay spends a source note in attempts: each draws a change salt of its own, posts the order to a relayer, asks for the transaction, and saves the change note when the receipt is there. All attempts share the nullifier, and the claims root when the payout is the same, so neither tells the relayer's answers apart. The change of a settlement is kept as long as no attempt is given up while its order can still settle.
-/

namespace ScatterDex

open Bn254 Fallible Relayer Sdk Transactions

namespace Pay

/-! ### The parties -/

/-- A `scatterDirectAuth` transaction that spends the source note. -/
abbrev SettleTx := Mempool.Tx AuthorizeOrderFile

/-- How far an attempt got. -/
inductive Stage
  | prepared
  | posted
  | polling
  | answered (txHash : ℕ)
  | finalized (result : RealSettleResult)
  | added

/-- An attempt, as the page holds it in memory. The replies are under way to it. -/
structure Attempt where
  prep : PreparedSettle
  order : AuthorizeOrderFile
  stage : Stage
  replies : List StatusReply

def Attempt.relayerUrl (a : Attempt) : String := a.prep.ctx.relayerUrl

/-- The state of the client, the relayers and the chain, as far as it is about one source note. The hash of a transaction is its place among those sent. -/
structure World where
  source : CommitmentNote
  /-- Whether the vault has the source note. -/
  held : Bool
  /-- The change notes in the vault. -/
  vault : List Change
  attempt : Option Attempt
  requests : List (String × AuthorizeOrderFile)
  rows : String → Option AuthorizeOrderRow
  txs : List SettleTx
  /-- What `finalizeRealSettle` returned so far. -/
  returned : List RealSettleResult

inductive Step
  | begin (nonce newSalt : ℕ) (args : RealSettleArgs)
  | post
  | receive (i : ℕ)
  | poll
  | finalize
  | add
  | remove
  /-- The page is closed, or the attempt ends with an error: a timeout, a lost connection, a failed write. -/
  | stop
  | lose (i : ℕ)
  | handle (i : ℕ) (relayerAddress : Address) (nowSeconds : ℕ) (admission : Except (ℕ × String) Unit)
  | broadcast (url : String)
  | report (url : String) (status : AuthorizeOrderStatus) (attempt : ℕ) (lastError : Option String) (settleTx : Option ℕ)
  | purge (url : String)
  | mine (txHash : ℕ)
  | revert (txHash : ℕ)

/-- The next stage of `submitRealSettle` on a reply. -/
def Stage.receive : Stage → StatusReply → Except String Stage
  | .posted, reply => do
    require (¬reply.status = .failed) (reply.error.getD "Relayer rejected the authorize order")
    match reply.settleTxHash with
    | some txHash => return .answered txHash
    | none => return .polling
  | .polling, reply =>
    match reply.settleTxHash with
    | some txHash => .ok (.answered txHash)
    | none => do
      require (¬reply.status = .failed) (reply.error.getD "Relayer dispatch failed")
      return .polling
  | _, _ => .error "no reply is awaited"

/-- What `waitForTransaction` returns once the transaction is in a block. -/
def receiptOf (settlementAddress : String) (txs : List SettleTx) (txHash : ℕ) : Option Receipt :=
  match txs[txHash]? with
  | some ⟨order, .mined⟩ => some {
      status := 1
      logs := [⟨settlementAddress, some (.scatterDirectAuthSettled order.publicSignals.claimsRoot)⟩] }
  | some ⟨_, .reverted⟩ => some { status := 0, logs := [] }
  | _ => none

/-- A relayer handled a request: the reply goes to the attempt that posted it, if it is still there. -/
def World.answer (w : World) (i : ℕ) (url : String) (order : AuthorizeOrderFile) (row' : Option AuthorizeOrderRow)
    (res : Response) : World :=
  { w with
    requests := w.requests.eraseIdx i
    rows := Function.update w.rows url row'
    attempt := w.attempt.map fun a =>
      if a.order = order ∧ a.relayerUrl = url then { a with replies := a.replies ++ res.reply.toList } else a }

variable (P : Poseidon) (ethers : Ethers) (eddsa : Eddsa)
  (fullProve : AuthorizeCircuitInput → Except String (Groth16Proof × List ℕ)) (settlementAddress : String)

def run : Step → World → Except String World
  | .begin nonce newSalt args, w => do
    require (w.attempt.isNone = true) "an attempt is in progress"
    require (w.held = true) "the vault has no such note"
    require (args.source.note = w.source) "another note"
    let prep ← prepareRealSettle P eddsa fullProve nonce newSalt args
    let order ← buildAuthorizeOrderBody prep
    return { w with attempt := some { prep, order, stage := .prepared, replies := [] } }
  | .post, w => do
    let a ← orError w.attempt "no attempt"
    match a.stage with
    | .prepared => return { w with
        attempt := some { a with stage := .posted }
        requests := w.requests ++ [(a.relayerUrl, a.order)] }
    | _ => throw "nothing to post"
  | .receive i, w => do
    let a ← orError w.attempt "no attempt"
    let reply ← orError a.replies[i]? "no such reply"
    let stage ← a.stage.receive reply
    return { w with attempt := some { a with stage, replies := a.replies.eraseIdx i } }
  | .poll, w => do
    let a ← orError w.attempt "no attempt"
    match a.stage with
    | .polling => do
      let reply ← orError (getAuthorizeOrder (w.rows a.relayerUrl)).reply "Order not found"
      return { w with attempt := some { a with replies := a.replies ++ [reply] } }
    | _ => throw "nothing to poll"
  | .finalize, w => do
    let a ← orError w.attempt "no attempt"
    match a.stage with
    | .answered txHash => do
      let receipt ← orError (receiptOf settlementAddress w.txs txHash) "the transaction is pending"
      let result ← finalizeRealSettle P ethers txHash a.prep.ctx receipt
      return { w with
        attempt := some { a with stage := .finalized result }
        returned := w.returned ++ [result] }
    | _ => throw "nothing to finalize"
  | .add, w => do
    let a ← orError w.attempt "no attempt"
    match a.stage with
    | .finalized result => return { w with
        attempt := some { a with stage := .added }
        vault := w.vault ++ result.change.toList }
    | _ => throw "nothing to add"
  | .remove, w => do
    let a ← orError w.attempt "no attempt"
    match a.stage with
    | .added => return { w with
        attempt := none
        held := false }
    | _ => throw "nothing to remove"
  | .stop, w => .ok { w with attempt := none }
  | .lose i, w => .ok { w with requests := w.requests.eraseIdx i }
  | .handle i relayerAddress nowSeconds admission, w => do
    let (url, order) ← orError w.requests[i]? "no such request"
    let (row', res) := postAuthorizeOrder relayerAddress nowSeconds admission (w.rows url) order
    return w.answer i url order row' res
  | .broadcast url, w => do
    let row ← orError (w.rows url) "no such order"
    require (row.status ≠ .failed) "the order failed"
    return { w with txs := w.txs ++ [⟨row.order, .pending⟩] }
  | .report url status attempt lastError settleTx, w => do
    let row ← orError (w.rows url) "no such order"
    require (row.status ≠ .failed) "the order failed"
    require (∀ txHash ∈ settleTx, w.txs[txHash]?.map Mempool.Tx.body = some row.order) "another transaction"
    return { w with rows := Function.update w.rows url (some { row with status, attempt, lastError, settleTx }) }
  | .purge url, w => do
    let row ← orError (w.rows url) "no such order"
    require (row.status.isTerminalStatus = true) "the order is live"
    return { w with rows := Function.update w.rows url none }
  | .mine txHash, w => do
    let tx ← orError w.txs[txHash]? "no such transaction"
    require (tx.fate = .pending) "decided"
    -- the pool accepts a nullifier once
    require (∀ tx ∈ w.txs, tx.fate ≠ .mined) "NullifierAlreadySpent"
    return { w with txs := Mempool.settle w.txs txHash .mined }
  | .revert txHash, w => do
    let tx ← orError w.txs[txHash]? "no such transaction"
    require (tx.fate = .pending) "decided"
    return { w with txs := Mempool.settle w.txs txHash .reverted }

/-! ### What is asked of a run -/

/-- Before any attempt. -/
structure World.Start (w : World) : Prop where
  held : w.held = true
  attempt : w.attempt = none
  requests : w.requests = []
  rows : ∀ url, w.rows url = none
  txs : w.txs = []
  returned : w.returned = []

def World.Mined (w : World) (txHash : ℕ) (order : AuthorizeOrderFile) : Prop := w.txs[txHash]? = some ⟨order, .mined⟩

def World.Sent (w : World) (txHash : ℕ) (order : AuthorizeOrderFile) : Prop := ∃ fate : Mempool.Fate, w.txs[txHash]? = some ⟨order, fate⟩

/-- The order can settle, or did: it is on its way to a relayer, a relayer has it and did not fail it, or a transaction of it was sent and did not revert. -/
def World.Holds (w : World) (order : AuthorizeOrderFile) : Prop :=
  (∃ url, (url, order) ∈ w.requests) ∨ (∃ url row, w.rows url = some row ∧ row.order = order ∧ row.status ≠ .failed) ∨
    ∃ (txHash : ℕ) (fate : Mempool.Fate), w.txs[txHash]? = some ⟨order, fate⟩ ∧ fate ≠ .reverted

/-- The vault has a note that opens the commitment. -/
def World.Saved (w : World) (commitment : ℕ) : Prop := ∃ c ∈ w.vault, computeCommitment P c.note = commitment

/-- The change of what was settled is kept: with no attempt in progress the vault opens the new commitment of every settlement, and a change note that `finalizeRealSettle` returned is the one of the confirmed transaction. -/
structure World.ChangeKept (w : World) : Prop where
  saved : w.attempt = none → ∀ txHash order, w.Mined txHash order → order.publicSignals.newCommitment ≠ 0 →
    w.Saved P order.publicSignals.newCommitment
  returned : ∀ result ∈ w.returned, ∀ change ∈ result.change, ∃ order, w.Mined result.txHash order ∧
    computeCommitment P change.note = change.commitment ∧ change.commitment = order.publicSignals.newCommitment

/-- An attempt is given up only when its order cannot settle any more. -/
def Step.Patient (w : World) : Step → Prop
  | .stop => ∀ a, w.attempt = some a → ¬w.Holds a.order
  | _ => True

/-! ### What an attempt carries -/

variable {P ethers eddsa fullProve settlementAddress}

/-- The order names the commitment of the proof, which is zero without change. -/
structure Proves (prep : PreparedSettle) (order : AuthorizeOrderFile) : Prop where
  newCommitment_eq : order.publicSignals.newCommitment = prep.ctx.authResult.newCommitment
  no_change : prep.ctx.source.note.amount - prep.ctx.sellAmount = 0 → order.publicSignals.newCommitment = 0

theorem buildAuthorizeOrderBody_ok {nonce newSalt : ℕ} {args : RealSettleArgs} {prep : PreparedSettle}
    {order : AuthorizeOrderFile} (hpublic : FullProve.Public fullProve)
    (hprepare : prepareRealSettle P eddsa fullProve nonce newSalt args = .ok prep)
    (hbody : buildAuthorizeOrderBody prep = .ok order) :
    order.publicSignals.newCommitment = prep.ctx.authResult.newCommitment := by
  have hnew := (prepareRealSettle_ok hprepare).2
  simp only [prepareRealSettle, generateAuthorizeProof, bind_eq_ok, require_eq_ok, pure_eq_ok] at hprepare
  obtain ⟨_, _, _, _, _, _, _, _, _, _, _, _, authResult, ⟨ci, _, ⟨proof, signals⟩, hproof, hresult⟩, rfl⟩ := hprepare
  obtain ⟨pubKeyBind, rfl⟩ := hpublic ci proof signals hproof
  obtain rfl := Except.ok.inj hresult
  obtain rfl := Except.ok.inj hbody
  change ci.newCommitment % modulus = ci.newCommitment
  change ci.newCommitment = _ at hnew
  rw [hnew]
  split
  · exact computeCommitment_mod _
  · rfl

theorem prepared_proves {nonce newSalt : ℕ} {args : RealSettleArgs} {prep : PreparedSettle} {order : AuthorizeOrderFile}
    (hpublic : FullProve.Public fullProve)
    (hprepare : prepareRealSettle P eddsa fullProve nonce newSalt args = .ok prep)
    (hbody : buildAuthorizeOrderBody prep = .ok order) : Proves prep order where
  newCommitment_eq := buildAuthorizeOrderBody_ok hpublic hprepare hbody
  no_change := by
    intro hzero
    obtain ⟨hsource, hnew⟩ := prepareRealSettle_ok hprepare
    rw [hsource] at hzero
    rw [buildAuthorizeOrderBody_ok hpublic hprepare hbody, hnew, if_neg (by omega)]

/-- The result of an attempt is about the commitment of its proof. -/
theorem finalizeRealSettle_ok {txHash : ℕ} {ctx : FinalizeContext} {receipt : Receipt} {result : RealSettleResult}
    (hfinalize : finalizeRealSettle P ethers txHash ctx receipt = .ok result) :
    receipt.status = 1 ∧ result.txHash = txHash ∧
      (∀ change ∈ result.change, computeCommitment P change.note = change.commitment ∧
        change.commitment = ctx.authResult.newCommitment) ∧
      (result.change = none → ctx.source.note.amount - ctx.sellAmount = 0) := by
  simp only [finalizeRealSettle, bind_eq_ok, require_eq_ok, not_not] at hfinalize
  obtain ⟨-, hstatus, hrest⟩ := hfinalize
  split at hrest
  · exact absurd hrest (by simp [throw, throwThe, MonadExceptOf.throw])
  · simp only [bind_eq_ok, require_eq_ok, pure_eq_ok] at hrest
    obtain ⟨-, -, change, hchange, -, -, -, -, -, -, rfl⟩ := hrest
    refine ⟨hstatus, rfl, ?_⟩
    unfold changeNote at hchange
    dsimp only at hchange
    split at hchange
    · simp only [bind_eq_ok, require_eq_ok, pure_eq_ok, not_not] at hchange
      obtain ⟨-, hcheck, rfl⟩ := hchange
      refine ⟨fun change hmem => ?_, fun hnone => by cases hnone⟩
      obtain rfl := Option.some.inj hmem
      exact ⟨rfl, hcheck⟩
    · obtain rfl := Except.ok.inj hchange
      exact ⟨fun _ hmem => (by cases hmem), fun _ => by omega⟩

/-! ### The invariant -/

/-- What is known of an attempt at its stage. -/
def Stage.Sound (P : Poseidon) (w : World) (a : Attempt) : Stage → Prop
  | .answered txHash => w.Sent txHash a.order
  | .finalized result => w.Mined result.txHash a.order ∧
      (result.change = none → a.order.publicSignals.newCommitment = 0) ∧
      ∀ change ∈ result.change, computeCommitment P change.note = a.order.publicSignals.newCommitment
  | .added => (∃ txHash, w.Mined txHash a.order) ∧
      (a.order.publicSignals.newCommitment ≠ 0 → w.Saved P a.order.publicSignals.newCommitment)
  | _ => True

/-- An attempt knows only of transactions of its own order. -/
structure Attempt.Sound (P : Poseidon) (w : World) (a : Attempt) : Prop where
  proved : Proves a.prep a.order
  held : w.held = true
  replies : ∀ reply ∈ a.replies, ∀ txHash, reply.settleTxHash = some txHash → w.Sent txHash a.order
  -- once the relayer has replied, its row is that of the attempt
  row : a.replies ≠ [] ∨ a.stage = .polling → ∀ row, w.rows a.relayerUrl = some row → row.order = a.order
  stage : a.stage.Sound P w a

/-- The attempt in progress is the only one whose order can settle, until the note is spent and its change saved. -/
structure World.Kept (P : Poseidon) (w : World) : Prop where
  attempt : ∀ a, w.attempt = some a → a.Sound P w
  owned : w.held = true → ∀ order, w.Holds order → ∃ a, w.attempt = some a ∧ a.order = order
  rows : ∀ url row txHash, w.rows url = some row → row.settleTx = some txHash → w.Sent txHash row.order
  single : ∀ h h' order order', w.Mined h order → w.Mined h' order' → h = h'
  spent : w.held = false → (∃ h order, w.Mined h order) ∧
    ∀ h order, w.Mined h order → order.publicSignals.newCommitment ≠ 0 → w.Saved P order.publicSignals.newCommitment
  returned : ∀ result ∈ w.returned, ∀ change ∈ result.change, ∃ order, w.Mined result.txHash order ∧
    computeCommitment P change.note = change.commitment ∧ change.commitment = order.publicSignals.newCommitment

variable {w w' : World}

theorem World.Mined.sent {txHash : ℕ} {order : AuthorizeOrderFile} (hmined : w.Mined txHash order) : w.Sent txHash order :=
  ⟨_, hmined⟩

theorem World.Mined.holds {txHash : ℕ} {order : AuthorizeOrderFile} (hmined : w.Mined txHash order) : w.Holds order :=
  Or.inr (Or.inr ⟨txHash, _, hmined, by decide⟩)

theorem World.Kept.changeKept (hkept : w.Kept P) : w.ChangeKept P where
  saved := by
    intro hidle h order hmined hchange
    cases hheld : w.held with
    | true =>
      obtain ⟨a, ha, -⟩ := hkept.owned hheld order hmined.holds
      rw [hidle] at ha
      cases ha
    | false => exact (hkept.spent hheld).2 h order hmined hchange
  returned := hkept.returned

theorem World.Start.kept (hstart : w.Start) : w.Kept P where
  attempt := by
    intro a ha
    rw [hstart.attempt] at ha
    cases ha
  owned := by
    rintro - order (⟨url, hrequest⟩ | ⟨url, row, hrow, -⟩ | ⟨h, fate, htx, -⟩)
    · simp [hstart.requests] at hrequest
    · simp [hstart.rows] at hrow
    · simp [hstart.txs] at htx
  rows := by simp [hstart.rows]
  single := by simp [World.Mined, hstart.txs]
  spent := by simp [hstart.held]
  returned := by simp [hstart.returned]

/-! ### Steps of the relayers and of the chain -/

/-- What the relayers and the chain may change under an attempt: they create no order, forget no transaction, and mine at most one. -/
structure World.Progress (w w' : World) : Prop where
  held : w'.held = w.held
  vault : w'.vault = w.vault
  returned : w'.returned = w.returned
  holds : ∀ order, w'.Holds order → w.Holds order
  sent : ∀ h order, w.Sent h order → w'.Sent h order
  mined : ∀ h order, w.Mined h order → w'.Mined h order
  single : (∀ h h' order order', w.Mined h order → w.Mined h' order' → h = h') →
    ∀ h h' order order', w'.Mined h order → w'.Mined h' order' → h = h'
  rows : (∀ url row h, w.rows url = some row → row.settleTx = some h → w.Sent h row.order) →
    ∀ url row h, w'.rows url = some row → row.settleTx = some h → w'.Sent h row.order

theorem Stage.Sound.progress {a : Attempt} {stage : Stage} (hsound : stage.Sound P w a)
    (hmined : ∀ h order, w.Mined h order → w'.Mined h order) (hsent : ∀ h order, w.Sent h order → w'.Sent h order)
    (hvault : ∀ c ∈ w.vault, c ∈ w'.vault) : stage.Sound P w' a := by
  cases stage with
  | answered h => exact hsent _ _ hsound
  | finalized result => exact ⟨hmined _ _ hsound.1, hsound.2⟩
  | added =>
    obtain ⟨⟨h, hm⟩, hsaved⟩ := hsound
    refine ⟨⟨h, hmined _ _ hm⟩, fun hne => ?_⟩
    obtain ⟨c, hc, hopens⟩ := hsaved hne
    exact ⟨c, hvault c hc, hopens⟩
  | _ => trivial

theorem World.Kept.progress (hkept : w.Kept P) (hprogress : w.Progress w')
    (hattempt : ∀ a', w'.attempt = some a' → a'.Sound P w')
    (hsame : ∀ a, w.attempt = some a → ∃ a', w'.attempt = some a' ∧ a'.order = a.order) : w'.Kept P where
  attempt := hattempt
  owned := by
    intro hheld order hholds
    obtain ⟨a, ha, rfl⟩ := hkept.owned (hprogress.held ▸ hheld) order (hprogress.holds order hholds)
    exact hsame a ha
  rows := hprogress.rows hkept.rows
  single := hprogress.single hkept.single
  spent := by
    intro hheld
    obtain ⟨⟨h, order, hmined⟩, hsaved⟩ := hkept.spent (hprogress.held ▸ hheld)
    refine ⟨⟨h, order, hprogress.mined h order hmined⟩, fun h' order' hmined' hne => ?_⟩
    -- only one transaction is mined, so it is the one from before
    have hmined'' := hprogress.mined h order hmined
    obtain rfl := hprogress.single hkept.single h h' order order' hmined'' hmined'
    obtain rfl : order = order' := by
      have heq := hmined''.symm.trans hmined'
      simpa using heq
    obtain ⟨c, hc, hopens⟩ := hsaved h order hmined hne
    exact ⟨c, hprogress.vault ▸ hc, hopens⟩
  returned := by
    intro result hresult change hchange
    obtain ⟨order, hmined, hopens⟩ := hkept.returned result (hprogress.returned ▸ hresult) change hchange
    exact ⟨order, hprogress.mined _ _ hmined, hopens⟩

/-! ### One step -/

theorem World.Kept.background (hkept : w.Kept P) (hprogress : w.Progress w') (hattempt : w'.attempt = w.attempt)
    (hrows : ∀ a, w.attempt = some a → a.Sound P w →
      a.replies ≠ [] ∨ a.stage = .polling → ∀ row, w'.rows a.relayerUrl = some row → row.order = a.order) : w'.Kept P := by
  refine hkept.progress hprogress (fun a ha => ?_) fun a ha => ⟨a, hattempt ▸ ha, rfl⟩
  rw [hattempt] at ha
  have hsound := hkept.attempt a ha
  exact {
    proved := hsound.proved
    held := hprogress.held ▸ hsound.held
    replies := fun reply hreply h hh => hprogress.sent h _ (hsound.replies reply hreply h hh)
    row := hrows a ha hsound
    stage := hsound.stage.progress hprogress.mined hprogress.sent fun c hc => hprogress.vault ▸ hc }

/-- A step of the client changes neither the rows nor the transactions. -/
structure World.Client (w w' : World) : Prop where
  rows : w'.rows = w.rows
  txs : w'.txs = w.txs

theorem World.Client.mined (hclient : w.Client w') {h : ℕ} {order : AuthorizeOrderFile} : w'.Mined h order ↔ w.Mined h order := by
  rw [World.Mined, World.Mined, hclient.txs]

theorem World.Client.sent (hclient : w.Client w') {h : ℕ} {order : AuthorizeOrderFile} : w'.Sent h order ↔ w.Sent h order := by
  rw [World.Sent, World.Sent, hclient.txs]

theorem World.Kept.client (hkept : w.Kept P) (hclient : w.Client w') {a a' : Attempt} (ha : w.attempt = some a)
    (ha' : w'.attempt = some a') (horder : a'.order = a.order) (hheld : w'.held = true)
    (hrequests : ∀ request ∈ w'.requests, request ∈ w.requests ∨ request.2 = a.order) (hsound : a'.Sound P w')
    (hreturned : ∀ result ∈ w'.returned, result ∈ w.returned ∨ ∀ change ∈ result.change, ∃ order,
      w.Mined result.txHash order ∧ computeCommitment P change.note = change.commitment ∧
        change.commitment = order.publicSignals.newCommitment) : w'.Kept P where
  attempt := by
    intro b hb
    rw [ha'] at hb
    obtain rfl := Option.some.inj hb
    exact hsound
  owned := by
    rintro - order hholds
    refine ⟨a', ha', horder.trans ?_⟩
    have hbefore : order = a.order ∨ w.Holds order := by
      rcases hholds with ⟨url, hrequest⟩ | hrow | htx
      · rcases hrequests _ hrequest with hold | hnew
        · exact Or.inr (Or.inl ⟨url, hold⟩)
        · exact Or.inl hnew
      · exact Or.inr (Or.inr (Or.inl (hclient.rows ▸ hrow)))
      · exact Or.inr (Or.inr (Or.inr (hclient.txs ▸ htx)))
    rcases hbefore with rfl | hbefore
    · rfl
    · obtain ⟨b, hb, rfl⟩ := hkept.owned (hkept.attempt a ha).held order hbefore
      rw [ha] at hb
      rw [Option.some.inj hb]
  rows := by
    intro url row h hrow hh
    exact hclient.sent.mpr (hkept.rows url row h (hclient.rows ▸ hrow) hh)
  single := fun h h' order order' hm hm' => hkept.single h h' order order' (hclient.mined.mp hm) (hclient.mined.mp hm')
  spent := by simp [hheld]
  returned := by
    intro result hresult change hchange
    rcases hreturned result hresult with hold | hnew
    · obtain ⟨order, hmined, hopens⟩ := hkept.returned result hold change hchange
      exact ⟨order, hclient.mined.mpr hmined, hopens⟩
    · obtain ⟨order, hmined, hopens⟩ := hnew change hchange
      exact ⟨order, hclient.mined.mpr hmined, hopens⟩

theorem Stage.Sound.client {a a' : Attempt} {stage : Stage} (hsound : stage.Sound P w a) (hclient : w.Client w')
    (horder : a'.order = a.order) (hvault : ∀ c ∈ w.vault, c ∈ w'.vault) : stage.Sound P w' a' := by
  have hmoved : stage.Sound P w' a :=
    hsound.progress (fun _ _ hm => hclient.mined.mpr hm) (fun _ _ hs => hclient.sent.mpr hs) hvault
  cases stage <;> simp_all [Stage.Sound]

theorem Stage.receive_sound {stage stage' : Stage} {a : Attempt} {reply : StatusReply}
    (hreceive : stage.receive reply = .ok stage')
    (hreply : ∀ h, reply.settleTxHash = some h → w.Sent h a.order) : stage'.Sound P w a := by
  cases stage with
  | posted =>
    simp only [Stage.receive, bind_eq_ok, require_eq_ok] at hreceive
    obtain ⟨-, -, hstage⟩ := hreceive
    split at hstage
    · obtain rfl := Except.ok.inj hstage
      exact hreply _ (by assumption)
    · obtain rfl := Except.ok.inj hstage
      trivial
  | polling =>
    simp only [Stage.receive] at hreceive
    split at hreceive
    · obtain rfl := Except.ok.inj hreceive
      exact hreply _ (by assumption)
    · simp only [bind_eq_ok, require_eq_ok, pure_eq_ok] at hreceive
      obtain ⟨-, -, rfl⟩ := hreceive
      trivial
  | _ => cases hreceive

theorem World.Progress.of_rows (hheld : w'.held = w.held) (hvault : w'.vault = w.vault) (hreturned : w'.returned = w.returned)
    (htxs : w'.txs = w.txs) (hrequests : ∀ request ∈ w'.requests, request ∈ w.requests)
    (hrows : ∀ url row, w'.rows url = some row → w.rows url = some row ∨
      (row.status ≠ .failed → w.Holds row.order) ∧ ∀ h, row.settleTx = some h → w.Sent h row.order) : w.Progress w' where
  held := hheld
  vault := hvault
  returned := hreturned
  holds := by
    rintro order (⟨url, hrequest⟩ | ⟨url, row, hrow, rfl, hstatus⟩ | htx)
    · exact Or.inl ⟨url, hrequests _ hrequest⟩
    · rcases hrows url row hrow with hold | ⟨hnew, -⟩
      · exact Or.inr (Or.inl ⟨url, row, hold, rfl, hstatus⟩)
      · exact hnew hstatus
    · exact Or.inr (Or.inr (htxs ▸ htx))
  sent := by simp only [World.Sent, htxs, imp_self, implies_true]
  mined := by simp only [World.Mined, htxs, imp_self, implies_true]
  single := by simp only [World.Mined, htxs, imp_self]
  rows := by
    intro hbefore url row h hrow hh
    rw [World.Sent, htxs]
    rcases hrows url row hrow with hold | ⟨-, hnew⟩
    · exact hbefore url row h hold hh
    · exact hnew h hh

theorem World.Progress.of_txs (hheld : w'.held = w.held) (hvault : w'.vault = w.vault) (hreturned : w'.returned = w.returned)
    (hrequests : w'.requests = w.requests) (hrows : w'.rows = w.rows)
    (holds : ∀ (h : ℕ) (order : AuthorizeOrderFile) (fate : Mempool.Fate), w'.txs[h]? = some ⟨order, fate⟩ → fate ≠ .reverted →
      w.Holds order)
    (hsent : ∀ h order, w.Sent h order → w'.Sent h order) (hmined : ∀ h order, w.Mined h order → w'.Mined h order)
    (hsingle : (∀ h order, w'.Mined h order → w.Mined h order) ∨
      ∃ h₀, (∀ h order, ¬w.Mined h order) ∧ ∀ h order, w'.Mined h order → h = h₀) : w.Progress w' where
  held := hheld
  vault := hvault
  returned := hreturned
  holds := by
    rintro order (hrequest | hrow | ⟨h, fate, htx, hfate⟩)
    · exact Or.inl (hrequests ▸ hrequest)
    · exact Or.inr (Or.inl (hrows ▸ hrow))
    · exact holds h order fate htx hfate
  sent := hsent
  mined := hmined
  single := by
    intro hbefore h h' order order' hm hm'
    rcases hsingle with hold | ⟨h₀, -, hnew⟩
    · exact hbefore h h' order order' (hold _ _ hm) (hold _ _ hm')
    · rw [hnew h order hm, hnew h' order' hm']
  rows := by
    intro hbefore url row h hrow hh
    exact hsent h _ (hbefore url row h (hrows ▸ hrow) hh)

theorem World.Progress.settle {h₀ : ℕ} {order₀ : AuthorizeOrderFile} {fate : Mempool.Fate}
    (htx : w.txs[h₀]? = some ⟨order₀, .pending⟩) (hfirst : fate = .mined → ∀ tx ∈ w.txs, tx.fate ≠ .mined) :
    w.Progress { w with txs := Mempool.settle w.txs h₀ fate } := by
  refine .of_txs rfl rfl rfl rfl rfl ?_ ?_ ?_ ?_
  · intro h order fate' htx' hfate'
    rcases Mempool.of_settle htx' with hold | ⟨rfl, -, fate₀, hold⟩
    · exact Or.inr (Or.inr ⟨h, fate', hold, hfate'⟩)
    · obtain ⟨-, rfl⟩ : order₀ = order ∧ Mempool.Fate.pending = fate₀ := by simpa [htx] using hold
      exact Or.inr (Or.inr ⟨h, _, hold, by decide⟩)
  · rintro h order ⟨fate', htx'⟩
    exact Mempool.settle_body htx'
  · intro h order hm
    have hne : h₀ ≠ h := by
      rintro rfl
      rw [World.Mined, htx] at hm
      cases hm
    rw [World.Mined, Mempool.settle_of_ne hne]
    exact hm
  · by_cases hfate : fate = .mined
    · refine Or.inr ⟨h₀, fun h order hm => hfirst hfate _ (List.mem_of_getElem? hm) rfl, fun h order hm => ?_⟩
      rcases Mempool.of_settle hm with hold | ⟨heq, -⟩
      · exact absurd rfl (hfirst hfate _ (List.mem_of_getElem? hold))
      · exact heq
    · refine Or.inl fun h order hm => ?_
      rcases Mempool.of_settle hm with hold | ⟨-, heq, -⟩
      · exact hold
      · exact absurd heq.symm hfate

theorem World.Progress.broadcast {url : String} {row : AuthorizeOrderRow} (hrow : w.rows url = some row)
    (hstatus : row.status ≠ .failed) : w.Progress { w with txs := w.txs ++ [⟨row.order, .pending⟩] } := by
  have hget : ∀ {h : ℕ} {tx : SettleTx}, (w.txs ++ [⟨row.order, .pending⟩])[h]? = some tx →
      w.txs[h]? = some tx ∨ tx = ⟨row.order, .pending⟩ := by
    intro h tx htx
    rw [List.getElem?_append] at htx
    split at htx
    · exact Or.inl htx
    · exact Or.inr (by simpa using List.mem_of_getElem? htx)
  have hkeep : ∀ {h : ℕ} {tx : SettleTx}, w.txs[h]? = some tx → (w.txs ++ [⟨row.order, .pending⟩])[h]? = some tx := by
    intro h tx htx
    rw [List.getElem?_append_left (List.getElem?_eq_some_iff.mp htx).1]
    exact htx
  refine .of_txs rfl rfl rfl rfl rfl ?_ ?_ ?_ ?_
  · intro h order fate htx hfate
    rcases hget htx with hold | hnew
    · exact Or.inr (Or.inr ⟨h, fate, hold, hfate⟩)
    · obtain ⟨rfl, -⟩ := Mempool.Tx.mk.inj hnew
      exact Or.inr (Or.inl ⟨url, row, hrow, rfl, hstatus⟩)
  · rintro h order ⟨fate, htx⟩
    exact ⟨fate, hkeep htx⟩
  · exact fun h order hm => hkeep hm
  · refine Or.inl fun h order hm => ?_
    rcases hget hm with hold | hnew
    · exact hold
    · cases hnew

theorem rows_update {url url' : String} {row : AuthorizeOrderRow} {row' : Option AuthorizeOrderRow}
    (hrow : Function.update w.rows url row' url' = some row) :
    (url' = url ∧ row' = some row) ∨ (url' ≠ url ∧ w.rows url' = some row) := by
  by_cases hurl : url' = url
  · subst hurl
    exact Or.inl ⟨rfl, by rwa [Function.update_self] at hrow⟩
  · exact Or.inr ⟨hurl, by rwa [Function.update_of_ne hurl] at hrow⟩

/-- The answer to a submission: what the attempt is told is about its own order. -/
theorem World.Kept.handle (hkept : w.Kept P) {i : ℕ} {url : String} {order : AuthorizeOrderFile}
    {row' : Option AuthorizeOrderRow} {res : Response} {relayerAddress : Address} {nowSeconds : ℕ}
    {admission : Except (ℕ × String) Unit} (hrequest : w.requests[i]? = some (url, order))
    (hpost : postAuthorizeOrder relayerAddress nowSeconds admission (w.rows url) order = (row', res)) :
    (w.answer i url order row' res).Kept P := by
  obtain ⟨hrow, hreply⟩ := postAuthorizeOrder_spec hpost
  have hholds : w.Holds order := Or.inl ⟨url, List.mem_of_getElem? hrequest⟩
  have hprogress : w.Progress (w.answer i url order row' res) := by
    refine .of_rows rfl rfl rfl rfl (fun request hmem => List.mem_of_mem_eraseIdx hmem) fun url' row hrow' => ?_
    rcases rows_update hrow' with ⟨rfl, rfl⟩ | ⟨-, hold⟩
    · rcases hrow row rfl with hold | rfl
      · exact Or.inl hold
      · exact Or.inr ⟨fun _ => hholds, fun h hh => by cases hh⟩
    · exact Or.inl hold
  -- a row that stood there and had not failed is that of the attempt, as everything that can settle is
  have hown : ∀ a, w.attempt = some a → ∀ row, row' = some row → (w.rows url = some row → row.status = .failed → row.order = a.order) →
      row.order = a.order := by
    intro a ha row hrow' hfailed
    have howned : ∀ order, w.Holds order → order = a.order := by
      intro order' hholds'
      obtain ⟨b, hb, rfl⟩ := hkept.owned (hkept.attempt a ha).held order' hholds'
      rw [ha] at hb
      rw [Option.some.inj hb]
    rcases hrow row hrow' with hold | rfl
    · by_cases hstatus : row.status = .failed
      · exact hfailed hold hstatus
      · exact howned _ (Or.inr (Or.inl ⟨url, row, hold, rfl, hstatus⟩))
    · exact howned order hholds
  refine hkept.progress hprogress ?_ ?_
  · intro a' ha'
    obtain ⟨a, ha, rfl⟩ := Option.map_eq_some_iff.mp ha'
    have hsound := hkept.attempt a ha
    have hstage := hsound.stage.progress hprogress.mined hprogress.sent fun c hc => hprogress.vault ▸ hc
    by_cases hposter : a.order = order ∧ a.relayerUrl = url
    · obtain ⟨rfl, rfl⟩ := hposter
      rw [if_pos ⟨rfl, rfl⟩]
      have hanswer : ∀ reply, res.reply = some reply → ∃ row, row' = some row ∧ reply = buildStatusReply row ∧
          row.order = a.order := by
        intro reply hres
        obtain ⟨row, hrow', rfl, hfailed⟩ := hreply reply hres
        exact ⟨row, hrow', rfl, hown a ha row hrow' fun _ hstatus => by rw [hfailed hstatus]; rfl⟩
      refine ⟨hsound.proved, hsound.held, ?_, ?_, ?_⟩
      · intro reply hmem h hh
        rcases List.mem_append.mp hmem with hold | hnew
        · exact hprogress.sent h _ (hsound.replies reply hold h hh)
        · obtain ⟨row, hrow', rfl, horder⟩ := hanswer reply (Option.mem_toList.mp hnew)
          have hsent := hprogress.rows hkept.rows a.relayerUrl row h ((Function.update_self ..).trans hrow') hh
          rwa [horder] at hsent
      · intro hreplied row hrow''
        replace hrow'' : row' = some row := by
          rw [← hrow'']
          exact (Function.update_self a.relayerUrl row' w.rows).symm
        cases hres : res.reply with
        | some reply =>
          obtain ⟨row₁, hrow₁, -, horder⟩ := hanswer reply hres
          rw [hrow''] at hrow₁
          rw [Option.some.inj hrow₁]
          exact horder
        | none =>
          refine hown a ha row hrow'' fun hold _ => ?_
          refine hsound.row ?_ row hold
          simpa [hres] using hreplied
      · cases hcase : a.stage <;> simp_all [Stage.Sound]
    · rw [if_neg hposter]
      refine ⟨hsound.proved, hsound.held, fun reply hmem h hh => hprogress.sent h _ (hsound.replies reply hmem h hh), ?_,
        hstage⟩
      intro hreplied row hrow''
      rcases rows_update hrow'' with ⟨hurl, hrow'⟩ | ⟨-, hold⟩
      · exact hown a ha row hrow' fun hold _ => hsound.row hreplied row (hurl ▸ hold)
      · exact hsound.row hreplied row hold
  · intro a ha
    refine ⟨_, congrArg (Option.map _) ha, ?_⟩
    dsimp only
    split <;> rfl

theorem World.Kept.begin (hpublic : FullProve.Public fullProve) (hkept : w.Kept P) {nonce newSalt : ℕ} {args : RealSettleArgs}
    (hrun : run P ethers eddsa fullProve settlementAddress (.begin nonce newSalt args) w = .ok w') : w'.Kept P := by
  simp only [run, bind_eq_ok, require_eq_ok, pure_eq_ok] at hrun
  obtain ⟨-, hidle, -, hheld, -, -, prep, hprepare, order, hbody, rfl⟩ := hrun
  have hnone : w.attempt = none := Option.isNone_iff_eq_none.mp hidle
  refine ⟨?_, ?_, hkept.rows, hkept.single, hkept.spent, hkept.returned⟩
  · intro a ha
    obtain rfl := Option.some.inj ha
    exact ⟨prepared_proves hpublic hprepare hbody, hheld, fun _ hmem => (by cases hmem), fun hreplied => by simp at hreplied,
      trivial⟩
  · rintro - order' hholds
    obtain ⟨a, ha, -⟩ := hkept.owned hheld order' hholds
    rw [hnone] at ha
    cases ha

theorem World.Kept.post (hkept : w.Kept P)
    (hrun : run P ethers eddsa fullProve settlementAddress .post w = .ok w') : w'.Kept P := by
  simp only [run, bind_eq_ok, orError_eq_ok] at hrun
  obtain ⟨a, ha, hrun⟩ := hrun
  have hsound := hkept.attempt a ha
  split at hrun
  · obtain rfl := Except.ok.inj hrun
    have hclient : w.Client { w with
        attempt := some { a with stage := .posted }
        requests := w.requests ++ [(a.relayerUrl, a.order)] } := ⟨rfl, rfl⟩
    refine hkept.client hclient ha rfl rfl hsound.held ?_ ?_ fun result hresult => Or.inl hresult
    · intro request hrequest
      rcases List.mem_append.mp hrequest with hold | hnew
      · exact Or.inl hold
      · rw [List.mem_singleton.mp hnew]
        exact Or.inr rfl
    · exact ⟨hsound.proved, hsound.held, hsound.replies, fun hreplied => hsound.row (Or.inl (by simpa using hreplied)), trivial⟩
  · cases hrun

theorem World.Kept.receive (hkept : w.Kept P) {i : ℕ}
    (hrun : run P ethers eddsa fullProve settlementAddress (.receive i) w = .ok w') : w'.Kept P := by
  simp only [run, bind_eq_ok, orError_eq_ok, pure_eq_ok] at hrun
  obtain ⟨a, ha, reply, hreply, stage, hreceive, rfl⟩ := hrun
  have hsound := hkept.attempt a ha
  have hmem := List.mem_of_getElem? hreply
  have hclient : w.Client { w with attempt := some { a with stage, replies := a.replies.eraseIdx i } } := ⟨rfl, rfl⟩
  refine hkept.client hclient ha rfl rfl hsound.held (fun request hrequest => Or.inl hrequest) ?_
    fun result hresult => Or.inl hresult
  refine ⟨hsound.proved, hsound.held, fun r hr => hsound.replies r (List.mem_of_mem_eraseIdx hr), ?_, ?_⟩
  · exact fun _ => hsound.row (Or.inl (List.ne_nil_of_mem hmem))
  · exact (Stage.receive_sound (P := P) (a := a) hreceive (hsound.replies reply hmem)).client hclient rfl fun c hc => hc

theorem World.Kept.poll (hkept : w.Kept P)
    (hrun : run P ethers eddsa fullProve settlementAddress .poll w = .ok w') : w'.Kept P := by
  simp only [run, bind_eq_ok, orError_eq_ok] at hrun
  obtain ⟨a, ha, hrun⟩ := hrun
  have hsound := hkept.attempt a ha
  split at hrun
  · rename_i hstage
    simp only [bind_eq_ok, orError_eq_ok, pure_eq_ok] at hrun
    obtain ⟨reply, hreply, rfl⟩ := hrun
    have hclient : w.Client { w with attempt := some { a with replies := a.replies ++ [reply] } } := ⟨rfl, rfl⟩
    refine hkept.client hclient ha rfl rfl hsound.held (fun request hrequest => Or.inl hrequest) ?_
      fun result hresult => Or.inl hresult
    refine ⟨hsound.proved, hsound.held, ?_, fun _ => hsound.row (Or.inr hstage), ?_⟩
    · intro r hr h hh
      rcases List.mem_append.mp hr with hold | hnew
      · exact hsound.replies r hold h hh
      · obtain rfl := List.mem_singleton.mp hnew
        cases hrow : w.rows a.relayerUrl with
        | none =>
          rw [hrow] at hreply
          cases hreply
        | some row =>
          rw [hrow] at hreply
          obtain rfl := Option.some.inj hreply
          have hsent := hkept.rows a.relayerUrl row h hrow hh
          rwa [hsound.row (Or.inr hstage) row hrow] at hsent
    · exact hsound.stage.client hclient rfl fun c hc => hc
  · cases hrun

theorem World.Kept.finalize (hkept : w.Kept P)
    (hrun : run P ethers eddsa fullProve settlementAddress .finalize w = .ok w') : w'.Kept P := by
  simp only [run, bind_eq_ok, orError_eq_ok] at hrun
  obtain ⟨a, ha, hrun⟩ := hrun
  have hsound := hkept.attempt a ha
  split at hrun
  · rename_i txHash hstage
    simp only [bind_eq_ok, orError_eq_ok, pure_eq_ok] at hrun
    obtain ⟨receipt, hreceipt, result, hfinalize, rfl⟩ := hrun
    obtain ⟨hstatus, rfl, hchange, hnone⟩ := finalizeRealSettle_ok hfinalize
    have hsent : w.Sent result.txHash a.order := by
      have hstage' := hsound.stage
      rwa [hstage] at hstage'
    -- the receipt says that this transaction was mined
    have hmined : w.Mined result.txHash a.order := by
      obtain ⟨fate, htx⟩ := hsent
      cases fate <;> simp_all [receiptOf, World.Mined]
      simp [← hreceipt] at hstatus
    have hopens : ∀ change ∈ result.change, computeCommitment P change.note = change.commitment ∧
        change.commitment = a.order.publicSignals.newCommitment := by
      intro change hmem
      rw [hsound.proved.newCommitment_eq]
      exact hchange change hmem
    have hclient : w.Client { w with
        attempt := some { a with stage := .finalized result }
        returned := w.returned ++ [result] } := ⟨rfl, rfl⟩
    refine hkept.client hclient ha rfl rfl hsound.held (fun request hrequest => Or.inl hrequest) ?_ ?_
    · refine ⟨hsound.proved, hsound.held, hsound.replies, ?_, hclient.mined.mpr hmined, ?_, ?_⟩
      · exact fun hreplied => hsound.row (Or.inl (by simpa using hreplied))
      · exact fun hzero => hsound.proved.no_change (hnone hzero)
      · exact fun change hmem => (hopens change hmem).1.trans (hopens change hmem).2
    · intro result' hresult'
      rcases List.mem_append.mp hresult' with hold | hnew
      · exact Or.inl hold
      · rw [List.mem_singleton.mp hnew]
        exact Or.inr fun change hmem => ⟨a.order, hmined, hopens change hmem⟩
  · cases hrun

theorem World.Kept.add (hkept : w.Kept P)
    (hrun : run P ethers eddsa fullProve settlementAddress .add w = .ok w') : w'.Kept P := by
  simp only [run, bind_eq_ok, orError_eq_ok] at hrun
  obtain ⟨a, ha, hrun⟩ := hrun
  have hsound := hkept.attempt a ha
  split at hrun
  · rename_i result hstage
    obtain rfl := Except.ok.inj hrun
    have hstage' := hsound.stage
    rw [hstage] at hstage'
    obtain ⟨hmined, hzero, hopens⟩ := hstage'
    have hclient : w.Client { w with
        attempt := some { a with stage := .added }
        vault := w.vault ++ result.change.toList } := ⟨rfl, rfl⟩
    refine hkept.client hclient ha rfl rfl hsound.held (fun request hrequest => Or.inl hrequest) ?_
      fun result hresult => Or.inl hresult
    refine ⟨hsound.proved, hsound.held, hsound.replies, ?_, ⟨_, hclient.mined.mpr hmined⟩, fun hne => ?_⟩
    · exact fun hreplied => hsound.row (Or.inl (by simpa using hreplied))
    · cases hresult : result.change with
      | none => exact absurd (hzero hresult) hne
      | some change =>
        exact ⟨change, List.mem_append_right _ (by simp), hopens change (by rw [hresult]; rfl)⟩
  · cases hrun

theorem World.Kept.remove (hkept : w.Kept P)
    (hrun : run P ethers eddsa fullProve settlementAddress .remove w = .ok w') : w'.Kept P := by
  simp only [run, bind_eq_ok, orError_eq_ok] at hrun
  obtain ⟨a, ha, hrun⟩ := hrun
  have hsound := hkept.attempt a ha
  split at hrun
  · rename_i hstage
    obtain rfl := Except.ok.inj hrun
    have hstage' := hsound.stage
    rw [hstage] at hstage'
    obtain ⟨⟨h, hmined⟩, hsaved⟩ := hstage'
    refine ⟨fun b hb => (by cases hb), fun hheld => (by cases hheld), hkept.rows, hkept.single, fun _ => ⟨⟨h, _, hmined⟩, ?_⟩,
      hkept.returned⟩
    intro h' order hmined' hne
    obtain rfl := hkept.single h h' _ _ hmined hmined'
    obtain rfl : a.order = order := by simpa using hmined.symm.trans hmined'
    exact hsaved hne
  · cases hrun

/-- One step keeps the invariant, if it gives up no attempt that can still settle. -/
theorem World.Kept.step (hpublic : FullProve.Public fullProve) (hkept : w.Kept P) {step : Step} (hpatient : step.Patient w)
    (hrun : run P ethers eddsa fullProve settlementAddress step w = .ok w') : w'.Kept P := by
  cases step with
  | begin nonce newSalt args => exact World.Kept.begin hpublic hkept hrun
  | post => exact hkept.post hrun
  | receive i => exact hkept.receive hrun
  | poll => exact hkept.poll hrun
  | finalize => exact hkept.finalize hrun
  | add => exact hkept.add hrun
  | remove => exact hkept.remove hrun
  | stop =>
    obtain rfl := Except.ok.inj hrun
    refine ⟨fun b hb => (by cases hb), ?_, hkept.rows, hkept.single, hkept.spent, hkept.returned⟩
    intro hheld order hholds
    obtain ⟨a, ha, rfl⟩ := hkept.owned hheld order hholds
    exact absurd hholds (hpatient a ha)
  | lose i =>
    obtain rfl := Except.ok.inj hrun
    refine hkept.background (.of_rows rfl rfl rfl rfl (fun r hr => List.mem_of_mem_eraseIdx hr) fun url row => Or.inl) rfl ?_
    exact fun a _ hsound => hsound.row
  | handle i relayerAddress nowSeconds admission =>
    simp only [run, bind_eq_ok, orError_eq_ok, pure_eq_ok] at hrun
    obtain ⟨⟨url, order⟩, hrequest, rfl⟩ := hrun
    exact hkept.handle hrequest rfl
  | broadcast url =>
    simp only [run, bind_eq_ok, orError_eq_ok, require_eq_ok, pure_eq_ok] at hrun
    obtain ⟨row, hrow, -, hstatus, rfl⟩ := hrun
    exact hkept.background (.broadcast hrow hstatus) rfl fun a _ hsound => hsound.row
  | report url status attempt lastError settleTx =>
    simp only [run, bind_eq_ok, orError_eq_ok, require_eq_ok, pure_eq_ok] at hrun
    obtain ⟨row, hrow, -, hstatus, -, htx, rfl⟩ := hrun
    refine hkept.background (.of_rows rfl rfl rfl rfl (fun r hr => hr) fun url' row₁ hrow₁ => ?_) rfl ?_
    · rcases rows_update hrow₁ with ⟨rfl, hnew⟩ | ⟨-, hold⟩
      · obtain rfl := Option.some.inj hnew
        refine Or.inr ⟨fun _ => Or.inr (Or.inl ⟨_, row, hrow, rfl, hstatus⟩), fun h hh => ?_⟩
        obtain ⟨tx, htx, horder⟩ := Option.map_eq_some_iff.mp (htx h hh)
        exact ⟨tx.fate, by rw [htx, ← horder]⟩
      · exact Or.inl hold
    · intro a ha hsound hreplied row₁ hrow₁
      rcases rows_update hrow₁ with ⟨hurl, hnew⟩ | ⟨-, hold⟩
      · obtain rfl := Option.some.inj hnew
        exact hsound.row hreplied row (hurl ▸ hrow)
      · exact hsound.row hreplied row₁ hold
  | purge url =>
    simp only [run, bind_eq_ok, orError_eq_ok, require_eq_ok, pure_eq_ok] at hrun
    obtain ⟨row, hrow, -, -, rfl⟩ := hrun
    refine hkept.background (.of_rows rfl rfl rfl rfl (fun r hr => hr) fun url' row₁ hrow₁ => ?_) rfl ?_
    · rcases rows_update hrow₁ with ⟨-, hnew⟩ | ⟨-, hold⟩
      · cases hnew
      · exact Or.inl hold
    · intro a ha hsound hreplied row₁ hrow₁
      rcases rows_update hrow₁ with ⟨-, hnew⟩ | ⟨-, hold⟩
      · cases hnew
      · exact hsound.row hreplied row₁ hold
  | mine txHash =>
    simp only [run, bind_eq_ok, orError_eq_ok, require_eq_ok, pure_eq_ok] at hrun
    obtain ⟨⟨order, fate⟩, htx, -, rfl, -, hfirst, rfl⟩ := hrun
    exact hkept.background (.settle htx fun _ => hfirst) rfl fun a _ hsound => hsound.row
  | revert txHash =>
    simp only [run, bind_eq_ok, orError_eq_ok, require_eq_ok, pure_eq_ok] at hrun
    obtain ⟨⟨order, fate⟩, htx, -, rfl, rfl⟩ := hrun
    exact hkept.background (.settle htx fun hfate => by cases hfate) rfl fun a _ hsound => hsound.row

/-- In every run that gives up no attempt whose order can still settle, the change is kept. -/
theorem change_kept_of_patient (hpublic : FullProve.Public fullProve) (hstart : w.Start) {steps : List Step}
    (hpatient : Along (run P ethers eddsa fullProve settlementAddress) (fun w step => step.Patient w) w steps) :
    (after (run P ethers eddsa fullProve settlementAddress) w steps).ChangeKept P :=
  (invariant_along (fun _ _ _ hkept hstep hrun => World.Kept.step hpublic hkept hstep hrun) hstart.kept hpatient).changeKept

/-! ### A payout settled in one attempt, and in two -/

def changeTable : List (List Scalar × Scalar) :=
  [([3, 1001, 19, 1000, 2001, 0x1bf0df2dafb6d7417853e4cabbed99cfd1f63bf341767c320eb4251c14424fc0, 0x65ac093413a4c58960bcc5d5e258ae77c6e1eb0307f9e0d964170fc1a7f6e09],
      0x13ea3b6764c39542b6c6feaa35c5536401649ae7c9b49112d2aa567d3aeeca60),
    ([0, 1001, 2001],
      0x1677c7dfe33d79c80ec60fbdf132d8564a7d55975d0637c9ba30a24f55a1eb69),
    ([5001, 101, 19, 200, 1000],
      0x2deb59cdf41826d249964ccbfdd96c61c74e0cc88a4fb86b06b39e7fd5e926bb),
    ([0, 0],
      0x2098f5fb9e239eab3ceac3f27b81e481dc3124d55ffed523a839ee8446b64864),
    ([0x2deb59cdf41826d249964ccbfdd96c61c74e0cc88a4fb86b06b39e7fd5e926bb, 0],
      0x1d20e8a0a72440962d8bac4de0b21c39595cd23b80b8df672487b7062190c149),
    ([0x2098f5fb9e239eab3ceac3f27b81e481dc3124d55ffed523a839ee8446b64864, 0x2098f5fb9e239eab3ceac3f27b81e481dc3124d55ffed523a839ee8446b64864],
      0x1069673dcdb12263df301a6ff584a7ec261a44cb9dc68df067a4774460b1f1e1),
    ([0x1d20e8a0a72440962d8bac4de0b21c39595cd23b80b8df672487b7062190c149, 0x2098f5fb9e239eab3ceac3f27b81e481dc3124d55ffed523a839ee8446b64864],
      0x87ad01478e772507093881569df6add5828deefa3915298469a338a907c9f7d),
    ([0x1069673dcdb12263df301a6ff584a7ec261a44cb9dc68df067a4774460b1f1e1, 0x1069673dcdb12263df301a6ff584a7ec261a44cb9dc68df067a4774460b1f1e1],
      0x18f43331537ee2af2e3d758d50f72106467c6eea50371dd528d57eb2b856d238),
    ([0x87ad01478e772507093881569df6add5828deefa3915298469a338a907c9f7d, 0x1069673dcdb12263df301a6ff584a7ec261a44cb9dc68df067a4774460b1f1e1],
      0xaab438e5be067b2547cd145bfc5291fcd8370a37a23a30015dff61661a4fc79),
    ([0xaab438e5be067b2547cd145bfc5291fcd8370a37a23a30015dff61661a4fc79, 0x18f43331537ee2af2e3d758d50f72106467c6eea50371dd528d57eb2b856d238],
      0x1feb913d78e25c2d6c49eed43fa9b7344f736d2730dab0c58922445c58494d70),
    ([0x1bf0df2dafb6d7417853e4cabbed99cfd1f63bf341767c320eb4251c14424fc0, 0x65ac093413a4c58960bcc5d5e258ae77c6e1eb0307f9e0d964170fc1a7f6e09, 0x1677c7dfe33d79c80ec60fbdf132d8564a7d55975d0637c9ba30a24f55a1eb69],
      0x9920a55b5a982b15db3ea7ea6170b6fb5914ec759c60094244e37185f663b46),
    ([1, 1001, 4001],
      0xffd4b1c1bb7dcb5390a7231c86e910ef14c35e183bef0253373862996bdad69),
    ([3, 1001, 19, 798, 3001, 0x1bf0df2dafb6d7417853e4cabbed99cfd1f63bf341767c320eb4251c14424fc0, 0x65ac093413a4c58960bcc5d5e258ae77c6e1eb0307f9e0d964170fc1a7f6e09],
      0xf5acea6239df0b0f7492b42a7e53def1da5658cef4f89f69d34484913af1a4f),
    ([19, 19, 202, 202, 100, 1000, 4001, 0x1feb913d78e25c2d6c49eed43fa9b7344f736d2730dab0c58922445c58494d70, 18],
      0x2632c7cdacbb49fc426c6d6512c825621d8e886be47eb659ffca7a6d605c6d21),
    ([1, 1001, 4002],
      0x2f8b700a708e3bbfe06e12de2ebbd2334feab62b550ee61076e67f638f918aa8),
    ([3, 1001, 19, 798, 3002, 0x1bf0df2dafb6d7417853e4cabbed99cfd1f63bf341767c320eb4251c14424fc0, 0x65ac093413a4c58960bcc5d5e258ae77c6e1eb0307f9e0d964170fc1a7f6e09],
      0x25b109c176fdb64f086a1ffa7ec284d68317f1170ea7f6be5061f87ca0fb8d58),
    ([19, 19, 202, 202, 100, 1000, 4002, 0x1feb913d78e25c2d6c49eed43fa9b7344f736d2730dab0c58922445c58494d70, 18],
      0x1b86bba1a831f62b2c5f9d64913d4f6675f5f170157038e900e1c6d274e823c3)]
def changePoseidon : Poseidon := .ofTable changeTable (by decide +kernel) (by decide +kernel)

def payerKey : ℕ × ℕ :=
  (0x1bf0df2dafb6d7417853e4cabbed99cfd1f63bf341767c320eb4251c14424fc0,
    0x65ac093413a4c58960bcc5d5e258ae77c6e1eb0307f9e0d964170fc1a7f6e09)

/-- The library on the payer's key and the hashes of the two orders. -/
def payerEddsa : Eddsa where
  prv2pub _ := payerKey
  signPoseidon _ message :=
    if message = 0x2632c7cdacbb49fc426c6d6512c825621d8e886be47eb659ffca7a6d605c6d21 then {
      S := 0x442ea5dc7affa903d5cb1ae2c7cd416eee3935b79d6fca205e4b781f282fcbd
      R8x := 0x158e6e387782fc0b5bd7243d6d4b12c2c7d58b32704655dcbb6bf0c0fa10a339
      R8y := 0x14649bdfa079c1123ec812e13e9fbeeae9266008cac0fdd5ac90a3507449f3fc }
    else {
      S := 0x1d54bf10a89706b104d72e1c1b4a5862000f6dee3c37ce1e7e8e42d6461714d
      R8x := 0x97f0a77f09c22b58fdbe12033688b4d8d4631456733998a0b7d87a298f134e8
      R8y := 0x1f51012608917f8b6f25d1320721075f3d2a874ab7a6944db89de5e856ca6ece }

def payerProve (ci : AuthorizeCircuitInput) : Except String (Groth16Proof × List ℕ) :=
  .ok (.zero, poseidonHash changePoseidon [ci.pubKeyAx, ci.pubKeyAy, ci.nullifier] ::
    [ci.commitmentRoot, ci.nullifier, ci.nonceNullifier, ci.newCommitment, ci.sellToken, ci.buyToken, ci.sellAmount,
      ci.buyAmount, ci.maxFee, ci.expiry, ci.claimsRoot, ci.totalLocked, ci.relayer, ci.orderHash].map (· % modulus))

theorem payerProve_public : FullProve.Public payerProve := by
  rintro ci proof signals hprove
  obtain ⟨-, rfl⟩ := Prod.mk.inj (Except.ok.inj hprove)
  exact ⟨_, rfl⟩

def payerToken : String := "0x0000000000000000000000000000000000000013"

/-- A note of 1000, the only leaf of the tree. -/
def payerNote : CommitmentNote := ⟨1001, 19, 1000, 2001, payerKey.1, payerKey.2⟩

/-- Pay 200 for a fee of 2. -/
def payerArgs : RealSettleArgs where
  batch := {
    totalAmount := 200
    claims := [{
      secret := 5001
      recipient := "0x0000000000000000000000000000000000000065"
      token := payerToken
      amount := 200
      releaseTime := 1000 }]
    tier := tier16 }
  tokenAddress := payerToken
  tokenSymbol := "USDC"
  tokenDecimals := 6
  source := {
    note := payerNote
    commitment := 0x13ea3b6764c39542b6c6feaa35c5536401649ae7c9b49112d2aa567d3aeeca60
    leafIndex := 0 }
  relayer := ⟨"0x0000000000000000000000000000000000000012", "https://relayer"⟩
  settlementAddress := "0x3333333333333333333333333333333333333333"
  chainId := 1
  maxFeeBps := 100
  feeRaw := 2
  eddsaPrivateKey := []
  tryProofFor _ := some {
    root := 0x2945547a1533ce65e9f1a8e7d7d57112f9c19c1b5998706409156a0939dfd0e6
    pathElements := (List.range 20).map fun i => (emptyNode i).val
    pathIndices := List.replicate 20 0 }
  labels := ⟨none, none⟩

def payerWorld : World where
  source := payerNote
  held := true
  vault := []
  attempt := none
  requests := []
  rows _ := none
  txs := []
  returned := []

theorem payerWorld_start : payerWorld.Start := ⟨rfl, rfl, rfl, fun _ => rfl, rfl, rfl⟩

def payerRun (steps : List Step) : World :=
  after (run changePoseidon digitEthers payerEddsa payerProve "0x3333333333333333333333333333333333333333") payerWorld steps

/-- An attempt up to the answer of the relayer to the POST. -/
def payerAttempt (nonce newSalt : ℕ) : List Step := [.begin nonce newSalt payerArgs, .post, .handle 0 18 500 (.ok ())]

def payerSettled : Step := .report "https://relayer" .settled 0 none (some 0)

/-- The relayer settles the order while the page waits. -/
def patientSteps : List Step :=
  payerAttempt 4001 3001 ++ [.receive 0, .broadcast "https://relayer", .mine 0, payerSettled, .poll, .receive 0, .finalize,
    .add, .remove]

/-- The page is closed when the transaction is on its way, and the next attempt is told of it. -/
def closedSteps : List Step :=
  payerAttempt 4001 3001 ++ [.broadcast "https://relayer", .stop, .mine 0, payerSettled] ++ payerAttempt 4002 3002 ++
    [.receive 0, .finalize, .add, .remove]

theorem change_kept_patient :
    FullProve.Public payerProve ∧ payerWorld.Start ∧ (payerRun patientSteps).ChangeKept changePoseidon ∧
      (payerRun patientSteps).attempt.isNone ∧
      (payerRun patientSteps).vault.map Change.commitment =
        [0xf5acea6239df0b0f7492b42a7e53def1da5658cef4f89f69d34484913af1a4f] :=
  ⟨payerProve_public, payerWorld_start, change_kept_of_patient payerProve_public payerWorld_start
    ⟨trivial, trivial, trivial, trivial, trivial, trivial, trivial, trivial, trivial, trivial, trivial, trivial, trivial⟩,
    by decide +kernel, by decide +kernel⟩

/-- The settlement inserted the change under the first salt; the vault has it under the second. -/
theorem change_lost_closed :
    FullProve.Public payerProve ∧ payerWorld.Start ∧
      (payerRun closedSteps).txs.map (fun tx => (tx.body.publicSignals.newCommitment, tx.fate)) =
        [(0xf5acea6239df0b0f7492b42a7e53def1da5658cef4f89f69d34484913af1a4f, .mined)] ∧
      ¬(payerRun closedSteps).ChangeKept changePoseidon := by
  have htxs : (payerRun closedSteps).txs.map (fun tx => (tx.body.publicSignals.newCommitment, tx.fate)) =
      [(0xf5acea6239df0b0f7492b42a7e53def1da5658cef4f89f69d34484913af1a4f, .mined)] := by decide +kernel
  have hvault : (payerRun closedSteps).vault.map (fun c => computeCommitment changePoseidon c.note) =
      [0x25b109c176fdb64f086a1ffa7ec284d68317f1170ea7f6be5061f87ca0fb8d58] := by decide +kernel
  have hidle : (payerRun closedSteps).attempt.isNone = true := by decide +kernel
  refine ⟨payerProve_public, payerWorld_start, htxs, fun hkept => ?_⟩
  obtain ⟨tx, hlist, htx⟩ := List.map_eq_singleton_iff.mp htxs
  obtain ⟨hnew, hfate⟩ := Prod.mk.inj htx
  have hmined : (payerRun closedSteps).Mined 0 tx.body := by
    rw [World.Mined, hlist, ← hfate]
    rfl
  obtain ⟨c, hc, hopens⟩ := hkept.saved (Option.isNone_iff_eq_none.mp hidle) 0 tx.body hmined (by rw [hnew]; decide)
  have hmem := List.mem_map_of_mem (f := fun c => computeCommitment changePoseidon c.note) hc
  rw [hvault, hopens, hnew, List.mem_singleton] at hmem
  exact absurd hmem (by decide)

end Pay

end ScatterDex
