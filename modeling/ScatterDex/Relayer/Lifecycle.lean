import ScatterDex.Library.Mempool
import ScatterDex.Relayer.TxRetry

/-!
# The life of an order

Everything in the relayer that writes the status of an order, the map, the index by token pair or the counters by public key: the submission, the settlement worker, the offers between relayers on both sides, the listener for cancellations, the expiry sweep, the purge and the drain of the map, and a restart. Each step is what runs between two awaits, and a loop over the map without an await is one step for each order it reaches. Steps of different operations interleave in any way; which job is due first and which counterparty the index leads to is left open, and so is when a block decides a transaction.
-/

namespace ScatterDex

open Fallible

namespace Relayer

/-! ### State -/

/-- The key of a counter: `pubKeyId` of the two coordinates. -/
abbrev PubKeyId := ℕ × ℕ

/-- A key of the index: what an order sells and what it buys. -/
abbrev DirectedPair := ℕ × ℕ

/-- A row with its public key. -/
structure OrderRow extends AuthorizeOrderRow where
  pubKey : PubKeyId

/-- An entry of the map `authorizeOrders`. The object behind it is known by an id: an operation keeps its object when the entry is gone or another one took its place. -/
structure Entry where
  id : ℕ
  order : AuthorizeOrderFile
  pubKey : PubKeyId
  deriving DecidableEq

/-- A submission past the idempotency check, before or after it reserved a slot of its public key. -/
structure Post where
  order : AuthorizeOrderFile
  pubKey : PubKeyId
  reserved : Bool

/-- A trade offer that passed its checks and waits for the verification of the taker's proof. -/
structure Verifying where
  mapKey : ℕ
  maker : Entry
  taker : AuthorizeOrderFile

/-- An operation between relayers that holds an order: an offer that was sent, or one that is being settled for the taker of another relayer. -/
structure Hold where
  entry : Entry
  prior : AuthorizeOrderStatus
  taker : Option ℕ

/-- What the relayer has under a nullifier: the row, the entry of the map, the status of each object, the pairs whose bucket lists the nullifier, the lock, and the operations that hold the order. -/
structure Cell where
  row : Option OrderRow
  entry : Option Entry
  status : ℕ → AuthorizeOrderStatus
  pairs : DirectedPair → Bool
  locked : Bool
  holds : List Hold

/-- The job of the worker, with the object of its order and the counterparty of a match. -/
structure Job where
  nullifier : ℕ
  attempt : ℕ
  pubKey : PubKeyId
  stored : Option Entry
  partner : Option (ℕ × Entry)

/-- The orders a job settles: the maker first. -/
def Job.nullifiers (job : Job) : List ℕ :=
  match job.partner with
  | some (maker, _) => [maker, job.nullifier]
  | none => [job.nullifier]

def Job.label (job : Job) : String := if job.partner.isSome then "settleAuth" else "scatterDirectAuth"

/-- The public key whose slot `releasePubKeySlot` gives back. -/
def Job.slot (job : Job) : PubKeyId := (job.stored.map Entry.pubKey).getD job.pubKey

/-- A settlement transaction is the nullifiers it spends. -/
abbrev SettlementTx := Mempool.Tx (List ℕ)

/-- The relayer, with the primary keys of its table, the submissions and offers under way, and the chain. -/
structure World where
  nowMs : ℕ
  nextId : ℕ
  cells : ℕ → Cell
  nullifiers : List ℕ
  pendingCountByPubKey : PubKeyId → ℕ
  posts : List Post
  verifying : List Verifying
  worker : Option Job
  txs : List SettlementTx

def Cell.empty : Cell where
  row := none
  entry := none
  status _ := .accepted
  pairs _ := false
  locked := false
  holds := []

/-- A relayer with an empty database. -/
def World.start (nowMs : ℕ) : World where
  nowMs
  nextId := 0
  cells _ := .empty
  nullifiers := []
  pendingCountByPubKey _ := 0
  posts := []
  verifying := []
  worker := none
  txs := []

namespace World

variable (w : World)

def nowSeconds : ℕ := w.nowMs / 1000

def modify (n : ℕ) (f : Cell → Cell) : World :=
  { w with cells := Function.update w.cells n (f (w.cells n)) }

def setWorker (worker : Option Job) : World := { w with worker }

def incPubKeyCount (pk : PubKeyId) : World :=
  { w with pendingCountByPubKey := Function.update w.pendingCountByPubKey pk (w.pendingCountByPubKey pk + 1) }

/-- A count that falls to zero is deleted, and never goes below. -/
def decPubKeyCount (pk : PubKeyId) : World :=
  { w with pendingCountByPubKey := Function.update w.pendingCountByPubKey pk (w.pendingCountByPubKey pk - 1) }

end World

def AuthorizeOrderStatus.isActive (s : AuthorizeOrderStatus) : Bool := s.isLiveStatus || s.isInFlightStatus

namespace AuthorizeOrderFile

variable (order : AuthorizeOrderFile)

def nullifier : ℕ := order.publicSignals.nullifier

def directedPair : DirectedPair := (order.publicSignals.sellToken, order.publicSignals.buyToken)

def counterPair : DirectedPair := (order.publicSignals.buyToken, order.publicSignals.sellToken)

def SameToken : Prop := order.publicSignals.sellToken = order.publicSignals.buyToken

instance : Decidable order.SameToken := inferInstanceAs (Decidable (_ = _))

end AuthorizeOrderFile

/-! ### Statements of db.ts -/

namespace AuthorizeOrderRow

variable (row : AuthorizeOrderRow)

/-- `claimNextSettlementJob` takes a row that is queued and due. -/
def Claimable (nowMs : ℕ) : Prop :=
  (row.status = .accepted ∨ row.status = .retrying) ∧ ∀ t ∈ row.nextRetryAt, t ≤ nowMs

instance (nowMs : ℕ) : Decidable (row.Claimable nowMs) := inferInstanceAs (Decidable (_ ∧ _))

def claim : AuthorizeOrderRow :=
  { row with
    status := .settling
    nextRetryAt := none }

def deferAccepted (nextRetryAt : ℕ) : AuthorizeOrderRow :=
  { row with
    status := .accepted
    nextRetryAt := some nextRetryAt }

def markSettled (txHash : ℕ) : AuthorizeOrderRow :=
  { row with
    status := .settled
    settleTx := some txHash
    nextRetryAt := none
    lastError := none }

/-- `updateAuthorizeOrderStatus` -/
def updateStatus (status : AuthorizeOrderStatus) (settleTx : Option ℕ) : AuthorizeOrderRow :=
  { row with
    status
    settleTx }

/-- The rows of `sweepExpiredAuthorizeOrders`. -/
def Swept (nowSeconds : ℕ) : Prop :=
  (row.status = .accepted ∨ row.status = .settling ∨ row.status = .retrying) ∧ row.order.publicSignals.expiry < nowSeconds

instance (nowSeconds : ℕ) : Decidable (row.Swept nowSeconds) := inferInstanceAs (Decidable (_ ∧ _))

def sweep (nowSeconds : ℕ) : AuthorizeOrderRow :=
  if row.Swept nowSeconds then { row with
    status := .expired
    nextRetryAt := none }
  else row

/-- `resetOrphanedSettlingOrders` -/
def resetOrphaned : AuthorizeOrderRow :=
  if row.status = .settling then { row with status := .accepted } else row

end AuthorizeOrderRow

namespace Cell

variable (c : Cell)

/-- `UPDATE … WHERE nullifier = ?` -/
def updateRow (f : AuthorizeOrderRow → AuthorizeOrderRow) : Cell :=
  { c with row := c.row.map fun row => { row with toAuthorizeOrderRow := f row.toAuthorizeOrderRow } }

/-! ### The map and its index -/

def setStatus (id : ℕ) (s : AuthorizeOrderStatus) : Cell :=
  { c with status := Function.update c.status id s }

/-- A status for an object, if there is one. -/
def mark (stored : Option Entry) (s : AuthorizeOrderStatus) : Cell :=
  match stored with
  | some e => c.setStatus e.id s
  | none => c

/-- `indexAuthorizeOrder`. Same-token orders stay out of the index. -/
def indexOrder (order : AuthorizeOrderFile) : Cell :=
  if order.SameToken then c else { c with pairs := Function.update c.pairs order.directedPair true }

/-- `unindexAuthorizeOrder` -/
def unindexOrder (order : AuthorizeOrderFile) : Cell :=
  if order.SameToken then c else { c with pairs := Function.update c.pairs order.directedPair false }

/-- An entry leaves the index and the map. -/
def removeEntry (e : Entry) : Cell :=
  { c.unindexOrder e.order with entry := none }

/-! ### Submissions -/

/-- The idempotency check of a POST: any row but a failed one answers, and so does an entry of the map that did not fail. -/
def Known : Prop :=
  match c.row with
  | some row => row.status ≠ .failed
  | none => ∃ e ∈ c.entry, c.status e.id ≠ .failed

instance : Decidable c.Known := by
  unfold Cell.Known
  split
  · infer_instance
  · exact decidable_of_iff ((c.entry.any fun e => c.status e.id ≠ .failed) = true) (by simp [Option.any_eq_true])

/-- A POST that is not answered deletes a failed row and the entry of the map. -/
def forget : Cell :=
  match c.row with
  | some _ => { c with
      row := none
      entry := none }
  | none => c

/-- The insertion after the other checks, of a nullifier that has no row. -/
def postInsert (id : ℕ) (post : Post) : Cell :=
  let stored : Cell := { c with
    row := some { acceptedRow post.order with pubKey := post.pubKey }
    entry := some ⟨id, post.order, post.pubKey⟩
    status := Function.update c.status id .accepted }
  stored.indexOrder post.order

/-! ### The worker -/

/-- A job takes the row; its object, if there is one, is matched. -/
def startJob (stored : Option Entry) : Cell :=
  (c.updateRow AuthorizeOrderRow.claim).mark stored .matched

/-- A job without a counterparty goes back to the queue. -/
def park (nextRetryAt : ℕ) : Cell :=
  c.updateRow fun row => row.claim.deferAccepted nextRetryAt

/-- What a job writes at its end: to the row, and to the object if there was one. -/
def finish (stored : Option Entry) (write : AuthorizeOrderRow → AuthorizeOrderRow) (s : AuthorizeOrderStatus) : Cell :=
  (c.updateRow write).mark stored s

/-! ### Operations between relayers -/

/-- The lock and the status `matched`, for the object of an operation. -/
def hold (e : Entry) (taker : Option ℕ) : Cell :=
  let held : Cell := { c with
    locked := true
    holds := c.holds ++ [{ entry := e, prior := c.status e.id, taker }] }
  (held.setStatus e.id .matched).updateRow fun row => row.updateStatus .matched none

def release (i : ℕ) : Cell :=
  { c with
    holds := c.holds.eraseIdx i
    locked := false }

/-- The end of an operation that settled. -/
def holdSettled (i : ℕ) (h : Hold) (txHash : ℕ) : Cell :=
  ((c.setStatus h.entry.id .settled).updateRow fun row => row.updateStatus .settled (some txHash)).release i

/-- The end of any other operation: the status from before is written back. -/
def restore (i : ℕ) (h : Hold) : Cell :=
  ((c.setStatus h.entry.id h.prior).updateRow fun row => row.updateStatus h.prior none).release i

/-! ### The rest of the relayer -/

/-- What `applyOnChainAuthorizeCancel` and `drainAuthorizeOrders` do to an order of the map. -/
def cancel (e : Entry) : Cell :=
  let marked := if (c.status e.id).isLiveStatus then c.setStatus e.id .cancelled else c
  (marked.updateRow fun row => row.updateStatus .cancelled none).removeEntry e

/-- A boot: the map and the index are read back from the rows, and only then are the orphaned rows reset. -/
def restart (id : ℕ) : Cell :=
  let entry := (c.row.filter fun row => row.status.isActive).map fun row => (⟨id, row.order, row.pubKey⟩ : Entry)
  let loaded : Cell :=
    { row := c.row
      entry
      status := match c.row with
        | some row => Function.update c.status id row.status
        | none => c.status
      pairs := fun _ => false
      locked := false
      holds := [] }
  let indexed := match entry with
    | some e => loaded.indexOrder e.order
    | none => loaded
  indexed.updateRow AuthorizeOrderRow.resetOrphaned

end Cell

/-! ### Matching -/

def noMatchRepoll : ℕ := 30000

def MAX_ORDERS_PER_PUBKEY : ℕ := 50

/-- A counterparty that `findMatch` can return: another order that the index lists for the pair, live, with tokens mirrored and a price that crosses. -/
def World.candidate (w : World) (n : ℕ) (incoming : AuthorizeOrderFile) (m : ℕ) : Except String Entry := do
  require (m ≠ n) "the order itself"
  require ((w.cells m).pairs incoming.counterPair = true) "not listed"
  let e ← orError (w.cells m).entry "no such order"
  require (((w.cells m).status e.id).isLiveStatus = true) "not live"
  require (e.order.publicSignals.isTokenCompatible incoming.publicSignals = true) "token mismatch"
  require (e.order.publicSignals.isPriceCompatible incoming.publicSignals = true) "price incompatible"
  return e

/-- An order summary of the shared orderbook. -/
structure OrderSummary where
  sellToken : ℕ
  buyToken : ℕ
  sellAmount : ℕ
  buyAmount : ℕ
  expiry : ℕ

/-- The local order that `onRemoteOrderArrived` offers. Its clock is read once, when the remote order arrives. -/
def Cell.offered (c : Cell) (now : ℕ) (remote : OrderSummary) : Except String Entry := do
  require (¬remote.expiry ≤ now) "remote order expired"
  -- the pair itself is not looked at again
  require (c.pairs (remote.buyToken, remote.sellToken) = true) "not listed"
  let e ← orError c.entry "no such order"
  let ps := e.order.publicSignals
  require ((c.status e.id).isLiveStatus = true) "not live"
  require (c.locked = false) "locked"
  require (¬ps.expiry ≤ now) "expired"
  require (¬remote.buyAmount * ps.buyAmount > remote.sellAmount * ps.sellAmount) "price incompatible"
  return e

/-- The checks of `handleTradeOffer` before it awaits the verification of the taker's proof. -/
def Cell.acceptOffer (c : Cell) (nowSeconds relayerFee : ℕ) (taker : AuthorizeOrderFile) : Except String Entry := do
  let e ← orError c.entry "maker order not found"
  require ((c.status e.id).isLiveStatus = true) s!"maker order status is {repr (c.status e.id)}"
  require (c.locked = false) "maker order is being matched"
  require (e.order.publicSignals.isTokenCompatible taker.publicSignals = true) "token mismatch"
  require (e.order.publicSignals.isPriceCompatible taker.publicSignals = true) "price incompatible"
  require (¬(e.order.publicSignals.expiry ≤ nowSeconds ∨ taker.publicSignals.expiry ≤ nowSeconds)) "expired"
  require (¬relayerFee > taker.publicSignals.maxFee) "taker maxFee below this relayer's minimum"
  return e

namespace World

variable (w : World)

/-- A job up to its first await: it is parked, or the worker waits for the submission. -/
def handleJob (n : ℕ) (row : OrderRow) (counterparty : Option (ℕ × Entry)) : World :=
  let stored := (w.cells n).entry
  let order := (stored.map Entry.order).getD row.order
  if order.SameToken then
    (w.modify n (Cell.startJob · stored)).setWorker
      (some { nullifier := n, attempt := row.attempt, pubKey := row.pubKey, stored, partner := none })
  else
    match stored, counterparty with
    | some _, some (m, p) =>
      ((w.modify m (Cell.setStatus · p.id .matched)).modify n (Cell.startJob · stored)).setWorker
        (some { nullifier := n, attempt := row.attempt, pubKey := row.pubKey, stored, partner := some (m, p) })
    | _, _ => w.modify n (Cell.park · (w.nowMs + noMatchRepoll))

/-- The end of a job whose transaction was mined. -/
def jobSettled (job : Job) (txHash : ℕ) : World :=
  let w' := match job.partner with
    | some (m, p) => (w.modify m (Cell.finish · (some p) (·.markSettled txHash) .settled)).decPubKeyCount p.pubKey
    | none => w
  ((w'.modify job.nullifier (Cell.finish · job.stored (·.markSettled txHash) .settled)).decPubKeyCount job.slot).setWorker none

/-- The end of a job with an error. The counterparty becomes pending in memory; its row was never touched. -/
def jobFailed (job : Job) (err : String) : World :=
  let (write, status) := handleSettleError w.nowMs job.attempt err
  let w' := match job.partner with
    | some (m, p) => w.modify m (Cell.setStatus · p.id .pending)
    | none => w
  let w'' := (w'.modify job.nullifier (Cell.finish · job.stored write status)).setWorker none
  if status = .retrying then w'' else w''.decPubKeyCount job.slot

/-- `pendingCountByPubKey` as a boot rebuilds it. -/
def recount (pk : PubKeyId) : ℕ :=
  w.nullifiers.countP fun n => ((w.cells n).row.any fun row => row.status.isActive && row.pubKey = pk)

end World

/-! ### Steps -/

inductive Step
  | elapse (ms : ℕ)
  | post (order : AuthorizeOrderFile) (relayerAddress : Address) (pubKey : PubKeyId)
  | reserve (i : ℕ)
  | insert (i : ℕ)
  | refuse (i : ℕ)
  | claim (n : ℕ) (counterparty : Option ℕ)
  | workerSend
  | workerEnd (submission : Submission)
  | offer (n now : ℕ) (remote : OrderSummary)
  /-- The answer to an offer, with the transaction if it says so and `verifyPeerSettlement` confirms it. -/
  | offerEnd (n i : ℕ) (settled : Option ℕ)
  | offerThrow (n i : ℕ)
  | receive (n relayerFee : ℕ) (taker : AuthorizeOrderFile)
  | reject (i : ℕ)
  | accept (i : ℕ)
  | acceptSend (n i : ℕ)
  | acceptEnd (n i : ℕ) (submission : Submission)
  | privateCancel (n : ℕ)
  | drain (n : ℕ)
  | purge (n : ℕ)
  | sweep
  | restart
  /-- A settlement sent by another relayer. -/
  | peerSend (nullifiers : List ℕ)
  | mine (txHash : ℕ)
  | revert (txHash : ℕ)

/-- A transaction in a block that succeeded, with the nullifiers it spent. -/
def World.Mined (w : World) (txHash : ℕ) (nullifiers : List ℕ) : Prop := w.txs[txHash]? = some ⟨nullifiers, .mined⟩

instance (w : World) (txHash : ℕ) (nullifiers : List ℕ) : Decidable (w.Mined txHash nullifiers) :=
  decidable_of_iff ((w.txs[txHash]?).any fun tx => tx.body = nullifiers ∧ tx.fate = .mined) (by
    unfold World.Mined
    rcases w.txs[txHash]? with _ | ⟨body, fate⟩ <;> simp)

def run : Step → World → Except String World
  | .elapse ms, w => .ok { w with nowMs := w.nowMs + ms }
  | .post order relayerAddress pubKey, w => do
    validateAuthorizeOrder order relayerAddress w.nowSeconds
    require (¬(w.cells order.nullifier).Known) "answered"
    return { w.modify order.nullifier Cell.forget with
      nullifiers := w.nullifiers.erase order.nullifier
      posts := w.posts ++ [{ order, pubKey, reserved := false }] }
  | .reserve i, w => do
    let post ← orError w.posts[i]? "no such submission"
    require (post.reserved = false) "reserved"
    require (w.pendingCountByPubKey post.pubKey < MAX_ORDERS_PER_PUBKEY) "Too many pending orders for this pubKey"
    return { w.incPubKeyCount post.pubKey with posts := w.posts.set i { post with reserved := true } }
  | .insert i, w => do
    let post ← orError w.posts[i]? "no such submission"
    require (post.reserved = true) "not reserved"
    let n := post.order.nullifier
    match (w.cells n).row with
    -- the race against another submission is lost
    | some _ => return { w.decPubKeyCount post.pubKey with posts := w.posts.eraseIdx i }
    | none => return { w.modify n (Cell.postInsert · w.nextId post) with
        nextId := w.nextId + 1
        nullifiers := n :: w.nullifiers
        posts := w.posts.eraseIdx i }
  | .refuse i, w => do
    let post ← orError w.posts[i]? "no such submission"
    let w' := if post.reserved then w.decPubKeyCount post.pubKey else w
    return { w' with posts := w.posts.eraseIdx i }
  | .claim n counterparty, w => do
    require (w.worker.isNone = true) "the worker is busy"
    let row ← orError (w.cells n).row "no such row"
    require (row.Claimable w.nowMs) "not queued or not due"
    match counterparty with
    | none =>
      require (∀ e ∈ (w.cells n).entry, ∀ m ∈ w.nullifiers, (w.candidate n e.order m).toOption.isNone = true) "a match"
      return w.handleJob n row none
    | some m => do
      let incoming ← orError (w.cells n).entry "no such order"
      let p ← w.candidate n incoming.order m
      return w.handleJob n row (some (m, p))
  | .workerSend, w => do
    let job ← orError w.worker "the worker is idle"
    return { w with txs := w.txs ++ [⟨job.nullifiers, .pending⟩] }
  | .workerEnd submission, w => do
    let job ← orError w.worker "the worker is idle"
    match submission.result job.label with
    | .ok txHash => do
      require (w.Mined txHash job.nullifiers) "not mined"
      return w.jobSettled job txHash
    | .error err => return w.jobFailed job err
  | .offer n now remote, w => do
    require (now ≤ w.nowSeconds) "not yet"
    let e ← (w.cells n).offered now remote
    return w.modify n (Cell.hold · e none)
  | .offerEnd n i settled, w => do
    let h ← orError (w.cells n).holds[i]? "no such offer"
    require (h.taker = none) "not an offer"
    match settled with
    | some txHash => do
      require ((w.txs[txHash]?).any (fun tx => n ∈ tx.body ∧ tx.fate = .mined) = true) "not confirmed"
      return (w.modify n (Cell.holdSettled · i h txHash)).decPubKeyCount h.entry.pubKey
    | none => return w.modify n (Cell.restore · i h)
  | .offerThrow n i, w => do
    let h ← orError (w.cells n).holds[i]? "no such offer"
    require (h.taker = none) "not an offer"
    if (w.cells n).status h.entry.id = .matched then return w.modify n (Cell.restore · i h)
    else return w.modify n (Cell.release · i)
  | .receive n relayerFee taker, w => do
    let maker ← (w.cells n).acceptOffer w.nowSeconds relayerFee taker
    return { w with verifying := w.verifying ++ [{ mapKey := n, maker, taker }] }
  | .reject i, w => .ok { w with verifying := w.verifying.eraseIdx i }
  | .accept i, w => do
    let v ← orError w.verifying[i]? "no such offer"
    return { w.modify v.mapKey (Cell.hold · v.maker (some v.taker.nullifier)) with
      verifying := w.verifying.eraseIdx i }
  | .acceptSend n i, w => do
    let h ← orError (w.cells n).holds[i]? "no such offer"
    let taker ← orError h.taker "not accepted"
    return { w with txs := w.txs ++ [⟨[n, taker], .pending⟩] }
  | .acceptEnd n i submission, w => do
    let h ← orError (w.cells n).holds[i]? "no such offer"
    let taker ← orError h.taker "not accepted"
    match submission.result "settleAuth" with
    | .ok txHash => do
      require (w.Mined txHash [n, taker]) "not mined"
      return (w.modify n (Cell.holdSettled · i h txHash)).decPubKeyCount h.entry.pubKey
    | .error _ => return w.modify n (Cell.restore · i h)
  | .privateCancel n, w => do
    let e ← orError (w.cells n).entry "no such order"
    let w' := w.modify n (Cell.cancel · e)
    return if ((w.cells n).status e.id).isLiveStatus then w'.decPubKeyCount e.pubKey else w'
  | .drain n, w => do
    let e ← orError (w.cells n).entry "no such order"
    require (((w.cells n).status e.id).isLiveStatus = true) "not live"
    return (w.modify n (Cell.cancel · e)).decPubKeyCount e.pubKey
  | .purge n, w => do
    let e ← orError (w.cells n).entry "no such order"
    let s := (w.cells n).status e.id
    let isLiveExpired := s.isLiveStatus && e.order.publicSignals.expiry < w.nowSeconds
    require (s.isTerminalStatus = true ∨ isLiveExpired = true) "kept"
    let w' := w.modify n (Cell.removeEntry · e)
    return if isLiveExpired then w'.decPubKeyCount e.pubKey else w'
  | .sweep, w => .ok { w with cells := fun n => (w.cells n).updateRow fun row => row.sweep w.nowSeconds }
  | .restart, w => .ok { w with
      nextId := w.nextId + 1
      cells := fun n => (w.cells n).restart w.nextId
      pendingCountByPubKey := w.recount
      posts := []
      verifying := []
      worker := none }
  | .peerSend nullifiers, w => .ok { w with txs := w.txs ++ [⟨nullifiers, .pending⟩] }
  | .mine txHash, w => do
    let tx ← orError w.txs[txHash]? "no such transaction"
    require (tx.fate = .pending) "decided"
    -- the contracts accept a nullifier once
    require (∀ other ∈ w.txs, other.fate = .mined → ∀ n ∈ other.body, n ∉ tx.body) "NullifierAlreadySpent"
    return { w with txs := Mempool.settle w.txs txHash .mined }
  | .revert txHash, w => do
    let tx ← orError w.txs[txHash]? "no such transaction"
    require (tx.fate = .pending) "decided"
    return { w with txs := Mempool.settle w.txs txHash .reverted }

end Relayer

end ScatterDex
