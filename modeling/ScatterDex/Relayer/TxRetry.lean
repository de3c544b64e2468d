import ScatterDex.Relayer.AuthorizeRoutes
import ScatterDex.Sdk.Text

/-!
# Sending and retrying transactions

`tx-retry.ts` and the classifier of `settlement-worker.ts`. What becomes of a settlement is read off the text of an error, and a transaction whose receipt did not come in time ends in an error too.
-/

namespace ScatterDex

open Fallible Sdk

namespace Relayer

/-! ### The classifiers -/

def permanentPatterns : List String :=
  ["revert", "execution reverted", "insufficient funds", "nonce too low", "replacement fee too low", "invalid argument",
    "invalid address", "unpredictable_gas_limit"]

def transientPatterns : List String :=
  ["timeout", "econnrefused", "econnreset", "enotfound", "socket hang up", "network error", "bad response",
    "missing response", "server error", "502", "503", "429"]

/-- `patterns.some((p) => msg.includes(p))` -/
def someIncluded (patterns : List String) (msg : List Char) : Bool :=
  patterns.any fun p => msg.tails.any p.toList.isPrefixOf

/-- `isTransientSendError`: whether the send may be repeated. -/
def isTransientSendError (message : String) : Bool :=
  let msg := toLowerCase message
  if someIncluded permanentPatterns msg then false
  else someIncluded transientPatterns msg

inductive SettleErrorKind
  | permanent
  | transient
  | unknown
  deriving DecidableEq

def classifySettleError (message : String) : SettleErrorKind :=
  let msg := toLowerCase message
  if someIncluded permanentPatterns msg then .permanent
  else if someIncluded transientPatterns msg then .transient
  else .unknown

/-! ### sendAndWait -/

/-- What the node answers: to each attempt to send, to the wait for the receipt, and to each poll for it. A receipt is its status. -/
structure Rpc where
  send : ℕ → Except String ℕ
  wait : Except String (Option Bool)
  poll : ℕ → Except String (Option Bool)

def sendRetries : ℕ := 3
def receiptPollRetries : ℕ := 3

/-- The loop of the send phase, from an attempt on. -/
def sendPhase (label : String) (send : ℕ → Except String ℕ) : ℕ → ℕ → Except String ℕ
  | _, 0 => .error s!"[tx-retry] {label}: send failed after {sendRetries} attempts"
  | attempt, remaining + 1 =>
    match send attempt with
    | .ok txHash => .ok txHash
    | .error e =>
      if attempt < sendRetries ∧ isTransientSendError e then sendPhase label send (attempt + 1) remaining
      else .error e

/-- `pollReceipt`: a poll that fails is one without a receipt. -/
def pollReceipt (poll : ℕ → Except String (Option Bool)) (retries : ℕ) : Option Bool :=
  (List.range retries).findSome? fun i =>
    match poll i with
    | .ok receipt => receipt
    | .error _ => none

def sendAndWait (label : String) (rpc : Rpc) : Except String ℕ := do
  let txHash ← sendPhase label rpc.send 1 sendRetries
  let receipt ← rpc.wait
  match receipt <|> pollReceipt rpc.poll receiptPollRetries with
  | none => throw s!"[tx-retry] {label}: no receipt after timeout + {receiptPollRetries} polls (txHash={toBytes32Hex txHash}). TX may still be pending — check manually."
  | some false => throw s!"[tx-retry] {label} reverted on-chain (txHash={toBytes32Hex txHash}). Not retrying."
  | some true => return txHash

/-- A submission: refused before anything is sent, by the estimate of the gas or its price, or sent. -/
inductive Submission
  | refused (message : String)
  | sent (rpc : Rpc)

def Submission.result (label : String) : Submission → Except String ℕ
  | .refused message => .error message
  | .sent rpc => sendAndWait label rpc

/-! ### The retry schedule -/

/-- `SETTLEMENT_RETRY_SCHEDULE_MS` -/
def settlementRetrySchedule : List ℕ := [2000, 8000, 30000, 120000, 300000]

def maxSettlementAttempts : ℕ := settlementRetrySchedule.length

def maxErrLen : ℕ := 512

def truncErr (err : String) : String :=
  if utf16Length err.toList > maxErrLen then String.ofList (sliceChars (maxErrLen - 1) err.toList) ++ "…" else err

def AuthorizeOrderRow.markFailed (err : String) (row : AuthorizeOrderRow) : AuthorizeOrderRow :=
  { row with
    status := .failed
    lastError := some (truncErr err)
    nextRetryAt := none }

def AuthorizeOrderRow.markDeadLetter (err : String) (row : AuthorizeOrderRow) : AuthorizeOrderRow :=
  { row with
    status := .dead_letter
    lastError := some (truncErr err)
    nextRetryAt := none }

def AuthorizeOrderRow.scheduleRetry (attempt nextRetryAt : ℕ) (err : String) (row : AuthorizeOrderRow) : AuthorizeOrderRow :=
  { row with
    status := .retrying
    attempt
    nextRetryAt := some nextRetryAt
    lastError := some (truncErr err) }

/-- `handleSettleError` of a job at its attempt: what it writes to the row, and the status in memory. -/
def handleSettleError (nowMs attempt : ℕ) (err : String) :
    (AuthorizeOrderRow → AuthorizeOrderRow) × AuthorizeOrderStatus :=
  let kind := classifySettleError err
  let budget := if kind = .transient then maxSettlementAttempts else 1
  let nextAttempt := attempt + 1
  if kind = .permanent then (.markFailed err, .failed)
  else if nextAttempt > budget then
    if kind = .transient then (.markDeadLetter err, .dead_letter) else (.markFailed err, .failed)
  else
    let delay := settlementRetrySchedule.getD (min (nextAttempt - 1) (settlementRetrySchedule.length - 1)) 0
    (.scheduleRetry nextAttempt (nowMs + delay) err, .retrying)

/-- An error leaves a job failed, dead or waiting, in the database as in memory. -/
theorem handleSettleError_spec (nowMs attempt : ℕ) (err : String) (row : AuthorizeOrderRow) :
    ((handleSettleError nowMs attempt err).1 row).order = row.order ∧
      ((handleSettleError nowMs attempt err).1 row).status = (handleSettleError nowMs attempt err).2 ∧
      (handleSettleError nowMs attempt err).2 ∈ [AuthorizeOrderStatus.failed, .dead_letter, .retrying] := by
  unfold handleSettleError
  dsimp only
  repeat' split
  all_goals exact ⟨rfl, rfl, by simp⟩

end Relayer

end ScatterDex
