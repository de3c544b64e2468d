import ScatterDex.Library.Steps
import ScatterDex.Pro.ClaimPackage
import ScatterDex.Sdk.ClaimResolver

/-!
# The claim status of Pro's orders

`computeClaimedFromSpent` and `reconcileClaimedLeaves` of `orders.tsx`, and the passes of `claimStatusReconciler.tsx` beside a chain on which claims land and an indexer that follows it.
-/

namespace ScatterDex

open Sdk

namespace Pro

/-! ### orders.tsx -/

inductive OrderStatus
  | matching
  | claimable
  | claimed
  | cancelled
  deriving DecidableEq

/-- An order record, with what its claim status is about. -/
structure TrackedOrder extends OrderRecord where
  id : String
  status : OrderStatus
  claimedLeafIndexes : Option (List ℤ)
  deriving DecidableEq

def TrackedOrder.allClaims (order : TrackedOrder) : List OrderClaim := order.toOrderRecord.allClaims

/-- The leaves that are recorded as claimed. -/
def TrackedOrder.recorded (order : TrackedOrder) : List ℤ := order.claimedLeafIndexes.getD []

/-- The statuses that a pass looks at. -/
def TrackedOrder.settled (order : TrackedOrder) : Bool := order.status = .claimable ∨ order.status = .claimed

def computeClaimedFromSpent (order : TrackedOrder) (spentLeafIndexes : List ℤ) (authoritative : Bool) :
    Option (List ℤ × OrderStatus) :=
  let claimLeafIdxs := order.allClaims.map OrderClaim.leafIndex
  if claimLeafIdxs = [] then none
  else
    let confirmed := spentLeafIndexes.filter (· ∈ claimLeafIdxs)
    let merged := if authoritative then confirmed else order.recorded.filter (· ∈ claimLeafIdxs) ++ confirmed
    let claimedLeafIndexes := merged.dedup.mergeSort (· ≤ ·)
    let allDone := claimLeafIdxs.all (· ∈ claimedLeafIndexes)
    let status :=
      if order.status = .claimable ∧ allDone then .claimed
      else if order.status = .claimed ∧ authoritative ∧ !allDone then .claimable
      else order.status
    if order.recorded = claimedLeafIndexes ∧ status = order.status then none
    else some (claimedLeafIndexes, status)

/-- The orders of the provider; each has its own id. -/
structure OrderList where
  orders : List TrackedOrder
  nodup : (orders.map TrackedOrder.id).Nodup
  deriving DecidableEq

namespace OrderList

def find (list : OrderList) (id : String) : Option TrackedOrder := list.orders.find? fun o => o.id = id

/-- The updater that puts an order in its place. -/
def replace (list : OrderList) (next : TrackedOrder) : OrderList where
  orders := list.orders.map fun o => if o.id = next.id then next else o
  nodup := by
    have hids : (list.orders.map fun o => if o.id = next.id then next else o).map TrackedOrder.id = list.orders.map TrackedOrder.id := by
      rw [List.map_map]
      apply List.map_congr_left
      intro o _
      rw [Function.comp_apply]
      split
      · next heq => exact heq.symm
      · rfl
    rw [hids]
    exact list.nodup

end OrderList

def reconcileClaimedLeaves (ordersRef orders : OrderList) (id : String) (spentLeafIndexes : List ℤ) (authoritative : Bool) :
    OrderList :=
  match ordersRef.find id with
  | none => orders
  | some target =>
    match computeClaimedFromSpent target spentLeafIndexes authoritative with
    | none => orders
    | some (claimedLeafIndexes, status) =>
      orders.replace { target with claimedLeafIndexes := some claimedLeafIndexes, status := status }

/-! ### claimStatusReconciler.tsx -/

/-- A leaf in the batch of a pass; its key is its place, and `keyMap` leads back from there. -/
structure ClaimRow where
  orderId : String
  secret : ℕ
  leafIndex : ℤ
  claimsRoot : ℕ
  deriving DecidableEq

/-- What is configured. -/
structure ClaimNetwork where
  settlement : Bool
  sharedOrderbookUrl : Bool
  readProvider : Bool

/-- The nullifiers that are spent on chain, and those the indexer knows of. -/
structure ClaimChain where
  spent : Finset ℕ
  indexed : Finset ℕ
  trails : indexed ⊆ spent
  deriving DecidableEq

/-- A pass that waits for its batch; `asked` is what the indexer knew when the pass began. -/
structure ClaimPass where
  seq : ℕ
  direct : Bool
  rows : List ClaimRow
  processedOrders : List String
  asked : Finset ℕ
  deriving DecidableEq

/-- The provider. `orders` is the state after all queued updates, `rendered` that of the last render, which the reconciler reads, and `ordersRef` that of the last effect. -/
structure ClaimStatus where
  chain : ClaimChain
  orders : OrderList
  rendered : OrderList
  ordersRef : OrderList
  passSeq : ℕ
  running : Bool
  manualRunning : Bool
  passes : List ClaimPass
  deriving DecidableEq

inductive ClaimStatusEvent
  | claim (nullifier : ℕ)
  | index (nullifier : ℕ)
  | start (direct : Bool)
  | answer (i : ℕ) (indexer : Option (Finset ℕ)) (probe : ℕ → Option Bool)
  | fail (i : ℕ)
  | render
  | mirror

variable (P : Poseidon)

def OrderClaim.nullifier (claim : OrderClaim) : Option ℕ :=
  claim.claimsRoot.bind (claimNullifierHex P claim.secret claim.leafIndex)

def ClaimRow.nullifier (row : ClaimRow) : Option ℕ := claimNullifierHex P row.secret row.leafIndex row.claimsRoot

/-- The leaves of an order that can be resolved. -/
def TrackedOrder.rows (order : TrackedOrder) : List ClaimRow :=
  order.allClaims.filterMap fun c => c.claimsRoot.map fun claimsRoot => ⟨order.id, c.secret, c.leafIndex, claimsRoot⟩

namespace ClaimPass

def entries (pass : ClaimPass) : List ClaimEntryRef :=
  pass.rows.mapIdx fun key row => ⟨key, row.secret, row.leafIndex, row.claimsRoot⟩

/-- The request, with the answers that will come to it. -/
def opts (network : ClaimNetwork) (pass : ClaimPass) (indexer : Option (Finset ℕ)) (probe : ℕ → Option Bool) :
    ResolveSpentClaimEntriesOpts where
  entries := pass.entries
  provider := if network.readProvider then some probe else none
  indexer := if network.sharedOrderbookUrl then some indexer else none
  preferProvider := pass.direct

def resolve (network : ClaimNetwork) (pass : ClaimPass) (indexer : Option (Finset ℕ)) (probe : ℕ → Option Bool) :
    ResolveSpentClaimEntriesResult :=
  resolveSpentClaimEntries P (pass.opts network indexer probe)

/-- `spentByOrder` -/
def spentByOrder (pass : ClaimPass) (spent : List ℕ) (orderId : String) : List ℤ :=
  ((spent.filterMap fun key => pass.rows[key]?).filter fun row => row.orderId = orderId).map ClaimRow.leafIndex

end ClaimPass

namespace ClaimStatus

/-- The provider when the orders have been loaded. -/
def opened (chain : ClaimChain) (orders : OrderList) : ClaimStatus := ⟨chain, orders, orders, orders, 0, false, false, []⟩

/-- The beginning of `runPass`, up to the request; a manual pass comes through `refresh`. -/
def start (network : ClaimNetwork) (direct : Bool) (s : ClaimStatus) : ClaimStatus :=
  if direct && s.manualRunning || !direct && s.running then s
  else if !network.settlement || (!network.sharedOrderbookUrl && !network.readProvider) then s
  else
    let processed := s.rendered.orders.filter fun o => o.settled && o.allClaims ≠ []
    let pass : ClaimPass := {
      seq := s.passSeq + 1
      direct
      rows := processed.flatMap TrackedOrder.rows
      processedOrders := processed.map TrackedOrder.id
      asked := s.chain.indexed }
    if pass.rows = [] then { s with passSeq := pass.seq }
    else { s with
      passSeq := pass.seq
      running := s.running || !direct
      manualRunning := s.manualRunning || direct
      passes := s.passes ++ [pass] }

/-- The loop over `processedOrders`. -/
def write (s : ClaimStatus) (pass : ClaimPass) (result : ResolveSpentClaimEntriesResult) : OrderList :=
  pass.processedOrders.foldl (fun orders orderId =>
    match s.rendered.find orderId with
    | none => orders
    | some cur =>
      if cur.settled then
        reconcileClaimedLeaves s.ordersRef orders orderId (pass.spentByOrder result.spent orderId) result.authoritative
      else orders) s.orders

/-- The end of a pass, with what it leaves of the orders. -/
def finish (s : ClaimStatus) (before : List ClaimPass) (pass : ClaimPass) (after : List ClaimPass) (orders : OrderList) : ClaimStatus :=
  { s with
    orders
    running := s.running && pass.direct
    manualRunning := s.manualRunning && !pass.direct
    passes := before ++ after }

/-- What the indexer and the provider may answer: the indexer forgets nothing and neither makes up a claim. -/
structure Answers (s : ClaimStatus) (pass : ClaimPass) (indexer : Option (Finset ℕ)) (probe : ℕ → Option Bool) : Prop where
  indexed : ∀ spent, indexer = some spent → spent ⊆ s.chain.indexed
  retained : ∀ spent, indexer = some spent → ∀ row ∈ pass.rows, ∀ n, row.nullifier P = some n → n ∈ pass.asked → n ∈ spent
  probed : ∀ n, probe n = some true → n ∈ s.chain.spent

def Step (network : ClaimNetwork) : ClaimStatusEvent → ClaimStatus → ClaimStatus → Prop
  | .claim nullifier, s, s' => s' = { s with chain :=
    ⟨insert nullifier s.chain.spent, s.chain.indexed, s.chain.trails.trans (Finset.subset_insert _ _)⟩ }
  | .index nullifier, s, s' => ∃ hspent : nullifier ∈ s.chain.spent, s' = { s with chain :=
    ⟨s.chain.spent, insert nullifier s.chain.indexed, Finset.insert_subset hspent s.chain.trails⟩ }
  | .start direct, s, s' => s' = s.start network direct
  | .answer i indexer probe, s, s' => ∃ before pass after, s.passes = before ++ pass :: after ∧ before.length = i ∧
    s.Answers P pass indexer probe ∧
    s' = s.finish before pass after
      (if pass.seq < s.passSeq then s.orders else s.write pass (pass.resolve P network indexer probe))
  | .fail i, s, s' => ∃ before pass after, s.passes = before ++ pass :: after ∧ before.length = i ∧
    s' = s.finish before pass after s.orders
  | .render, s, s' => s' = { s with rendered := s.orders }
  | .mirror, s, s' => s' = { s with ordersRef := s.rendered }

end ClaimStatus

end Pro

end ScatterDex
