import BeaconDex.Backend.Protocol
import BeaconDex.Library.KeyedList

/-!
# The order cache

`MemoryOrdersRepo` of `backend/src/db/orders-repo.ts`, with the rows of
`backend/src/types.ts`.  A row's id is that of the output it caches, so a row
carries the proof of it.

Results about the cache never look at a row: they go through the status recorded
under an id (`statusOf`), and each write says what it does to the statuses.
-/

namespace BeaconDex.Backend

open Library

/-- Whether an order is open, and what has become of it otherwise. -/
inductive OrderStatus
  | opened
  | taken
  | partiallyFilled
  | cancelled
  | unknown
  deriving DecidableEq

/-- A status other than open. -/
inductive SpentStatus
  | taken
  | partiallyFilled
  | cancelled
  | unknown
  deriving DecidableEq

/-- The status of an order that was spent so. -/
def SpentStatus.toOrderStatus : SpentStatus → OrderStatus
  | taken => .taken
  | partiallyFilled => .partiallyFilled
  | cancelled => .cancelled
  | unknown => .unknown

@[simp] theorem SpentStatus.toOrderStatus_ne_opened (s : SpentStatus) :
    s.toOrderStatus ≠ .opened := by
  cases s <;> decide

/-- A row of the cache; an amount's text is read as the number it denotes. -/
structure Order where
  orderId : Str
  txHash : Str
  outputIndex : ℕ
  status : OrderStatus
  pairId : Str
  contractAddress : Str
  ownerStakeCredential : Str
  paymentAddress : Str
  offeredPolicyId : Str
  offeredAssetName : Str
  offeredAmount : ℤ
  requestedPolicyId : Str
  requestedAssetName : Str
  requestedAmount : ℤ
  depositLovelace : ℤ
  pairBeacon : Str
  offerBeacon : Str
  askBeacon : Str
  ownerBeacon : Str
  expiration : Option JsNumber
  version : JsNumber
  allowPartialFill : Bool
  parentOrderId : Option Str
  rootOrderId : Option Str
  createdAtSlot : Option ℕ
  spentAtSlot : Option ℕ
  createdTxHash : Option Str
  spentTxHash : Option Str
  /-- The id is that of the output. -/
  orderId_eq : orderId = orderIdOf ⟨txHash, outputIndex⟩

/-- The output a row caches. -/
def Order.ref (order : Order) : OutRef := ⟨order.txHash, order.outputIndex⟩

theorem Order.orderId_eq_ref (order : Order) : order.orderId = orderIdOf order.ref :=
  order.orderId_eq

/-- The order an order continues, and the one its chain of fills started at. -/
structure Lineage where
  parentOrderId : Str
  rootOrderId : Str
  deriving DecidableEq

/-- **The repository**: rows under their ids, in the order in which they were first
written, the lineages, and the slot of the last pass. -/
structure OrdersRepo where
  orders : KeyedList Order.orderId
  lineage : KeyedList (Prod.fst : Str × Lineage → Str)
  cursor : ℕ

namespace OrdersRepo

variable (repo : OrdersRepo)

/-- A fresh repository. -/
def empty : OrdersRepo := ⟨.empty, .empty, 0⟩

/-- The parent of an order and the root of its line, where one was recorded. -/
def getLineage (orderId : Str) : Option Lineage := (repo.lineage.find? orderId).map Prod.snd

/-- A row by its id. -/
def getOrder (orderId : Str) : Option Order := repo.orders.find? orderId

/-- The ids of the open rows, from which a pass finds out what has vanished. -/
def listOpenOrderIds : List Str :=
  (repo.orders.entries.filter fun o => o.status = .opened).map Order.orderId

/-- The open orders of a pair. -/
def listByPair (pairId : Str) : List Order :=
  repo.orders.entries.filter fun o => o.pairId = pairId ∧ o.status = .opened

/-- The pairs with an open order, sorted. -/
def listPairs : List Str :=
  ((repo.orders.entries.filter fun o => o.status = .opened).map Order.pairId).dedup.insertionSort
    (· ≤ ·)

/-- Write the row as open, with the lineage recorded for it. -/
def upsertOpenOrder (order : Order) : OrdersRepo :=
  { repo with
    orders := repo.orders.set (
      match repo.getLineage order.orderId with
      | some l => { order with
          status := .opened
          parentOrderId := some l.parentOrderId
          rootOrderId := some l.rootOrderId }
      | none => { order with status := .opened }) }

/-- Write the status of an existing row; an id without a row is ignored. -/
def markSpent (orderId : Str) (status : SpentStatus) (spentTxHash : Option Str)
    (spentAtSlot : Option ℕ) : OrdersRepo :=
  match repo.getOrder orderId with
  | none => repo
  | some existing =>
      { repo with
        orders := repo.orders.set { existing with
          status := status.toOrderStatus
          spentTxHash := spentTxHash.or existing.spentTxHash
          spentAtSlot := spentAtSlot.or existing.spentAtSlot } }

/-- Record that `childOrderId` continues `parentOrderId`. -/
def setLineage (childOrderId parentOrderId rootOrderId : Str) : OrdersRepo :=
  let lineage := repo.lineage.set (childOrderId, ⟨parentOrderId, rootOrderId⟩)
  match repo.getOrder childOrderId with
  | none => { repo with lineage }
  | some child =>
      { repo with
        lineage
        orders := repo.orders.set { child with
          parentOrderId := some parentOrderId
          rootOrderId := some rootOrderId } }

/-- The slot up to which the chain has been looked at. -/
def setCursor (slot : ℕ) : OrdersRepo := { repo with cursor := slot }

/-!
## Statuses

What is recorded under an id of its state, and what each write does to it.
-/

/-- The status recorded under an id. -/
def statusOf (orderId : Str) : Option OrderStatus := (repo.getOrder orderId).map Order.status

/-- The id is cached as open. -/
def IsOpen (orderId : Str) : Prop := repo.statusOf orderId = some .opened

instance (orderId : Str) : Decidable (repo.IsOpen orderId) :=
  inferInstanceAs (Decidable (repo.statusOf orderId = some .opened))

theorem statusOf_eq_some {repo : OrdersRepo} {orderId : Str} {status : OrderStatus} :
    repo.statusOf orderId = some status ↔
      ∃ order, repo.getOrder orderId = some order ∧ order.status = status :=
  Option.map_eq_some_iff

theorem orderId_of_getOrder {repo : OrdersRepo} {orderId : Str} {order : Order}
    (h : repo.getOrder orderId = some order) : order.orderId = orderId :=
  (KeyedList.find?_eq_some.mp h).2

/-- The ids that are listed are those of rows that are open. -/
theorem mem_listOpenOrderIds {repo : OrdersRepo} {orderId : Str} :
    orderId ∈ repo.listOpenOrderIds ↔ repo.IsOpen orderId := by
  simp only [listOpenOrderIds, List.mem_map, List.mem_filter, decide_eq_true_eq, IsOpen,
    statusOf_eq_some, getOrder, KeyedList.find?_eq_some]
  constructor
  · rintro ⟨order, ⟨hmem, hstatus⟩, hid⟩
    exact ⟨order, ⟨hmem, hid⟩, hstatus⟩
  · rintro ⟨order, ⟨hmem, hid⟩, hstatus⟩
    exact ⟨order, ⟨hmem, hstatus⟩, hid⟩

/-- The status recorded under an id, with the transaction recorded as its
spender. -/
def spendOf (orderId : Str) : Option (OrderStatus × Option Str) :=
  (repo.getOrder orderId).map fun o => (o.status, o.spentTxHash)

theorem statusOf_eq (orderId : Str) :
    repo.statusOf orderId = (repo.spendOf orderId).map Prod.fst := by
  rw [statusOf, spendOf, Option.map_map]
  rfl

/-- Replacing a row changes the status under its own id only. -/
theorem spendOf_set (order : Order) (orderId : Str) :
    { repo with orders := repo.orders.set order }.spendOf orderId =
      if orderId = order.orderId then some (order.status, order.spentTxHash)
      else repo.spendOf orderId := by
  rw [spendOf, getOrder, KeyedList.find?_set]
  split
  · rfl
  · rfl

/-- An upsert writes its row as open, with whatever spend it comes with. -/
theorem spendOf_upsertOpenOrder (order : Order) (orderId : Str) :
    (repo.upsertOpenOrder order).spendOf orderId =
      if orderId = order.orderId then some (.opened, order.spentTxHash)
      else repo.spendOf orderId := by
  rw [upsertOpenOrder, spendOf_set]
  cases repo.getLineage order.orderId <;> rfl

/-- A spend is written to its own row, where a transaction hash that is there already is
kept if none is given. -/
theorem spendOf_markSpent (orderId orderId' : Str) (status : SpentStatus)
    (spentTxHash : Option Str) (spentAtSlot : Option ℕ) :
    (repo.markSpent orderId status spentTxHash spentAtSlot).spendOf orderId' =
      if orderId' = orderId then
        (repo.spendOf orderId).map fun spend => (status.toOrderStatus, spentTxHash.or spend.2)
      else repo.spendOf orderId' := by
  unfold markSpent
  cases hrow : repo.getOrder orderId with
  | none =>
      have hnone : repo.spendOf orderId = none := by rw [spendOf, hrow]; rfl
      dsimp only
      split
      · next heq => rw [heq, hnone]; rfl
      · rfl
  | some existing =>
      have hid := orderId_of_getOrder hrow
      have hsome : repo.spendOf orderId = some (existing.status, existing.spentTxHash) := by
        rw [spendOf, hrow]; rfl
      rw [spendOf_set, hsome]
      simp only [hid, Option.map_some]

/-- Linking a row does not touch its spend. -/
theorem spendOf_setLineage (child parent root orderId : Str) :
    (repo.setLineage child parent root).spendOf orderId = repo.spendOf orderId := by
  unfold setLineage
  cases hrow : repo.getOrder child with
  | none => rfl
  | some row =>
      have hid := orderId_of_getOrder hrow
      have hset := spendOf_set repo { row with
        parentOrderId := some parent
        rootOrderId := some root } orderId
      refine Eq.trans ?_ (hset.trans ?_)
      · rfl
      · simp only [hid]
        split
        · next heq => rw [heq, spendOf, hrow]; rfl
        · rfl

theorem statusOf_upsertOpenOrder (order : Order) (orderId : Str) :
    (repo.upsertOpenOrder order).statusOf orderId =
      if orderId = order.orderId then some .opened else repo.statusOf orderId := by
  rw [statusOf_eq, spendOf_upsertOpenOrder, statusOf_eq]
  split <;> rfl

theorem statusOf_markSpent (orderId orderId' : Str) (status : SpentStatus)
    (spentTxHash : Option Str) (spentAtSlot : Option ℕ) :
    (repo.markSpent orderId status spentTxHash spentAtSlot).statusOf orderId' =
      if orderId' = orderId then (repo.statusOf orderId).map fun _ => status.toOrderStatus
      else repo.statusOf orderId' := by
  rw [statusOf_eq, spendOf_markSpent, statusOf_eq, statusOf_eq]
  split
  · rw [Option.map_map, Option.map_map]
    rfl
  · rfl

theorem statusOf_setLineage (child parent root orderId : Str) :
    (repo.setLineage child parent root).statusOf orderId = repo.statusOf orderId := by
  rw [statusOf_eq, spendOf_setLineage, statusOf_eq]

/-!
## Lineages

What is recorded of the order it continues.
-/

theorem getLineage_markSpent (orderId orderId' : Str) (status : SpentStatus)
    (spentTxHash : Option Str) (spentAtSlot : Option ℕ) :
    (repo.markSpent orderId status spentTxHash spentAtSlot).getLineage orderId' =
      repo.getLineage orderId' := by
  unfold markSpent
  cases repo.getOrder orderId <;> rfl

/-- A later link of a child replaces the earlier one. -/
theorem getLineage_setLineage (child parent root orderId : Str) :
    (repo.setLineage child parent root).getLineage orderId =
      if orderId = child then some ⟨parent, root⟩ else repo.getLineage orderId := by
  have hset : (repo.setLineage child parent root).getLineage orderId =
      ((repo.lineage.set (child, ⟨parent, root⟩)).find? orderId).map Prod.snd := by
    unfold setLineage
    cases repo.getOrder child <;> rfl
  rw [hset, KeyedList.find?_set]
  split <;> rfl

/-! ## What each write does to the open ids -/

variable {repo}

/-- The open rows after an upsert are those before and its own. -/
theorem isOpen_upsertOpenOrder {order : Order} {orderId : Str} :
    (repo.upsertOpenOrder order).IsOpen orderId ↔
      orderId = order.orderId ∨ repo.IsOpen orderId := by
  rw [IsOpen, statusOf_upsertOpenOrder]
  split <;> simp_all [IsOpen]

/-- The open rows after a spend are those before but its own, whatever the status is that
was written. -/
theorem isOpen_markSpent {orderId orderId' : Str} {status : SpentStatus}
    {spentTxHash : Option Str} {spentAtSlot : Option ℕ} :
    (repo.markSpent orderId status spentTxHash spentAtSlot).IsOpen orderId' ↔
      orderId' ≠ orderId ∧ repo.IsOpen orderId' := by
  rw [IsOpen, statusOf_markSpent]
  split <;> simp_all [IsOpen]

theorem isOpen_setLineage {child parent root orderId : Str} :
    (repo.setLineage child parent root).IsOpen orderId ↔ repo.IsOpen orderId := by
  rw [IsOpen, statusOf_setLineage, IsOpen]

theorem isOpen_setCursor {slot : ℕ} {orderId : Str} :
    (repo.setCursor slot).IsOpen orderId ↔ repo.IsOpen orderId := Iff.rfl

/-! ## Rows are never deleted -/

/-- No operation removes a row. -/
theorem isSome_statusOf_upsertOpenOrder {order : Order} {orderId : Str}
    (h : (repo.statusOf orderId).isSome) :
    ((repo.upsertOpenOrder order).statusOf orderId).isSome := by
  rw [statusOf_upsertOpenOrder]
  split
  · rfl
  · exact h

theorem isSome_statusOf_markSpent {orderId orderId' : Str} {status : SpentStatus}
    {spentTxHash : Option Str} {spentAtSlot : Option ℕ} (h : (repo.statusOf orderId').isSome) :
    ((repo.markSpent orderId status spentTxHash spentAtSlot).statusOf orderId').isSome := by
  rw [statusOf_markSpent]
  split
  · next heq => rwa [Option.isSome_map, ← heq]
  · exact h

end OrdersRepo

end BeaconDex.Backend
