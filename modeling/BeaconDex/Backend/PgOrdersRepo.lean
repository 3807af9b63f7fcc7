import BeaconDex.Backend.OrdersRepo
import BeaconDex.Library.Attempt
import BeaconDex.Library.Ranking

/-!
# The order cache in PostgreSQL

`PgOrdersRepo` of `backend/src/db/orders-repo.ts`, over the tables of
`backend/src/db/schema.sql`.  The repository in memory (`BeaconDex.Backend.OrdersRepo`)
is the one the tests and a backend without a database run; this is the one that is
deployed, and `BeaconDex.Backend.RepoAgreement` compares the two call by call.

## Statements

A call is a few statements, each its own transaction.  A statement that binds a
value its column cannot hold, or violates a constraint, throws, and what the
statements before it wrote stays written.  So a call is an `Attempt` on the
tables: `insertPair` can throw after the assets were inserted, and `insertHistory`
after the order was updated.  A constraint is checked even where `ON CONFLICT` then
drops the row.

## Values

Text is compared by code points.  A JavaScript number is bound as the text that
JavaScript prints for it, which beyond 2⁵³ need not be the number's exact value; read
back, the text is the same number again, so a column is modelled as holding the number.
What the text decides is whether the column takes it at all (`fitsBigint`).

## Answers

A query without `ORDER BY` promises no order, and `ORDER BY created_at_slot` promises
none among the rows of one slot, which is what the orders of one pass have.
`ListsByPair` is what the second query may answer; `listByPair` is one of the answers.

Columns no query of the repository reads are left out: the raw datum, the
timestamps, and what decorates an asset.
-/

namespace BeaconDex.Backend

open Library

/-!
## Tables

The rows of the schema, each under its primary key.
-/

/-- A row of `assets`: the id under which orders and pairs refer to the asset, and its
parts. -/
structure AssetRow where
  assetId : Str
  policyId : Str
  assetNameHex : Str

/-- A row of `pairs`.  The two assets are in order, which the schema checks, and both are
rows of `assets`. -/
structure PairRow where
  pairId : Str
  assetA : Str
  assetB : Str
  pairBeaconName : Str
  firstSeenSlot : Option ℕ

/-- A row of `orders`.  The id is that of the output, so a row cannot name one output and
describe another. -/
structure OrderRow where
  orderId : Str
  txHash : Str
  outputIndex : ℕ
  status : OrderStatus
  version : JsNumber
  allowPartialFill : Bool
  pairId : Str
  contractAddress : Str
  ownerStakeCredential : Str
  paymentAddress : Str
  offeredPolicyId : Str
  offeredAssetName : Str
  offeredAmount : ℤ
  requestedPolicyId : Str
  requestedAssetName : Str
  requestedAmount : ℤ
  depositLovelace : ℤ
  pairBeacon : Str
  offerBeacon : Str
  askBeacon : Str
  ownerBeacon : Str
  expirationPosixMs : Option JsNumber
  createdAtSlot : Option ℕ
  spentAtSlot : Option ℕ
  createdTxHash : Option Str
  spentTxHash : Option Str
  orderId_eq : orderId = orderIdOf ⟨txHash, outputIndex⟩

/-- A row of `order_lineage`: the order a child continues, and the first order of the
line. -/
structure LineageRow where
  childOrderId : Str
  parentOrderId : Str
  rootOrderId : Str

/-- The column `action` of `tx_history`. -/
inductive TxAction
  | take
  | takePartial
  | cancel
  | unknownSpend
  deriving DecidableEq

/-- A row of `tx_history`: one transaction and one order it has spent. -/
structure TxHistoryRow where
  txHash : Str
  orderId : Str
  action : TxAction
  slot : Option ℕ

/-- The primary key of `tx_history`. -/
def TxHistoryRow.key (row : TxHistoryRow) : Str × Str := (row.txHash, row.orderId)

/-- **The tables**, each with its primary key.  Rows are kept in the order in which they
were first written. -/
structure PgDb where
  assets : KeyedList AssetRow.assetId
  pairs : KeyedList PairRow.pairId
  orders : KeyedList OrderRow.orderId
  orderLineage : KeyedList LineageRow.childOrderId
  txHistory : KeyedList TxHistoryRow.key

/-- What a statement is refused for: a value its column cannot hold (22003), or one of the
constraints of the schema (23502, 23514, 23503). -/
inductive PgError
  | outOfRange
  | notNullViolation
  | checkViolation
  | foreignKeyViolation
  deriving DecidableEq

/-- `INSERT … ON CONFLICT DO NOTHING`. -/
def insertOrIgnore {κ α : Type} [DecidableEq κ] {key : α → κ} (table : KeyedList key) (row : α) :
    KeyedList key :=
  if (table.find? (key row)).isSome then table else table.set row

/-!
## Column types

Which values a column takes; the others are an error of the database.
-/

/-- `numeric(38,0)`. -/
def fitsNumeric (n : ℤ) : Bool := n.natAbs < 10 ^ 38

/-- `bigint`, of a number that is bound as its text.  Of the numbers a JavaScript number
can be, 2⁶³ and what is beyond it is out of range, and so is −2⁶³: it is printed as
-9223372036854776000. -/
def fitsBigint (n : ℤ) : Bool := -2 ^ 63 < n && n < 2 ^ 63

/-- `integer`. -/
def fitsInteger (n : ℤ) : Bool := -2 ^ 31 ≤ n && n < 2 ^ 31

/-- Whether a number is a value of the column; `Infinity` is none. -/
def JsNumber.fits (column : ℤ → Bool) : JsNumber → Bool
  | .finite n => column n
  | .infinite _ => false

/-- A slot, if there is one. -/
def fitsSlot (slot : Option ℕ) : Bool := slot.all fun n => fitsBigint n

/-- Whether the columns of `orders` can hold the row. -/
def OrderRow.fits (row : OrderRow) : Bool :=
  fitsInteger row.outputIndex && row.version.fits fitsInteger &&
    fitsNumeric row.offeredAmount && fitsNumeric row.requestedAmount &&
    fitsNumeric row.depositLovelace && (row.expirationPosixMs.all fun t => t.fits fitsBigint) &&
    fitsSlot row.createdAtSlot

/-!
## Rows

What is stored of an order, and what is read back.
-/

/-- The assets an order refers to: what it offers, and what it requests. -/
def assetRowsOf (order : Order) : List AssetRow :=
  let row (policyId assetName : Str) : AssetRow :=
    ⟨if policyId = [] then "lovelace".toList else policyId ++ '.' :: assetName, policyId, assetName⟩
  [row order.offeredPolicyId order.offeredAssetName,
    row order.requestedPolicyId order.requestedAssetName]

/-- The values bound when an order is written. -/
def orderRowOf (order : Order) : OrderRow where
  orderId := order.orderId
  txHash := order.txHash
  outputIndex := order.outputIndex
  status := .opened
  version := order.version
  allowPartialFill := order.allowPartialFill
  pairId := order.pairId
  contractAddress := order.contractAddress
  ownerStakeCredential := order.ownerStakeCredential
  paymentAddress := order.paymentAddress
  offeredPolicyId := order.offeredPolicyId
  offeredAssetName := order.offeredAssetName
  offeredAmount := order.offeredAmount
  requestedPolicyId := order.requestedPolicyId
  requestedAssetName := order.requestedAssetName
  requestedAmount := order.requestedAmount
  depositLovelace := order.depositLovelace
  pairBeacon := order.pairBeacon
  offerBeacon := order.offerBeacon
  askBeacon := order.askBeacon
  ownerBeacon := order.ownerBeacon
  expirationPosixMs := order.expiration
  createdAtSlot := order.createdAtSlot
  spentAtSlot := none
  createdTxHash := some (order.createdTxHash.getD order.txHash)
  spentTxHash := none
  orderId_eq := order.orderId_eq

/-- A row of `orders` joined with its lineage. -/
def rowToOrder (row : OrderRow) (lineage : Option Lineage) : Order where
  orderId := row.orderId
  txHash := row.txHash
  outputIndex := row.outputIndex
  status := row.status
  pairId := row.pairId
  contractAddress := row.contractAddress
  ownerStakeCredential := row.ownerStakeCredential
  paymentAddress := row.paymentAddress
  offeredPolicyId := row.offeredPolicyId
  offeredAssetName := row.offeredAssetName
  offeredAmount := row.offeredAmount
  requestedPolicyId := row.requestedPolicyId
  requestedAssetName := row.requestedAssetName
  requestedAmount := row.requestedAmount
  depositLovelace := row.depositLovelace
  pairBeacon := row.pairBeacon
  offerBeacon := row.offerBeacon
  askBeacon := row.askBeacon
  ownerBeacon := row.ownerBeacon
  expiration := row.expirationPosixMs
  version := row.version
  allowPartialFill := row.allowPartialFill
  parentOrderId := lineage.map Lineage.parentOrderId
  rootOrderId := lineage.map Lineage.rootOrderId
  createdAtSlot := row.createdAtSlot
  spentAtSlot := row.spentAtSlot
  createdTxHash := row.createdTxHash
  spentTxHash := row.spentTxHash
  orderId_eq := row.orderId_eq

namespace PgDb

variable (db : PgDb)

/-- The schema as it is created: the one seeded asset. -/
def empty : PgDb :=
  ⟨KeyedList.empty.set ⟨"lovelace".toList, [], []⟩, .empty, .empty, .empty, .empty⟩

/-!
## Queries

Each query as the rows it selects; where a query leaves their order open, as a relation.
-/

/-- The lineage of an order, if one is recorded. -/
def getLineage (orderId : Str) : Option Lineage :=
  (db.orderLineage.find? orderId).map fun row => ⟨row.parentOrderId, row.rootOrderId⟩

/-- `orders LEFT JOIN order_lineage`. -/
def select (row : OrderRow) : Order := rowToOrder row (db.getLineage row.orderId)

/-- An order by its id, with its lineage. -/
def getOrder (orderId : Str) : Option Order := (db.orders.find? orderId).map db.select

/-- The ids of the open orders.  The query has no `ORDER BY`, so only which ids there are
is meaningful. -/
def listOpenOrderIds : List Str :=
  (db.orders.entries.filter fun row => row.status = .opened).map OrderRow.orderId

/-- `ASC NULLS LAST`. -/
def nullsLast (m n : Option ℕ) : Prop :=
  match m, n with
  | some m, some n => m ≤ n
  | none, some _ => False
  | _, none => True

instance : DecidableRel nullsLast := fun m n => by
  unfold nullsLast
  split <;> infer_instance

/-- `ORDER BY created_at_slot ASC NULLS LAST`; rows of one slot tie. -/
def slotBefore (a b : OrderRow) : Prop := nullsLast a.createdAtSlot b.createdAtSlot

instance : DecidableRel slotBefore := fun a b =>
  inferInstanceAs (Decidable (nullsLast a.createdAtSlot b.createdAtSlot))

instance : Std.Total slotBefore where
  total a b := by
    unfold slotBefore nullsLast
    cases a.createdAtSlot <;> cases b.createdAtSlot <;> simp [le_total]

instance : IsTrans OrderRow slotBefore where
  trans a b c := by
    unfold slotBefore nullsLast
    cases a.createdAtSlot <;> cases b.createdAtSlot <;> cases c.createdAtSlot <;> simp
    exact le_trans

/-- The open rows of a pair, in the order in which they were first written. -/
def openRows (pairId : Str) : List OrderRow :=
  db.orders.entries.filter fun row => row.pairId = pairId ∧ row.status = .opened

/-- **What `listByPair` may answer**: the open rows of the pair, each joined with its
lineage, in an order of their slots.  Which one it is among the rows of one slot is left
to the database. -/
def ListsByPair (pairId : Str) (answer : List Order) : Prop :=
  ∃ rows, Arranged slotBefore (db.openRows pairId) rows ∧ answer = rows.map db.select

/-- The answer that keeps rows of one slot in the order in which they were first
written. -/
def listByPair (pairId : Str) : List Order :=
  ((db.openRows pairId).insertionSort slotBefore).map db.select

/-!
## Calls

Each method as the statements it runs, one after the other and without a transaction
around them: a statement that fails leaves what the earlier ones have written.
-/

/-- The referenced pair; its id names its two assets. -/
def insertPair (order : Order) : Attempt PgError PgDb :=
  match order.pairId.splitOn '_' with
  | assetA :: assetB :: _ =>
      if fitsSlot order.createdAtSlot = false then .error (.outOfRange, db)
      -- a row is checked even when it conflicts with one that is there
      else if ¬assetA < assetB then .error (.checkViolation, db)
      else if (db.pairs.find? order.pairId).isSome then .ok db
      else if (db.assets.find? assetA).isNone ∨ (db.assets.find? assetB).isNone then
        .error (.foreignKeyViolation, db)
      else
        .ok { db with
          pairs := db.pairs.set
            ⟨order.pairId, assetA, assetB, order.pairBeacon, order.createdAtSlot⟩ }
  | _ => .error (.notNullViolation, db)

/-- The order itself; of one that is there only the status is written. -/
def insertOrder (order : Order) : Attempt PgError PgDb :=
  let row := orderRowOf order
  if row.fits = false then .error (.outOfRange, db)
  else if row.offeredAmount ≤ 0 ∨ row.requestedAmount ≤ 0 then .error (.checkViolation, db)
  else
    match db.orders.find? row.orderId with
    | some existing => .ok { db with orders := db.orders.set { existing with status := .opened } }
    | none =>
        if (db.pairs.find? row.pairId).isNone then .error (.foreignKeyViolation, db)
        else .ok { db with orders := db.orders.set row }

/-- The two assets, then the pair, then the order.  The assets stay where a later
statement throws. -/
def upsertOpenOrder (order : Order) : Attempt PgError PgDb :=
  let db := { db with assets := (assetRowsOf order).foldl insertOrIgnore db.assets }
  (db.insertPair order).andThen fun db => db.insertOrder order

/-- What the history calls a spend. -/
def actionOf : SpentStatus → TxAction
  | .taken => .take
  | .partiallyFilled => .takePartial
  | .cancelled => .cancel
  | .unknown => .unknownSpend

/-- The status and the spend are overwritten, with null too. -/
def updateSpent (orderId : Str) (status : SpentStatus) (spentTxHash : Option Str)
    (spentAtSlot : Option ℕ) : PgDb :=
  match db.orders.find? orderId with
  | none => db
  | some row =>
      { db with
        orders := db.orders.set { row with
          status := status.toOrderStatus
          spentTxHash := spentTxHash
          spentAtSlot := spentAtSlot } }

/-- One entry for each transaction and order; a second one is dropped.  The order has to
be there. -/
def insertHistory (row : TxHistoryRow) : Attempt PgError PgDb :=
  if (db.txHistory.find? row.key).isSome then .ok db
  else if (db.orders.find? row.orderId).isNone then .error (.foreignKeyViolation, db)
  else .ok { db with txHistory := db.txHistory.set row }

/-- The order is updated, and the spend entered into the history: under `unknown` where
the transaction is not known. -/
def markSpent (orderId : Str) (status : SpentStatus) (spentTxHash : Option Str)
    (spentAtSlot : Option ℕ) : Attempt PgError PgDb :=
  if fitsSlot spentAtSlot = false then .error (.outOfRange, db)
  else
    (db.updateSpent orderId status spentTxHash spentAtSlot).insertHistory
      ⟨spentTxHash.getD "unknown".toList, orderId, actionOf status, spentAtSlot⟩

/-- The first lineage that is written for a child stays. -/
def setLineage (childOrderId parentOrderId rootOrderId : Str) : PgDb :=
  { db with
    orderLineage := insertOrIgnore db.orderLineage ⟨childOrderId, parentOrderId, rootOrderId⟩ }

end PgDb

end BeaconDex.Backend
