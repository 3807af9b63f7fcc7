import BeaconDex.Backend.SmartFill
import BeaconDex.Backend.TxBuilder
import BeaconDex.Library.KeyedList
import Mathlib.Data.List.Rotate

/-!
# The arbitrage scan

`backend/src/services/arbitrage.ts`: the finder, which looks through the open
book for cycles of two or three orders that pay for themselves.

An order is an edge from the asset it asks for to the asset it offers.  Cycles are
enumerated from the edges' best orders; a cycle is sized from each of its orders
in turn, and the best sizing is kept.  The loops that enumerate cycles are lists
here (`directCycles`, `triangularCycles`), in the order the loops visit them, and
`consider` is folded over them.

## What is kept under an id

The id of a cycle is made of the ids of its orders, sorted and joined, so that it does
not tell from which order the cycle was read.  A cycle under whose id something has been
kept is not looked at again.  What has been kept is ranked at the end, and cut to the
number that was asked for.
-/

namespace BeaconDex.Backend

open Library

/-! ## Parameters and results -/

/-- The parameters of a scan with the defaults of the source.  The two `topK` say how many
orders of each edge cycles of two and of three are built from. -/
structure ArbitrageParams where
  feeEstimateLovelace : ℤ := 1000000
  directTopK : ℤ := 4
  triangularTopK : ℤ := 2
  maxOpportunities : ℤ := 20
  nowPosixMs : JsNumber

/-- One leg of a cycle.  `takeAmount` is set on a partial leg, and there only. -/
structure ArbitrageLeg where
  orderId : Str
  payAsset : Str
  payAmount : ℤ
  receiveAsset : Str
  receiveAmount : ℤ
  expiration : Option JsNumber
  takeAmount : Option ℤ
  deriving DecidableEq

/-- Two orders or three. -/
inductive CycleKind
  | direct
  | triangular
  deriving DecidableEq

/-- An opportunity as it is reported: its legs in the order they feed each other, the net
in every asset, and the costs that are estimated. -/
structure ArbitrageOpportunity where
  id : Str
  kind : CycleKind
  cycle : List Str
  legs : List ArbitrageLeg
  net : List (Str × ℤ)
  marginPct : Str
  estimatedFeeLovelace : ℤ
  partialMinAdaLovelace : ℤ
  lovelaceNetAfterCosts : ℤ
  expiresAt : Option JsNumber
  warnings : List Str

/-- The answer of a scan. -/
structure ArbitrageScan where
  opportunities : List ArbitrageOpportunity
  scannedOrders : ℕ
  pairCount : ℕ
  generatedAtMs : JsNumber
  warnings : List Str

/-- How many elements `slice(0, k)` keeps of `length`; a negative `k` counts from
the end. -/
def sliceEnd (k : ℤ) (length : ℕ) : ℕ := if k < 0 then (length + k).toNat else k.toNat

/-- `xs.slice(0, k)`. -/
def slice {α : Type} (k : ℤ) (xs : List α) : List α := xs.take (sliceEnd k xs.length)

/-! ## Sizing a cycle -/

section

variable {now : JsNumber}

/-- The whole order as a leg. -/
def wholeCycleLeg (o : OpenOrder now) : ArbitrageLeg where
  orderId := o.orderId
  payAsset := requestedAssetId o.toOrder
  payAmount := o.requestedAmount
  receiveAsset := offeredAssetId o.toOrder
  receiveAmount := o.offeredAmount
  expiration := o.expiration
  takeAmount := none

/-- A part of it, for what was computed to be owed. -/
def partialCycleLeg (o : OpenOrder now) (take pay : ℤ) : ArbitrageLeg where
  orderId := o.orderId
  payAsset := requestedAssetId o.toOrder
  payAmount := pay
  receiveAsset := offeredAssetId o.toOrder
  receiveAmount := take
  expiration := o.expiration
  takeAmount := some take

/-- A leg after the first, paid out of what the leg before delivered. -/
def sizeLeg (carry : ℤ) (o : OpenOrder now) : Option ArbitrageLeg :=
  if o.requestedAmount > carry then
    if o.allowPartialFill = false then none
    else
      let take := maxTakeForSpend carry o.requestedAmount o.offeredAmount
      if h : take ≤ 0 then none
      else some (partialCycleLeg o take (o.requiredFor take (by omega)))
  else some (wholeCycleLeg o)

/-- Each leg is sized by what the leg before it brings. -/
def sizeFrom : ℤ → List (OpenOrder now) → Option (List ArbitrageLeg)
  | _, [] => some []
  | carry, o :: rest => do
      let leg ← sizeLeg carry o
      let legs ← sizeFrom leg.receiveAmount rest
      return leg :: legs

/-- One rotation of a cycle: the anchor whole, then what each leg delivers. -/
def sizeRotation : List (OpenOrder now) → Option (List ArbitrageLeg)
  | [] => some []
  | anchor :: rest => (sizeFrom anchor.offeredAmount rest).map (wholeCycleLeg anchor :: ·)

/-- The taker's net by asset. -/
def netsOf (legs : List ArbitrageLeg) : List (Str × ℤ) :=
  legs.foldl (fun nets leg =>
    addAt leg.receiveAsset leg.receiveAmount (addAt leg.payAsset (-leg.payAmount) nets)) []

/-- No net is negative and one is positive. -/
def isRiskless (nets : List (Str × ℤ)) : Bool :=
  (nets.all fun entry => 0 ≤ entry.2) && nets.any fun entry => 0 < entry.2

/-- The scan's copy of the builder's constant. -/
def Arbitrage.PARTIAL_PAYMENT_LOVELACE : ℤ := 1400000

/-- What the taker adds to a partial payment. -/
def topUpOf (leg : ArbitrageLeg) : ℤ :=
  if leg.takeAmount.isNone then 0
  else if leg.payAsset ≠ "lovelace".toList then Arbitrage.PARTIAL_PAYMENT_LOVELACE
  else if leg.payAmount < Arbitrage.PARTIAL_PAYMENT_LOVELACE then
    Arbitrage.PARTIAL_PAYMENT_LOVELACE - leg.payAmount
  else 0

/-- What all partial payments are topped up by. -/
def partialMinAdaOf (legs : List ArbitrageLeg) : ℤ := (legs.map topUpOf).sum

/-- The best sizing of a cycle, with its nets and what is left of them after costs. -/
structure Evaluated where
  legs : List ArbitrageLeg
  nets : List (Str × ℤ)
  partialMinAda : ℤ
  lovelaceNetAfterCosts : ℤ
  deriving DecidableEq

/-- How many legs are partial. -/
def partialCount (legs : List ArbitrageLeg) : ℕ := legs.countP fun leg => leg.takeAmount.isSome

/-- One turn of the loop over the rotations. -/
def evaluateRotation (fee : ℤ) (rotated : List (OpenOrder now)) : Option Evaluated := do
  let legs ← sizeRotation rotated
  let nets := netsOf legs
  if isRiskless nets = false then none
  else
    let partialMinAda := partialMinAdaOf legs
    return ⟨legs, nets, partialMinAda,
      (nets.lookup "lovelace".toList).getD 0 - fee - partialMinAda⟩

/-- Fewer partial legs, then the larger net. -/
def betterSizing (candidate best : Evaluated) : Bool :=
  partialCount candidate.legs < partialCount best.legs ||
    (partialCount candidate.legs = partialCount best.legs &&
      candidate.lovelaceNetAfterCosts > best.lovelaceNetAfterCosts)

/-- Keep the better of the best sizing so far and a new one. -/
def keepBetter (best : Option Evaluated) : Option Evaluated → Option Evaluated
  | none => best
  | some candidate =>
      match best with
      | none => some candidate
      | some current => if betterSizing candidate current then some candidate else some current

/-- The best sizing over all rotations. -/
def evaluateCycle (orders : List (OpenOrder now)) (fee : ℤ) : Option Evaluated :=
  (List.range orders.length).foldl
    (fun best r => keepBetter best (evaluateRotation fee (orders.drop r ++ orders.take r))) none

/-- A margin: a numerator over a denominator. -/
structure Margin where
  num : ℤ
  den : ℤ

/-- How far the product of the rates is above one, as a fraction of the product of the
asks. -/
def marginOf (orders : List (OpenOrder now)) : Margin :=
  let po := (orders.map fun o => o.offeredAmount).prod
  let pa := (orders.map fun o => o.requestedAmount).prod
  ⟨po - pa, pa⟩

/-! ## Reporting a cycle -/

/-- `ids.sort().join("+")`. -/
def joinIds (ids : List Str) : Str := ['+'].intercalate (ids.insertionSort (· ≤ ·))

/-- The sentences shown beside an opportunity: that the transaction is atomic, and which
costs its legs have. -/
def opportunityWarnings (evaluated : Evaluated) (fee : ℤ) : List Str :=
  [("The order book is a cache — if any leg is taken by someone else first, " ++
    "this transaction fails WHOLE and no funds move (atomic).").toList] ++
  (if partialCount evaluated.legs > 0 then
    [showInt (partialCount evaluated.legs) ++
      (" leg(s) are partial fills: no deposit is returned on those and you fund ").toList ++
      showInt evaluated.partialMinAda ++ " lovelace of min-ADA on the sellers' payments.".toList]
  else []) ++
  (if evaluated.lovelaceNetAfterCosts < 0 then
    ["After the ~".toList ++ showInt fee ++
      " lovelace fee estimate the ADA line is negative (".toList ++
      showInt evaluated.lovelaceNetAfterCosts ++
      ") — the profit of this cycle is in tokens; you pay ADA to collect it.".toList]
  else [])

/-- An evaluated cycle as it is reported; nets that are zero are not listed. -/
def toOpportunity (orders : List (OpenOrder now)) (evaluated : Evaluated) (fee : ℤ) :
    ArbitrageOpportunity :=
  let margin := marginOf orders
  { id := joinIds (evaluated.legs.map ArbitrageLeg.orderId)
    kind := if evaluated.legs.length = 2 then .direct else .triangular
    cycle := evaluated.legs.map ArbitrageLeg.payAsset
    legs := evaluated.legs
    net := evaluated.nets.filter fun entry => entry.2 ≠ 0
    marginPct := ratioToDecimal (margin.num * 100) margin.den 4
    estimatedFeeLovelace := fee
    partialMinAdaLovelace := evaluated.partialMinAda
    lovelaceNetAfterCosts := evaluated.lovelaceNetAfterCosts
    expiresAt :=
      match evaluated.legs.filterMap ArbitrageLeg.expiration with
      | [] => none
      | first :: rest => some (minimum first rest)
    warnings := opportunityWarnings evaluated fee }

/-! ## Edges -/

/-- The orders from one asset to `toAsset`. -/
structure EdgeOrders (now : JsNumber) where
  toAsset : Str
  orders : List (OpenOrder now)

/-- The orders from `fromAsset`, by the asset they lead to. -/
structure EdgesFrom (now : JsNumber) where
  fromAsset : Str
  byTo : KeyedList (EdgeOrders.toAsset : EdgeOrders now → Str)

/-- The book by what is paid, and under each by what is received. -/
abbrev Edges (now : JsNumber) := KeyedList (EdgesFrom.fromAsset : EdgesFrom now → Str)

/-- The edges from `fromAsset`; none for an asset no order asks for. -/
def Edges.byTo (edges : Edges now) (fromAsset : Str) :
    KeyedList (EdgeOrders.toAsset : EdgeOrders now → Str) :=
  (edges.find? fromAsset).elim .empty EdgesFrom.byTo

/-- The orders from `fromAsset` to `toAsset`, as they were added. -/
def Edges.list (edges : Edges now) (fromAsset toAsset : Str) : List (OpenOrder now) :=
  ((edges.byTo fromAsset).find? toAsset).elim [] EdgeOrders.orders

/-- One turn of the loop over the open orders. -/
def addEdge (edges : Edges now) (o : OpenOrder now) : Edges now :=
  let fromAsset := requestedAssetId o.toOrder
  let toAsset := offeredAssetId o.toOrder
  -- malformed; creation forbids it anyway
  if fromAsset = toAsset then edges
  else
    edges.set ⟨fromAsset, (edges.byTo fromAsset).set
      ⟨toAsset, edges.list fromAsset toAsset ++ [o]⟩⟩

/-- One order after the other is put on its edge. -/
def edgesOf (openOrders : List (OpenOrder now)) : Edges now := openOrders.foldl addEdge .empty

/-- More is received for what is paid, compared without dividing. -/
def betterRate (a b : OpenOrder now) : Bool :=
  a.offeredAmount * b.requestedAmount > b.offeredAmount * a.requestedAmount

/-- The comparator of an edge's orders is not positive. -/
def rateBefore (a b : OpenOrder now) : Prop :=
  betterRate a b ∨ ¬betterRate b a ∧ a.orderId ≤ b.orderId

instance : DecidableRel (rateBefore : OpenOrder now → _ → Prop) := fun _ _ =>
  inferInstanceAs (Decidable (_ ∨ _ ∧ _))

/-- The orders from `fromAsset` to `toAsset`, best rate first. -/
def Edges.edge (edges : Edges now) (fromAsset toAsset : Str) : List (OpenOrder now) :=
  (edges.list fromAsset toAsset).insertionSort rateBefore

/-- `edges.keys()`. -/
def Edges.assets (edges : Edges now) : List Str := edges.entries.map EdgesFrom.fromAsset

/-- `edges.get(fromAsset)?.keys() ?? []`. -/
def Edges.targets (edges : Edges now) (fromAsset : Str) : List Str :=
  (edges.byTo fromAsset).entries.map EdgeOrders.toAsset

/-! ## Enumerating cycles -/

/-- Every asset pair traded in both directions, once. -/
def directCycles (k : ℤ) (edges : Edges now) : List (List (OpenOrder now)) :=
  edges.assets.flatMap fun a =>
    (edges.targets a).flatMap fun b =>
      if a ≥ b then []
      else
        (slice k (edges.edge a b)).flatMap fun o₁ =>
          (slice k (edges.edge b a)).map fun o₂ => [o₁, o₂]

/-- Triangles, from their smallest asset. -/
def triangularCycles (k : ℤ) (edges : Edges now) : List (List (OpenOrder now)) :=
  edges.assets.flatMap fun a =>
    (edges.targets a).flatMap fun b =>
      if b ≤ a then []
      else
        (edges.targets b).flatMap fun c =>
          if c ≤ a ∨ c = b then []
          else if (edges.edge c a).length = 0 then []
          else
            (slice k (edges.edge a b)).flatMap fun o₁ =>
              (slice k (edges.edge b c)).flatMap fun o₂ =>
                (slice k (edges.edge c a)).map fun o₃ => [o₁, o₂, o₃]

/-- A cycle under its id, with its best sizing. -/
structure FoundCycle (now : JsNumber) where
  id : Str
  orders : List (OpenOrder now)
  ev : Evaluated

/-- The cycles found so far, under the ids they were found by. -/
abbrev Found (now : JsNumber) := KeyedList (FoundCycle.id : FoundCycle now → Str)

/-- The rates of the cycle multiply to more than one. -/
def rateProductPositive (cycle : List (OpenOrder now)) : Bool := (marginOf cycle).num > 0

/-- The ids of the orders, sorted: the same from whichever order a cycle is read. -/
def cycleId (cycle : List (OpenOrder now)) : Str := joinIds (cycle.map fun o => o.orderId)

/-- A cycle is kept if its rates multiply to more than one, no cycle of the same orders
was kept before, and some sizing of it is riskless. -/
def consider (fee : ℤ) (found : Found now) (cycle : List (OpenOrder now)) : Found now :=
  if rateProductPositive cycle = false then found
  else if (found.find? (cycleId cycle)).isSome then found
  else
    match evaluateCycle cycle fee with
    | none => found
    | some ev => found.set ⟨cycleId cycle, cycle, ev⟩

/-- The comparator of the found cycles is not positive: best margin first, then
by id. -/
def rankedBefore (a b : FoundCycle now) : Prop :=
  let ma := marginOf a.orders
  let mb := marginOf b.orders
  0 < ma.num * mb.den - mb.num * ma.den ∨
    ma.num * mb.den - mb.num * ma.den = 0 ∧ a.id ≤ b.id

instance : DecidableRel (rankedBefore : FoundCycle now → _ → Prop) := fun _ _ =>
  inferInstanceAs (Decidable (_ ∨ _ ∧ _))

/-! ## The scan -/

/-- The cycles found in `orders`. -/
def foundCycles (params : ArbitrageParams) (orders : List Order) : Found params.nowPosixMs :=
  let edges := edgesOf (openOrders params.nowPosixMs orders)
  (directCycles params.directTopK edges ++ triangularCycles params.triangularTopK edges).foldl
    (consider params.feeEstimateLovelace) .empty

/-- **Scan the book.** -/
def findArbitrage (orders : List Order) (params : ArbitrageParams) : ArbitrageScan :=
  let openBook := openOrders params.nowPosixMs orders
  let ranked := (foundCycles params orders).entries.insertionSort rankedBefore
  let opportunities := (slice params.maxOpportunities ranked).map fun entry =>
    toOpportunity entry.orders entry.ev params.feeEstimateLovelace
  { opportunities := opportunities
    scannedOrders := openBook.length
    pairCount := (openBook.map fun o => o.pairId).dedup.length
    generatedAtMs := params.nowPosixMs
    warnings :=
      if opportunities = [] then
        [("No riskless cycles in the current open book — prices don't cross, or crossing " ++
          "orders' amounts can't chain (no partial fills allowed).").toList]
      else [] }

end

end BeaconDex.Backend
