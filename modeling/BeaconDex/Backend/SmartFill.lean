import BeaconDex.Backend.Quotes
import BeaconDex.Library.Loop
import Mathlib.Data.List.DropRight
import Mathlib.Data.PNat.Basic

/-!
# Smart Fill

`backend/src/services/smart-fill.ts`: the route planner, which picks orders for a
taker's spend budget or receive target, cheapest first.

Both of its loops are `walk`s over the sorted candidates.  The first takes orders
whole, in either mode; the second, in spend mode only, looks for one order to
take in part with what is left of the budget.

## Selections

A `Selection` is what the source keeps in its local variables while it walks: the legs,
the ids that have been taken, what is left and the totals.  A turn of either loop is
given a selection and a candidate, and what it pushes is a whole leg or a partial one.
-/

namespace BeaconDex.Backend

open Library

/-! ## Texts -/

/-- The canonical pair id: the two asset ids in order, joined by `_`. -/
def pairIdOf (a b : Str) : Str := if b < a then b ++ '_' :: a else a ++ '_' :: b

/-- A ratio in decimal, cut off after `precision` digits; empty without a
denominator. -/
def ratioToDecimal (numerator denominator : ℤ) (precision : ℕ) : Str :=
  if denominator = 0 then []
  else
    let scale : ℤ := 10 ^ precision
    let scaled := (numerator * scale).tdiv denominator
    let whole := scaled.tdiv scale
    let frac := ((showInt (scaled.tmod scale)).leftpad precision '0').rdropWhile (· = '0')
    if frac = [] then showInt whole else showInt whole ++ '.' :: frac

/-! ## Parameters and routes -/

/-- Which side the taker constrains: the most to spend, or what to receive. -/
inductive FillMode
  | spend
  | receive
  deriving DecidableEq

/-- The parameters of a plan.  The limit is the budget in one mode, and the amount to
receive in the other. -/
structure SmartFillParams where
  spendAsset : Str
  receiveAsset : Str
  mode : FillMode
  limit : ℤ
  /-- The batch cap; the configuration makes it positive. -/
  maxOrdersPerTx : ℕ+ := 8
  /-- A partial leg that would spend less is left out. -/
  minPartialSpend : ℤ := 1
  nowPosixMs : JsNumber

/-- One order of a route.  `takeAmount` is set on a partial leg, and there
only. -/
structure SmartFillLeg where
  orderId : Str
  spend : ℤ
  receive : ℤ
  price : Str
  expiration : Option JsNumber
  takeAmount : Option ℤ
  deriving DecidableEq

/-- A planned route: its legs in the order they are taken, what they add up to, and the
transactions it takes. -/
structure SmartFillRoute where
  pairId : Str
  spendAsset : Str
  receiveAsset : Str
  mode : FillMode
  requested : ℤ
  legs : List SmartFillLeg
  totalSpend : ℤ
  totalReceive : ℤ
  averagePrice : Str
  transactionCount : ℕ
  maxOrdersPerTx : ℕ+
  atomic : Bool
  candidateCount : ℕ
  warnings : List Str

/-! ## Candidates -/

/-- A strictly better effective price, by cross-multiplication. -/
def cheaper (a b : Order) : Bool :=
  a.requestedAmount * b.offeredAmount < b.requestedAmount * a.offeredAmount

section

variable {now : JsNumber}

/-- The comparator of the candidates is not positive: cheapest first, then the
larger offer, then the smaller id. -/
def takenBefore (a b : OpenOrder now) : Prop :=
  cheaper a.toOrder b.toOrder ∨ ¬cheaper b.toOrder a.toOrder ∧
    (b.offeredAmount < a.offeredAmount ∨
      a.offeredAmount = b.offeredAmount ∧ a.orderId ≤ b.orderId)

instance : DecidableRel (takenBefore : OpenOrder now → _ → Prop) := fun _ _ =>
  inferInstanceAs (Decidable (_ ∨ _ ∧ (_ ∨ _ ∧ _)))

/-- The taker's side of the book. -/
def eligible (params : SmartFillParams) (orders : List Order) :
    List (OpenOrder params.nowPosixMs) :=
  (openOrders params.nowPosixMs orders).filter fun o =>
    offeredAssetId o.toOrder = params.receiveAsset ∧
      requestedAssetId o.toOrder = params.spendAsset

/-- The orders that can serve the request, the cheapest first. -/
def candidatesOf (params : SmartFillParams) (orders : List Order) :
    List (OpenOrder params.nowPosixMs) :=
  (eligible params orders).insertionSort takenBefore

/-! ## Selection -/

/-- The loop variables. -/
structure Selection where
  legs : List SmartFillLeg
  /-- What is left of the budget, in spend mode. -/
  remaining : ℤ
  totalSpend : ℤ
  totalReceive : ℤ
  skippedByBudget : Bool
  /-- The ids of the orders with a leg. -/
  selected : List Str
  deriving DecidableEq

/-- The whole order as a leg. -/
def wholeLeg (o : OpenOrder now) : SmartFillLeg where
  orderId := o.orderId
  spend := o.requestedAmount
  receive := o.offeredAmount
  price := ratioToDecimal o.requestedAmount o.offeredAmount 8
  expiration := o.expiration
  takeAmount := none

/-- A part of it, for what was computed to be owed. -/
def partialLeg (o : OpenOrder now) (take spend : ℤ) : SmartFillLeg where
  orderId := o.orderId
  spend := spend
  receive := take
  price := ratioToDecimal spend take 8
  expiration := o.expiration
  takeAmount := some take

/-- A leg enters the totals. -/
def Selection.push (s : Selection) (leg : SmartFillLeg) : Selection :=
  { s with
    legs := s.legs ++ [leg]
    totalSpend := s.totalSpend + leg.spend
    totalReceive := s.totalReceive + leg.receive
    selected := s.selected.insert leg.orderId }

/-- A partial leg is the last one; the budget is not looked at again. -/
def Selection.pushPartialLeg (s : Selection) (o : OpenOrder now) (take spend : ℤ) : Selection :=
  s.push (partialLeg o take spend)

/-- The order is taken, and paid for from what is left. -/
def Selection.pushWholeLeg (s : Selection) (o : OpenOrder now) : Selection :=
  { s.push (wholeLeg o) with remaining := s.remaining - o.requestedAmount }

/-- Nothing is selected; the whole budget is left. -/
def Selection.start (params : SmartFillParams) : Selection where
  legs := []
  remaining := if params.mode = .spend then params.limit else 0
  totalSpend := 0
  totalReceive := 0
  skippedByBudget := false
  selected := []

/-- One turn of the whole-order loop. -/
def selectWhole (params : SmartFillParams) (o : OpenOrder now) (s : Selection) :
    ForInStep Selection :=
  match params.mode with
  | .receive =>
      if h : s.totalReceive ≥ params.limit then .done s
      else
        let needed := params.limit - s.totalReceive
        -- the whole order would overshoot the target
        if needed < o.offeredAmount ∧ o.allowPartialFill = true then
          let required := o.requiredFor needed (by omega)
          if required < o.requestedAmount then .done (s.pushPartialLeg o needed required)
          else .yield (s.pushWholeLeg o)
        else .yield (s.pushWholeLeg o)
  | .spend =>
      if o.requestedAmount > s.remaining then .yield { s with skippedByBudget := true }
      else .yield (s.pushWholeLeg o)

/-- One turn of the partial-leg loop; the flag records that a take was left out
as dust. -/
def selectPartial (params : SmartFillParams) (o : OpenOrder now) :
    Selection × Bool → ForInStep (Selection × Bool)
  | (s, dust) =>
      if o.orderId ∈ s.selected ∨ o.allowPartialFill = false then .yield (s, dust)
      else
        let take := maxTakeForSpend s.remaining o.requestedAmount o.offeredAmount
        if h : take ≤ 0 then .yield (s, dust)
        else
          let required := o.requiredFor take (by omega)
          if required < params.minPartialSpend then .yield (s, true)
          else
            .done ({ s with remaining := s.remaining - required }.pushPartialLeg o take required,
              dust)

/-- Both loops. -/
def selectLegs (params : SmartFillParams) (candidates : List (OpenOrder now)) : Selection × Bool :=
  let s := walk (selectWhole params) candidates (Selection.start params)
  if params.mode = .spend ∧ s.remaining > 0 ∧ s.legs.length < candidates.length then
    walk (selectPartial params) candidates (s, false)
  else (s, false)

/-! ## The route -/

/-- What the planner says about a route, in the order it says it. -/
def routeWarnings (params : SmartFillParams) (candidates : List (OpenOrder now)) (s : Selection)
    (partialSkippedAsDust : Bool) (transactionCount : ℕ) : List Str :=
  match candidates with
  | [] =>
      ["No open orders on ".toList ++ pairIdOf params.spendAsset params.receiveAsset ++
        " let you spend ".toList ++ params.spendAsset ++ " to receive ".toList ++
        params.receiveAsset ++ ".".toList]
  | cheapest :: _ =>
      if s.legs = [] then
        ["Max spend ".toList ++ showInt params.limit ++ " is below the cheapest order's ".toList ++
          showInt cheapest.requestedAmount ++
          (" and no partial-fill-enabled order can absorb it; " ++
            "increase it to fill at least one order.").toList]
      else
        (if transactionCount > 1 then
          ["Route needs ".toList ++ showInt transactionCount ++ " transactions (at most ".toList ++
            showInt params.maxOrdersPerTx ++
            (" orders fit in one) — each transaction is atomic, " ++
              "but orders can be taken by others between them.").toList]
        else []) ++
        (if params.mode = .spend ∧ s.skippedByBudget = true ∧ s.remaining > 0 then
          [if partialSkippedAsDust then
            showInt s.remaining ++ " of max spend is left unused (below the ".toList ++
              showInt params.minPartialSpend ++ " dust threshold for a partial fill).".toList
          else
            showInt s.remaining ++ (" of max spend is left unused: " ++
              "the remaining orders don't allow partial fills.").toList]
        else []) ++
        (if s.legs.any fun leg => leg.takeAmount.isSome then
          [("Route includes a partial fill: the order's remainder stays on the book, and you fund " ++
            "~1.4 ADA min-ADA on the seller's payment if the spend asset is a token.").toList]
        else []) ++
        (if params.mode = .receive ∧ s.totalReceive < params.limit then
          ["Only ".toList ++ showInt s.totalReceive ++ " of your ".toList ++ showInt params.limit ++
            " target is available in open orders; taking everything routable.".toList]
        else []) ++
        (if params.mode = .receive ∧ s.totalReceive > params.limit then
          ["The route receives ".toList ++ showInt s.totalReceive ++ " (target was ".toList ++
            showInt params.limit ++
            ") — the last order doesn't allow partial fills, so it is taken whole.".toList]
        else [])

/-- **Plan a route.** -/
def planSmartFill (orders : List Order) (params : SmartFillParams) : SmartFillRoute :=
  let candidates := candidatesOf params orders
  let (s, partialSkippedAsDust) := selectLegs params candidates
  -- `Math.ceil(legs.length / maxOrdersPerTx)`
  let transactionCount := (s.legs.length + params.maxOrdersPerTx - 1) / params.maxOrdersPerTx
  { pairId := pairIdOf params.spendAsset params.receiveAsset
    spendAsset := params.spendAsset
    receiveAsset := params.receiveAsset
    mode := params.mode
    requested := params.limit
    legs := s.legs
    totalSpend := s.totalSpend
    totalReceive := s.totalReceive
    averagePrice := ratioToDecimal s.totalSpend s.totalReceive 8
    transactionCount := transactionCount
    maxOrdersPerTx := params.maxOrdersPerTx
    atomic := s.legs.length > 0 && transactionCount = 1
    candidateCount := candidates.length
    warnings := routeWarnings params candidates s partialSkippedAsDust transactionCount }

end

end BeaconDex.Backend
