import BeaconDex.Backend.OrdersRepo
import BeaconDex.Library.Rounding
import Mathlib.Data.Prod.Lex
import Mathlib.Data.List.Sort

/-!
# Orders as quotes

What the two planners of the backend, Smart Fill and the arbitrage scan, make of
a cached row: an order a taker can fill (`OpenOrder`), the assets it converts,
and the partial takes it allows.

## Open orders

Both planners begin by filtering the book the same way.  The filter's outcome is a
type here, so what survives it carries its positive amounts along and the payment
for a take is always defined (`OpenOrder.requiredFor`).

## Partial takes

`PartialTake` lists what the builder checks of a partial leg.  `maxTakeForSpend` is
the largest of those a budget pays for (`maxTakeForSpend_cases`); it is zero where
the budget pays for none, which the planners take for a sign to leave the order.
-/

namespace BeaconDex.Backend

open Library

/-!
## Open orders

The filter at the head of both planners, as a subtype of the rows.
-/

/-- Past its expiration an order is unfillable. -/
def isOrderExpired (o : Order) (nowPosixMs : JsNumber) : Bool :=
  o.expiration.any fun expiration => expiration.le nowPosixMs

/-- The asset an order offers to the taker. -/
def offeredAssetId (o : Order) : Str :=
  if o.offeredPolicyId = [] then "lovelace".toList
  else o.offeredPolicyId ++ '.' :: o.offeredAssetName

/-- The asset an order requests from the taker. -/
def requestedAssetId (o : Order) : Str :=
  if o.requestedPolicyId = [] then "lovelace".toList
  else o.requestedPolicyId ++ '.' :: o.requestedAssetName

/-- **An order a taker can fill** at the time `now`: open, unexpired, with
positive amounts. -/
structure OpenOrder (now : JsNumber) extends Order where
  opened : status = .opened
  unexpired : isOrderExpired toOrder now = false
  offered_pos : 0 < offeredAmount
  requested_pos : 0 < requestedAmount

/-- The filter both planners put on the rows they are given. -/
def OpenOrder.ofOrder? (now : JsNumber) (o : Order) : Option (OpenOrder now) :=
  if h : o.status = .opened ∧ isOrderExpired o now = false ∧ 0 < o.offeredAmount ∧
      0 < o.requestedAmount then
    some ⟨o, h.1, h.2.1, h.2.2.1, h.2.2.2⟩
  else none

/-- The rows that can be filled, in the order of the book. -/
def openOrders (now : JsNumber) (orders : List Order) : List (OpenOrder now) :=
  orders.filterMap (OpenOrder.ofOrder? now)

section

variable {now : JsNumber} {orders : List Order}

theorem OpenOrder.ofOrder?_eq_some {row : Order} {o : OpenOrder now} :
    OpenOrder.ofOrder? now row = some o ↔ o.toOrder = row := by
  unfold OpenOrder.ofOrder?
  constructor
  · intro h
    split at h
    · obtain rfl := Option.some.inj h
      rfl
    · cases h
  · rintro rfl
    rw [dif_pos ⟨o.opened, o.unexpired, o.offered_pos, o.requested_pos⟩]

/-- The open orders of a book are its rows that are open, unexpired and have positive
amounts. -/
theorem mem_openOrders {o : OpenOrder now} : o ∈ openOrders now orders ↔ o.toOrder ∈ orders := by
  simp only [openOrders, List.mem_filterMap, OpenOrder.ofOrder?_eq_some]
  constructor
  · rintro ⟨row, hrow, rfl⟩
    exact hrow
  · intro h
    exact ⟨o.toOrder, h, rfl⟩

/-- The open orders are rows, in the order of the rows. -/
theorem map_openOrders_sublist (now : JsNumber) (orders : List Order) :
    ((openOrders now orders).map OpenOrder.toOrder).Sublist orders := by
  induction orders with
  | nil => exact List.Sublist.refl _
  | cons row orders ih =>
      rw [openOrders, List.filterMap_cons]
      split
      · exact ih.cons row
      · next o ho =>
        rw [List.map_cons, OpenOrder.ofOrder?_eq_some.mp ho]
        exact ih.cons_cons row

/-- Rows with distinct ids stay distinct. -/
theorem openOrders_nodup (now : JsNumber) (h : (orders.map Order.orderId).Nodup) :
    ((openOrders now orders).map fun o => o.orderId).Nodup := by
  have hsub := (map_openOrders_sublist now orders).map Order.orderId
  rw [List.map_map] at hsub
  exact h.sublist hsub

end

/-! ## Prices -/

/-- What an order asks for a unit of its offer. -/
def OpenOrder.price {now : JsNumber} (o : OpenOrder now) : ℚ := o.requestedAmount / o.offeredAmount

/-- Prices are compared by cross-multiplication. -/
theorem OpenOrder.price_lt {now : JsNumber} {a b : OpenOrder now} :
    a.price < b.price ↔
      a.requestedAmount * b.offeredAmount < b.requestedAmount * a.offeredAmount := by
  have ha : (0 : ℚ) < a.offeredAmount := by exact_mod_cast a.offered_pos
  have hb : (0 : ℚ) < b.offeredAmount := by exact_mod_cast b.offered_pos
  rw [OpenOrder.price, OpenOrder.price, div_lt_div_iff₀ ha hb]
  norm_cast

/-!
## Partial takes

What a part costs, which parts are valid, and which of them a budget can pay for.
-/

/-- Off-chain, the payment for a take is the rounded-up share. -/
theorem requiredPayment_eq_some {take ask offer required : ℤ} :
    requiredPayment take ask offer = some required ↔
      (0 < take ∧ 0 < ask ∧ 0 < offer) ∧ required = ceilShare take ask offer := by
  unfold requiredPayment
  split
  · next h =>
    refine ⟨fun h' => (by cases h'), ?_⟩
    rintro ⟨⟨htake, hask, hoffer⟩, -⟩
    omega
  · next h =>
    push Not at h
    have hnum : 0 ≤ take * ask + offer - 1 := by
      have := mul_pos h.1 h.2.1
      omega
    rw [Option.some.injEq, Int.tdiv_eq_ediv_of_nonneg hnum, and_iff_right h, eq_comm]
    rfl

/-- A take of `take` units for `required` that leaves some of the offer and some
of the ask. -/
structure ValidTake (ask offer take required : ℤ) : Prop where
  take_pos : 0 < take
  take_lt : take < offer
  required_eq : requiredPayment take ask offer = some required
  required_lt : required < ask

/-- The takes a budget pays for. -/
def affordable (ask offer budget : ℤ) : Set ℤ :=
  {take | ∃ required, ValidTake ask offer take required ∧ required ≤ budget}

section

variable {ask offer budget take : ℤ}

/-- The parts a budget can pay for are an interval: below by one, above by the budget and
by what the validator leaves behind. -/
theorem mem_affordable (hask : 0 < ask) (hoffer : 0 < offer) :
    take ∈ affordable ask offer budget ↔
      0 < take ∧ take ≤ floorShare budget ask offer ∧
        take ≤ floorShare (ask - 1) ask offer ∧ take ≤ offer - 1 := by
  have hgc : ∀ s, ceilShare take ask offer ≤ s ↔ take ≤ floorShare s ask offer :=
    gc_ceilShare_floorShare hask hoffer take
  rw [← hgc, ← hgc]
  constructor
  · rintro ⟨required, ⟨hpos, hlt, hreq, hask'⟩, hbudget⟩
    obtain ⟨-, rfl⟩ := requiredPayment_eq_some.mp hreq
    exact ⟨hpos, hbudget, by omega, by omega⟩
  · rintro ⟨hpos, hbudget, hask', hlt⟩
    exact ⟨_, ⟨hpos, by omega, requiredPayment_eq_some.mpr ⟨⟨hpos, hask, hoffer⟩, rfl⟩, by omega⟩,
      hbudget⟩

/-- **The largest take is found**, and zero says that the budget pays for none. -/
theorem maxTakeForSpend_cases (budget : ℤ) (hask : 0 < ask) (hoffer : 0 < offer) :
    (maxTakeForSpend budget ask offer = 0 ∧ affordable ask offer budget = ∅) ∨
      (0 < maxTakeForSpend budget ask offer ∧
        IsGreatest (affordable ask offer budget) (maxTakeForSpend budget ask offer)) := by
  by_cases hbudget : budget ≤ 0
  · -- even one unit costs something
    left
    refine ⟨by rw [maxTakeForSpend, if_pos (Or.inl hbudget)], ?_⟩
    ext take
    simp only [Set.mem_empty_iff_false, iff_false]
    rintro ⟨required, hvalid, hle⟩
    obtain ⟨-, rfl⟩ := requiredPayment_eq_some.mp hvalid.required_eq
    have := ceilShare_pos hvalid.take_pos hask hoffer
    omega
  · push Not at hbudget
    have hcap : 0 ≤ (ask - 1) * offer := mul_nonneg (by omega) hoffer.le
    have hspend : 0 ≤ budget * offer := (mul_pos hbudget hoffer).le
    have hmax : maxTakeForSpend budget ask offer =
        max 0 (min (min (floorShare budget ask offer) (floorShare (ask - 1) ask offer))
          (offer - 1)) := by
      rw [maxTakeForSpend, if_neg (by omega), Int.tdiv_eq_ediv_of_nonneg hspend,
        Int.tdiv_eq_ediv_of_nonneg hcap, floorShare, floorShare]
      grind
    rw [hmax]
    set bound := min (min (floorShare budget ask offer) (floorShare (ask - 1) ask offer))
      (offer - 1) with hbound
    have hmem : ∀ take, take ∈ affordable ask offer budget ↔ 0 < take ∧ take ≤ bound := by
      intro take
      rw [mem_affordable hask hoffer, hbound, le_min_iff, le_min_iff, and_assoc]
    rcases le_or_gt bound 0 with hnone | hpos
    · left
      refine ⟨max_eq_left hnone, ?_⟩
      ext take
      rw [hmem, Set.mem_empty_iff_false, iff_false]
      omega
    · right
      rw [max_eq_right hpos.le]
      refine ⟨hpos, (hmem bound).mpr ⟨hpos, le_rfl⟩, ?_⟩
      intro take htake
      exact ((hmem take).mp htake).2

end

namespace OpenOrder

variable {now : JsNumber} (o : OpenOrder now)

/-- `requiredPayment` for a positive take of an open order: none of the three
arguments makes it throw. -/
def requiredFor (take : ℤ) (h : 0 < take) : ℤ :=
  (requiredPayment take o.requestedAmount o.offeredAmount).get
    (Option.isSome_iff_exists.mpr
      ⟨_, requiredPayment_eq_some.mpr ⟨⟨h, o.requested_pos, o.offered_pos⟩, rfl⟩⟩)

theorem requiredPayment_eq (take : ℤ) (h : 0 < take) :
    requiredPayment take o.requestedAmount o.offeredAmount = some (o.requiredFor take h) :=
  (Option.some_get _).symm

/-- **A partial leg the builder's guards accept**: the order allows it, and the amount
leaves some of the offer and some of the ask. -/
structure PartialTake (take required : ℤ) : Prop extends
    ValidTake o.requestedAmount o.offeredAmount take required where
  allowed : o.allowPartialFill = true

/-- **A leg that takes `o`** pays its ask for its offer, or with a `takeAmount`
what the builder's guards accept for that part. -/
structure Fills (takeAmount : Option ℤ) (pay receive : ℤ) : Prop where
  whole : takeAmount = none → pay = o.requestedAmount ∧ receive = o.offeredAmount
  part : ∀ take, takeAmount = some take → receive = take ∧ o.PartialTake take pay

/-- Taking an order whole pays its ask and brings its offer. -/
theorem fills_whole : o.Fills none o.requestedAmount o.offeredAmount :=
  ⟨fun _ => ⟨rfl, rfl⟩, fun _ h => (by cases h)⟩

variable {o} {take pay receive : ℤ} {takeAmount : Option ℤ}

/-- Taking a part pays what is required for it. -/
theorem fills_part (h : o.PartialTake take pay) : o.Fills (some take) pay take := by
  refine ⟨fun h' => (by cases h'), ?_⟩
  intro take' htake
  obtain rfl : take = take' := Option.some.inj htake
  exact ⟨rfl, h⟩

namespace Fills

/-- **Rounding only worsens the rate.** -/
theorem rate (h : o.Fills takeAmount pay receive) :
    receive * o.requestedAmount ≤ pay * o.offeredAmount := by
  cases takeAmount with
  | none =>
      obtain ⟨rfl, rfl⟩ := h.whole rfl
      rw [mul_comm]
  | some take =>
      obtain ⟨rfl, hpart⟩ := h.part take rfl
      obtain ⟨⟨-, -, hoffer⟩, rfl⟩ := requiredPayment_eq_some.mp hpart.required_eq
      exact mul_le_ceilShare_mul hoffer

/-- No fill brings nothing. -/
theorem receive_pos (h : o.Fills takeAmount pay receive) : 0 < receive := by
  cases takeAmount with
  | none =>
      obtain ⟨-, rfl⟩ := h.whole rfl
      exact o.offered_pos
  | some take =>
      obtain ⟨rfl, hpart⟩ := h.part take rfl
      exact hpart.take_pos

/-- Nothing is received for nothing. -/
theorem pay_pos (h : o.Fills takeAmount pay receive) : 0 < pay := by
  have hrate : 0 < pay * o.offeredAmount := (mul_pos h.receive_pos o.requested_pos).trans_le h.rate
  exact (mul_pos_iff_of_pos_right o.offered_pos).mp hrate

theorem receive_le (h : o.Fills takeAmount pay receive) : receive ≤ o.offeredAmount := by
  cases takeAmount with
  | none => exact (h.whole rfl).2.le
  | some take =>
      obtain ⟨rfl, hpart⟩ := h.part take rfl
      exact hpart.take_lt.le

end Fills

variable (o)

/-- The terms of a partial leg, by the rational price: it receives what it takes, and pays
the exact share of the ask, rounded up to a whole unit. -/
structure PartialTerms (take pay receive : ℤ) : Prop where
  allowed : o.allowPartialFill = true
  take_pos : 0 < take
  take_lt : take < o.offeredAmount
  receive_eq : receive = take
  pay_eq : pay = ⌈(take * o.requestedAmount : ℚ) / o.offeredAmount⌉
  pay_lt : pay < o.requestedAmount

variable {o}

theorem Fills.partialTerms (h : o.Fills takeAmount pay receive) (htake : takeAmount = some take) :
    o.PartialTerms take pay receive := by
  obtain ⟨hreceive, hpart⟩ := h.part take htake
  obtain ⟨-, hceil⟩ := requiredPayment_eq_some.mp hpart.required_eq
  rw [ceilShare_eq_ceil o.offered_pos] at hceil
  exact ⟨hpart.allowed, hpart.take_pos, hpart.take_lt, hreceive, hceil, hpart.required_lt⟩

end OpenOrder

/-!
## A small book

Rows to evaluate the planners on.
-/

namespace SampleBook

/-- An open row that never expires, for `offer` of one asset against `ask` of
another. -/
def row (txHash : Str) (offered requested : AssetClassHex) (offer ask : ℤ)
    (allowPartialFill : Bool) : Order where
  orderId := orderIdOf ⟨txHash, 0⟩
  txHash := txHash
  outputIndex := 0
  status := .opened
  pairId := []
  contractAddress := []
  ownerStakeCredential := []
  paymentAddress := []
  offeredPolicyId := offered.policyId
  offeredAssetName := offered.assetNameHex
  offeredAmount := offer
  requestedPolicyId := requested.policyId
  requestedAssetName := requested.assetNameHex
  requestedAmount := ask
  depositLovelace := 2000000
  pairBeacon := []
  offerBeacon := []
  askBeacon := []
  ownerBeacon := []
  expiration := none
  version := .finite 1
  allowPartialFill := allowPartialFill
  parentOrderId := none
  rootOrderId := none
  createdAtSlot := none
  spentAtSlot := none
  createdTxHash := none
  spentTxHash := none
  orderId_eq := rfl

/-- A token. -/
def token : AssetClassHex := ⟨"aa".toList, "01".toList⟩

end SampleBook

end BeaconDex.Backend
