import BeaconDex.Backend.OnChain
import BeaconDex.Frontend.Positions
import BeaconDex.Pricing

/-!
# What has been sold of a position

The second half of `frontend/lib/positions.ts`.  `positionStatus` says how much of a
position has been sold from its first and its current order; `fillEvents` lists the
single fills from the differences along the chain.

On a chain of on-chain continuations the events are the fills of the chain, one by one
and each with its transaction (`fillEvents_of_filled`), and they add up to what the
first order had and the current one has left.  The status says the same of every
position but a cancelled one, which it counts as sold out (`filledFraction_iff`).

## Two sources for one number

A chain of orders says how much was sold in two ways: by the difference of its ends, and
by the sum of its steps.  The status uses the ends, and the list of fills the steps.
They agree whenever the chain is one, which is why the telescoping sums are stated for
any list of orders and the attribution to transactions for chains only.
-/

namespace BeaconDex.Frontend

open Library
open Backend (Str Order JsNumber OrderStatus hexOf)

/-!
## Status

`positionStatus`, with the fraction it shows.
-/

/-- The kinds of badges. -/
inductive PositionTone
  | opened
  | partiallyFilled
  | expired
  | done
  | unknown
  deriving DecidableEq

/-- What is shown of a position. -/
structure PositionStatus where
  label : Str
  tone : PositionTone
  /-- The fraction of the original offer that has been sold, computed exactly. -/
  filledFraction : ℚ
  canCancel : Bool
  /-- Past its expiration: nobody can fill it, the owner can claim what is left. -/
  expired : Bool

/-- Expiry is a matter of the clock, not of the output. -/
def isExpired (o : Order) (nowPosixMs : JsNumber) : Bool :=
  o.expiration.any fun expiration => expiration.le nowPosixMs

/-- `positionStatus`; the last case is any status but the four before it. -/
def positionStatus (p : Position) (nowPosixMs : JsNumber) : PositionStatus :=
  let original := p.original.offeredAmount
  let remaining := p.tip.offeredAmount
  let isDone := p.tip.status = .taken ∨ p.tip.status = .cancelled
  let soldSoFar := if isDone then original else original - remaining
  let filledFraction : ℚ := if 0 < original then soldSoFar / original else 0
  let multi := 1 < p.chain.length
  match p.tip.status with
  | .opened =>
      if isExpired p.tip nowPosixMs then
        ⟨"expired".toList, .expired, if multi then filledFraction else 0, true, true⟩
      else if multi then
        ⟨"partially filled".toList, .partiallyFilled, filledFraction, true, false⟩
      else ⟨"open".toList, .opened, 0, true, false⟩
  | .partiallyFilled =>
      ⟨"partially filled".toList, .partiallyFilled, filledFraction, false, false⟩
  | .taken => ⟨"filled".toList, .done, 1, false, false⟩
  | .cancelled => ⟨"cancelled".toList, .done, filledFraction, false, false⟩
  | .unknown => ⟨"unknown".toList, .unknown, filledFraction, false, false⟩

/-!
## Events

`fillEvents`: a fill between any two rows of the chain, and what closes it.
-/

/-- A fill that leaves a rest, one that takes the rest, and a withdrawal. -/
inductive FillKind
  | fill
  | final
  | cancel
  deriving DecidableEq

/-- A line of the history of a position. -/
structure FillEvent where
  /-- Units of the offered asset sold. -/
  soldOffered : ℤ
  /-- Units of the ask the seller received for them. -/
  receivedAsk : ℤ
  /-- The transaction of the fill, if known. -/
  txHash : Option Str
  kind : FillKind
  deriving DecidableEq

/-- The fill between two rows; a difference that is not positive is none. -/
def fillBetween (cur next : Order) : List FillEvent :=
  let soldOffered := cur.offeredAmount - next.offeredAmount
  if soldOffered ≤ 0 then []
  else [⟨soldOffered, cur.requestedAmount - next.requestedAmount, some next.txHash, .fill⟩]

/-- The fills along a chain. -/
def innerFills : List Order → List FillEvent
  | cur :: next :: rest => fillBetween cur next ++ innerFills (next :: rest)
  | _ => []

/-- What closes a chain at its tip. -/
def closingEvents (tip : Order) : List FillEvent :=
  match tip.status with
  | .taken => [⟨tip.offeredAmount, tip.requestedAmount, none, .final⟩]
  | .cancelled => [⟨0, 0, none, .cancel⟩]
  | _ => []

/-- **The history of a position**: one line for each link of its chain, and what became of
its tip. -/
def fillEvents (p : Position) : List FillEvent := innerFills p.chain ++ closingEvents p.tip

/-- What the events say has been sold. -/
def totalSold (events : List FillEvent) : ℤ := (events.map FillEvent.soldOffered).sum

/-- What they say the seller received. -/
def totalReceived (events : List FillEvent) : ℤ := (events.map FillEvent.receivedAsk).sum

theorem totalSold_append (a b : List FillEvent) :
    totalSold (a ++ b) = totalSold a + totalSold b := by
  rw [totalSold, List.map_append, List.sum_append]
  rfl

theorem totalReceived_append (a b : List FillEvent) :
    totalReceived (a ++ b) = totalReceived a + totalReceived b := by
  rw [totalReceived, List.map_append, List.sum_append]
  rfl

/-!
## Adding up

Sums of differences along a chain are the difference of its ends.
-/

/-- Both amounts of `next` are smaller. -/
def Reduces (cur next : Order) : Prop :=
  next.offeredAmount < cur.offeredAmount ∧ next.requestedAmount < cur.requestedAmount

/-- Between two orders of which the second has less of both amounts lies one fill, by the
differences. -/
theorem fillBetween_of_reduces {cur next : Order} (h : Reduces cur next) :
    fillBetween cur next = [⟨cur.offeredAmount - next.offeredAmount,
      cur.requestedAmount - next.requestedAmount, some next.txHash, .fill⟩] := by
  refine if_neg ?_
  have hlt := h.1
  omega

/-- **The differences telescope**, over a chain of any length. -/
theorem total_innerFills {first last : Order} {chain : List Order} (h : chain.IsChain Reduces)
    (hfirst : chain.head? = some first) (hlast : chain.getLast? = some last) :
    totalSold (innerFills chain) = first.offeredAmount - last.offeredAmount ∧
      totalReceived (innerFills chain) = first.requestedAmount - last.requestedAmount := by
  induction chain generalizing first with
  | nil => cases hfirst
  | cons cur rest ih =>
      obtain rfl : cur = first := by simpa using hfirst
      cases rest with
      | nil =>
          obtain rfl : cur = last := by simpa using hlast
          rw [sub_self, sub_self]
          exact ⟨rfl, rfl⟩
      | cons next rest =>
          rw [List.isChain_cons_cons] at h
          obtain ⟨hsold, hreceived⟩ := ih h.2 rfl (by simpa using hlast)
          rw [innerFills, totalSold_append, totalReceived_append, hsold, hreceived,
            fillBetween_of_reduces h.1]
          show cur.offeredAmount - next.offeredAmount + 0 + _ = _ ∧
            cur.requestedAmount - next.requestedAmount + 0 + _ = _
          constructor <;> ring

/-- The last event of a chain sells what is left, if the last order was taken, and nothing
otherwise. -/
theorem total_closingEvents (tip : Order) :
    totalSold (closingEvents tip) = (if tip.status = .taken then tip.offeredAmount else 0) ∧
      totalReceived (closingEvents tip) =
        if tip.status = .taken then tip.requestedAmount else 0 := by
  unfold closingEvents
  cases tip.status <;> simp [totalSold, totalReceived]

/-- What has been sold by the tip: everything if it was taken, otherwise what it has
less than the first order. -/
theorem total_fillEvents {p : Position} (h : p.chain.IsChain Reduces) :
    totalSold (fillEvents p) = (if p.tip.status = .taken then p.original.offeredAmount
      else p.original.offeredAmount - p.tip.offeredAmount) ∧
    totalReceived (fillEvents p) = (if p.tip.status = .taken then p.original.requestedAmount
      else p.original.requestedAmount - p.tip.requestedAmount) := by
  obtain ⟨hsold, hreceived⟩ := total_innerFills h p.original_eq p.tip_eq
  obtain ⟨hclosed, hclosed'⟩ := total_closingEvents p.tip
  rw [fillEvents, totalSold_append, totalReceived_append, hsold, hreceived, hclosed, hclosed']
  by_cases htaken : p.tip.status = .taken
  · simp only [htaken, if_true]
    constructor <;> ring
  · simp only [htaken, if_false, add_zero, and_self]

/-! ## Status and events -/

/-- A chain of partial fills, of an order that offered something. -/
structure RealLineage (p : Position) : Prop where
  reduces : p.chain.IsChain Reduces
  original_pos : 0 < p.original.offeredAmount

/-- A chain of one row has sold nothing yet. -/
theorem original_eq_tip {p : Position} (h : ¬1 < p.chain.length) : p.original = p.tip := by
  have hfirst := p.original_eq
  have hlast := p.tip_eq
  cases hchain : p.chain with
  | nil =>
      rw [hchain] at hfirst
      cases hfirst
  | cons o rest =>
      obtain rfl : rest = [] := by
        rw [hchain, List.length_cons] at h
        exact List.length_eq_zero_iff.mp (by omega)
      rw [hchain] at hfirst hlast
      exact (Option.some.inj hfirst).symm.trans (Option.some.inj hlast)

/-- **What the status says has been sold**: everything of a position that is taken or
cancelled, otherwise what the tip has less. -/
theorem filledFraction_eq {p : Position} (hpos : 0 < p.original.offeredAmount)
    (nowPosixMs : JsNumber) : (positionStatus p nowPosixMs).filledFraction =
      (if p.tip.status = .taken ∨ p.tip.status = .cancelled then p.original.offeredAmount
        else p.original.offeredAmount - p.tip.offeredAmount : ℤ) / p.original.offeredAmount := by
  have hne : (p.original.offeredAmount : ℚ) ≠ 0 := by exact_mod_cast hpos.ne'
  have hsingle : ¬1 < p.chain.length →
      ((p.original.offeredAmount - p.tip.offeredAmount : ℤ) : ℚ) = 0 := by
    intro hlength
    rw [original_eq_tip hlength, sub_self, Int.cast_zero]
  unfold positionStatus
  cases hstatus : p.tip.status with
  | opened =>
      simp only [reduceCtorEq, or_self, if_false, if_pos hpos]
      by_cases hmulti : 1 < p.chain.length
      · simp only [hmulti, if_true]
        split <;> rfl
      · simp only [hmulti, if_false, hsingle hmulti, zero_div]
        split <;> rfl
  | taken => simp [hne]
  | partiallyFilled => simp [hpos]
  | cancelled => simp [hpos]
  | unknown => simp [hpos]

/-- **When status and events agree**: exactly unless the position was cancelled with
something left.  The status then counts what was given back as sold, where the events have
only what the fills have sold. -/
theorem filledFraction_iff {p : Position} (h : RealLineage p) (nowPosixMs : JsNumber) :
    (positionStatus p nowPosixMs).filledFraction =
        (totalSold (fillEvents p) : ℚ) / p.original.offeredAmount ↔
      p.tip.status ≠ .cancelled ∨ p.tip.offeredAmount = 0 := by
  have hne : (p.original.offeredAmount : ℚ) ≠ 0 := by exact_mod_cast h.original_pos.ne'
  rw [filledFraction_eq h.original_pos, (total_fillEvents h.reduces).1, div_left_inj' hne,
    Int.cast_inj]
  by_cases hcancelled : p.tip.status = .cancelled
  · simp only [hcancelled, reduceCtorEq, or_true, if_true, if_false, ne_eq, not_true_eq_false,
      false_or]
    omega
  · simp only [hcancelled, or_false, ne_eq, not_false_eq_true, true_or]

namespace SamplePositions

theorem realLineage (status : OrderStatus) : RealLineage (position status) where
  reduces := by
    rw [position, List.isChain_pair]
    show (6000000 : ℤ) < 10000000 ∧ (3 : ℤ) < 5
    decide
  original_pos := by
    show (0 : ℤ) < 10000000
    decide

end SamplePositions

open SamplePositions in
theorem filledFraction_iff_sample :
    (positionStatus (position .opened) (.finite 0)).filledFraction =
      (totalSold (fillEvents (position .opened)) : ℚ) / root.offeredAmount :=
  (filledFraction_iff (realLineage .opened) (.finite 0)).mpr (Or.inl (by decide))

open SamplePositions in
/-- **A cancelled position counts as sold out**, with two fifths of it sold. -/
theorem cancelled_counts_as_sold :
    (positionStatus (position .cancelled) (.finite 0)).filledFraction = 1 ∧
      (totalSold (fillEvents (position .cancelled)) : ℚ) / root.offeredAmount = 2 / 5 := by
  constructor
  · rw [filledFraction_eq (by decide)]
    show ((10000000 : ℤ) : ℚ) / (10000000 : ℤ) = 1
    norm_num
  · show ((4000000 : ℤ) : ℚ) / (10000000 : ℤ) = 2 / 5
    norm_num

/-!
## Fills on chain

Chains of rows that show an order and its continuations on the ledger.
-/

/-- A row shows an order on chain: its reference, and the amounts of its datum. -/
structure Shows (o : Order) (ref : OutputReference) (datum : OrderDatum) : Prop where
  txHash : o.txHash = hexOf ref.transactionId
  outputIndex : (o.outputIndex : ℤ) = ref.outputIndex
  offeredAmount : o.offeredAmount = datum.offerAmount
  requestedAmount : o.requestedAmount = datum.askAmount

/-- A partial take in a transaction. -/
structure ChainFill where
  txId : Bytes
  tx : Transaction
  fill : Fill

/-- `next` shows the continuation that an approved partial take of the order of `cur`
leaves behind. -/
def FilledInto (orderScriptHash : ScriptHash) (f : ChainFill) (cur next : Order) : Prop :=
  ∃ (own : Input) (datum datum' : OrderDatum) (payment : Output) (refs : List OutputReference)
    (rank i : ℕ) (continuation : Output),
    own ∈ f.tx.inputs ∧
    spendRedeemer f.tx own.outputReference = some (.takeOrderPartial f.fill.takeAmount) ∧
    orderDatum f.tx own = some datum ∧
    TakePartialAccepted orderScriptHash f.tx own datum f.fill.takeAmount f.fill.required payment
      refs rank continuation ∧
    f.tx.outputs[i]? = some continuation ∧ continuation.datum = .inlineDatum (toData datum') ∧
    Shows cur own.outputReference datum ∧ Shows next ⟨f.txId, i⟩ datum'

/-- The rows of an order and of its successive continuations, with the fills between
them. -/
inductive Filled (orderScriptHash : ScriptHash) : List Order → List ChainFill → Prop
  | order (o : Order) : Filled orderScriptHash [o] []
  | fill {cur next : Order} {rest : List Order} {f : ChainFill} {fills : List ChainFill} :
      FilledInto orderScriptHash f cur next → Filled orderScriptHash (next :: rest) fills →
      Filled orderScriptHash (cur :: next :: rest) (f :: fills)

/-- How a fill is listed. -/
def ChainFill.event (f : ChainFill) : FillEvent :=
  ⟨f.fill.takeAmount, f.fill.required, some (hexOf f.txId), .fill⟩

variable {orderScriptHash : ScriptHash} {f : ChainFill} {cur next : Order}
variable {chain : List Order} {fills : List ChainFill}

/-- **One fill**: both amounts go down, by the take and by its price, and the row of
the continuation has the transaction's hash. -/
theorem FilledInto.step (h : FilledInto orderScriptHash f cur next) :
    FillStep ⟨cur.offeredAmount, cur.requestedAmount⟩ f.fill
        ⟨next.offeredAmount, next.requestedAmount⟩ ∧ next.txHash = hexOf f.txId := by
  obtain ⟨own, datum, datum', payment, refs, rank, i, continuation, -, -, -, hacc, -, hdatum', hcur,
    hnext⟩ := h
  have hreduced : datum' = reducedDatum datum f.fill.takeAmount f.fill.required := by
    have hinline := hacc.isContinuation.datum
    rw [hdatum', Datum.inlineDatum.injEq] at hinline
    exact toData_injective hinline
  subst hreduced
  refine ⟨?_, hnext.txHash⟩
  rw [hcur.offeredAmount, hcur.requestedAmount, hnext.offeredAmount, hnext.requestedAmount]
  exact hacc.fillStep

/-- The price of a part is something, so the ask goes down too. -/
theorem reduces_of_fillStep {fill : Fill}
    (h : FillStep ⟨cur.offeredAmount, cur.requestedAmount⟩ fill
      ⟨next.offeredAmount, next.requestedAmount⟩) : Reduces cur next := by
  obtain ⟨hoffer, hask⟩ := h.order_pos
  obtain ⟨hlow, -⟩ := requiredPayment_bounds hoffer h.required_eq
  have hshare : 0 < fill.takeAmount * cur.requestedAmount := mul_pos h.takeAmount_pos hask
  have hrequired : 0 < fill.required := pos_of_mul_pos_left (hshare.trans_le hlow) hoffer.le
  have htake := h.takeAmount_pos
  have hoffer' : next.offeredAmount = cur.offeredAmount - fill.takeAmount := h.offer_eq
  have hask' : next.requestedAmount = cur.requestedAmount - fill.required := h.ask_eq
  exact ⟨by omega, by omega⟩

/-- A partial take on the chain is read as one fill, with its amounts and its transaction. -/
theorem fillBetween_of_filledInto (h : FilledInto orderScriptHash f cur next) :
    fillBetween cur next = [f.event] := by
  obtain ⟨hstep, hhash⟩ := h.step
  have hoffer : next.offeredAmount = cur.offeredAmount - f.fill.takeAmount := hstep.offer_eq
  have hask : next.requestedAmount = cur.requestedAmount - f.fill.required := hstep.ask_eq
  rw [fillBetween_of_reduces (reduces_of_fillStep hstep), ChainFill.event, hhash, hoffer, hask,
    sub_sub_cancel, sub_sub_cancel]

/-- Along a chain of partial takes both amounts go down at each step. -/
theorem Filled.reduces (h : Filled orderScriptHash chain fills) : chain.IsChain Reduces := by
  induction h with
  | order o => exact List.isChain_singleton o
  | fill hfill _ ih => exact List.isChain_cons_cons.mpr ⟨reduces_of_fillStep hfill.step.1, ih⟩

/-- **No fill is left out**, and each is listed with its own amounts. -/
theorem Filled.innerFills_eq (h : Filled orderScriptHash chain fills) :
    innerFills chain = fills.map ChainFill.event := by
  induction h with
  | order o => rfl
  | fill hfill _ ih =>
      rw [innerFills, fillBetween_of_filledInto hfill, ih]
      rfl

/-- Each fill's transaction created the next row. -/
theorem Filled.txHash_eq (h : Filled orderScriptHash chain fills) :
    chain.tail.map Order.txHash = fills.map fun f => hexOf f.txId := by
  induction h with
  | order o => rfl
  | fill hfill hrest ih =>
      rw [List.tail_cons, List.map_cons, List.map_cons, hfill.step.2, ← ih]
      rfl

/-- **The fill history adds up to the order**: over a chain of on-chain continuations
the events are its fills, each with the transaction that created the next row, and
what closes it; they sum to what the tip has less than the original, to all of it once
the tip is taken. -/
theorem fillEvents_of_filled {p : Position} (h : Filled orderScriptHash p.chain fills) :
    fillEvents p = fills.map ChainFill.event ++ closingEvents p.tip ∧
    p.chain.tail.map Order.txHash = (fills.map fun f => hexOf f.txId) ∧
    totalSold (fillEvents p) = (if p.tip.status = .taken then p.original.offeredAmount
      else p.original.offeredAmount - p.tip.offeredAmount) ∧
    totalReceived (fillEvents p) = (if p.tip.status = .taken then p.original.requestedAmount
      else p.original.requestedAmount - p.tip.requestedAmount) := by
  refine ⟨?_, h.txHash_eq, total_fillEvents h.reduces⟩
  rw [fillEvents, h.innerFills_eq]

namespace SamplePositions

open BeaconDex.Sample

/-- Four of the ten ADA, for two tokens. -/
def batchFill : ChainFill := ⟨List.replicate 32 9, batch, ⟨4000000, 2⟩⟩

def partlyTaken : Input := ⟨ref 2 0, orderOutput sale 12000000⟩

theorem filled (status : OrderStatus) :
    Filled deployment.orderScriptHash (position status).chain [batchFill] := by
  have hown : ResolvesTo batch partlyTaken.outputReference partlyTaken
      deployment.orderScriptHash := ⟨rfl, by decide⟩
  have hok : takePartialOk sale 4000000 partlyTaken.outputReference batch = some true := by decide
  obtain ⟨required, payment, refs, rank, continuation, hacc⟩ :=
    (takePartialOk_eq_some_true hown).mp hok
  obtain rfl : 2 = required := by
    have hrequired : requiredPayment 4000000 5 10000000 = some required := hacc.required_eq
    exact Option.some.inj (show some 2 = some required from hrequired)
  -- Of the four outputs only the third one is at the order's address.
  obtain rfl : continuation = orderOutput (reducedDatum sale 4000000 2) 8000000 := by
    have haddress := hacc.isContinuation.address
    have hmem : continuation ∈ batch.outputs :=
      (List.mem_filter.mp (List.mem_of_getElem? hacc.continuation_eq)).1
    simp only [batch, List.mem_cons, List.not_mem_nil, or_false] at hmem
    rcases hmem with rfl | rfl | rfl | rfl
    · exact absurd haddress (by decide)
    · exact absurd haddress (by decide)
    · rfl
    · exact absurd haddress (by decide)
  refine .fill ⟨partlyTaken, sale, reducedDatum sale 4000000 2, payment,
    refs, rank, 2, _, ?_, ?_, ?_, hacc, rfl, rfl, ?_, ?_⟩ (.order _)
  · simp [batchFill, batch, partlyTaken]
  · decide
  · decide
  · exact ⟨rfl, rfl, rfl, rfl⟩
  · exact ⟨rfl, rfl, rfl, rfl⟩

end SamplePositions

open SamplePositions in
theorem fillEvents_of_filled_sample :
    fillEvents (position .taken) = [batchFill.event] ++ closingEvents (tip .taken) ∧
      totalSold (fillEvents (position .taken)) = 10000000 ∧
      totalReceived (fillEvents (position .taken)) = 5 := by
  obtain ⟨hevents, -, hsold, hreceived⟩ := fillEvents_of_filled (filled .taken)
  exact ⟨hevents, hsold, hreceived⟩

end BeaconDex.Frontend
