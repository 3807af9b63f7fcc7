import Mathlib.Data.Rat.Floor
import BeaconDex.BeaconFlow

/-!
# The price of a split fill

Each partial take owes the ceiling of its share of what is left, and what is
left has itself been rounded by the takes before.  The seller is never short of
the pro-rata price, the errors do not compound, and the remainder never gets
dearer: `split_fill` over any number of takes.

## Rounding in whose favour

Every payment is rounded up, by less than one unit.  That the sum is never below the
price of the whole is one half of what a seller cares about.  The other half is
that a patient taker is not overcharged without bound: after any number of fills, the
total is less than one unit for each fill above the exact price.
-/

namespace BeaconDex

open Library

/-!
## Partial takes as a transition system

A remainder is the two amounts an order still has; a fill takes some of the one and pays
some of the other.  That an approved partial take is a step is the only thing the rest
of the file needs of the validator.
-/

/-- What is left of an order. -/
structure Remainder where
  offerAmount : ℤ
  askAmount : ℤ

/-- One partial take and what it owes. -/
structure Fill where
  takeAmount : ℤ
  required : ℤ

/-- A take within the bounds of `take_partial_ok`: it takes something and not all, owes
its share of the ask rounded up, and leaves something to be asked for the rest. -/
structure FillStep (left : Remainder) (fill : Fill) (left' : Remainder) : Prop where
  takeAmount_pos : 0 < fill.takeAmount
  takeAmount_lt : fill.takeAmount < left.offerAmount
  required_eq :
    requiredPayment fill.takeAmount left.askAmount left.offerAmount = some fill.required
  required_lt : fill.required < left.askAmount
  offer_eq : left'.offerAmount = left.offerAmount - fill.takeAmount
  ask_eq : left'.askAmount = left.askAmount - fill.required

/-- What an order offers and asks for, of which fills take their parts. -/
def OrderDatum.remainder (datum : OrderDatum) : Remainder := ⟨datum.offerAmount, datum.askAmount⟩

/-- An approved partial take is such a step, to the datum of its continuation. -/
theorem TakePartialAccepted.fillStep {orderScriptHash : ScriptHash} {tx : Transaction} {own : Input}
    {datum : OrderDatum} {takeAmount required : ℤ} {payment : Output} {refs : List OutputReference}
    {rank : ℕ} {continuation : Output}
    (h : TakePartialAccepted orderScriptHash tx own datum takeAmount required payment refs rank
      continuation) :
    FillStep datum.remainder ⟨takeAmount, required⟩
      (reducedDatum datum takeAmount required).remainder :=
  ⟨h.takeAmount_pos, h.takeAmount_lt, h.required_eq, h.required_lt, rfl, rfl⟩

/-- What the fills have taken of the offer. -/
def totalTaken (fills : List Fill) : ℤ := (fills.map Fill.takeAmount).sum

/-- What they have paid of the ask. -/
def totalRequired (fills : List Fill) : ℤ := (fills.map Fill.required).sum

/-!
## One take

The rounded-up share: less than one unit above the exact one, positive where the exact
one is, and the least whole price that leaves the remainder no dearer.
-/

/-- **The ceiling, without division**: the required ask is at least the share
taken and less than one unit more. -/
theorem requiredPayment_bounds {takeAmount ask offer required : ℤ} (hoffer : 0 < offer)
    (h : requiredPayment takeAmount ask offer = some required) :
    takeAmount * ask ≤ required * offer ∧ required * offer ≤ takeAmount * ask + offer - 1 := by
  rw [requiredPayment, if_neg hoffer.ne', Option.some.injEq,
    Int.fdiv_eq_ediv_of_nonneg _ hoffer.le] at h
  have hle := Int.ediv_mul_le (takeAmount * ask + offer - 1) hoffer.ne'
  have hlt := Int.lt_ediv_add_one_mul_self (takeAmount * ask + offer - 1) hoffer
  rw [h] at hle hlt
  rw [add_mul, one_mul] at hlt
  exact ⟨by linarith, hle⟩

theorem requiredPayment_eq_ceil {takeAmount ask offer : ℤ} (hoffer : 0 < offer) :
    requiredPayment takeAmount ask offer = some ⌈(takeAmount * ask : ℚ) / offer⌉ := by
  obtain ⟨required, hreq⟩ : ∃ required, requiredPayment takeAmount ask offer = some required := by
    rw [requiredPayment, if_neg hoffer.ne']
    exact ⟨_, rfl⟩
  obtain ⟨hlow, hhigh⟩ := requiredPayment_bounds hoffer hreq
  have hoffer' : (0 : ℚ) < offer := by exact_mod_cast hoffer
  rw [hreq, Option.some.injEq, eq_comm, Int.ceil_eq_iff, lt_div_iff₀ hoffer', div_le_iff₀ hoffer']
  constructor
  · have : (required - 1) * offer < takeAmount * ask := by linarith
    exact_mod_cast this
  · exact_mod_cast hlow

/-- An order that admits a take has positive amounts. -/
theorem FillStep.order_pos {left left' : Remainder} {fill : Fill} (h : FillStep left fill left') :
    0 < left.offerAmount ∧ 0 < left.askAmount := by
  have hoffer : 0 < left.offerAmount := h.takeAmount_pos.trans h.takeAmount_lt
  refine ⟨hoffer, ?_⟩
  by_contra hask
  push Not at hask
  obtain ⟨hlow, -⟩ := requiredPayment_bounds hoffer h.required_eq
  have hshare : left.askAmount * left.offerAmount ≤ fill.takeAmount * left.askAmount := by
    nlinarith [h.takeAmount_lt]
  have := (mul_lt_mul_iff_of_pos_right hoffer).mpr h.required_lt
  linarith

section Price

variable {order left left' : Remainder} {fill : Fill}

/-- A take does not raise the price: what is left asks no more a unit than
`order` does. -/
theorem FillStep.price_le (h : FillStep left fill left') (hoffer : 0 ≤ order.offerAmount)
    (hprice : left.askAmount * order.offerAmount ≤ order.askAmount * left.offerAmount) :
    left'.askAmount * order.offerAmount ≤ order.askAmount * left'.offerAmount := by
  have hpos : 0 < left.offerAmount := h.order_pos.1
  obtain ⟨hlow, -⟩ := requiredPayment_bounds hpos h.required_eq
  rw [h.offer_eq, h.ask_eq]
  -- compare after multiplying by what was left before the take
  refine le_of_mul_le_mul_right ?_ hpos
  calc (left.askAmount - fill.required) * order.offerAmount * left.offerAmount
      = (left.askAmount * left.offerAmount - fill.required * left.offerAmount) *
          order.offerAmount := by ring
    _ ≤ (left.askAmount * left.offerAmount - fill.takeAmount * left.askAmount) *
          order.offerAmount :=
        mul_le_mul_of_nonneg_right (by linarith) hoffer
    _ = left.askAmount * order.offerAmount * (left.offerAmount - fill.takeAmount) := by ring
    _ ≤ order.askAmount * left.offerAmount * (left.offerAmount - fill.takeAmount) :=
        mul_le_mul_of_nonneg_right hprice (sub_nonneg.mpr h.takeAmount_lt.le)
    _ = order.askAmount * (left.offerAmount - fill.takeAmount) * left.offerAmount := by ring

/-- A take adds less than one unit to its share at the price of `order`. -/
theorem FillStep.required_le (h : FillStep left fill left')
    (hoffer : left.offerAmount ≤ order.offerAmount)
    (hprice : left.askAmount * order.offerAmount ≤ order.askAmount * left.offerAmount) :
    fill.required * order.offerAmount ≤
      order.askAmount * fill.takeAmount + (order.offerAmount - 1) := by
  have hpos : 0 < left.offerAmount := h.order_pos.1
  obtain ⟨-, hhigh⟩ := requiredPayment_bounds hpos h.required_eq
  refine le_of_mul_le_mul_right ?_ hpos
  calc fill.required * order.offerAmount * left.offerAmount
      = fill.required * left.offerAmount * order.offerAmount := by ring
    _ ≤ (fill.takeAmount * left.askAmount + left.offerAmount - 1) * order.offerAmount :=
        mul_le_mul_of_nonneg_right hhigh (hpos.le.trans hoffer)
    _ = fill.takeAmount * (left.askAmount * order.offerAmount) +
          left.offerAmount * order.offerAmount - order.offerAmount := by ring
    _ ≤ fill.takeAmount * (order.askAmount * left.offerAmount) +
          left.offerAmount * order.offerAmount - left.offerAmount :=
        sub_le_sub (add_le_add_left
          (mul_le_mul_of_nonneg_left hprice h.takeAmount_pos.le) _) hoffer
    _ = (order.askAmount * fill.takeAmount + (order.offerAmount - 1)) * left.offerAmount := by
        ring

end Price

/-!
## Any number of takes

The invariant says how far the sum of the roundings can have gone, as a product, so that
no fractions come in before the end.
-/

/-- What holds of the remainder `left` after `fills` of `order`.  The two bounds at the
end carry the induction: the price of what is left has not risen, and rounding has cost
less than one unit for each fill. -/
structure SplitInvariant (order left : Remainder) (fills : List Fill) : Prop where
  offer_pos : 0 < left.offerAmount
  ask_pos : 0 < left.askAmount
  offer_le : left.offerAmount ≤ order.offerAmount
  taken : left.offerAmount = order.offerAmount - totalTaken fills
  paid : left.askAmount = order.askAmount - totalRequired fills
  price : left.askAmount * order.offerAmount ≤ order.askAmount * left.offerAmount
  rounding : totalRequired fills * order.offerAmount ≤
    order.askAmount * totalTaken fills + fills.length * (order.offerAmount - 1)

/-- **Step lemma.**  The take is rounded against a remainder no dearer and no
larger than the order, so it adds less than one unit of the order's own price. -/
theorem SplitInvariant.step {order left left' : Remainder} {fills : List Fill} {fill : Fill}
    (hinv : SplitInvariant order left fills) (h : FillStep left fill left') :
    SplitInvariant order left' (fills ++ [fill]) := by
  have htaken : totalTaken (fills ++ [fill]) = totalTaken fills + fill.takeAmount := by
    simp [totalTaken]
  have hpaid : totalRequired (fills ++ [fill]) = totalRequired fills + fill.required := by
    simp [totalRequired]
  have horder : 0 < order.offerAmount := hinv.offer_pos.trans_le hinv.offer_le
  refine ⟨?_, ?_, ?_, ?_, ?_, ?_, ?_⟩
  · rw [h.offer_eq]
    exact sub_pos.mpr h.takeAmount_lt
  · rw [h.ask_eq]
    exact sub_pos.mpr h.required_lt
  · rw [h.offer_eq]
    linarith [hinv.offer_le, h.takeAmount_pos]
  · rw [h.offer_eq, hinv.taken, htaken, sub_sub]
  · rw [h.ask_eq, hinv.paid, hpaid, sub_sub]
  · exact h.price_le horder.le hinv.price
  · rw [htaken, hpaid, List.length_append, List.length_singleton]
    push_cast
    linarith [hinv.rounding, h.required_le hinv.offer_le hinv.price]

/-- **Run lemma.** -/
theorem SplitInvariant.of_run {order left : Remainder} {fills : List Fill}
    (horder : 0 < order.offerAmount ∧ 0 < order.askAmount)
    (hrun : Run FillStep order fills left) : SplitInvariant order left fills :=
  hrun.history (fun _ _ _ _ h hinv => hinv.step h)
    ⟨horder.1, horder.2, le_rfl, by simp [totalTaken], by simp [totalRequired], le_rfl,
      by simp [totalTaken, totalRequired]⟩

/-- **Splitting a fill never pays the taker**, and costs at most one unit per
extra take.  The remainder stays a valid order, at a price no higher than the
original. -/
theorem split_fill {order left : Remainder} {fills : List Fill} (hfills : fills ≠ [])
    (hrun : Run FillStep order fills left) :
    ⌈(order.askAmount * totalTaken fills : ℚ) / order.offerAmount⌉ ≤ totalRequired fills ∧
    totalRequired fills ≤
      ⌈(order.askAmount * totalTaken fills : ℚ) / order.offerAmount⌉ + fills.length - 1 ∧
    left.askAmount = order.askAmount - totalRequired fills ∧
    left.offerAmount = order.offerAmount - totalTaken fills ∧
    0 < left.askAmount ∧ 0 < left.offerAmount ∧
    left.askAmount * order.offerAmount ≤ order.askAmount * left.offerAmount := by
  have horder : 0 < order.offerAmount ∧ 0 < order.askAmount := by
    cases hrun with
    | nil => exact absurd rfl hfills
    | cons h _ => exact h.order_pos
  have hinv := SplitInvariant.of_run horder hrun
  have hoffer : (0 : ℚ) < order.offerAmount := by exact_mod_cast horder.1
  refine ⟨?_, ?_, hinv.paid, hinv.taken, hinv.ask_pos, hinv.offer_pos, hinv.price⟩
  · rw [Int.ceil_le, div_le_iff₀ hoffer]
    have hprice := hinv.price
    rw [hinv.paid, hinv.taken] at hprice
    have : order.askAmount * totalTaken fills ≤ totalRequired fills * order.offerAmount := by
      linarith
    exact_mod_cast this
  · have hcount : (1 : ℤ) ≤ fills.length := by
      have := List.length_pos_iff.mpr hfills
      omega
    have hlt : totalRequired fills - fills.length <
        ⌈(order.askAmount * totalTaken fills : ℚ) / order.offerAmount⌉ := by
      rw [Int.lt_ceil, lt_div_iff₀ hoffer]
      have : (totalRequired fills - fills.length) * order.offerAmount <
          order.askAmount * totalTaken fills := by
        linarith [hinv.rounding]
      exact_mod_cast this
    omega

/-- Ten for seven, taken three and two at a time: five are owed, where the five
at once would owe four. -/
theorem split_fill_sample :
    ⌈((7 : ℤ) * totalTaken [⟨3, 3⟩, ⟨2, 2⟩] : ℚ) / (10 : ℤ)⌉ ≤ totalRequired [⟨3, 3⟩, ⟨2, 2⟩] := by
  have hfirst : FillStep ⟨10, 7⟩ ⟨3, 3⟩ ⟨7, 4⟩ :=
    ⟨by decide, by decide, by decide, by decide, by decide, by decide⟩
  have hsecond : FillStep ⟨7, 4⟩ ⟨2, 2⟩ ⟨5, 2⟩ :=
    ⟨by decide, by decide, by decide, by decide, by decide, by decide⟩
  exact (split_fill (by decide) (.cons hfirst (.single hsecond))).1

end BeaconDex
