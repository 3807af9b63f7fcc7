import BeaconDex.Backend.Quotes
import BeaconDex.Library.Nearest
import BeaconDex.Pricing

/-!
# Pricing in the frontend

`frontend/lib/pricing.ts`: the partial-fill prices a third time, after the
contracts and the backend.  All three agree with the rational price
(`maxTakeForSpend_isGreatest`): a budget buys the largest part whose rounded-up
price it covers, and whatever it can buy in part the validator's bounds admit.
Without a budget the valid parts are an interval from one on, and `clampTake` is the
projection onto it (`clampTake_isNearest`).

## Why a third copy

The page has to say what a part costs while it is being typed, without a request for
each key.  The copy is in `bigint`s like that of the backend, so that no rounding of
numbers comes in; what it could get wrong is a bound, and the results are about the
bounds.
-/

namespace BeaconDex.Frontend

open BeaconDex.Library

/-- The ask owed for a partial fill, rounded up; bigint division truncates. -/
def requiredPayment (take ask offer : ℤ) : Option ℤ :=
  if take ≤ 0 ∨ ask ≤ 0 ∨ offer ≤ 0 then none
  else some ((take * ask + offer - 1).tdiv offer)

/-- The largest partial take that `spend` of the ask pays for, zero without
one. -/
def maxTakeForSpend (spend ask offer : ℤ) : ℤ :=
  if spend ≤ 0 ∨ ask ≤ 0 ∨ offer ≤ 0 then 0
  else
    let take := (spend * offer).tdiv ask
    let askCap := ((ask - 1) * offer).tdiv ask
    let take := if take > askCap then askCap else take
    let take := if take > offer - 1 then offer - 1 else take
    if take > 0 then take else 0

/-- A take amount as entered, moved into the valid range; zero when nothing is
valid. -/
def clampTake (take ask offer : ℤ) : ℤ :=
  if offer ≤ 1 ∨ ask ≤ 1 then 0
  else
    let largest := maxTakeForSpend (ask - 1) ask offer
    if largest ≤ 0 then 0
    else if take < 1 then 1
    else if take > largest then largest else take

/-- The parts of an order that `spend` pays for, by the rational price: strictly
inside the order, for less than its whole ask. -/
def partialTakes (spend ask offer : ℤ) : Set ℤ :=
  {take | (0 < spend ∧ 0 < ask ∧ 0 < offer) ∧ 0 < take ∧ take < offer ∧
    ⌈(take * ask : ℚ) / offer⌉ ≤ spend ∧ ⌈(take * ask : ℚ) / offer⌉ < ask}

variable {spend ask offer take : ℤ}

theorem maxTakeForSpend_eq_backend (spend ask offer : ℤ) :
    maxTakeForSpend spend ask offer = Backend.maxTakeForSpend spend ask offer := rfl

/-- **One price**: of positive amounts the contracts, the backend and the frontend
charge the same, and off-chain no others have a price. -/
theorem requiredPayment_eq_some {required : ℤ} : requiredPayment take ask offer = some required ↔
    (0 < take ∧ 0 < ask ∧ 0 < offer) ∧
      BeaconDex.requiredPayment take ask offer = some required := by
  show Backend.requiredPayment take ask offer = some required ↔ _
  rw [Backend.requiredPayment_eq_some]
  refine and_congr_right ?_
  rintro ⟨-, -, hoffer⟩
  rw [requiredPayment_eq_ceil hoffer, ceilShare_eq_ceil hoffer, Option.some.injEq, eq_comm]

/-- What the rational price makes affordable is what the builder's guards
accept. -/
theorem partialTakes_eq_affordable (hspend : 0 < spend) (hask : 0 < ask) (hoffer : 0 < offer) :
    partialTakes spend ask offer = Backend.affordable ask offer spend := by
  ext take
  show ((0 < spend ∧ 0 < ask ∧ 0 < offer) ∧ _) ↔ ∃ required, _
  rw [and_iff_right ⟨hspend, hask, hoffer⟩, ← ceilShare_eq_ceil hoffer]
  constructor
  · rintro ⟨hpos, hlt, hle, hwhole⟩
    exact ⟨_, ⟨hpos, hlt, Backend.requiredPayment_eq_some.mpr ⟨⟨hpos, hask, hoffer⟩, rfl⟩, hwhole⟩,
      hle⟩
  · rintro ⟨required, hvalid, hle⟩
    obtain ⟨-, rfl⟩ := Backend.requiredPayment_eq_some.mp hvalid.required_eq
    exact ⟨hvalid.take_pos, hvalid.take_lt, hle, hvalid.required_lt⟩

theorem partialTakes_of_not_pos (h : ¬(0 < spend ∧ 0 < ask ∧ 0 < offer)) :
    partialTakes spend ask offer = ∅ := by
  ext take
  rw [Set.mem_empty_iff_false, iff_false]
  exact fun htake => h htake.1

/-- `maxTakeForSpend` is zero without a valid take, and the largest otherwise. -/
theorem maxTakeForSpend_cases (spend ask offer : ℤ) :
    maxTakeForSpend spend ask offer = 0 ∧ partialTakes spend ask offer = ∅ ∨
      IsGreatest (partialTakes spend ask offer) (maxTakeForSpend spend ask offer) := by
  by_cases hpos : 0 < spend ∧ 0 < ask ∧ 0 < offer
  · obtain ⟨hspend, hask, hoffer⟩ := hpos
    rw [maxTakeForSpend_eq_backend, partialTakes_eq_affordable hspend hask hoffer]
    exact (Backend.maxTakeForSpend_cases spend hask hoffer).imp_right And.right
  · left
    refine ⟨?_, partialTakes_of_not_pos hpos⟩
    rw [maxTakeForSpend, if_pos (by omega)]

/-- On the chain a part that the budget pays for is within the bounds of
`take_partial_ok`. -/
theorem fillStep_of_mem_partialTakes (h : take ∈ partialTakes spend ask offer) :
    FillStep ⟨offer, ask⟩ ⟨take, ⌈(take * ask : ℚ) / offer⌉⟩
      ⟨offer - take, ask - ⌈(take * ask : ℚ) / offer⌉⟩ := by
  obtain ⟨⟨-, -, hoffer⟩, hpos, hlt, -, hwhole⟩ := h
  exact ⟨hpos, hlt, requiredPayment_eq_ceil hoffer, hwhole, rfl, rfl⟩

/-- **`maxTakeForSpend` inverts the rounded-up price**, in the backend and in the
frontend: it is the largest part the budget pays for, zero if there is none, and
every such part passes the bounds the validator puts on a partial take. -/
theorem maxTakeForSpend_isGreatest (spend ask offer : ℤ) :
    ((partialTakes spend ask offer).Nonempty →
      IsGreatest (partialTakes spend ask offer) (Backend.maxTakeForSpend spend ask offer) ∧
      IsGreatest (partialTakes spend ask offer) (maxTakeForSpend spend ask offer)) ∧
    (partialTakes spend ask offer = ∅ →
      Backend.maxTakeForSpend spend ask offer = 0 ∧ maxTakeForSpend spend ask offer = 0) ∧
    ∀ take ∈ partialTakes spend ask offer, ∃ required,
      BeaconDex.requiredPayment take ask offer = some required ∧
        0 < take ∧ take < offer ∧ required < ask := by
  rw [← maxTakeForSpend_eq_backend, and_self, and_self]
  refine ⟨?_, ?_, ?_⟩
  · intro hne
    rcases maxTakeForSpend_cases spend ask offer with ⟨-, hempty⟩ | hgreatest
    · exact absurd hempty hne.ne_empty
    · exact hgreatest
  · intro hempty
    rcases maxTakeForSpend_cases spend ask offer with ⟨hzero, -⟩ | hgreatest
    · exact hzero
    · exact absurd hgreatest.1 (hempty ▸ Set.notMem_empty _)
  · intro take htake
    have hstep := fillStep_of_mem_partialTakes htake
    exact ⟨_, hstep.required_eq, hstep.takeAmount_pos, hstep.takeAmount_lt, hstep.required_lt⟩

theorem maxTakeForSpend_isGreatest_sample :
    (partialTakes 10 250 100).Nonempty ∧ IsGreatest (partialTakes 10 250 100) 4 ∧
      partialTakes 2 250 100 = ∅ ∧ maxTakeForSpend 2 250 100 = 0 := by
  have hempty : partialTakes 2 250 100 = ∅ := by
    rcases maxTakeForSpend_cases 2 250 100 with ⟨-, hempty⟩ | hgreatest
    · exact hempty
    · exact absurd hgreatest.1.2.1 (by decide)
  have hmem : (4 : ℤ) ∈ partialTakes 10 250 100 := by
    refine ⟨by decide, by decide, by decide, ?_, ?_⟩ <;> norm_num
  exact ⟨⟨4, hmem⟩, ((maxTakeForSpend_isGreatest 10 250 100).1 ⟨4, hmem⟩).2, hempty,
    ((maxTakeForSpend_isGreatest 2 250 100).2.1 hempty).2⟩

/-- Smaller parts are paid for too. -/
theorem partialTakes_of_le {smaller : ℤ} (hpos : 0 < smaller) (hle : smaller ≤ take)
    (h : take ∈ partialTakes spend ask offer) : smaller ∈ partialTakes spend ask offer := by
  obtain ⟨hall, htake, hlt, hspend, hwhole⟩ := h
  have hask : (0 : ℚ) ≤ ask := by exact_mod_cast hall.2.1.le
  have hoffer : (0 : ℚ) ≤ offer := by exact_mod_cast hall.2.2.le
  have hprice : ⌈(smaller * ask : ℚ) / offer⌉ ≤ ⌈(take * ask : ℚ) / offer⌉ := by
    apply Int.ceil_le_ceil
    gcongr
  exact ⟨hall, hpos, hle.trans_lt hlt, hprice.trans hspend, hprice.trans_lt hwhole⟩

/-- **Clamping ends inside the order**: at the entered amount if it is a valid
part, at some valid part if there is one, and at zero otherwise. -/
theorem clampTake_spec (take ask offer : ℤ) :
    (take ∈ partialTakes (ask - 1) ask offer → clampTake take ask offer = take) ∧
    ((partialTakes (ask - 1) ask offer).Nonempty →
      clampTake take ask offer ∈ partialTakes (ask - 1) ask offer) ∧
    (partialTakes (ask - 1) ask offer = ∅ → clampTake take ask offer = 0) := by
  rcases maxTakeForSpend_cases (ask - 1) ask offer with ⟨hzero, hempty⟩ | ⟨hmem, hbound⟩
  · have hclamp : clampTake take ask offer = 0 := by
      rw [clampTake, hzero]
      simp
    rw [hempty]
    exact ⟨fun htake => htake.elim, fun hne => absurd rfl hne.ne_empty, fun _ => hclamp⟩
  · set largest := maxTakeForSpend (ask - 1) ask offer with hlargest
    obtain ⟨⟨hask, -, -⟩, hpos, hlt, -, -⟩ := id hmem
    have hclamp : clampTake take ask offer =
        if take < 1 then 1 else if take > largest then largest else take := by
      rw [clampTake, if_neg (by omega), ← hlargest]
      exact if_neg (by omega)
    rw [hclamp]
    refine ⟨?_, fun _ => ?_, fun hempty => absurd hmem (hempty ▸ Set.notMem_empty _)⟩
    · intro htake
      have hle : take ≤ largest := hbound htake
      have htakePos : 0 < take := htake.2.1
      rw [if_neg (by omega), if_neg (by omega)]
    · split
      · exact partialTakes_of_le one_pos (by omega) hmem
      · split
        · exact hmem
        · exact partialTakes_of_le (by omega) (by omega) hmem

/-! ### Clamping as a projection -/

/-- The parts of an order that can be taken at all: strictly inside it, for less
than its whole ask. -/
def validTakes (ask offer : ℤ) : Set ℤ :=
  {take | 0 < take ∧ take < offer ∧ ⌈(take * ask : ℚ) / offer⌉ < ask}

/-- One unit less than the whole ask is budget enough for every valid part. -/
theorem validTakes_eq_partialTakes (hask : 0 < ask) (hoffer : 0 < offer) :
    validTakes ask offer = partialTakes (ask - 1) ask offer := by
  ext take
  constructor
  · rintro ⟨hpos, hlt, hwhole⟩
    have hprice : 0 < ⌈(take * ask : ℚ) / offer⌉ := by
      rw [← ceilShare_eq_ceil hoffer]
      exact ceilShare_pos hpos hask hoffer
    exact ⟨⟨by omega, hask, hoffer⟩, hpos, hlt, by omega, hwhole⟩
  · rintro ⟨-, hpos, hlt, -, hwhole⟩
    exact ⟨hpos, hlt, hwhole⟩

/-- The valid parts are those from one to what the largest budget buys. -/
theorem validTakes_eq_Icc (hask : 0 < ask) (hoffer : 0 < offer) :
    validTakes ask offer = Set.Icc 1 (maxTakeForSpend (ask - 1) ask offer) := by
  rw [validTakes_eq_partialTakes hask hoffer]
  rcases maxTakeForSpend_cases (ask - 1) ask offer with ⟨hzero, hempty⟩ | ⟨hmem, hbound⟩
  · rw [hempty, hzero, Set.Icc_eq_empty (by decide)]
  · ext take
    constructor
    · intro htake
      have hpos : 0 < take := htake.2.1
      exact ⟨hpos, hbound htake⟩
    · rintro ⟨hpos, hle⟩
      exact partialTakes_of_le hpos hle hmem

/-- Past the two early exits, clamping is the projection onto the interval. -/
theorem clampTake_eq_projIcc (take : ℤ) (hlargest : 1 ≤ maxTakeForSpend (ask - 1) ask offer)
    (hask : 1 < ask) (hoffer : 1 < offer) :
    clampTake take ask offer =
      Set.projIcc 1 (maxTakeForSpend (ask - 1) ask offer) hlargest take := by
  rw [clampTake, if_neg (by omega), Set.coe_projIcc]
  show (if maxTakeForSpend (ask - 1) ask offer ≤ 0 then 0 else _) = _
  rw [if_neg (by omega)]
  split
  · omega
  · split <;> omega

/-- **Clamping is the projection onto the valid parts**: zero exactly if there are
none; otherwise they are an interval from one on, and the result is its one element
nearest to the entered amount, which a valid amount is itself. -/
theorem clampTake_isNearest (take : ℤ) {ask offer : ℤ} (hask : 0 < ask) (hoffer : 0 < offer) :
    (clampTake take ask offer = 0 ↔ ¬∃ u, u ∈ validTakes ask offer) ∧
    (clampTake take ask offer ≠ 0 →
      (∃ m, 1 ≤ m ∧ validTakes ask offer = Set.Icc 1 m) ∧
      IsNearest (validTakes ask offer) take (clampTake take ask offer) ∧
      (take ∈ validTakes ask offer → clampTake take ask offer = take)) := by
  have hinterval := validTakes_eq_Icc hask hoffer
  obtain ⟨-, hsome, hnone⟩ := clampTake_spec take ask offer
  rw [← validTakes_eq_partialTakes hask hoffer] at hsome hnone
  have hzero : clampTake take ask offer = 0 ↔ ¬∃ u, u ∈ validTakes ask offer := by
    constructor
    · rintro hclamp ⟨u, hu⟩
      have hmem : clampTake take ask offer ∈ validTakes ask offer := hsome ⟨u, hu⟩
      exact absurd (hclamp ▸ hmem.1) (lt_irrefl 0)
    · intro hempty
      exact hnone (Set.not_nonempty_iff_eq_empty.mp hempty)
  refine ⟨hzero, ?_⟩
  intro hne
  obtain ⟨u, hu⟩ : ∃ u, u ∈ validTakes ask offer := not_not.mp (mt hzero.mpr hne)
  have hlargest : 1 ≤ maxTakeForSpend (ask - 1) ask offer := by
    rw [hinterval] at hu
    exact hu.1.trans hu.2
  -- A valid part costs something, less than the whole ask, and is not the whole order.
  have hprice : 0 < ⌈(u * ask : ℚ) / offer⌉ := by
    rw [← ceilShare_eq_ceil hoffer]
    exact ceilShare_pos hu.1 hask hoffer
  have hnearest : IsNearest (validTakes ask offer) take (clampTake take ask offer) := by
    rw [hinterval, clampTake_eq_projIcc take hlargest (by linarith [hu.2.2])
      (by linarith [hu.1, hu.2.1])]
    exact isNearest_projIcc hlargest take
  exact ⟨⟨_, hlargest, hinterval⟩, hnearest, hnearest.eq_of_mem⟩

theorem clampTake_isNearest_sample :
    IsNearest (validTakes 250 100) 1000 (clampTake 1000 250 100) ∧
      (¬∃ u, u ∈ validTakes 1 100) := by
  have hclamp : clampTake 1000 250 100 ≠ 0 := by decide
  exact ⟨((clampTake_isNearest 1000 (by decide) (by decide)).2 hclamp).2.1,
    (clampTake_isNearest 1000 (by decide) (by decide)).1.mp (by decide)⟩

end BeaconDex.Frontend
