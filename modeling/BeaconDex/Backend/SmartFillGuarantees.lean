import BeaconDex.Backend.SmartFill
import BeaconDex.Backend.TxBuilder
import BeaconDex.Library.Ranking
import Mathlib.Data.Prod.Lex

/-!
# What a route is worth

Three results about `planSmartFill`: its routes are made of legs that can be
filled (`route_sound`), a spend-mode route leaves nothing behind that the rest of
the budget could take (`spend_route_exhausts`), and a receive-mode route is a
shortest run of the cheapest orders (`receive_route_minimal`).

Each turn of the two loops is described once (`selectWhole_spend`,
`selectWhole_receive`, `selectPartial_cases`); the invariants are derived from
these descriptions by the loop rule.

## Loops that mark what they took

The planner walks its candidates twice and keeps what it has taken in a list of ids.
`Records` ties such a selection to the orders it fills, leg by leg, so that totals, ids
and assets of a route are facts about a list of orders.  A turn pushes one leg or leaves
the selection as it is.

## What the statements are about

The three results speak of the rows of the book, by what they offer and request and by
their price, and not of the comparison or the filter the code applies: `Serves` is
membership, and the order in which rows are taken is pinned by its key
(`takenBefore_iff`).  The permutation of the candidates that a proof needs is found
inside it.
-/

namespace BeaconDex.Backend

open Library

variable {now : JsNumber} {params : SmartFillParams}

/-! ## Legs -/

/-- `leg` takes `o`, whole and on exactly its terms, or in part. -/
structure LegOf (o : OpenOrder now) (leg : SmartFillLeg) : Prop where
  orderId : leg.orderId = o.orderId
  expiration : leg.expiration = o.expiration
  fills : o.Fills leg.takeAmount leg.spend leg.receive

/-- The leg that takes a whole order is a leg of it. -/
theorem legOf_wholeLeg (o : OpenOrder now) : LegOf o (wholeLeg o) := ⟨rfl, rfl, o.fills_whole⟩

/-- So is one that takes a part the order allows. -/
theorem legOf_partialLeg {o : OpenOrder now} {take spend : ℤ} (h : o.PartialTake take spend) :
    LegOf o (partialLeg o take spend) :=
  ⟨rfl, rfl, OpenOrder.fills_part h⟩

/-- **The selection records** the legs of `filled`: one leg for each of these orders, in
their order, with the totals of the legs and the ids of the orders. -/
structure Records (filled : List (OpenOrder now)) (s : Selection) : Prop where
  legs : List.Forall₂ LegOf filled s.legs
  totalSpend : s.totalSpend = (s.legs.map SmartFillLeg.spend).sum
  totalReceive : s.totalReceive = (s.legs.map SmartFillLeg.receive).sum
  selected : ∀ id, id ∈ s.selected ↔ id ∈ filled.map fun o => o.orderId

namespace Records

variable {filled : List (OpenOrder now)} {s : Selection} {o : OpenOrder now} {leg : SmartFillLeg}

/-- Nothing is recorded at the start of a walk. -/
theorem start : Records ([] : List (OpenOrder now)) (Selection.start params) :=
  ⟨.nil, rfl, rfl, by simp [Selection.start]⟩

/-- One leg of one more order is recorded by pushing it. -/
theorem push (h : Records filled s) (hleg : LegOf o leg) :
    Records (filled ++ [o]) (s.push leg) := by
  refine ⟨List.rel_append h.legs (.cons hleg .nil), ?_, ?_, ?_⟩
  · simp [Selection.push, h.totalSpend]
  · simp [Selection.push, h.totalReceive]
  · intro id
    simp only [Selection.push, List.mem_insert_iff, h.selected, hleg.orderId, List.map_append,
      List.mem_append, List.map_singleton, List.mem_singleton]
    exact or_comm

/-- The budget and the flag are no part of what is recorded. -/
theorem of_eq {s' : Selection} (h : Records filled s) (hlegs : s'.legs = s.legs)
    (hspend : s'.totalSpend = s.totalSpend) (hreceive : s'.totalReceive = s.totalReceive)
    (hselected : s'.selected = s.selected) : Records filled s' := by
  refine ⟨?_, ?_, ?_, ?_⟩
  · rw [hlegs]
    exact h.legs
  · rw [hspend, hlegs]
    exact h.totalSpend
  · rw [hreceive, hlegs]
    exact h.totalReceive
  · rw [hselected]
    exact h.selected

theorem pushWholeLeg (h : Records filled s) : Records (filled ++ [o]) (s.pushWholeLeg o) :=
  (h.push (legOf_wholeLeg o)).of_eq rfl rfl rfl rfl

theorem pushPartialLeg (h : Records filled s) {take spend : ℤ} (htake : o.PartialTake take spend) :
    Records (filled ++ [o]) (s.pushPartialLeg o take spend) :=
  h.push (legOf_partialLeg htake)

end Records

/-- No leg is partial. -/
def AllWhole (legs : List SmartFillLeg) : Prop := ∀ leg ∈ legs, leg.takeAmount = none

/-- Pushing a whole order onto whole orders leaves only whole orders. -/
theorem allWhole_push {s : Selection} {o : OpenOrder now} (h : AllWhole s.legs) :
    AllWhole (s.pushWholeLeg o).legs := by
  intro leg hleg
  rcases List.mem_append.mp hleg with hold | hnew
  · exact h leg hold
  · rw [List.mem_singleton.mp hnew]
    rfl

/-!
## One turn

What a turn of each loop can do to the selection, by cases; the walks are not unfolded
after this.
-/

variable {o : OpenOrder now} {s : Selection}

/-- In spend mode an order is taken whole or passed over, by what is left. -/
theorem selectWhole_spend (hmode : params.mode = .spend) :
    (s.remaining < o.requestedAmount ∧
      selectWhole params o s = .yield { s with skippedByBudget := true }) ∨
    (o.requestedAmount ≤ s.remaining ∧ selectWhole params o s = .yield (s.pushWholeLeg o)) := by
  unfold selectWhole
  rw [hmode]
  by_cases h : o.requestedAmount > s.remaining
  · exact .inl ⟨h, if_pos h⟩
  · exact .inr ⟨not_lt.mp h, if_neg h⟩

/-- In receive mode the loop stops at the target, stops with a partial leg that
hits it, or takes the order whole. -/
theorem selectWhole_receive (hmode : params.mode = .receive) :
    (params.limit ≤ s.totalReceive ∧ selectWhole params o s = .done s) ∨
    (s.totalReceive < params.limit ∧
      ∃ required, o.PartialTake (params.limit - s.totalReceive) required ∧
        selectWhole params o s =
          .done (s.pushPartialLeg o (params.limit - s.totalReceive) required)) ∨
    (s.totalReceive < params.limit ∧
      (params.limit - s.totalReceive < o.offeredAmount → o.allowPartialFill = false ∨
        requiredPayment (params.limit - s.totalReceive) o.requestedAmount o.offeredAmount =
          some o.requestedAmount) ∧
      selectWhole params o s = .yield (s.pushWholeLeg o)) := by
  unfold selectWhole
  rw [hmode]
  by_cases hmet : s.totalReceive ≥ params.limit
  · exact .inl ⟨hmet, dif_pos hmet⟩
  have hbelow : s.totalReceive < params.limit := not_le.mp hmet
  refine .inr ?_
  simp only [dif_neg hmet]
  by_cases hover : params.limit - s.totalReceive < o.offeredAmount ∧ o.allowPartialFill = true
  · have hreq := o.requiredPayment_eq (params.limit - s.totalReceive) (by omega)
    rw [if_pos hover]
    by_cases hlt : o.requiredFor (params.limit - s.totalReceive) (by omega) < o.requestedAmount
    · exact .inl ⟨hbelow, _, ⟨⟨by omega, hover.1, hreq, hlt⟩, hover.2⟩, if_pos hlt⟩
    · refine .inr ⟨hbelow, fun _ => .inr ?_, if_neg hlt⟩
      -- a share of the offer never costs more than the ask
      obtain ⟨⟨-, hask, hoffer⟩, heq⟩ := requiredPayment_eq_some.mp hreq
      have hle : o.requiredFor (params.limit - s.totalReceive) (by omega) ≤ o.requestedAmount := by
        rw [heq, ceilShare_le_iff hoffer, mul_comm o.requestedAmount]
        exact mul_le_mul_of_nonneg_right hover.1.le hask.le
      rw [hreq, le_antisymm hle (not_lt.mp hlt)]
  · refine .inr ⟨hbelow, ?_, if_neg hover⟩
    intro hneeded
    exact .inl (Bool.eq_false_iff.mpr fun hallow => hover ⟨hneeded, hallow⟩)

/-- The partial pass passes over an order with a leg, one that forbids partial
fills, one the rest of the budget pays nothing of and one it pays only dust of.
It stops with the largest take the rest of the budget pays for. -/
theorem selectPartial_cases (params : SmartFillParams) (o : OpenOrder now) (s : Selection)
    (dust : Bool) :
    ((o.orderId ∈ s.selected ∨ o.allowPartialFill = false) ∧
      selectPartial params o (s, dust) = .yield (s, dust)) ∨
    (affordable o.requestedAmount o.offeredAmount s.remaining = ∅ ∧
      selectPartial params o (s, dust) = .yield (s, dust)) ∨
    (∃ take required, IsGreatest (affordable o.requestedAmount o.offeredAmount s.remaining) take ∧
      requiredPayment take o.requestedAmount o.offeredAmount = some required ∧
      required < params.minPartialSpend ∧
      selectPartial params o (s, dust) = .yield (s, true)) ∨
    (o.orderId ∉ s.selected ∧
      ∃ take required, IsGreatest (affordable o.requestedAmount o.offeredAmount s.remaining) take ∧
        o.PartialTake take required ∧ required ≤ s.remaining ∧
        selectPartial params o (s, dust) =
          .done ({ s with remaining := s.remaining - required }.pushPartialLeg o take required,
            dust)) := by
  unfold selectPartial
  by_cases hpassed : o.orderId ∈ s.selected ∨ o.allowPartialFill = false
  · exact .inl ⟨hpassed, if_pos hpassed⟩
  simp only [if_neg hpassed]
  push Not at hpassed
  rcases maxTakeForSpend_cases s.remaining o.requested_pos o.offered_pos with
    ⟨hzero, hnone⟩ | ⟨hpos, hgreatest⟩
  · exact .inr (.inl ⟨hnone, dif_pos hzero.le⟩)
  · simp only [dif_neg (not_le.mpr hpos)]
    have hreq := o.requiredPayment_eq _ hpos
    obtain ⟨required, hvalid, hbudget⟩ := hgreatest.1
    obtain rfl := Option.some.inj (hreq.symm.trans hvalid.required_eq)
    by_cases hdust : o.requiredFor _ hpos < params.minPartialSpend
    · exact .inr (.inr (.inl ⟨_, _, hgreatest, hreq, hdust, if_pos hdust⟩))
    · exact .inr (.inr (.inr ⟨hpassed.1, _, _, hgreatest, ⟨hvalid, by simpa using hpassed.2⟩,
        hbudget, if_neg hdust⟩))

/-!
## Spend mode

First whole orders, as long as they can be paid; then one part of one of the orders that
were passed over.
-/

/-- An order the budget has passed over: it is too dear to be taken whole. -/
def PassedOver (s : Selection) (o : OpenOrder now) : Prop :=
  o.orderId ∉ s.selected → s.remaining < o.requestedAmount

/-- After the candidates of `done`, in spend mode: some of them have been taken whole, in
their order, what remains is the budget less what was spent, and those that were passed
over cost more than remains. -/
structure SpendSelected (params : SmartFillParams) (done : List (OpenOrder now)) (s : Selection) :
    Prop where
  records : ∃ filled, filled.Sublist done ∧ Records filled s
  whole : AllWhole s.legs
  remaining : s.remaining = params.limit - s.totalSpend
  funded : 0 ≤ params.limit → 0 ≤ s.remaining
  passed : ∀ o ∈ done, PassedOver s o

theorem SpendSelected.start (hmode : params.mode = .spend) :
    SpendSelected params ([] : List (OpenOrder now)) (Selection.start params) := by
  refine ⟨⟨[], List.Sublist.refl _, Records.start⟩, fun _ h => (by cases h), ?_, ?_, ?_⟩
  · simp [Selection.start, hmode]
  · simp [Selection.start, hmode]
  · intro o ho
    cases ho

/-- **Step lemma.**  What is left only shrinks, so an order once too dear stays
too dear. -/
theorem SpendSelected.step (hmode : params.mode = .spend) {done : List (OpenOrder now)}
    (h : SpendSelected params done s) :
    ∃ s', selectWhole params o s = .yield s' ∧ SpendSelected params (done ++ [o]) s' := by
  obtain ⟨filled, hsub, hrecords⟩ := h.records
  rcases selectWhole_spend (o := o) (s := s) hmode with ⟨hdear, hbody⟩ | ⟨hfits, hbody⟩
  · refine ⟨_, hbody, ⟨filled, hsub.trans (List.sublist_append_left _ _),
      hrecords.of_eq rfl rfl rfl rfl⟩, h.whole, h.remaining, h.funded, ?_⟩
    intro a ha
    rcases List.mem_append.mp ha with hold | hnew
    · exact h.passed a hold
    · intro _
      rw [List.mem_singleton.mp hnew]
      exact hdear
  · have hpos := o.requested_pos
    refine ⟨_, hbody, ⟨filled ++ [o], hsub.append_right [o], hrecords.pushWholeLeg⟩,
      allWhole_push h.whole, ?_, ?_, ?_⟩
    · have hrem := h.remaining
      show s.remaining - o.requestedAmount = params.limit - (s.totalSpend + o.requestedAmount)
      omega
    · intro _
      exact sub_nonneg.mpr hfits
    · intro a ha hunselected
      have hsmaller : s.remaining - o.requestedAmount < s.remaining := sub_lt_self _ hpos
      simp only [Selection.pushWholeLeg, Selection.push, List.mem_insert_iff, not_or] at hunselected
      rcases List.mem_append.mp ha with hold | hnew
      · exact hsmaller.trans (h.passed a hold hunselected.2)
      · exact absurd (congrArg (fun a => a.orderId) (List.mem_singleton.mp hnew)) hunselected.1

/-- What the walk of `spend` mode has selected at its end: orders taken whole, in the
order of the candidates, and the rest passed over because they ask for more than remained. -/
theorem spendSelected_walk (hmode : params.mode = .spend) (candidates : List (OpenOrder now)) :
    SpendSelected params candidates
      (walk (selectWhole params) candidates (Selection.start params)) := by
  refine walk_rule (I := SpendSelected params) (SpendSelected.start hmode) ?_ ?_ ?_
  · intro done o rest s s' _ hs hbody
    obtain ⟨s'', hbody', hs'⟩ := hs.step (o := o) hmode
    obtain rfl : s'' = s' := ForInStep.yield.inj (hbody'.symm.trans hbody)
    exact hs'
  · intro done o rest s s' _ hs hbody
    obtain ⟨s'', hbody', -⟩ := hs.step (o := o) hmode
    rw [hbody'] at hbody
    cases hbody
  · intro s hs
    exact hs

/-- What is left pays for no partial take of `o`, or only for dust. -/
def OnlyDust (params : SmartFillParams) (remaining : ℤ) (o : OpenOrder now) : Prop :=
  affordable o.requestedAmount o.offeredAmount remaining = ∅ ∨
    ∃ take required, IsGreatest (affordable o.requestedAmount o.offeredAmount remaining) take ∧
      requiredPayment take o.requestedAmount o.offeredAmount = some required ∧
      required < params.minPartialSpend

/-- An order the partial pass finds nothing in. -/
def Exhausted (params : SmartFillParams) (s : Selection) (o : OpenOrder now) : Prop :=
  o.orderId ∉ s.selected → o.allowPartialFill = true → OnlyDust params s.remaining o

/-- The largest partial leg the budget had room for. -/
def LargestTake (limit totalSpend : ℤ) (o : OpenOrder now) (leg : SmartFillLeg) (take : ℤ) : Prop :=
  IsGreatest (affordable o.requestedAmount o.offeredAmount (limit - (totalSpend - leg.spend))) take

/-- After both loops, in spend mode. -/
structure SpendOutcome (params : SmartFillParams) (candidates : List (OpenOrder now))
    (s : Selection) : Prop where
  records : ∃ filled, Records filled s ∧ filled ⊆ candidates ∧
    ((candidates.map fun o => o.orderId).Nodup → (filled.map fun o => o.orderId).Nodup)
  lastPartial : AllWhole s.legs.dropLast
  remaining : s.remaining = params.limit - s.totalSpend
  funded : 0 ≤ params.limit → 0 ≤ s.remaining
  passed : ∀ o ∈ candidates, PassedOver s o
  exhausted : AllWhole s.legs → ∀ o ∈ candidates, Exhausted params s o
  largest : ∀ leg ∈ s.legs, ∀ take, leg.takeAmount = some take →
    ∃ o ∈ candidates, LegOf o leg ∧ LargestTake params.limit s.totalSpend o leg take

/-- Nothing is to be had for nothing. -/
theorem affordable_of_nonpos {ask offer budget : ℤ} (hask : 0 < ask) (hoffer : 0 < offer)
    (hbudget : budget ≤ 0) : affordable ask offer budget = ∅ := by
  rcases maxTakeForSpend_cases budget hask hoffer with ⟨-, hnone⟩ | ⟨hpos, -⟩
  · exact hnone
  · rw [maxTakeForSpend, if_pos (Or.inl hbudget)] at hpos
    exact absurd hpos (lt_irrefl _)

namespace SpendSelected

variable {candidates : List (OpenOrder now)}

/-- The outcome without a partial leg. -/
theorem outcome (h : SpendSelected params candidates s)
    (hexhausted : ∀ o ∈ candidates, Exhausted params s o) : SpendOutcome params candidates s := by
  obtain ⟨filled, hsub, hrecords⟩ := h.records
  refine ⟨⟨filled, hrecords, hsub.subset, fun hids => hids.sublist (hsub.map _)⟩, ?_, h.remaining,
    h.funded, h.passed, fun _ => hexhausted, ?_⟩
  · intro leg hleg
    exact h.whole leg (List.mem_of_mem_dropLast hleg)
  · intro leg hleg take htake
    rw [h.whole leg hleg] at htake
    cases htake

/-- The outcome with one. -/
theorem outcome_partial (h : SpendSelected params candidates s) (ho : o ∈ candidates)
    (hunselected : o.orderId ∉ s.selected) {take required : ℤ}
    (hgreatest : IsGreatest (affordable o.requestedAmount o.offeredAmount s.remaining) take)
    (htake : o.PartialTake take required) (hbudget : required ≤ s.remaining) :
    SpendOutcome params candidates
      ({ s with remaining := s.remaining - required }.pushPartialLeg o take required) := by
  obtain ⟨filled, hsub, hrecords⟩ := h.records
  have hleg := legOf_partialLeg htake
  have hrequired : 0 < required := hleg.fills.pay_pos
  have hrem := h.remaining
  refine ⟨⟨filled ++ [o], ?_, ?_, ?_⟩, ?_, ?_, ?_, ?_, ?_, ?_⟩
  · have hspent : Records filled { s with remaining := s.remaining - required } :=
      hrecords.of_eq rfl rfl rfl rfl
    exact hspent.pushPartialLeg htake
  · exact List.append_subset.mpr ⟨hsub.subset, List.cons_subset.mpr ⟨ho, List.nil_subset _⟩⟩
  · intro hids
    have hfresh : o.orderId ∉ filled.map fun o => o.orderId := fun hmem =>
      hunselected ((hrecords.selected _).mpr hmem)
    rw [List.map_append, List.map_singleton]
    exact (hids.sublist (hsub.map _)).append (List.nodup_singleton _) (by simpa using hfresh)
  · show AllWhole (s.legs ++ [partialLeg o take required]).dropLast
    rw [List.dropLast_concat]
    exact h.whole
  · show s.remaining - required = params.limit - (s.totalSpend + required)
    omega
  · intro _
    exact sub_nonneg.mpr hbudget
  · intro a ha hunselected'
    simp only [Selection.pushPartialLeg, Selection.push, List.mem_insert_iff, not_or]
      at hunselected'
    exact (sub_lt_self _ hrequired).trans (h.passed a ha hunselected'.2)
  · intro hwhole
    have := hwhole (partialLeg o take required) (List.mem_append_right _ List.mem_cons_self)
    cases this
  · intro leg hmem take' htake'
    rcases List.mem_append.mp hmem with hold | hnew
    · rw [h.whole leg hold] at htake'
      cases htake'
    · obtain rfl := List.mem_singleton.mp hnew
      obtain rfl : take = take' := Option.some.inj htake'
      refine ⟨o, ho, hleg, ?_⟩
      have hbefore : params.limit - (s.totalSpend + required - required) = s.remaining := by omega
      show IsGreatest (affordable _ _ (params.limit - (s.totalSpend + required - required))) take
      rw [hbefore]
      exact hgreatest

/-- Without budget, or with every candidate taken, no partial pass is needed. -/
theorem exhausted_of_skipped (h : SpendSelected params candidates s)
    (hskip : s.remaining ≤ 0 ∨ candidates.length ≤ s.legs.length) :
    ∀ o ∈ candidates, Exhausted params s o := by
  intro o ho hunselected _
  rcases hskip with hbudget | hall
  · exact .inl (affordable_of_nonpos o.requested_pos o.offered_pos hbudget)
  · obtain ⟨filled, hsub, hrecords⟩ := h.records
    rw [← hrecords.legs.length_eq] at hall
    obtain rfl := hsub.eq_of_length_le hall
    exact absurd ((hrecords.selected _).mpr (List.mem_map_of_mem ho)) hunselected

/-- **The partial pass.** -/
theorem outcome_walk (h : SpendSelected params candidates s) :
    SpendOutcome params candidates (walk (selectPartial params) candidates (s, false)).1 := by
  -- until it stops, the pass changes nothing but the flag
  refine walk_rule (I := fun done (t : Selection × Bool) =>
    t.1 = s ∧ ∀ o ∈ done, Exhausted params s o)
    (Q := fun t => SpendOutcome params candidates t.1) ⟨rfl, fun o ho => (by cases ho)⟩ ?_ ?_ ?_
  · rintro done o rest ⟨s₁, dust⟩ t' _ ⟨rfl, hdone⟩ hbody
    have hextend : Exhausted params s₁ o → ∀ a ∈ done ++ [o], Exhausted params s₁ a := by
      intro ho a ha
      rcases List.mem_append.mp ha with hold | hnew
      · exact hdone a hold
      · rw [List.mem_singleton.mp hnew]
        exact ho
    rcases selectPartial_cases params o s₁ dust with
      ⟨hpassed, heq⟩ | ⟨hnone, heq⟩ | ⟨take, required, hgreatest, hreq, hdust, heq⟩ |
      ⟨-, take, required, -, -, -, heq⟩
    · obtain rfl := ForInStep.yield.inj (heq.symm.trans hbody)
      refine ⟨rfl, hextend ?_⟩
      intro hunselected hallow
      exact absurd hallow (by simp [hpassed.resolve_left hunselected])
    · obtain rfl := ForInStep.yield.inj (heq.symm.trans hbody)
      exact ⟨rfl, hextend fun _ _ => .inl hnone⟩
    · obtain rfl := ForInStep.yield.inj (heq.symm.trans hbody)
      exact ⟨rfl, hextend fun _ _ => .inr ⟨take, required, hgreatest, hreq, hdust⟩⟩
    · rw [heq] at hbody
      cases hbody
  · rintro done o rest ⟨s₁, dust⟩ t' hsplit ⟨rfl, -⟩ hbody
    rcases selectPartial_cases params o s₁ dust with
      ⟨-, heq⟩ | ⟨-, heq⟩ | ⟨_, _, -, -, -, heq⟩ |
      ⟨hunselected, take, required, hgreatest, htake, hbudget, heq⟩
    · rw [heq] at hbody
      cases hbody
    · rw [heq] at hbody
      cases hbody
    · rw [heq] at hbody
      cases hbody
    · obtain rfl := ForInStep.done.inj (heq.symm.trans hbody)
      exact h.outcome_partial (by simp [hsplit]) hunselected hgreatest htake hbudget
  · rintro ⟨s₁, dust⟩ ⟨rfl, hall⟩
    exact h.outcome hall

end SpendSelected

/-- **Both loops, in spend mode.** -/
theorem spendOutcome_selectLegs (hmode : params.mode = .spend) (candidates : List (OpenOrder now)) :
    SpendOutcome params candidates (selectLegs params candidates).1 := by
  have h := spendSelected_walk hmode candidates
  unfold selectLegs
  by_cases hpass : params.mode = .spend ∧
      (walk (selectWhole params) candidates (Selection.start params)).remaining > 0 ∧
      (walk (selectWhole params) candidates (Selection.start params)).legs.length <
        candidates.length
  · simp only [if_pos hpass]
    exact h.outcome_walk
  · simp only [if_neg hpass]
    refine h.outcome (h.exhausted_of_skipped ?_)
    rw [hmode] at hpass
    by_contra hskip
    push Not at hskip
    exact hpass ⟨rfl, hskip.1, hskip.2⟩

/-!
## Receive mode

Orders in the order of their price until the target is reached, the last one in part
where it may be.
-/

/-- What the orders offer together. -/
def totalOffered (orders : List (OpenOrder now)) : ℤ := (orders.map fun o => o.offeredAmount).sum

/-- What the legs receive together. -/
def totalOf (legs : List SmartFillLeg) : ℤ := (legs.map SmartFillLeg.receive).sum

namespace Records

variable {filled : List (OpenOrder now)}

/-- A selection receives at most what the orders it fills offer, as a partial leg receives
less. -/
theorem totalReceive_le (h : Records filled s) : s.totalReceive ≤ totalOffered filled := by
  rw [h.totalReceive, totalOffered]
  have hlegs := h.legs
  clear h
  generalize s.legs = legs at hlegs
  induction hlegs with
  | nil => rfl
  | cons hleg _ ih =>
      rw [List.map_cons, List.map_cons, List.sum_cons, List.sum_cons]
      exact add_le_add hleg.fills.receive_le ih

/-- If all legs take their orders whole, it receives exactly that. -/
theorem totalReceive_eq (h : Records filled s) (hwhole : AllWhole s.legs) :
    s.totalReceive = totalOffered filled := by
  rw [h.totalReceive, totalOffered]
  have hlegs := h.legs
  clear h
  generalize s.legs = legs at hlegs hwhole
  induction hlegs with
  | nil => rfl
  | cons hleg _ ih =>
      rw [List.map_cons, List.map_cons, List.sum_cons, List.sum_cons,
        (hleg.fills.whole (hwhole _ List.mem_cons_self)).2,
        ih fun leg hmem => hwhole leg (List.mem_cons_of_mem _ hmem)]

end Records

theorem totalOffered_take_le (orders : List (OpenOrder now)) (n : ℕ) :
    totalOffered (orders.take n) ≤ totalOffered orders := by
  have hsplit :
      totalOffered orders = totalOffered (orders.take n) + totalOffered (orders.drop n) := by
    rw [totalOffered, totalOffered, totalOffered, ← List.sum_append, ← List.map_append,
      List.take_append_drop]
  have hrest : 0 ≤ totalOffered (orders.drop n) := by
    apply List.sum_nonneg
    intro amount hamount
    obtain ⟨o, -, rfl⟩ := List.mem_map.mp hamount
    exact o.offered_pos.le
  rw [hsplit]
  exact le_add_of_nonneg_right hrest

/-- `o` cannot be taken in part to receive exactly `needed`: it forbids partial
fills, or the payment for that take is its whole ask already. -/
def Indivisible (needed : ℤ) (o : OpenOrder now) : Prop :=
  o.allowPartialFill = false ∨
    requiredPayment needed o.requestedAmount o.offeredAmount = some o.requestedAmount

/-- After the candidates of `done` were taken whole, in receive mode. -/
structure ReceiveSelected (params : SmartFillParams) (done : List (OpenOrder now))
    (s : Selection) : Prop where
  records : Records done s
  whole : AllWhole s.legs
  short : totalOf s.legs.dropLast < params.limit
  overshoot : params.limit < s.totalReceive → ∃ before o, done = before ++ [o] ∧
    Indivisible (params.limit - totalOf s.legs.dropLast) o

/-- After the loop, in receive mode: the legs are those of the first candidates. -/
structure ReceiveOutcome (params : SmartFillParams) (candidates : List (OpenOrder now))
    (s : Selection) : Prop where
  records : Records (candidates.take s.legs.length) s
  lastPartial : AllWhole s.legs.dropLast
  short : totalOf s.legs.dropLast < params.limit
  met : params.limit ≤ s.totalReceive ∨ s.legs.length = candidates.length ∧ AllWhole s.legs
  hit : ¬AllWhole s.legs → s.totalReceive = params.limit
  overshoot : params.limit < s.totalReceive →
    ∃ before o, candidates.take s.legs.length = before ++ [o] ∧
      Indivisible (params.limit - totalOf s.legs.dropLast) o

/-- **Step lemma**, for a turn that takes the order whole. -/
theorem ReceiveSelected.step {done : List (OpenOrder now)} (h : ReceiveSelected params done s)
    (hbelow : s.totalReceive < params.limit)
    (hover : params.limit - s.totalReceive < o.offeredAmount →
      Indivisible (params.limit - s.totalReceive) o) :
    ReceiveSelected params (done ++ [o]) (s.pushWholeLeg o) := by
  have htotal : totalOf s.legs = s.totalReceive := h.records.totalReceive.symm
  refine ⟨h.records.pushWholeLeg, allWhole_push h.whole, ?_, ?_⟩
  · show totalOf (s.legs ++ [wholeLeg o]).dropLast < params.limit
    rw [List.dropLast_concat, htotal]
    exact hbelow
  · intro hlimit
    have hlimit' : params.limit < s.totalReceive + o.offeredAmount := hlimit
    refine ⟨done, o, rfl, ?_⟩
    show Indivisible (params.limit - totalOf (s.legs ++ [wholeLeg o]).dropLast) o
    rw [List.dropLast_concat, htotal]
    exact hover (by omega)

/-- The loop ran out, or met the target with whole orders. -/
theorem ReceiveSelected.outcome {candidates done rest : List (OpenOrder now)}
    (hsplit : candidates = done ++ rest) (h : ReceiveSelected params done s)
    (hend : params.limit ≤ s.totalReceive ∨ rest = []) :
    ReceiveOutcome params candidates s := by
  have hlen : done.length = s.legs.length := h.records.legs.length_eq
  have htaken : candidates.take s.legs.length = done := by
    rw [hsplit, ← hlen, List.take_left]
  refine ⟨by rw [htaken]; exact h.records, ?_, h.short, ?_, fun hpart => absurd h.whole hpart,
    by rw [htaken]; exact h.overshoot⟩
  · intro leg hleg
    exact h.whole leg (List.mem_of_mem_dropLast hleg)
  · rcases hend with hmet | hrest
    · exact .inl hmet
    · refine .inr ⟨?_, h.whole⟩
      rw [hsplit, hrest, List.append_nil, hlen]

/-- The loop stopped with a partial leg. -/
theorem ReceiveSelected.outcome_partial {candidates done rest : List (OpenOrder now)}
    (hsplit : candidates = done ++ o :: rest) (h : ReceiveSelected params done s)
    (hbelow : s.totalReceive < params.limit) {required : ℤ}
    (htake : o.PartialTake (params.limit - s.totalReceive) required) :
    ReceiveOutcome params candidates
      (s.pushPartialLeg o (params.limit - s.totalReceive) required) := by
  have hlen : done.length = s.legs.length := h.records.legs.length_eq
  have hreceived : (s.pushPartialLeg o (params.limit - s.totalReceive) required).totalReceive =
      params.limit := by
    show s.totalReceive + (params.limit - s.totalReceive) = params.limit
    omega
  have htaken : candidates.take (s.legs ++ [partialLeg o (params.limit - s.totalReceive)
      required]).length = done ++ [o] := by
    rw [hsplit, List.length_append, List.length_singleton, ← hlen, List.append_cons,
      ← List.length_singleton (a := o), ← List.length_append, List.take_left]
  refine ⟨?_, ?_, ?_, .inl hreceived.ge, fun _ => hreceived, ?_⟩
  · show Records (candidates.take (s.legs ++ [_]).length) _
    rw [htaken]
    exact h.records.pushPartialLeg htake
  · show AllWhole (s.legs ++ [_]).dropLast
    rw [List.dropLast_concat]
    exact h.whole
  · show totalOf (s.legs ++ [_]).dropLast < params.limit
    rw [List.dropLast_concat, totalOf, ← h.records.totalReceive]
    exact hbelow
  · intro hlimit
    exact absurd hreceived hlimit.ne'

/-- **The loop, in receive mode.** -/
theorem receiveOutcome_walk (hmode : params.mode = .receive) (hlimit : 0 < params.limit)
    (candidates : List (OpenOrder now)) :
    ReceiveOutcome params candidates
      (walk (selectWhole params) candidates (Selection.start params)) := by
  refine walk_rule (I := ReceiveSelected params) (Q := ReceiveOutcome params candidates) ?_ ?_ ?_ ?_
  · exact ⟨Records.start, fun _ hleg => (by cases hleg), hlimit,
      fun h => absurd h hlimit.le.not_gt⟩
  · intro done o rest s s' _ hs hbody
    rcases selectWhole_receive (o := o) (s := s) hmode with
      ⟨-, heq⟩ | ⟨-, required, -, heq⟩ | ⟨hbelow, hover, heq⟩
    · rw [heq] at hbody
      cases hbody
    · rw [heq] at hbody
      cases hbody
    · obtain rfl := ForInStep.yield.inj (heq.symm.trans hbody)
      exact hs.step hbelow hover
  · intro done o rest s s' hsplit hs hbody
    rcases selectWhole_receive (o := o) (s := s) hmode with
      ⟨hmet, heq⟩ | ⟨hbelow, required, htake, heq⟩ | ⟨-, -, heq⟩
    · obtain rfl := ForInStep.done.inj (heq.symm.trans hbody)
      exact hs.outcome hsplit (.inl hmet)
    · obtain rfl := ForInStep.done.inj (heq.symm.trans hbody)
      exact hs.outcome_partial hsplit hbelow htake
    · rw [heq] at hbody
      cases hbody
  · intro s hs
    exact hs.outcome (List.append_nil _).symm (.inr rfl)

/-- How the walk of `receive` mode can end: with the amount reached by whole orders or by
a last partial one, or with all that the limit allows. -/
theorem receiveOutcome_selectLegs (hmode : params.mode = .receive) (hlimit : 0 < params.limit)
    (candidates : List (OpenOrder now)) :
    ReceiveOutcome params candidates (selectLegs params candidates).1 := by
  have hselect : (selectLegs params candidates).1 =
      walk (selectWhole params) candidates (Selection.start params) := by
    unfold selectLegs
    simp [hmode]
  rw [hselect]
  exact receiveOutcome_walk hmode hlimit candidates

/-!
## Candidates

The rows that serve the request, sorted by price and id.
-/

variable {orders : List Order}

/-- An order is eligible if it is an open row of the book that offers what is to be
received for what is to be spent. -/
theorem mem_eligible {o : OpenOrder params.nowPosixMs} :
    o ∈ eligible params orders ↔ o.toOrder ∈ orders ∧
      offeredAssetId o.toOrder = params.receiveAsset ∧
      requestedAssetId o.toOrder = params.spendAsset := by
  rw [eligible, List.mem_filter, mem_openOrders, decide_eq_true_eq]

/-- The eligible orders are rows, and the other rows cannot serve the request. -/
theorem exists_perm_eligible (params : SmartFillParams) (orders : List Order) :
    ∃ others, orders.Perm ((eligible params orders).map OpenOrder.toOrder ++ others) ∧
      ∀ o ∈ eligible params orders, o.toOrder ∉ others := by
  let serves (row : Order) : Bool := (OpenOrder.ofOrder? params.nowPosixMs row).any fun o =>
    offeredAssetId o.toOrder = params.receiveAsset ∧ requestedAssetId o.toOrder = params.spendAsset
  have hmap : ∀ orders, (eligible params orders).map OpenOrder.toOrder = orders.filter serves := by
    intro orders
    induction orders with
    | nil => rfl
    | cons row orders ih =>
        simp only [eligible, openOrders, List.filterMap_cons, List.filter_cons, serves] at ih ⊢
        cases hrow : OpenOrder.ofOrder? params.nowPosixMs row with
        | none => simpa using ih
        | some o =>
            obtain rfl := OpenOrder.ofOrder?_eq_some.mp hrow
            simp only [List.filter_cons, Option.any_some]
            split_ifs
            · rw [List.map_cons, ih]
            · exact ih
  refine ⟨orders.filter fun row => !serves row, ?_, ?_⟩
  · rw [hmap]
    exact (List.filter_append_perm serves orders).symm
  · intro o ho hother
    have hserves : o.toOrder ∈ orders.filter serves := hmap orders ▸ List.mem_map_of_mem ho
    simp [(List.mem_filter.mp hserves).2] at hother

/-- Sorting loses no eligible order and adds none. -/
theorem candidatesOf_perm : (candidatesOf params orders).Perm (eligible params orders) :=
  List.perm_insertionSort _ _

theorem mem_candidatesOf {o : OpenOrder params.nowPosixMs} :
    o ∈ candidatesOf params orders ↔ o ∈ eligible params orders :=
  candidatesOf_perm.mem_iff

theorem candidatesOf_nodup (hids : (orders.map Order.orderId).Nodup) :
    ((candidatesOf params orders).map fun o => o.orderId).Nodup := by
  have heligible : ((eligible params orders).map fun o => o.orderId).Nodup :=
    (openOrders_nodup _ hids).sublist (List.filter_sublist.map _)
  exact (candidatesOf_perm.map _).nodup_iff.mpr heligible

/-- The key the comparator sorts by: the price, then the larger offer, then the
id. -/
def takenBeforeKey (o : OpenOrder now) : ℚ ×ₗ ℤᵒᵈ ×ₗ Str :=
  toLex (o.price, toLex (OrderDual.toDual o.offeredAmount, o.orderId))

/-- The sort of the candidates compares keys: price first, then id. -/
theorem takenBefore_iff {a b : OpenOrder now} :
    takenBefore a b ↔ takenBeforeKey a ≤ takenBeforeKey b := by
  simp only [takenBeforeKey, Prod.Lex.toLex_le_toLex, OrderDual.toDual_lt_toDual, takenBefore,
    cheaper, decide_eq_true_eq, ← OpenOrder.price_lt, OrderDual.toDual_inj]
  exact lt_or_not_lt_and

instance : Std.Total (takenBefore : OpenOrder now → _ → Prop) where
  total a b := by
    rw [takenBefore_iff, takenBefore_iff]
    exact le_total (takenBeforeKey a) (takenBeforeKey b)

instance : IsTrans (OpenOrder now) takenBefore where
  trans a b c := by
    rw [takenBefore_iff, takenBefore_iff, takenBefore_iff]
    exact le_trans (a := takenBeforeKey a)

/-- The candidates come cheapest first. -/
theorem candidatesOf_sorted :
    (candidatesOf params orders).Pairwise fun a b => a.price ≤ b.price := by
  refine (List.pairwise_insertionSort takenBefore _).imp ?_
  intro a b h
  rw [takenBefore_iff, takenBeforeKey, takenBeforeKey, Prod.Lex.toLex_le_toLex] at h
  rcases h with hlt | ⟨heq, -⟩
  · exact hlt.le
  · exact heq.le

/-! ## Sound routes -/

/-- **A leg that can be filled**, taking `o`: it is on the request's assets and on the
order's terms, whole or by the rational price of its part, and the builder accepts it. -/
structure FillableLeg (params : SmartFillParams) (o : OpenOrder params.nowPosixMs)
    (leg : SmartFillLeg) : Prop where
  offers : offeredAssetId o.toOrder = params.receiveAsset
  requests : requestedAssetId o.toOrder = params.spendAsset
  orderId : leg.orderId = o.orderId
  whole : leg.takeAmount = none → leg.spend = o.requestedAmount ∧ leg.receive = o.offeredAmount
  part : ∀ take, leg.takeAmount = some take → o.PartialTerms take leg.spend leg.receive
  /-- The builder accepts a partial leg, wherever the datum on chain says what the
  row says and its payment address can be written down. -/
  accepted : ∀ take, leg.takeAmount = some take →
    ∀ (mesh : Mesh) (scripts : ProtocolScripts) (opts : BuilderOptions) (resolved : ResolvedLeg)
      (address : Str), resolved.datum.offerAmount = o.offeredAmount →
      resolved.datum.askAmount = o.requestedAmount →
      resolved.datum.allowPartialFill = o.allowPartialFill →
      paymentAddress mesh resolved = .ok address →
      ∃ draft, buildPartialLeg mesh scripts opts resolved take = .ok draft

/-- **A sound route** through `orders`: its legs can be filled, they take distinct orders,
only the last one takes a part, and the totals are sums.  In spend mode the total is
within the budget. -/
structure SoundRoute (params : SmartFillParams) (orders : List Order) (route : SmartFillRoute) :
    Prop where
  legs : ∀ leg ∈ route.legs, ∃ o : OpenOrder params.nowPosixMs, o.toOrder ∈ orders ∧
    FillableLeg params o leg
  distinct : (route.legs.map SmartFillLeg.orderId).Nodup
  lastPartial : ∀ leg ∈ route.legs.dropLast, leg.takeAmount = none
  totalSpend : route.totalSpend = (route.legs.map SmartFillLeg.spend).sum
  totalReceive : route.totalReceive = (route.legs.map SmartFillLeg.receive).sum
  withinLimit : params.mode = .spend → route.totalSpend ≤ params.limit

theorem OpenOrder.PartialTake.accepted {o : OpenOrder now} {take required : ℤ}
    (h : o.PartialTake take required) {mesh : Mesh} {scripts : ProtocolScripts}
    {opts : BuilderOptions} {resolved : ResolvedLeg} {address : Str}
    (hoffer : resolved.datum.offerAmount = o.offeredAmount)
    (hask : resolved.datum.askAmount = o.requestedAmount)
    (hallow : resolved.datum.allowPartialFill = o.allowPartialFill)
    (haddress : paymentAddress mesh resolved = .ok address) :
    ∃ draft, buildPartialLeg mesh scripts opts resolved take = .ok draft := by
  unfold buildPartialLeg
  simp only [bind, bind_eq_ok, throwIf_eq_ok, orThrow_eq_ok, hoffer, hask, hallow, not_le,
    ge_iff_le]
  refine ⟨_, address, haddress, (), by simp [h.allowed], (), h.take_pos, (), h.take_lt, required,
    h.required_eq, (), h.required_lt, rfl⟩

/-- A leg of an eligible order can be filled: the builder accepts its amount, and asks for
what the route says. -/
theorem LegOf.fillable {o : OpenOrder params.nowPosixMs} {leg : SmartFillLeg} (h : LegOf o leg)
    (ho : o ∈ eligible params orders) : FillableLeg params o leg := by
  obtain ⟨-, hoffers, hrequests⟩ := mem_eligible.mp ho
  refine ⟨hoffers, hrequests, h.orderId, h.fills.whole, fun _ => h.fills.partialTerms, ?_⟩
  · intro take htake mesh scripts opts resolved address hoffer hask hallow haddress
    exact (h.fills.part take htake).2.accepted hoffer hask hallow haddress

/-- The legs of a selection have the ids of the orders they take. -/
theorem Records.orderIds {filled : List (OpenOrder now)} (h : Records filled s) :
    s.legs.map SmartFillLeg.orderId = filled.map fun o => o.orderId := by
  have hlegs := h.legs
  clear h
  generalize s.legs = legs at hlegs
  induction hlegs with
  | nil => rfl
  | cons hleg _ ih => rw [List.map_cons, List.map_cons, hleg.orderId, ih]

/-- A recorded selection makes a sound route, when its legs are distinct
candidates. -/
theorem Records.sound {filled : List (OpenOrder params.nowPosixMs)}
    (h : Records filled (selectLegs params (candidatesOf params orders)).1)
    (hfilled : filled ⊆ candidatesOf params orders)
    (hdistinct : (filled.map fun o => o.orderId).Nodup)
    (hlast : AllWhole (planSmartFill orders params).legs.dropLast)
    (hlimit : params.mode = .spend → (planSmartFill orders params).totalSpend ≤ params.limit) :
    SoundRoute params orders (planSmartFill orders params) := by
  refine ⟨?_, ?_, hlast, h.totalSpend, h.totalReceive, hlimit⟩
  · intro leg hleg
    obtain ⟨o, ho, hof⟩ := exists_of_mem_right h.legs hleg
    have heligible := mem_candidatesOf.mp (hfilled ho)
    exact ⟨o, (mem_eligible.mp heligible).1, hof.fillable heligible⟩
  · show ((selectLegs params (candidatesOf params orders)).1.legs.map SmartFillLeg.orderId).Nodup
    rw [h.orderIds]
    exact hdistinct

/-- **Routes are sound.** In either mode and for any book, the legs of a route take
distinct orders of the book that can be filled as the route says; only the last of them
can be partial, and then the builder accepts its amount.  The totals are the sums of the
legs, and a budget is not exceeded. -/
theorem route_sound (hids : (orders.map Order.orderId).Nodup) (hlimit : 0 < params.limit) :
    SoundRoute params orders (planSmartFill orders params) := by
  cases hmode : params.mode with
  | spend =>
      have h := spendOutcome_selectLegs hmode (candidatesOf params orders)
      obtain ⟨filled, hrecords, hfilled, hdistinct⟩ := h.records
      refine hrecords.sound hfilled (hdistinct (candidatesOf_nodup hids)) h.lastPartial ?_
      intro _
      have hfunded := h.funded hlimit.le
      rw [h.remaining] at hfunded
      exact sub_nonneg.mp hfunded
  | receive =>
      have h := receiveOutcome_selectLegs hmode hlimit (candidatesOf params orders)
      refine h.records.sound (List.take_subset _ _) ?_ h.lastPartial ?_
      · exact (candidatesOf_nodup hids).sublist ((List.take_sublist _ _).map _)
      · intro hspend
        rw [hmode] at hspend
        cases hspend

namespace SampleBook

/-- Two rows that sell the token for ADA; the dearer one can be split. -/
def rows : List Order :=
  [row "01".toList token ADA 10 30 true, row "02".toList token ADA 10 20 false]

def request (mode : FillMode) (limit : ℤ) : SmartFillParams where
  spendAsset := "lovelace".toList
  receiveAsset := "aa.01".toList
  mode := mode
  limit := limit
  nowPosixMs := .finite 0

theorem rows_nodup : (rows.map Order.orderId).Nodup := by decide

end SampleBook

section

open SampleBook

/-- The cheaper order whole, then a third of the other. -/
theorem route_sound_sample :
    ((planSmartFill rows (request .spend 30)).legs.map SmartFillLeg.takeAmount) = [none, some 3] ∧
      SoundRoute (request .spend 30) rows (planSmartFill rows (request .spend 30)) :=
  ⟨by decide, route_sound rows_nodup (by decide)⟩

end

/-! ## Spend-mode routes -/

/-- `o` can serve the request: it is one of the rows, and sells what is to be received for
what is to be spent.  That it is open, unexpired and for positive amounts is in its
type. -/
structure Serves (params : SmartFillParams) (orders : List Order)
    (o : OpenOrder params.nowPosixMs) : Prop where
  listed : o.toOrder ∈ orders
  offers : offeredAssetId o.toOrder = params.receiveAsset
  requests : requestedAssetId o.toOrder = params.spendAsset

theorem serves_iff {o : OpenOrder params.nowPosixMs} :
    Serves params orders o ↔ o ∈ candidatesOf params orders := by
  rw [mem_candidatesOf, mem_eligible]
  exact ⟨fun h => ⟨h.listed, h.offers, h.requests⟩, fun h => ⟨h.1, h.2.1, h.2.2⟩⟩

/-- **A route that exhausts its limit.** An order serves the request if it is a row of the
book, open and unexpired, on the two assets that were asked for; none of these is left
that could still be bought. -/
structure ExhaustiveRoute (params : SmartFillParams) (orders : List Order)
    (route : SmartFillRoute) : Prop where
  /-- What is left pays for no other order. -/
  whole : ∀ o, Serves params orders o → o.orderId ∉ route.legs.map SmartFillLeg.orderId →
    params.limit - route.totalSpend < o.requestedAmount
  /-- Without a partial leg, it pays for no part of one, or only for dust. -/
  part : AllWhole route.legs → ∀ o, Serves params orders o →
    o.orderId ∉ route.legs.map SmartFillLeg.orderId → o.allowPartialFill = true →
    OnlyDust params (params.limit - route.totalSpend) o
  /-- A partial leg is the largest take that what was left before it pays for. -/
  largest : ∀ leg ∈ route.legs, ∀ take, leg.takeAmount = some take →
    ∃ o, Serves params orders o ∧ LegOf o leg ∧
      LargestTake params.limit route.totalSpend o leg take

/-- **Spend-mode routes leave nothing takeable behind.** What remains of the budget pays
for no other order that serves the request, as a whole; for a part of none, or only for
dust, unless the route has a partial leg already; and such a leg takes as much as could be
paid for. -/
theorem spend_route_exhausts (hmode : params.mode = .spend) :
    ExhaustiveRoute params orders (planSmartFill orders params) := by
  have h := spendOutcome_selectLegs hmode (candidatesOf params orders)
  obtain ⟨filled, hrecords, -, -⟩ := h.records
  have hremaining : (selectLegs params (candidatesOf params orders)).1.remaining =
      params.limit - (planSmartFill orders params).totalSpend := h.remaining
  have hunselected : ∀ id, id ∉ (planSmartFill orders params).legs.map SmartFillLeg.orderId →
      id ∉ (selectLegs params (candidatesOf params orders)).1.selected := by
    intro id hid hselected
    rw [hrecords.selected, ← hrecords.orderIds] at hselected
    exact hid hselected
  refine ⟨?_, ?_, ?_⟩
  · intro o ho hid
    rw [← hremaining]
    exact h.passed o (serves_iff.mp ho) (hunselected _ hid)
  · intro hwhole o ho hid hallow
    rw [← hremaining]
    exact h.exhausted hwhole o (serves_iff.mp ho) (hunselected _ hid) hallow
  · intro leg hleg take htake
    obtain ⟨o, ho, hof, hlargest⟩ := h.largest leg hleg take htake
    exact ⟨o, serves_iff.mpr ho, hof, hlargest⟩

open SampleBook in
/-- The limit is spent to the last: ten tokens for 20, and three of the others for 9. -/
theorem spend_route_exhausts_sample :
    ((planSmartFill rows (request .spend 30)).legs.map fun leg =>
        (leg.orderId, leg.takeAmount, leg.spend)) =
      [(orderIdOf ⟨"02".toList, 0⟩, none, 20), (orderIdOf ⟨"01".toList, 0⟩, some 3, 9)] ∧
    ExhaustiveRoute (request .spend 30) rows (planSmartFill rows (request .spend 30)) :=
  ⟨by decide, spend_route_exhausts rfl⟩

/-! ## Receive-mode routes -/

/-- **A shortest run of the cheapest orders** that reaches the target. -/
structure MinimalRoute (params : SmartFillParams) (orders : List Order) (route : SmartFillRoute)
    (sorted : List (OpenOrder params.nowPosixMs)) : Prop where
  /-- The rows that can serve the request, … -/
  serve : ∀ o ∈ sorted, Serves params orders o
  /-- … all of them, … -/
  others : ∃ others, orders.Perm (sorted.map OpenOrder.toOrder ++ others) ∧
    ∀ o, Serves params orders o → o.toOrder ∉ others
  /-- … the cheapest ones first. -/
  cheapestFirst : sorted.Pairwise fun a b => a.price ≤ b.price
  legs : List.Forall₂ LegOf (sorted.take route.legs.length) route.legs
  lastPartial : AllWhole route.legs.dropLast
  totalReceive : route.totalReceive = totalOf route.legs
  /-- The target is reached when the orders offer that much, … -/
  reached : params.limit ≤ totalOffered sorted → params.limit ≤ route.totalReceive
  /-- … and if not, they are all taken whole. -/
  taken : totalOffered sorted < params.limit →
    route.legs.length = sorted.length ∧ AllWhole route.legs
  short : totalOf route.legs.dropLast < params.limit
  hit : ¬AllWhole route.legs → route.totalReceive = params.limit
  overshoot : params.limit < route.totalReceive →
    ∃ before o, sorted.take route.legs.length = before ++ [o] ∧
      Indivisible (params.limit - totalOf route.legs.dropLast) o

/-- **Receive-mode routes are minimal.** The legs are the cheapest orders that serve the
request, in their order, and the last one is needed.  The target is reached if the book
offers as much, it is hit exactly where the last leg is partial, and it is exceeded only
by an order that could not be taken in the part that was missing. -/
theorem receive_route_minimal (hmode : params.mode = .receive) (hlimit : 0 < params.limit) :
    ∃ sorted, MinimalRoute params orders (planSmartFill orders params) sorted := by
  have h := receiveOutcome_selectLegs hmode hlimit (candidatesOf params orders)
  refine ⟨candidatesOf params orders, fun _ => serves_iff.mpr, ?_, candidatesOf_sorted,
    h.records.legs, h.lastPartial, h.records.totalReceive, ?_, ?_, h.short, h.hit, h.overshoot⟩
  · obtain ⟨others, hperm, hothers⟩ := exists_perm_eligible params orders
    refine ⟨others, hperm.trans ((candidatesOf_perm.map _).symm.append_right others), ?_⟩
    intro o ho
    exact hothers o (mem_candidatesOf.mp (serves_iff.mp ho))
  · intro hoffered
    rcases h.met with hmet | ⟨hlen, hwhole⟩
    · exact hmet
    · have htotal := h.records.totalReceive_eq hwhole
      rw [hlen, List.take_length] at htotal
      exact hoffered.trans htotal.ge
  · intro hoffered
    rcases h.met with hmet | hall
    · have hreceived := h.records.totalReceive_le.trans (totalOffered_take_le _ _)
      exact absurd (hmet.trans hreceived) (not_le.mpr hoffered)
    · exact hall

open SampleBook in
/-- Thirteen tokens: ten whole, and three of the others. -/
theorem receive_route_minimal_sample :
    ((planSmartFill rows (request .receive 13)).legs.map fun leg =>
        (leg.orderId, leg.takeAmount, leg.receive)) =
      [(orderIdOf ⟨"02".toList, 0⟩, none, 10), (orderIdOf ⟨"01".toList, 0⟩, some 3, 3)] ∧
    ∃ sorted, MinimalRoute (request .receive 13) rows (planSmartFill rows (request .receive 13))
      sorted :=
  ⟨by decide, receive_route_minimal rfl (by decide)⟩

end BeaconDex.Backend
