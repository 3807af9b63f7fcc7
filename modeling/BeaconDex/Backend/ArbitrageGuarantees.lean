import BeaconDex.Backend.Arbitrage
import BeaconDex.Library.ExchangeCycle

/-!
# What the arbitrage scan finds

The opportunities of `findArbitrage` fund themselves, and each of their legs can
be executed (`opportunity_executable`).

A cycle is described by its orders alone (`ClosedCycle`), and the description is
the same from each of its orders on.  What a sizing does to a cycle is in
`sizeRotation_spec`; that the pre-filter loses nothing is an instance of
`prod_ask_lt_prod_offer`.

## A cycle has no first order

The scan starts a cycle at each of its orders in turn, sizes the legs from there, and
keeps the best sizing.  Which start is best depends on rounding, so nothing is claimed
of the start that was chosen: every result is about a rotation of a closed cycle, and
`ClosedCycle.rotate` is what makes them results about the cycle.

## Why a profit is a net per asset

A sizing may leave a little of an intermediate asset over, because a leg takes no more
than it can pay for.  An opportunity is therefore riskless when no asset ends below zero
and one ends above it.  `valueAt_netsOf` reads the reported nets as the sums they stand
for, and the fold that books them is not looked at again.
-/

namespace BeaconDex.Backend

open Library

variable {now : JsNumber}

/-!
## Legs

The terms of a leg are those of its order, whole or in part, and this is all that sizing
decides about it.
-/

/-- `leg` takes `o`, whole and on exactly its terms, or in part. -/
structure CycleLegOf (o : OpenOrder now) (leg : ArbitrageLeg) : Prop where
  orderId : leg.orderId = o.orderId
  payAsset : leg.payAsset = requestedAssetId o.toOrder
  receiveAsset : leg.receiveAsset = offeredAssetId o.toOrder
  expiration : leg.expiration = o.expiration
  fills : o.Fills leg.takeAmount leg.payAmount leg.receiveAmount

theorem cycleLegOf_wholeCycleLeg (o : OpenOrder now) : CycleLegOf o (wholeCycleLeg o) :=
  ⟨rfl, rfl, rfl, rfl, o.fills_whole⟩

/-- `leg` is paid out of what `before` delivers. -/
def PaidBy (before leg : ArbitrageLeg) : Prop := leg.payAmount ≤ before.receiveAmount

/-- A leg that sizing gives back is a leg of its order, and costs no more than what is
carried into it. -/
theorem sizeLeg_spec {carry : ℤ} {o : OpenOrder now} {leg : ArbitrageLeg}
    (h : sizeLeg carry o = some leg) : CycleLegOf o leg ∧ leg.payAmount ≤ carry := by
  unfold sizeLeg at h
  split at h
  · split at h
    · cases h
    · next hallow =>
      rcases maxTakeForSpend_cases carry o.requested_pos o.offered_pos with
        ⟨hzero, -⟩ | ⟨hpos, hgreatest⟩
      · rw [dif_pos hzero.le] at h
        cases h
      · rw [dif_neg (not_le.mpr hpos), Option.some.injEq] at h
        obtain ⟨required, hvalid, hbudget⟩ := hgreatest.1
        have hreq := (o.requiredPayment_eq _ hpos).symm.trans hvalid.required_eq
        obtain rfl := Option.some.inj hreq
        obtain rfl := h
        exact ⟨⟨rfl, rfl, rfl, rfl, OpenOrder.fills_part ⟨hvalid, by simpa using hallow⟩⟩, hbudget⟩
  · next hfits =>
    obtain rfl := Option.some.inj h
    exact ⟨cycleLegOf_wholeCycleLeg o, not_lt.mp hfits⟩

/-- Sizing gives one leg for each order of the rest of a cycle, and each is paid for by
what the one before it has brought in. -/
theorem sizeFrom_spec {rest : List (OpenOrder now)} {before : ArbitrageLeg}
    {legs : List ArbitrageLeg} (h : sizeFrom before.receiveAmount rest = some legs) :
    List.Forall₂ CycleLegOf rest legs ∧ (before :: legs).IsChain PaidBy := by
  induction rest generalizing before legs with
  | nil =>
      obtain rfl := Option.some.inj h
      exact ⟨.nil, List.isChain_singleton _⟩
  | cons o rest ih =>
      simp only [sizeFrom, Option.bind_eq_bind, Option.bind_eq_some_iff, Option.pure_def,
        Option.some.injEq] at h
      obtain ⟨leg, hleg, legs', hrest, rfl⟩ := h
      obtain ⟨hof, hpaid⟩ := sizeLeg_spec hleg
      obtain ⟨hlegs, hchain⟩ := ih hrest
      exact ⟨.cons hof hlegs, List.isChain_cons_cons.mpr ⟨hpaid, hchain⟩⟩

/-- **What a sizing is**: a leg for each order, each paid by the one before. -/
theorem sizeRotation_spec {cycle : List (OpenOrder now)} {legs : List ArbitrageLeg}
    (h : sizeRotation cycle = some legs) :
    List.Forall₂ CycleLegOf cycle legs ∧ legs.IsChain PaidBy := by
  cases cycle with
  | nil =>
      obtain rfl := Option.some.inj h
      exact ⟨.nil, List.isChain_nil⟩
  | cons anchor rest =>
      obtain ⟨legs', hrest, rfl⟩ := Option.map_eq_some_iff.mp h
      have hsized : sizeFrom (wholeCycleLeg anchor).receiveAmount rest = some legs' := hrest
      obtain ⟨hlegs, hchain⟩ := sizeFrom_spec hsized
      exact ⟨.cons (cycleLegOf_wholeCycleLeg anchor) hlegs, hchain⟩

/-!
## Nets

A net is a list of assets with amounts, built by adding a leg's two sides in turn.  What
is proved of it is what each asset comes to.
-/

/-- What one leg does to the taker's holding of `u`. -/
def legNet (u : Str) (leg : ArbitrageLeg) : ℤ :=
  (if leg.receiveAsset = u then leg.receiveAmount else 0) -
    (if leg.payAsset = u then leg.payAmount else 0)

/-- What the legs together do. -/
def netOf (u : Str) (legs : List ArbitrageLeg) : ℤ := (legs.map (legNet u)).sum

/-- One run of the fold that books the legs: an asset is listed once, and what is listed
for it has changed by the net of the legs. -/
theorem foldl_netsOf (legs : List ArbitrageLeg) (nets : List (Str × ℤ))
    (hnets : (nets.map Prod.fst).Nodup) :
    let nets' := legs.foldl (fun nets leg =>
      addAt leg.receiveAsset leg.receiveAmount (addAt leg.payAsset (-leg.payAmount) nets)) nets
    (nets'.map Prod.fst).Nodup ∧ ∀ u, valueAt u nets' = valueAt u nets + netOf u legs := by
  induction legs generalizing nets with
  | nil => exact ⟨hnets, fun u => (add_zero _).symm⟩
  | cons leg legs ih =>
      obtain ⟨hnodup, hvalue⟩ := ih _ (addAt_nodup leg.receiveAsset leg.receiveAmount
        (addAt_nodup leg.payAsset (-leg.payAmount) hnets))
      refine ⟨hnodup, ?_⟩
      intro u
      refine (hvalue u).trans ?_
      rw [valueAt_addAt, valueAt_addAt, netOf, netOf, List.map_cons, List.sum_cons, legNet]
      split <;> split <;> ring

theorem netsOf_nodup (legs : List ArbitrageLeg) : ((netsOf legs).map Prod.fst).Nodup :=
  (foldl_netsOf legs [] List.nodup_nil).1

/-- The nets that are reported for an asset are what the legs bring of it, less what they
cost. -/
theorem valueAt_netsOf (u : Str) (legs : List ArbitrageLeg) :
    valueAt u (netsOf legs) = netOf u legs :=
  ((foldl_netsOf legs [] List.nodup_nil).2 u).trans (zero_add _)

/-- The non-zero entries are the non-zero nets. -/
theorem mem_netsOf {u : Str} {n : ℤ} {legs : List ArbitrageLeg} (hn : n ≠ 0) :
    (u, n) ∈ netsOf legs ↔ netOf u legs = n := by
  rw [← valueAt_netsOf]
  constructor
  · intro h
    exact valueAt_of_mem (netsOf_nodup legs) h
  · rintro rfl
    exact mem_of_valueAt_ne_zero (netsOf_nodup legs) hn

/-- **Riskless**: no asset nets less than zero, and one nets more. -/
theorem isRiskless_netsOf {legs : List ArbitrageLeg} :
    isRiskless (netsOf legs) = true ↔ (∀ u, 0 ≤ netOf u legs) ∧ ∃ u, 0 < netOf u legs := by
  simp only [isRiskless, Bool.and_eq_true, List.all_eq_true, List.any_eq_true, decide_eq_true_eq]
  constructor
  · rintro ⟨hall, ⟨u, n⟩, hmem, hpos⟩
    refine ⟨?_, u, ?_⟩
    · intro v
      by_cases hv : netOf v legs = 0
      · exact hv.ge
      · exact hall _ ((mem_netsOf hv).mpr rfl)
    · rw [(mem_netsOf hpos.ne').mp hmem]
      exact hpos
  · rintro ⟨hall, u, hu⟩
    refine ⟨?_, (u, netOf u legs), (mem_netsOf hu.ne').mpr rfl, hu⟩
    rintro ⟨v, n⟩ hmem
    rw [show n = netOf v legs from
      (valueAt_netsOf v legs ▸ (valueAt_of_mem (netsOf_nodup legs) hmem).symm)]
    exact hall v

/-!
## Closed cycles

Two or three orders, each asking for what the one before it offers, over assets that
differ.  Rotating one of them gives another.
-/

/-- What `o` delivers is what `next` asks for. -/
def LeadsTo (o next : OpenOrder now) : Prop :=
  offeredAssetId o.toOrder = requestedAssetId next.toOrder

/-- **A closed cycle** of two or three orders over distinct assets. -/
inductive ClosedCycle : List (OpenOrder now) → Prop
  | direct {o₁ o₂ : OpenOrder now} (h₁ : LeadsTo o₁ o₂) (h₂ : LeadsTo o₂ o₁)
      (distinct : [requestedAssetId o₁.toOrder, requestedAssetId o₂.toOrder].Nodup) :
      ClosedCycle [o₁, o₂]
  | triangular {o₁ o₂ o₃ : OpenOrder now} (h₁ : LeadsTo o₁ o₂) (h₂ : LeadsTo o₂ o₃)
      (h₃ : LeadsTo o₃ o₁)
      (distinct : [requestedAssetId o₁.toOrder, requestedAssetId o₂.toOrder,
        requestedAssetId o₃.toOrder].Nodup) :
      ClosedCycle [o₁, o₂, o₃]

namespace ClosedCycle

variable {cycle : List (OpenOrder now)} {legs : List ArbitrageLeg}

/-- A closed cycle stays closed when it is started one order later. -/
theorem rotate_one (h : ClosedCycle cycle) : ClosedCycle (cycle.rotate 1) := by
  cases h with
  | direct h₁ h₂ distinct =>
      exact .direct h₂ h₁ ((List.Perm.swap _ _ _).nodup_iff.mp distinct)
  | triangular h₁ h₂ h₃ distinct =>
      exact .triangular h₂ h₃ h₁
        ((List.perm_append_comm : ([_] ++ [_, _]).Perm _).nodup_iff.mp distinct)

/-- A cycle is closed from each of its orders on. -/
theorem rotate (h : ClosedCycle cycle) (r : ℕ) : ClosedCycle (cycle.rotate r) := by
  induction r with
  | zero => rwa [List.rotate_zero]
  | succ r ih =>
      rw [← List.rotate_rotate]
      exact ih.rotate_one

theorem length (h : ClosedCycle cycle) : cycle.length = 2 ∨ cycle.length = 3 := by
  cases h with
  | direct => exact .inl rfl
  | triangular => exact .inr rfl

theorem ne_nil (h : ClosedCycle cycle) : cycle ≠ [] := by
  cases h <;> exact List.cons_ne_nil _ _

/-- No asset is passed twice on the way around. -/
theorem distinct (h : ClosedCycle cycle) :
    (cycle.map fun o => requestedAssetId o.toOrder).Nodup := by
  cases h with
  | direct _ _ distinct => exact distinct
  | triangular _ _ _ distinct => exact distinct

/-- Each order delivers what the next asks for, around the cycle. -/
theorem closed (h : ClosedCycle cycle) : (cycle.map fun o => offeredAssetId o.toOrder) =
    (cycle.map fun o => requestedAssetId o.toOrder).rotate 1 := by
  cases h with
  | direct h₁ h₂ _ => exact congrArg₂ (fun a b => [a, b]) h₁ h₂
  | triangular h₁ h₂ h₃ _ =>
      show [_, _, _] = [_, _, _]
      exact congrArg₂ List.cons h₁ (congrArg₂ (fun a b => [a, b]) h₂ h₃)

theorem nodup (h : ClosedCycle cycle) : cycle.Nodup := List.Nodup.of_map _ h.distinct

/-- A leg as an exchange at its order's quote. -/
def exchangeOf (o : OpenOrder now) (leg : ArbitrageLeg) : Exchange ℤ :=
  ⟨leg.payAmount, leg.receiveAmount, o.requestedAmount, o.offeredAmount⟩

/-- A leg pays at least what its order quotes for what it takes. -/
theorem quoted_exchangeOf {o : OpenOrder now} {leg : ArbitrageLeg} (h : CycleLegOf o leg) :
    (exchangeOf o leg).Quoted :=
  ⟨h.fills.pay_pos, o.requested_pos, h.fills.rate, h.fills.receive_pos⟩

/-- What two legs net, when each delivers what the other pays. -/
theorem netOf_direct {o₁ o₂ : OpenOrder now} {leg₁ leg₂ : ArbitrageLeg} (h₁ : LeadsTo o₁ o₂)
    (h₂ : LeadsTo o₂ o₁) (hleg₁ : CycleLegOf o₁ leg₁) (hleg₂ : CycleLegOf o₂ leg₂) (u : Str) :
    netOf u [leg₁, leg₂] =
      (if requestedAssetId o₁.toOrder = u then leg₂.receiveAmount - leg₁.payAmount else 0) +
      (if requestedAssetId o₂.toOrder = u then leg₁.receiveAmount - leg₂.payAmount else 0) := by
  rw [LeadsTo] at h₁ h₂
  simp only [netOf, legNet, List.map_cons, List.map_nil, List.sum_cons, List.sum_nil,
    hleg₁.payAsset,
    hleg₁.receiveAsset, hleg₂.payAsset, hleg₂.receiveAsset, h₁, h₂]
  split <;> split <;> ring

/-- What three legs net, when each delivers what the next pays. -/
theorem netOf_triangular {o₁ o₂ o₃ : OpenOrder now} {leg₁ leg₂ leg₃ : ArbitrageLeg}
    (h₁ : LeadsTo o₁ o₂) (h₂ : LeadsTo o₂ o₃) (h₃ : LeadsTo o₃ o₁) (hleg₁ : CycleLegOf o₁ leg₁)
    (hleg₂ : CycleLegOf o₂ leg₂) (hleg₃ : CycleLegOf o₃ leg₃) (u : Str) :
    netOf u [leg₁, leg₂, leg₃] =
      (if requestedAssetId o₁.toOrder = u then leg₃.receiveAmount - leg₁.payAmount else 0) +
      (if requestedAssetId o₂.toOrder = u then leg₁.receiveAmount - leg₂.payAmount else 0) +
      (if requestedAssetId o₃.toOrder = u then leg₂.receiveAmount - leg₃.payAmount else 0) := by
  rw [LeadsTo] at h₁ h₂ h₃
  simp only [netOf, legNet, List.map_cons, List.map_nil, List.sum_cons, List.sum_nil,
    hleg₁.payAsset,
    hleg₁.receiveAsset, hleg₂.payAsset, hleg₂.receiveAsset, hleg₃.payAsset, hleg₃.receiveAsset,
    h₁, h₂, h₃]
  split <;> split <;> split <;> ring

/-- **The pre-filter loses nothing.**  Legs that leave no asset short and one with
a gain beat the rates their orders quote, however they were trimmed. -/
theorem rateProductPositive (h : ClosedCycle cycle) (hlegs : List.Forall₂ CycleLegOf cycle legs)
    (hnets : ∀ u, 0 ≤ netOf u legs) (hgain : ∃ u, 0 < netOf u legs) :
    rateProductPositive cycle = true := by
  suffices hproduct : (cycle.map fun o => o.requestedAmount).prod <
      (cycle.map fun o => o.offeredAmount).prod from decide_eq_true (sub_pos.mpr hproduct)
  obtain ⟨u, hu⟩ := hgain
  cases h with
  | @direct o₁ o₂ h₁ h₂ distinct =>
      obtain ⟨leg₁, _, hleg₁, hlegs₁, rfl⟩ := List.forall₂_cons_left_iff.mp hlegs
      obtain ⟨leg₂, _, hleg₂, hlegs₂, rfl⟩ := List.forall₂_cons_left_iff.mp hlegs₁
      obtain rfl := List.forall₂_nil_left_iff.mp hlegs₂
      have hne : requestedAssetId o₁.toOrder ≠ requestedAssetId o₂.toOrder := by
        simpa using distinct
      have hnet := netOf_direct h₁ h₂ hleg₁ hleg₂
      have hpaid₁ : leg₁.payAmount ≤ leg₂.receiveAmount := by
        simpa [hnet, hne.symm] using hnets (requestedAssetId o₁.toOrder)
      have hpaid₂ : leg₂.payAmount ≤ leg₁.receiveAmount := by
        simpa [hnet, hne] using hnets (requestedAssetId o₂.toOrder)
      refine prod_ask_lt_prod_offer [exchangeOf o₁ leg₁, exchangeOf o₂ leg₂]
        [leg₂.receiveAmount, leg₁.receiveAmount] ?_ ?_ ?_ ?_
      · simp [quoted_exchangeOf hleg₁, quoted_exchangeOf hleg₂]
      · exact List.Perm.swap _ _ _
      · exact .cons hpaid₁ (.cons hpaid₂ .nil)
      · intro hall
        obtain ⟨hpay₁, hpay₂⟩ : leg₁.payAmount = leg₂.receiveAmount ∧
            leg₂.payAmount = leg₁.receiveAmount := by simpa [exchangeOf] using hall
        rw [hnet, hpay₁, hpay₂] at hu
        simp at hu
  | @triangular o₁ o₂ o₃ h₁ h₂ h₃ distinct =>
      obtain ⟨leg₁, _, hleg₁, hlegs₁, rfl⟩ := List.forall₂_cons_left_iff.mp hlegs
      obtain ⟨leg₂, _, hleg₂, hlegs₂, rfl⟩ := List.forall₂_cons_left_iff.mp hlegs₁
      obtain ⟨leg₃, _, hleg₃, hlegs₃, rfl⟩ := List.forall₂_cons_left_iff.mp hlegs₂
      obtain rfl := List.forall₂_nil_left_iff.mp hlegs₃
      obtain ⟨⟨h₁₂, h₁₃⟩, h₂₃⟩ : (requestedAssetId o₁.toOrder ≠ requestedAssetId o₂.toOrder ∧
          requestedAssetId o₁.toOrder ≠ requestedAssetId o₃.toOrder) ∧
          requestedAssetId o₂.toOrder ≠ requestedAssetId o₃.toOrder := by
        simpa [not_or] using distinct
      have hnet := netOf_triangular h₁ h₂ h₃ hleg₁ hleg₂ hleg₃
      have hpaid₁ : leg₁.payAmount ≤ leg₃.receiveAmount := by
        simpa [hnet, h₁₂.symm, h₁₃.symm] using hnets (requestedAssetId o₁.toOrder)
      have hpaid₂ : leg₂.payAmount ≤ leg₁.receiveAmount := by
        simpa [hnet, h₁₂, h₂₃.symm] using hnets (requestedAssetId o₂.toOrder)
      have hpaid₃ : leg₃.payAmount ≤ leg₂.receiveAmount := by
        simpa [hnet, h₁₃, h₂₃] using hnets (requestedAssetId o₃.toOrder)
      refine prod_ask_lt_prod_offer
        [exchangeOf o₁ leg₁, exchangeOf o₂ leg₂, exchangeOf o₃ leg₃]
        [leg₃.receiveAmount, leg₁.receiveAmount, leg₂.receiveAmount] ?_ ?_ ?_ ?_
      · simp [quoted_exchangeOf hleg₁, quoted_exchangeOf hleg₂, quoted_exchangeOf hleg₃]
      · exact (List.perm_append_comm : ([_] ++ [_, _]).Perm _)
      · exact .cons hpaid₁ (.cons hpaid₂ (.cons hpaid₃ .nil))
      · intro hall
        obtain ⟨hpay₁, hpay₂, hpay₃⟩ : leg₁.payAmount = leg₃.receiveAmount ∧
            leg₂.payAmount = leg₁.receiveAmount ∧ leg₃.payAmount = leg₂.receiveAmount := by
          simpa [exchangeOf] using hall
        rw [hnet, hpay₁, hpay₂, hpay₃] at hu
        simp at hu

end ClosedCycle

/-!
## The best sizing

A cycle is sized from each of its orders, and of the sizings that lose nothing the best
is kept, which is one of them.
-/

/-- `legs` sizes the cycle from one of its orders on, and is riskless. -/
def RisklessSizing (cycle : List (OpenOrder now)) (legs : List ArbitrageLeg) : Prop :=
  ∃ r, sizeRotation (cycle.rotate r) = some legs ∧ isRiskless (netsOf legs) = true

/-- The rotations the loop tries are all of them. -/
theorem RisklessSizing.exists_lt {cycle : List (OpenOrder now)} {legs : List ArbitrageLeg}
    (hne : cycle ≠ []) (h : RisklessSizing cycle legs) :
    ∃ r < cycle.length, sizeRotation (cycle.drop r ++ cycle.take r) = some legs ∧
      isRiskless (netsOf legs) = true := by
  obtain ⟨r, hsize, hriskless⟩ := h
  refine ⟨r % cycle.length, Nat.mod_lt _ (List.length_pos_of_ne_nil hne), ?_, hriskless⟩
  rwa [← List.rotate_eq_drop_append_take_mod]

/-- What an evaluated rotation is made of: legs that could be sized, that are without loss
in every asset, and whose nets are reported as they are. -/
theorem evaluateRotation_eq_some {fee : ℤ} {rotated : List (OpenOrder now)} {ev : Evaluated}
    (h : evaluateRotation fee rotated = some ev) : sizeRotation rotated = some ev.legs ∧
      isRiskless (netsOf ev.legs) = true ∧ ev.nets = netsOf ev.legs ∧
      ev.partialMinAda = partialMinAdaOf ev.legs := by
  simp only [evaluateRotation, Option.bind_eq_bind, Option.bind_eq_some_iff] at h
  obtain ⟨legs, hsize, h⟩ := h
  split at h
  · cases h
  · next hriskless =>
    obtain rfl := Option.some.inj h
    exact ⟨hsize, by simpa using hriskless, rfl, rfl⟩

/-- Conversely a rotation that can be sized without loss is evaluated. -/
theorem isSome_evaluateRotation {fee : ℤ} {rotated : List (OpenOrder now)}
    {legs : List ArbitrageLeg} (hsize : sizeRotation rotated = some legs)
    (hriskless : isRiskless (netsOf legs) = true) : (evaluateRotation fee rotated).isSome := by
  have hkept : ¬isRiskless (netsOf legs) = false := by
    rw [hriskless]
    exact Bool.noConfusion
  rw [evaluateRotation, hsize, Option.bind_eq_bind, Option.bind_some, if_neg hkept]
  rfl

/-- Of two evaluations, one is kept as it is. -/
theorem keepBetter_cases (best new : Option Evaluated) :
    keepBetter best new = best ∨ keepBetter best new = new := by
  cases new with
  | none => exact .inl rfl
  | some candidate =>
      cases best with
      | none => exact .inr rfl
      | some current =>
          rw [keepBetter]
          split
          · exact .inr rfl
          · exact .inl rfl

theorem isSome_keepBetter (best new : Option Evaluated) :
    (keepBetter best new).isSome ↔ best.isSome ∨ new.isSome := by
  cases new with
  | none => simp [keepBetter]
  | some candidate =>
      cases best with
      | none => simp [keepBetter]
      | some current =>
          rw [keepBetter]
          split <;> simp

/-- The kept sizing is one of those tried. -/
theorem exists_of_foldl_keepBetter {f : ℕ → Option Evaluated} {rs : List ℕ}
    {best : Option Evaluated} {ev : Evaluated}
    (h : rs.foldl (fun best r => keepBetter best (f r)) best = some ev) :
    best = some ev ∨ ∃ r ∈ rs, f r = some ev := by
  induction rs generalizing best with
  | nil => exact .inl h
  | cons r rs ih =>
      rcases ih h with hbest | ⟨r', hr', hev⟩
      · rcases keepBetter_cases best (f r) with heq | heq
        · exact .inl (heq.symm.trans hbest)
        · exact .inr ⟨r, List.mem_cons_self, heq.symm.trans hbest⟩
      · exact .inr ⟨r', List.mem_cons_of_mem _ hr', hev⟩

theorem isSome_foldl_keepBetter {f : ℕ → Option Evaluated} {rs : List ℕ}
    {best : Option Evaluated} (h : best.isSome ∨ ∃ r ∈ rs, (f r).isSome) :
    (rs.foldl (fun best r => keepBetter best (f r)) best).isSome := by
  induction rs generalizing best with
  | nil => simpa using h
  | cons r rs ih =>
      apply ih
      rw [isSome_keepBetter]
      rcases h with hbest | ⟨r', hr', hsome⟩
      · exact .inl (.inl hbest)
      · rcases List.mem_cons.mp hr' with rfl | hr'
        · exact .inl (.inr hsome)
        · exact .inr ⟨r', hr', hsome⟩

/-- **What is reported of a cycle** is a riskless sizing of it. -/
theorem evaluateCycle_eq_some {cycle : List (OpenOrder now)} {fee : ℤ} {ev : Evaluated}
    (h : evaluateCycle cycle fee = some ev) : RisklessSizing cycle ev.legs ∧
      ev.nets = netsOf ev.legs ∧ ev.partialMinAda = partialMinAdaOf ev.legs := by
  rcases exists_of_foldl_keepBetter h with hnone | ⟨r, hr, hev⟩
  · cases hnone
  · obtain ⟨hsize, hriskless, hnets, hminAda⟩ := evaluateRotation_eq_some hev
    rw [← List.rotate_eq_drop_append_take (List.mem_range.mp hr).le] at hsize
    exact ⟨⟨r, hsize, hriskless⟩, hnets, hminAda⟩

/-- A cycle is reported if it has a riskless sizing. -/
theorem isSome_evaluateCycle {cycle : List (OpenOrder now)} {fee : ℤ} {legs : List ArbitrageLeg}
    (hne : cycle ≠ []) (h : RisklessSizing cycle legs) : (evaluateCycle cycle fee).isSome := by
  obtain ⟨r, hr, hsize, hriskless⟩ := h.exists_lt hne
  exact isSome_foldl_keepBetter
    (.inr ⟨r, List.mem_range.mpr hr, isSome_evaluateRotation hsize hriskless⟩)

/-!
## Edges

The book as a graph: the lists of orders from asset to asset, and the cycles that are
read off them.
-/

/-- The orders from one asset to another. -/
def ordersFrom (book : List (OpenOrder now)) (fromAsset toAsset : Str) : List (OpenOrder now) :=
  book.filter fun o => requestedAssetId o.toOrder = fromAsset ∧ offeredAssetId o.toOrder = toAsset

theorem mem_ordersFrom {book : List (OpenOrder now)} {a b : Str} {o : OpenOrder now} :
    o ∈ ordersFrom book a b ↔
      o ∈ book ∧ requestedAssetId o.toOrder = a ∧ offeredAssetId o.toOrder = b := by
  rw [ordersFrom, List.mem_filter, decide_eq_true_eq]

section

variable {edges : Edges now} {o : OpenOrder now} {a b : Str} {book : List (OpenOrder now)}

/-- Adding an order changes what is found on its own edge only. -/
theorem find?_byTo_addEdge (edges : Edges now) (o : OpenOrder now) (hab : a ≠ b) :
    ((addEdge edges o).byTo a).find? b =
      if requestedAssetId o.toOrder = a ∧ offeredAssetId o.toOrder = b then
        some ⟨b, edges.list a b ++ [o]⟩
      else (edges.byTo a).find? b := by
  unfold addEdge
  by_cases hself : requestedAssetId o.toOrder = offeredAssetId o.toOrder
  · rw [if_pos hself, if_neg]
    rintro ⟨rfl, rfl⟩
    exact hab hself
  · simp only [if_neg hself]
    unfold Edges.byTo
    rw [KeyedList.find?_set]
    by_cases ha : a = requestedAssetId o.toOrder
    · subst ha
      rw [if_pos rfl, Option.elim_some, KeyedList.find?_set]
      by_cases hb : b = offeredAssetId o.toOrder
      · subst hb
        rw [if_pos rfl, if_pos ⟨rfl, rfl⟩]
      · rw [if_neg hb, if_neg fun h => hb h.2.symm]
    · rw [if_neg ha, if_neg fun h => ha h.1.symm]

/-- What is found on an edge: nothing if it has no orders, and else its orders. -/
def OnEdge (book : List (OpenOrder now)) (a b : Str) (found : Option (EdgeOrders now)) : Prop :=
  found.elim [] EdgeOrders.orders = ordersFrom book a b ∧
    (found.isSome ↔ ordersFrom book a b ≠ [])

theorem onEdge_edgesOf (book : List (OpenOrder now)) (hab : a ≠ b) :
    OnEdge book a b (((edgesOf book).byTo a).find? b) := by
  induction book using List.reverseRecOn with
  | nil => exact ⟨rfl, ⟨fun h => (by cases h), fun h => absurd rfl h⟩⟩
  | append_singleton book o ih =>
      obtain ⟨horders, hsome⟩ := ih
      have hlist : (edgesOf book).list a b = ordersFrom book a b := horders
      rw [edgesOf, List.foldl_concat, find?_byTo_addEdge _ _ hab]
      by_cases hedge : requestedAssetId o.toOrder = a ∧ offeredAssetId o.toOrder = b
      · have hbook : ordersFrom (book ++ [o]) a b = ordersFrom book a b ++ [o] := by
          rw [ordersFrom, List.filter_append, List.filter_singleton, decide_eq_true hedge]
          rfl
        rw [if_pos hedge, OnEdge, hbook]
        exact ⟨congrArg (· ++ [o]) hlist, by simp⟩
      · have hbook : ordersFrom (book ++ [o]) a b = ordersFrom book a b := by
          rw [ordersFrom, List.filter_append, List.filter_singleton, decide_eq_false hedge]
          exact List.append_nil _
        rw [if_neg hedge, OnEdge, hbook]
        exact ⟨horders, hsome⟩

/-- An edge of the book holds the orders that ask for the one asset and offer the other,
and no others. -/
theorem mem_edge (hab : a ≠ b) :
    o ∈ (edgesOf book).edge a b ↔ o ∈ ordersFrom book a b := by
  have hlist : (edgesOf book).list a b = ordersFrom book a b := (onEdge_edgesOf book hab).1
  rw [Edges.edge, List.mem_insertionSort, hlist]

theorem mem_targets (hab : a ≠ b) :
    b ∈ (edgesOf book).targets a ↔ ordersFrom book a b ≠ [] := by
  rw [← (onEdge_edgesOf book hab).2, Option.isSome_iff_ne_none, ne_eq, KeyedList.find?_eq_none,
    not_not, Edges.targets]

theorem mem_assets_of_mem_targets (h : b ∈ edges.targets a) : a ∈ edges.assets := by
  by_contra hnone
  have hempty : edges.byTo a = .empty := by
    rw [Edges.byTo, KeyedList.find?_eq_none.mpr hnone]
    rfl
  rw [Edges.targets, hempty] at h
  cases h

theorem mem_slice {α : Type} {k : ℤ} {xs : List α} {x : α} (h : x ∈ slice k xs) : x ∈ xs :=
  List.mem_of_mem_take h

/-- The edge of an order the enumeration picked is traversed from its source. -/
theorem mem_targets_of_mem_slice {k : ℤ} (hab : a ≠ b)
    (h : o ∈ slice k ((edgesOf book).edge a b)) : b ∈ (edgesOf book).targets a := by
  rw [mem_targets hab]
  exact List.ne_nil_of_mem ((mem_edge hab).mp (mem_slice h))

/-- The cycles of two orders that are tried, each once: that is what the comparison of the
two assets is for. -/
theorem mem_directCycles {k : ℤ} {cycle : List (OpenOrder now)} :
    cycle ∈ directCycles k (edgesOf book) ↔ ∃ a b o₁ o₂, a < b ∧ cycle = [o₁, o₂] ∧
      o₁ ∈ slice k ((edgesOf book).edge a b) ∧ o₂ ∈ slice k ((edgesOf book).edge b a) := by
  simp only [directCycles, List.mem_flatMap]
  constructor
  · rintro ⟨a, -, b, -, h⟩
    split at h
    · cases h
    · next hlt =>
      simp only [List.mem_flatMap, List.mem_map] at h
      obtain ⟨o₁, h₁, o₂, h₂, rfl⟩ := h
      exact ⟨a, b, o₁, o₂, not_le.mp hlt, rfl, h₁, h₂⟩
  · rintro ⟨a, b, o₁, o₂, hlt, rfl, h₁, h₂⟩
    have htarget := mem_targets_of_mem_slice hlt.ne h₁
    refine ⟨a, mem_assets_of_mem_targets htarget, b, htarget, ?_⟩
    rw [if_neg (not_le.mpr hlt), List.mem_flatMap]
    exact ⟨o₁, h₁, List.mem_map_of_mem h₂⟩

/-- The cycles of three orders that are tried.  The least of the three assets is where a
cycle is begun, so that no rotation of it is tried again. -/
theorem mem_triangularCycles {k : ℤ} {cycle : List (OpenOrder now)} :
    cycle ∈ triangularCycles k (edgesOf book) ↔ ∃ a b c o₁ o₂ o₃, a < b ∧ a < c ∧ c ≠ b ∧
      cycle = [o₁, o₂, o₃] ∧ o₁ ∈ slice k ((edgesOf book).edge a b) ∧
      o₂ ∈ slice k ((edgesOf book).edge b c) ∧ o₃ ∈ slice k ((edgesOf book).edge c a) := by
  simp only [triangularCycles, List.mem_flatMap]
  constructor
  · rintro ⟨a, -, b, -, h⟩
    split at h
    · cases h
    · next hab =>
      rw [List.mem_flatMap] at h
      obtain ⟨c, -, h⟩ := h
      split at h
      · cases h
      · next hc =>
        push Not at hc
        split at h
        · cases h
        · simp only [List.mem_flatMap, List.mem_map] at h
          obtain ⟨o₁, h₁, o₂, h₂, o₃, h₃, rfl⟩ := h
          exact ⟨a, b, c, o₁, o₂, o₃, not_le.mp hab, hc.1, hc.2, rfl, h₁, h₂, h₃⟩
  · rintro ⟨a, b, c, o₁, o₂, o₃, hab, hac, hcb, rfl, h₁, h₂, h₃⟩
    have htarget₁ := mem_targets_of_mem_slice hab.ne h₁
    have htarget₂ := mem_targets_of_mem_slice hcb.symm h₂
    have hedge : ((edgesOf book).edge c a).length ≠ 0 :=
      (List.length_pos_of_mem (mem_slice h₃)).ne'
    refine ⟨a, mem_assets_of_mem_targets htarget₁, b, htarget₁, ?_⟩
    rw [if_neg (not_le.mpr hab), List.mem_flatMap]
    refine ⟨c, htarget₂, ?_⟩
    rw [if_neg (by push Not; exact ⟨hac, hcb⟩), if_neg hedge, List.mem_flatMap]
    refine ⟨o₁, h₁, ?_⟩
    rw [List.mem_flatMap]
    exact ⟨o₂, h₂, List.mem_map_of_mem h₃⟩

/-- The cycles the scan considers, in the order it does. -/
def enumerated (params : ArbitrageParams) (book : List (OpenOrder now)) :
    List (List (OpenOrder now)) :=
  directCycles params.directTopK (edgesOf book) ++
    triangularCycles params.triangularTopK (edgesOf book)

/-- They are closed cycles of orders of the book. -/
theorem closed_of_mem_enumerated {params : ArbitrageParams} {cycle : List (OpenOrder now)}
    (h : cycle ∈ enumerated params book) : ClosedCycle cycle ∧ ∀ o ∈ cycle, o ∈ book := by
  have hedge : ∀ {k : ℤ} {a b : Str} {o : OpenOrder now}, a ≠ b →
      o ∈ slice k ((edgesOf book).edge a b) →
      o ∈ book ∧ requestedAssetId o.toOrder = a ∧ offeredAssetId o.toOrder = b :=
    fun hab ho => mem_ordersFrom.mp ((mem_edge hab).mp (mem_slice ho))
  rcases List.mem_append.mp h with h | h
  · obtain ⟨a, b, o₁, o₂, hab, rfl, h₁, h₂⟩ := mem_directCycles.mp h
    obtain ⟨hbook₁, rfl, rfl⟩ := hedge hab.ne h₁
    obtain ⟨hbook₂, hreq₂, hoff₂⟩ := hedge hab.ne' h₂
    refine ⟨.direct hreq₂.symm hoff₂ ?_, ?_⟩
    · rw [hreq₂]
      simpa using hab.ne
    · simp [hbook₁, hbook₂]
  · obtain ⟨a, b, c, o₁, o₂, o₃, hab, hac, hcb, rfl, h₁, h₂, h₃⟩ := mem_triangularCycles.mp h
    obtain ⟨hbook₁, rfl, rfl⟩ := hedge hab.ne h₁
    obtain ⟨hbook₂, hreq₂, rfl⟩ := hedge hcb.symm h₂
    obtain ⟨hbook₃, hreq₃, hoff₃⟩ := hedge hac.ne' h₃
    refine ⟨.triangular hreq₂.symm hreq₃.symm hoff₃ ?_, ?_⟩
    · rw [hreq₂, hreq₃]
      simp [hab.ne, hac.ne, hcb.symm]
    · simp [hbook₁, hbook₂, hbook₃]

end

/-!
## The cycles found

The fold over the enumerated cycles, with its invariant: what is kept is right, and
nothing that should be kept is missing under its id.
-/

/-- After the cycles of `cycles` were considered. -/
structure FoundAmong (fee : ℤ) (cycles : List (List (OpenOrder now))) (found : Found now) :
    Prop where
  sound : ∀ entry ∈ found.entries, entry.orders ∈ cycles ∧ entry.id = cycleId entry.orders ∧
    evaluateCycle entry.orders fee = some entry.ev
  complete : ∀ cycle ∈ cycles, rateProductPositive cycle = true →
    (evaluateCycle cycle fee).isSome → (found.find? (cycleId cycle)).isSome

namespace FoundAmong

variable {fee : ℤ} {cycles : List (List (OpenOrder now))} {found : Found now}

theorem empty : FoundAmong fee [] (.empty : Found now) :=
  ⟨fun _ h => (by cases h), fun _ h => (by cases h)⟩

/-- A cycle that changes nothing: it is not to be found, or was already. -/
theorem skip (h : FoundAmong fee cycles found) {cycle : List (OpenOrder now)}
    (hskip : rateProductPositive cycle = true → (evaluateCycle cycle fee).isSome →
      (found.find? (cycleId cycle)).isSome) : FoundAmong fee (cycles ++ [cycle]) found := by
  refine ⟨?_, ?_⟩
  · intro entry hentry
    obtain ⟨hmem, hrest⟩ := h.sound entry hentry
    exact ⟨List.mem_append_left _ hmem, hrest⟩
  · intro other hother
    rcases List.mem_append.mp hother with hold | hnew
    · exact h.complete other hold
    · rw [List.mem_singleton.mp hnew]
      exact hskip

/-- **Step lemma.** -/
theorem step (h : FoundAmong fee cycles found) (cycle : List (OpenOrder now)) :
    FoundAmong fee (cycles ++ [cycle]) (consider fee found cycle) := by
  unfold consider
  split
  · next hrate =>
    refine h.skip fun hpositive => ?_
    rw [hrate] at hpositive
    cases hpositive
  · split
    · next hfound => exact h.skip fun _ _ => hfound
    · split
      · next hnone =>
        refine h.skip fun _ hsome => ?_
        rw [hnone] at hsome
        cases hsome
      · next ev hev =>
        refine ⟨?_, ?_⟩
        · intro entry hentry
          rcases KeyedList.mem_written.mp hentry with rfl | ⟨hold, -⟩
          · exact ⟨List.mem_append_right _ List.mem_cons_self, rfl, hev⟩
          · obtain ⟨hmem, hrest⟩ := h.sound entry hold
            exact ⟨List.mem_append_left _ hmem, hrest⟩
        · intro other hother hrate hsome
          rw [KeyedList.find?_set]
          split
          · rfl
          · next hne =>
            rcases List.mem_append.mp hother with hold | hnew
            · exact h.complete other hold hrate hsome
            · exact absurd (congrArg cycleId (List.mem_singleton.mp hnew)) hne

/-- **The whole enumeration.** -/
theorem foldl (fee : ℤ) (cycles : List (List (OpenOrder now))) :
    FoundAmong fee cycles (cycles.foldl (consider fee) .empty) := by
  induction cycles using List.reverseRecOn with
  | nil => exact .empty
  | append_singleton cycles cycle ih =>
      rw [List.foldl_concat]
      exact ih.step cycle

end FoundAmong

/-- What is found is an enumerated cycle with its evaluation, and an enumerated cycle that
has one, and a rate, is found. -/
theorem foundAmong_foundCycles (params : ArbitrageParams) (orders : List Order) :
    FoundAmong params.feeEstimateLovelace
      (enumerated params (openOrders params.nowPosixMs orders)) (foundCycles params orders) :=
  FoundAmong.foldl _ _

/-!
## Opportunities

What is returned, in terms of the rows of the book alone.
-/

/-- **An opportunity that funds itself**, over the orders of `cycle`. -/
structure ExecutableOpportunity (cycle : List (OpenOrder now))
    (opportunity : ArbitrageOpportunity) : Prop where
  distinctOrders : cycle.Nodup
  legs : List.Forall₂ CycleLegOf cycle opportunity.legs
  partialTerms : List.Forall₂ (fun (o : OpenOrder now) leg => ∀ take, leg.takeAmount = some take →
    o.PartialTerms take leg.payAmount leg.receiveAmount) cycle opportunity.legs
  length : opportunity.legs.length = 2 ∨ opportunity.legs.length = 3
  distinctAssets : (opportunity.legs.map ArbitrageLeg.payAsset).Nodup
  closed : opportunity.legs.map ArbitrageLeg.receiveAsset =
    (opportunity.legs.map ArbitrageLeg.payAsset).rotate 1
  funded : opportunity.legs.IsChain PaidBy
  noLoss : ∀ u, 0 ≤ netOf u opportunity.legs
  gain : ∃ u, 0 < netOf u opportunity.legs
  /-- What is reported are the nets that are not zero. -/
  net : ∀ u n, (u, n) ∈ opportunity.net ↔ n ≠ 0 ∧ netOf u opportunity.legs = n

/-- **A riskless sizing of a closed cycle can be executed.** -/
theorem executable_toOpportunity {cycle : List (OpenOrder now)} {ev : Evaluated} {fee : ℤ}
    (hclosed : ClosedCycle cycle) (hev : evaluateCycle cycle fee = some ev) :
    ∃ r, ExecutableOpportunity (cycle.rotate r) (toOpportunity cycle ev fee) := by
  obtain ⟨⟨r, hsize, hriskless⟩, hnets, -⟩ := evaluateCycle_eq_some hev
  have hrotated := hclosed.rotate r
  obtain ⟨hlegs, hfunded⟩ := sizeRotation_spec hsize
  obtain ⟨hnoLoss, hgain⟩ := isRiskless_netsOf.mp hriskless
  have hpay : ev.legs.map ArbitrageLeg.payAsset =
      (cycle.rotate r).map fun o => requestedAssetId o.toOrder :=
    (map_eq_of_forall₂ (hlegs.imp fun _ _ h => h.payAsset.symm)).symm
  have hreceive : ev.legs.map ArbitrageLeg.receiveAsset =
      (cycle.rotate r).map fun o => offeredAssetId o.toOrder :=
    (map_eq_of_forall₂ (hlegs.imp fun _ _ h => h.receiveAsset.symm)).symm
  refine ⟨r, hrotated.nodup, hlegs, hlegs.imp fun _ _ h _ => h.fills.partialTerms, ?_, ?_, ?_,
    hfunded, hnoLoss, hgain, ?_⟩
  · show ev.legs.length = 2 ∨ ev.legs.length = 3
    rw [← hlegs.length_eq]
    exact hrotated.length
  · show (ev.legs.map ArbitrageLeg.payAsset).Nodup
    rw [hpay]
    exact hrotated.distinct
  · show ev.legs.map ArbitrageLeg.receiveAsset = (ev.legs.map ArbitrageLeg.payAsset).rotate 1
    rw [hpay, hreceive]
    exact hrotated.closed
  · intro u n
    show (u, n) ∈ ev.nets.filter _ ↔ _
    rw [List.mem_filter, decide_eq_true_eq, hnets, and_comm]
    exact and_congr_right fun hn => mem_netsOf hn

variable {params : ArbitrageParams} {orders : List Order}

/-- Where an opportunity comes from: a closed cycle of the book, and its best
sizing. -/
theorem exists_cycle_of_opportunity {opportunity : ArbitrageOpportunity}
    (h : opportunity ∈ (findArbitrage orders params).opportunities) :
    ∃ (cycle : List (OpenOrder params.nowPosixMs)) (ev : Evaluated), ClosedCycle cycle ∧
      (∀ o ∈ cycle, o.toOrder ∈ orders) ∧
      evaluateCycle cycle params.feeEstimateLovelace = some ev ∧
      opportunity = toOpportunity cycle ev params.feeEstimateLovelace := by
  obtain ⟨entry, hentry, rfl⟩ := List.mem_map.mp h
  have hfound : entry ∈ (foundCycles params orders).entries :=
    (List.perm_insertionSort _ _).mem_iff.mp (mem_slice hentry)
  obtain ⟨henumerated, -, hev⟩ := (foundAmong_foundCycles params orders).sound entry hfound
  obtain ⟨hclosed, hbook⟩ := closed_of_mem_enumerated henumerated
  exact ⟨entry.orders, entry.ev, hclosed, fun o ho => mem_openOrders.mp (hbook o ho), hev, rfl⟩

/-- **Opportunities are executable.** Every opportunity a scan reports is a closed cycle
of two or three distinct orders of the book, each taken whole on its terms or in a part
its owner allows at the price the validator asks for.  Each leg is paid for by the one
before it, no asset is lost, one is gained, and what is reported as the net are the
differences. -/
theorem opportunity_executable {opportunity : ArbitrageOpportunity}
    (h : opportunity ∈ (findArbitrage orders params).opportunities) :
    ∃ cycle : List (OpenOrder params.nowPosixMs), (∀ o ∈ cycle, o.toOrder ∈ orders) ∧
      ExecutableOpportunity cycle opportunity := by
  obtain ⟨cycle, ev, hclosed, hbook, hev, rfl⟩ := exists_cycle_of_opportunity h
  obtain ⟨r, hexecutable⟩ := executable_toOpportunity hclosed hev
  exact ⟨cycle.rotate r, fun o ho => hbook o (List.mem_rotate.mp ho), hexecutable⟩

namespace SampleBook

/-- A crossed pair: ten tokens are sold for 20, and four bought for 12. -/
def crossed : List Order :=
  [row "01".toList token ADA 10 20 true, row "02".toList ADA token 12 4 false]

def scan : ArbitrageParams := { nowPosixMs := .finite 0 }

end SampleBook

open SampleBook in
/-- The four that are sold for 12 buy six of the ten. -/
theorem opportunity_executable_sample :
    ∃ opportunity ∈ (findArbitrage crossed scan).opportunities,
      (opportunity.legs.map fun leg => (leg.takeAmount, leg.payAmount, leg.receiveAmount)) =
        [(none, 4, 12), (some 6, 12, 6)] ∧
      ∃ cycle : List (OpenOrder scan.nowPosixMs), (∀ o ∈ cycle, o.toOrder ∈ crossed) ∧
        ExecutableOpportunity cycle opportunity := by
  have hfound : ((findArbitrage crossed scan).opportunities.map fun opportunity =>
      opportunity.legs.map fun leg => (leg.takeAmount, leg.payAmount, leg.receiveAmount)) =
        [[(none, 4, 12), (some 6, 12, 6)]] := by decide
  obtain ⟨opportunity, hmem, hlegs⟩ :=
    List.mem_map.mp (hfound.symm ▸ List.mem_singleton_self _)
  exact ⟨opportunity, hmem, hlegs, opportunity_executable hmem⟩

end BeaconDex.Backend
