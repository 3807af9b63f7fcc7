import BeaconDex.BeaconFlow

/-!
# Settling a batch

The validators say what a transaction must not do.  This file says how to
satisfy them: a transaction that gives every order it takes its own tagged
payment, locks the rest of each partially taken order again in the order of the
inputs, and burns the beacons of the others is accepted (`Settles.runOrder_accepted`,
`Settles.runBeacon_accepted`) and keeps the beacons balanced (`Settles.conserved`).

Nothing here depends on who assembles the transaction.

## A batch as a list of legs

`Settles` says which inputs, outputs and redeemers a list of legs accounts for, in the
order of the inputs.  The rules compare lists that a transaction yields: the outputs
with a certain tag, the inputs that are partly taken, the outputs that bear beacons.
Each of them is computed from the legs once, and acceptance is then a comparison of what
the legs say with what the rules ask.
-/

namespace BeaconDex

open Library

variable {d : Deployment} {tx : Transaction}

/-!
## Legs

What is asked of a leg is asked of its own terms only: that it pays and continues its
order as the rules say, whatever else is in the transaction.
-/

/-- What is taken from a partially taken order, and what is locked again. -/
structure Part where
  takeAmount : ℤ
  required : ℤ
  continuation : Output

/-- One order of a batch, with the outputs it gets: the payment that is tagged with it,
and the continuation if it is taken in part. -/
structure Leg where
  input : Input
  datum : OrderDatum
  names : List AssetName
  payment : Output
  /-- Absent when the order is taken whole. -/
  part : Option Part

namespace Leg

variable (leg : Leg)

/-- The order it spends. -/
def ref : OutputReference := leg.input.outputReference

/-- The redeemer it spends it with. -/
def redeemer : OrderRedeemer :=
  match leg.part with
  | none => .takeOrder
  | some part => .takeOrderPartial part.takeAmount

/-- What it adds to the outputs: the payment, and a continuation where it takes a part. -/
def outputs : List Output := leg.payment :: (leg.part.map Part.continuation).toList

/-- The beacons that end with the leg. -/
def burns : List AssetName := if leg.part.isNone then leg.names else []

end Leg

/-- What the rules ask of the terms of a part. -/
structure Part.Sound (leg : Leg) (part : Part) : Prop where
  allowed : leg.datum.allowPartialFill = true
  takeAmount_pos : 0 < part.takeAmount
  takeAmount_lt : part.takeAmount < leg.datum.offerAmount
  required_eq : requiredPayment part.takeAmount leg.datum.askAmount leg.datum.offerAmount =
    some part.required
  required_lt : part.required < leg.datum.askAmount
  paymentValue : takePartialPaymentOk leg.datum part.required leg.payment.value = true
  isContinuation : IsContinuation leg.input.output leg.datum part.takeAmount part.required
    part.continuation

/-- **A leg that is right in itself**: a well-formed order, a payment tagged with
it that holds what is owed, and sound terms if it is a part. -/
structure Leg.Sound (d : Deployment) (leg : Leg) : Prop where
  order : ∃ ownerKeyHash, WellFormedOrder d.sha2_256 d.orderScriptHash d.policyId leg.input.output
    leg.datum ownerKeyHash leg.names
  tag : leg.payment.datum = .inlineDatum (toData (PaymentTag.mk leg.ref))
  paymentAddress : leg.payment.address = leg.datum.paymentAddress
  beaconFree : Assets.tokens leg.payment.value d.policyId = 0
  full : leg.part = none →
    takePaymentOk leg.datum (depositOf leg.datum leg.input.output.value) leg.payment.value = true
  part : ∀ part, leg.part = some part → part.Sound leg

/-- **`tx` settles `legs`.**  Its order inputs are the legs, in this order; its
outputs are the legs' in the same order, then change; the burn is that of the
whole takes. -/
structure Settles (d : Deployment) (legs : List Leg) (tx : Transaction) : Prop where
  distinct : (tx.inputs.map Input.outputReference).Nodup
  inputs : (tx.inputs.filter fun input => sitsAt d.orderScriptHash input.output) =
    legs.map Leg.input
  others : ∀ input ∈ tx.inputs, sitsAt d.orderScriptHash input.output = false →
    Assets.tokens input.output.value d.policyId = 0
  redeemers : ∀ leg ∈ legs, spendRedeemer tx leg.ref = some leg.redeemer
  outputs : ∃ change, tx.outputs = legs.flatMap Leg.outputs ++ change ∧ ∀ out ∈ change,
    Assets.tokens out.value d.policyId = 0 ∧ ∀ raw, out.datum ≠ .inlineDatum raw
  burnt : Assets.tokens tx.mint d.policyId =
    -Assets.tokens (oneOfEach d.policyId (legs.flatMap Leg.burns)) d.policyId
  burnRedeemer : legs.flatMap Leg.burns ≠ [] →
    (tx.redeemers.lookup (.mint d.policyId)).bind ofData = some BeaconRedeemer.burnBeacons
  expiration : ∀ leg ∈ legs, expirationOk leg.datum.expiration tx = true

/-!
## The lists the rules compare

Each rule filters the outputs or the inputs of the whole transaction.  On a transaction
that settles legs every such list is a list over the legs: tags single out payments,
beacons single out continuations, and both lists are in the order of the legs.
-/

/-- The partially taken orders, each with its continuation. -/
def partialLegs (legs : List Leg) : List (OutputReference × Output) :=
  legs.filterMap fun leg => leg.part.map fun part => (leg.ref, part.continuation)

namespace Leg.Sound

variable {leg : Leg}

/-- A payment bears no beacons, so it is not counted among the continuations. -/
theorem payment_bears (h : leg.Sound d) : bearsBeacons d.policyId leg.payment = false := by
  rw [Bool.eq_false_iff, ne_eq, bearsBeacons_eq_true, not_not]
  exact h.beaconFree

/-- A continuation has the beacons of its order, all of them. -/
theorem continuation_tokens (h : leg.Sound d) {part : Part} (hpart : leg.part = some part) :
    Assets.tokens part.continuation.value d.policyId =
      Assets.tokens leg.input.output.value d.policyId := by
  obtain ⟨owner, hwf⟩ := h.order
  rw [continuation_value (h.part part hpart).isContinuation, Assets.tokens_add, AssetClass.amount,
    Assets.tokens_fromAsset_of_ne hwf.offer_policy.symm, add_zero]

/-- So it is counted. -/
theorem continuation_bears (h : leg.Sound d) {part : Part} (hpart : leg.part = some part) :
    bearsBeacons d.policyId part.continuation = true := by
  obtain ⟨owner, hwf⟩ := h.order
  rw [bearsBeacons_eq_true, h.continuation_tokens hpart]
  exact hwf.tokens_ne_zero d.policyId_ne_ada

/-- The continuation is the one output of a leg that bears beacons. -/
theorem filter_bearsBeacons (h : leg.Sound d) :
    leg.outputs.filter (bearsBeacons d.policyId) = (leg.part.map Part.continuation).toList := by
  rw [Leg.outputs, List.filter_cons_of_neg (by simp [h.payment_bears])]
  cases hpart : leg.part with
  | none => rfl
  | some part =>
      rw [Option.map_some, Option.toList_some,
        List.filter_cons_of_pos (h.continuation_bears hpart), List.filter_nil]

/-- A payment has the tag of its own order. -/
theorem hasPaymentTag_payment (h : leg.Sound d) (ref : OutputReference) :
    hasPaymentTag ref leg.payment = true ↔ leg.ref = ref := by
  rw [hasPaymentTag_eq_true, h.tag, Datum.inlineDatum.injEq, toData_inj, PaymentTag.mk.injEq]

/-- A continuation has no tag, its datum being that of an order. -/
theorem hasPaymentTag_continuation (h : leg.Sound d) {part : Part} (hpart : leg.part = some part)
    (ref : OutputReference) : hasPaymentTag ref part.continuation = false := by
  rw [hasPaymentTag, (h.part part hpart).isContinuation.datum]
  simp only [ofData_paymentTag_toData_orderDatum]

/-- Only the payment of a leg is tagged, with the leg's own reference. -/
theorem filter_hasPaymentTag (h : leg.Sound d) (ref : OutputReference) :
    leg.outputs.filter (hasPaymentTag ref) = if leg.ref = ref then [leg.payment] else [] := by
  have hrest : ((leg.part.map Part.continuation).toList).filter (hasPaymentTag ref) = [] := by
    cases hpart : leg.part with
    | none => rfl
    | some part => simp [h.hasPaymentTag_continuation hpart]
  by_cases href : leg.ref = ref
  · rw [Leg.outputs, List.filter_cons_of_pos ((h.hasPaymentTag_payment ref).mpr href), hrest,
      if_pos href]
  · rw [Leg.outputs, List.filter_cons_of_neg fun h' => href ((h.hasPaymentTag_payment ref).mp h'),
      hrest, if_neg href]

/-- A leg keeps its beacons or burns them. -/
theorem balance (h : leg.Sound d) :
    (leg.outputs.map fun out => Assets.tokens out.value d.policyId).sum +
      Assets.tokens (oneOfEach d.policyId leg.burns) d.policyId =
    Assets.tokens leg.input.output.value d.policyId := by
  obtain ⟨owner, hwf⟩ := h.order
  rw [Leg.outputs, List.map_cons, List.sum_cons, h.beaconFree, zero_add, Leg.burns]
  cases hpart : leg.part with
  | none =>
      rw [Option.map_none, Option.toList_none, List.map_nil, List.sum_nil, zero_add,
        Option.isNone_none, if_pos rfl, hwf.tokens_eq d.policyId_ne_ada]
  | some part =>
      rw [Option.map_some, Option.toList_some, List.map_singleton, List.sum_singleton,
        h.continuation_tokens hpart, Option.isNone_some, if_neg (by simp)]
      exact add_zero _

end Leg.Sound

namespace Settles

variable {legs : List Leg} {leg : Leg}

theorem mem_inputs (h : Settles d legs tx) (hleg : leg ∈ legs) :
    leg.input ∈ tx.inputs ∧ sitsAt d.orderScriptHash leg.input.output = true := by
  have hmem : leg.input ∈ legs.map Leg.input := List.mem_map_of_mem hleg
  rw [← h.inputs, List.mem_filter] at hmem
  exact hmem

/-- Every order input is one of the legs. -/
theorem exists_leg (h : Settles d legs tx) {input : Input} (hinput : input ∈ tx.inputs)
    (hsits : sitsAt d.orderScriptHash input.output = true) : ∃ leg ∈ legs, leg.input = input := by
  have hmem : input ∈ legs.map Leg.input := h.inputs ▸ List.mem_filter.mpr ⟨hinput, hsits⟩
  exact List.mem_map.mp hmem

/-- No order is settled twice. -/
theorem refs_nodup (h : Settles d legs tx) : (legs.map Leg.ref).Nodup := by
  have hsub : ((legs.map Leg.input).map Input.outputReference).Sublist
      (tx.inputs.map Input.outputReference) := by
    rw [← h.inputs]
    exact List.Sublist.map _ List.filter_sublist
  rw [List.map_map] at hsub
  exact h.distinct.sublist hsub

theorem spendRedeemer_leg (h : Settles d legs tx) (hleg : leg ∈ legs) :
    spendRedeemer tx leg.input.outputReference = some leg.redeemer :=
  h.redeemers leg hleg

/-- The inputs that are partly taken are those of the legs with a part. -/
theorem isPartialTake_leg (h : Settles d legs tx) (hleg : leg ∈ legs) :
    isPartialTake tx d.orderScriptHash leg.input = leg.part.isSome := by
  rw [isPartialTake, (h.mem_inputs hleg).2, h.spendRedeemer_leg hleg, Bool.true_and, Leg.redeemer]
  cases leg.part <;> rfl

/-- S is the references of the partial legs. -/
theorem partialTakeRefs_eq (h : Settles d legs tx) :
    partialTakeRefs tx d.orderScriptHash = some ((partialLegs legs).map Prod.fst) := by
  rw [partialTakeRefs_of_redeemers]
  · -- only the order inputs matter, which are the legs
    have hsits : tx.inputs.filter (isPartialTake tx d.orderScriptHash) =
        (legs.map Leg.input).filter (isPartialTake tx d.orderScriptHash) := by
      rw [← h.inputs, List.filter_filter]
      apply List.filter_congr
      intro input _
      rw [isPartialTake]
      cases sitsAt d.orderScriptHash input.output <;> simp
    -- and of the legs those with a part
    rw [hsits, partialLegs, List.map_filterMap, List.filter_map, List.map_map, Option.some.injEq,
      ← List.filterMap_eq_map, List.filterMap_filter]
    apply List.filterMap_congr
    intro leg hleg
    rw [Function.comp_apply, h.isPartialTake_leg hleg]
    cases leg.part <;> rfl
  · intro input hinput hsits
    obtain ⟨leg, hleg, rfl⟩ := h.exists_leg hinput hsits
    rw [h.spendRedeemer_leg hleg]
    rfl

/-- C is their continuations. -/
theorem beaconBearingOutputs_eq (h : Settles d legs tx) (hsound : ∀ leg ∈ legs, leg.Sound d) :
    beaconBearingOutputs tx d.policyId = (partialLegs legs).map Prod.snd := by
  obtain ⟨change, houtputs, hchange⟩ := h.outputs
  have hnone : change.filter (bearsBeacons d.policyId) = [] := by
    rw [List.filter_eq_nil_iff]
    intro out hout
    rw [bearsBeacons_eq_true, not_not]
    exact (hchange out hout).1
  rw [beaconBearingOutputs, houtputs, List.filter_append, hnone, List.append_nil,
    List.filter_flatMap, partialLegs, List.map_filterMap, List.filterMap_eq_flatMap_toList]
  apply List.flatMap_congr
  intro leg hleg
  rw [(hsound leg hleg).filter_bearsBeacons, Option.map_map]
  rfl

/-- The payment of a leg is the one output tagged with it. -/
theorem taggedPayment_eq (h : Settles d legs tx) (hsound : ∀ leg ∈ legs, leg.Sound d)
    (hleg : leg ∈ legs) : taggedPayment tx leg.ref = some leg.payment := by
  obtain ⟨change, houtputs, hchange⟩ := h.outputs
  -- change is never tagged, and of the legs only this one has this reference
  have hnone : change.filter (hasPaymentTag leg.ref) = [] := by
    rw [List.filter_eq_nil_iff]
    intro out hout
    rw [hasPaymentTag_eq_true]
    exact (hchange out hout).2 _
  have hown : legs.filter (fun other => other.ref = leg.ref) = [leg] :=
    filter_key_eq_singleton h.refs_nodup hleg fun other _ => decide_eq_true_iff
  rw [taggedPayment_eq_some, houtputs, List.filter_append, hnone, List.append_nil,
    List.filter_flatMap]
  calc legs.flatMap (fun other => other.outputs.filter (hasPaymentTag leg.ref))
      = legs.flatMap (fun other => if other.ref = leg.ref then [other.payment] else []) :=
        List.flatMap_congr fun other hother => (hsound other hother).filter_hasPaymentTag _
    _ = (legs.filter fun other => other.ref = leg.ref).map Leg.payment := by
        rw [← List.filterMap_eq_map, List.filterMap_filter, List.filterMap_eq_flatMap_toList]
        apply List.flatMap_congr
        intro other _
        by_cases href : other.ref = leg.ref <;> simp [href]
    _ = [leg.payment] := by rw [hown, List.map_singleton]

/-- A partial leg finds its own continuation at its rank. -/
theorem rank (h : Settles d legs tx) (hleg : leg ∈ legs) {part : Part}
    (hpart : leg.part = some part) :
    ∃ rank, ((partialLegs legs).map Prod.fst).idxOf? leg.ref = some rank ∧
      ((partialLegs legs).map Prod.snd)[rank]? = some part.continuation := by
  have hmem : (leg.ref, part.continuation) ∈ partialLegs legs :=
    List.mem_filterMap.mpr ⟨leg, hleg, by rw [hpart]; rfl⟩
  have hkeys : ((partialLegs legs).map Prod.fst).Nodup := by
    rw [partialTakeRefs_eq_some h.partialTakeRefs_eq]
    exact partialInputs_nodup h.distinct
  refine (pinned_iff_mem_zip hkeys).mpr ?_
  rwa [← List.zip_of_prod rfl rfl]

/-!
## Acceptance

The rules run on the lists that were computed: every order is approved, and so is the
burn.
-/

/-- **Every leg is accepted.** -/
theorem runOrder_accepted (h : Settles d legs tx) (hsound : ∀ leg ∈ legs, leg.Sound d)
    (hleg : leg ∈ legs) : runOrder tx leg.input = some true := by
  obtain ⟨hinput, hsits⟩ := h.mem_inputs hleg
  have hleg' := hsound leg hleg
  obtain ⟨owner, hwf⟩ := hleg'.order
  have hpolicy : beaconBearingOutputs tx leg.datum.beaconPolicyId =
      (partialLegs legs).map Prod.snd := by
    rw [hwf.policy, h.beaconBearingOutputs_eq hsound]
  have haccounting : (beaconBearingOutputs tx leg.datum.beaconPolicyId).length =
      ((partialLegs legs).map Prod.fst).length := by
    rw [hpolicy, List.length_map, List.length_map]
  have hred := h.spendRedeemer_leg hleg
  refine (runOrder_eq_some_true h.distinct hinput hsits).mpr
    ⟨leg.datum, orderDatum_of_inline hwf.inline, ?_⟩
  cases hpart : leg.part with
  | none =>
      refine .taken leg.payment ((partialLegs legs).map Prod.fst)
        (by rw [hred, Leg.redeemer, hpart]) ?_
      exact ⟨hwf.version, h.taggedPayment_eq hsound hleg, hleg'.paymentAddress, hleg'.full hpart,
        h.partialTakeRefs_eq, haccounting, h.expiration leg hleg⟩
  | some part =>
      have hsoundPart := hleg'.part part hpart
      obtain ⟨rank, hrank, hcontinuation⟩ := h.rank hleg hpart
      refine .partiallyTaken part.takeAmount part.required leg.payment
        ((partialLegs legs).map Prod.fst) rank part.continuation
        (by rw [hred, Leg.redeemer, hpart]) ?_
      exact ⟨hwf.version, hsoundPart.allowed, hsoundPart.takeAmount_pos, hsoundPart.takeAmount_lt,
        hsoundPart.required_eq, hsoundPart.required_lt, h.taggedPayment_eq hsound hleg,
        hleg'.paymentAddress, hsoundPart.paymentValue, h.partialTakeRefs_eq, hrank, haccounting,
        by rw [hpolicy]; exact hcontinuation, hsoundPart.isContinuation, h.expiration leg hleg⟩

/-- What is burned are the beacons of the orders that are taken whole. -/
theorem burnt_apply (h : Settles d legs tx) (t : AssetName) :
    Assets.tokens tx.mint d.policyId t = -((legs.flatMap Leg.burns).count t : ℤ) := by
  rw [h.burnt, DFinsupp.neg_apply, tokens_oneOfEach_apply]

/-- **The burn is accepted** as soon as one order is taken whole. -/
theorem runBeacon_accepted (h : Settles d legs tx) (hburns : legs.flatMap Leg.burns ≠ []) :
    runBeacon d tx = some true := by
  obtain ⟨t, ht⟩ := List.exists_mem_of_ne_nil _ hburns
  have hne : Assets.tokens tx.mint d.policyId ≠ 0 := by
    intro hzero
    have happly := h.burnt_apply t
    rw [hzero, DFinsupp.zero_apply] at happly
    have := List.count_pos_iff.mpr ht
    omega
  rw [runBeacon, h.burnRedeemer hburns]
  simp only [Option.bind_some, beaconMint, Option.some.injEq, burnBeaconsOk, Bool.and_eq_true,
    Bool.not_eq_true', Assets.isEmpty_eq_false]
  refine ⟨hne, ?_⟩
  simp only [Assets.allPairs, decide_eq_true_eq]
  intro name hname
  have hnonzero := DFinsupp.mem_support_iff.mp hname
  rw [h.burnt_apply] at hnonzero ⊢
  omega

/-- **Beacons are conserved**, whatever the mix of legs. -/
theorem conserved (h : Settles d legs tx) (hsound : ∀ leg ∈ legs, leg.Sound d) :
    (tx.inputs.map fun input => Assets.tokens input.output.value d.policyId).sum +
      Assets.tokens tx.mint d.policyId =
    (tx.outputs.map fun out => Assets.tokens out.value d.policyId).sum := by
  have hinputs : (tx.inputs.map fun input => Assets.tokens input.output.value d.policyId).sum =
      (legs.map fun leg => Assets.tokens leg.input.output.value d.policyId).sum := by
    have hrest := sum_map_filter_of_eq_zero
      (p := fun input : Input => sitsAt d.orderScriptHash input.output = true)
      (f := fun input : Input => Assets.tokens input.output.value d.policyId) (l := tx.inputs)
      fun input hinput hnot => h.others input hinput (Bool.eq_false_iff.mpr hnot)
    simp only [Bool.decide_eq_true] at hrest
    rw [← hrest, h.inputs, List.map_map]
    rfl
  obtain ⟨change, houtputs, hchange⟩ := h.outputs
  have hzero : (change.map fun out => Assets.tokens out.value d.policyId).sum = 0 := by
    apply List.sum_eq_zero
    intro tokens htokens
    obtain ⟨out, hout, rfl⟩ := List.mem_map.mp htokens
    exact (hchange out hout).1
  have hlegs : ∀ legs : List Leg, (∀ leg ∈ legs, leg.Sound d) →
      ((legs.flatMap Leg.outputs).map fun out => Assets.tokens out.value d.policyId).sum +
        Assets.tokens (oneOfEach d.policyId (legs.flatMap Leg.burns)) d.policyId =
      (legs.map fun leg => Assets.tokens leg.input.output.value d.policyId).sum := by
    intro legs hsound
    induction legs with
    | nil => exact add_zero _
    | cons leg legs ih =>
        have ih := ih fun other hother => hsound other (List.mem_cons_of_mem _ hother)
        have hbalance := (hsound leg List.mem_cons_self).balance
        rw [List.flatMap_cons, List.flatMap_cons, List.map_append, List.sum_append, List.map_cons,
          List.sum_cons, oneOfEach_append, Assets.tokens_add, ← ih, ← hbalance]
        abel
  rw [hinputs, ← hlegs legs hsound, h.burnt, houtputs, List.map_append, List.sum_append, hzero]
  abel

end Settles

end BeaconDex
