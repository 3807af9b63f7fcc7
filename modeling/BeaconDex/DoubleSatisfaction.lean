import BeaconDex.BeaconFlow

/-!
# No double satisfaction

Two orders taken in one transaction never share an output.  A payment is found
by a tag that names its order; a continuation is found by rank within the
outputs of the policy its datum names.  `payment_injective` and
`continuation_injective` say that distinct inputs end up at distinct output
positions, and `no_double_satisfaction` adds that the two kinds of outputs never
meet and what the sellers receive in total.

Nothing is assumed about where the orders come from: they may be hand-made, name
any policy, and repeat each other's datums.

## Positions, not values

Two outputs of a transaction may be equal in all that can be said of them.  What must
not be shared is therefore a position in the list of outputs, and every statement below
gives a function to positions and says that it is injective.  The sums over the sellers
are then sums over disjoint sets of positions.
-/

namespace BeaconDex

open Library

variable {orderScriptHash : ScriptHash} {tx : Transaction}

/-!
## What an input is owed

By its datum and its redeemer: the whole ask with the deposit, or the rounded-up share
of the ask, at the seller's payment address.
-/

/-- Whether the input is an order taken in full or in part. -/
def isTaken (tx : Transaction) (orderScriptHash : ScriptHash) (input : Input) : Bool :=
  sitsAt orderScriptHash input.output &&
    match spendRedeemer tx input.outputReference with
    | some .takeOrder => true
    | some (.takeOrderPartial _) => true
    | _ => false

/-- The taken inputs, in input order. -/
def takenInputs (orderScriptHash : ScriptHash) (tx : Transaction) : List Input :=
  tx.inputs.filter (isTaken tx orderScriptHash)

/-- `out` sits where the order of `input` wants its payment, with a value its
rule accepts. -/
def PaymentFor (tx : Transaction) (input : Input) (out : Output) : Prop :=
  ∃ datum, orderDatum tx input = some datum ∧ out.address = datum.paymentAddress ∧
    ((spendRedeemer tx input.outputReference = some .takeOrder ∧
        takePaymentOk datum (depositOf datum input.output.value) out.value = true) ∨
      ∃ takeAmount required,
        spendRedeemer tx input.outputReference = some (.takeOrderPartial takeAmount) ∧
        requiredPayment takeAmount datum.askAmount datum.offerAmount = some required ∧
        takePartialPaymentOk datum required out.value = true)

/-- Where the order of the input wants its payment. -/
def paysTo (tx : Transaction) (address : Address) (input : Input) : Bool :=
  match orderDatum tx input with
  | some datum => datum.paymentAddress = address
  | none => false

/-- What the seller is owed of `asset` for a taken input: the ask (or the part
of it required) and, on a full take, the deposit. -/
def owed (tx : Transaction) (asset : AssetClass) (input : Input) : ℤ :=
  match orderDatum tx input, spendRedeemer tx input.outputReference with
  | some datum, some .takeOrder =>
      (if asset = datum.ask then datum.askAmount else 0) +
        (if isAda asset then depositOf datum input.output.value else 0)
  | some datum, some (.takeOrderPartial takeAmount) =>
      if asset = datum.ask then
        (requiredPayment takeAmount datum.askAmount datum.offerAmount).getD 0
      else 0
  | _, _ => 0

/-- The inputs that owe a payment: at the order script, taken whole or in part. -/
theorem mem_takenInputs {input : Input} :
    input ∈ takenInputs orderScriptHash tx ↔
      input ∈ tx.inputs ∧ sitsAt orderScriptHash input.output = true ∧
        (spendRedeemer tx input.outputReference = some .takeOrder ∨
          ∃ takeAmount,
            spendRedeemer tx input.outputReference = some (.takeOrderPartial takeAmount)) := by
  rw [takenInputs, List.mem_filter, isTaken, Bool.and_eq_true]
  cases h : spendRedeemer tx input.outputReference with
  | none => simp
  | some redeemer => cases redeemer <;> simp

/-- A taken input has one tagged output, and it is its payment. -/
theorem exists_payment (happroved : OrdersApproved orderScriptHash tx)
    (hnodup : (tx.inputs.map Input.outputReference).Nodup) {input : Input}
    (hinput : input ∈ takenInputs orderScriptHash tx) :
    ∃ out, taggedPayment tx input.outputReference = some out ∧ PaymentFor tx input out := by
  obtain ⟨hin, hsits, hred⟩ := mem_takenInputs.mp hinput
  obtain ⟨datum, hdatum, hspent⟩ := happroved.spent hnodup hin hsits
  cases hspent with
  | cancelled key hred' =>
      rw [hred'] at hred
      rcases hred with hred | ⟨takeAmount, hred⟩ <;> cases hred
  | taken payment refs hred' hacc =>
      exact ⟨payment, hacc.tagged, datum, hdatum, hacc.paymentAddress,
        Or.inl ⟨hred', hacc.paymentValue⟩⟩
  | partiallyTaken takeAmount required payment refs rank continuation hred' hacc =>
      exact ⟨payment, hacc.tagged, datum, hdatum, hacc.paymentAddress,
        Or.inr ⟨takeAmount, required, hred', hacc.required_eq, hacc.paymentValue⟩⟩

/-!
## Distinct positions

A tag names one reference, so two inputs never have one payment; ranks differ, so they
never have one continuation; and a continuation has the datum of an order where a
payment has its tag.
-/

/-- An input is told by its reference. -/
theorem input_eq_of_ref_eq (hnodup : (tx.inputs.map Input.outputReference).Nodup) {a b : Input}
    (ha : a ∈ tx.inputs) (hb : b ∈ tx.inputs) (h : a.outputReference = b.outputReference) : a = b :=
  List.inj_on_of_nodup_map hnodup ha hb h

/-- Where the payment of an input is. -/
def paymentPosition (tx : Transaction) (input : Input) : ℕ :=
  tx.outputs.findIdx (hasPaymentTag input.outputReference)

/-- The payment of an input is at its position. -/
theorem getElem?_paymentPosition {input : Input} {out : Output}
    (h : taggedPayment tx input.outputReference = some out) :
    tx.outputs[paymentPosition tx input]? = some out := by
  have hfind : tx.outputs.find? (hasPaymentTag input.outputReference) = some out := by
    rw [← List.head?_filter, taggedPayment_eq_some.mp h, List.head?_cons]
  rw [paymentPosition, ← List.find?_eq_getElem?_findIdx, hfind]

/-- **Payments are not shared**: the tag names the input. -/
theorem payment_injective (happroved : OrdersApproved orderScriptHash tx)
    (hnodup : (tx.inputs.map Input.outputReference).Nodup) :
    Set.InjOn (paymentPosition tx) {input | input ∈ takenInputs orderScriptHash tx} := by
  intro a ha b hb hab
  obtain ⟨outA, htagA, -⟩ := exists_payment happroved hnodup ha
  obtain ⟨outB, htagB, -⟩ := exists_payment happroved hnodup hb
  have hsame : some outA = some outB := by
    rw [← getElem?_paymentPosition htagA, hab, getElem?_paymentPosition htagB]
  have htag := (taggedPayment_spec htagA).2
  rw [Option.some.inj hsame, (taggedPayment_spec htagB).2, Datum.inlineDatum.injEq, toData_inj,
    PaymentTag.mk.injEq] at htag
  exact input_eq_of_ref_eq hnodup (mem_takenInputs.mp ha).1 (mem_takenInputs.mp hb).1 htag.symm

/-- Where the continuation of an input is, given where each policy's
beacon-bearing outputs are. -/
def continuationPosition (orderScriptHash : ScriptHash) (tx : Transaction)
    (inOutputs : PolicyId → ℕ → ℕ) (input : Input) : ℕ :=
  (orderDatum tx input).elim 0 fun datum =>
    (((partialInputs orderScriptHash tx).map Input.outputReference).idxOf?
      input.outputReference).elim 0 (inOutputs datum.beaconPolicyId)

/-- **Continuations are not shared**: inputs of one policy have different ranks
in one list, and inputs of different policies demand different datums. -/
theorem continuation_injective (happroved : OrdersApproved orderScriptHash tx)
    (hnodup : (tx.inputs.map Input.outputReference).Nodup) :
    ∃ position : Input → ℕ,
      Set.InjOn position {input | input ∈ partialInputs orderScriptHash tx} ∧
      ∀ input ∈ partialInputs orderScriptHash tx,
        ∃ out, tx.outputs[position input]? = some out ∧ ContinuationOf tx input out := by
  choose inOutputs hmono hfilter using
    fun policyId => exists_strictMono_filter (bearsBeacons policyId) tx.outputs
  refine ⟨continuationPosition orderScriptHash tx inOutputs, fun a ha b hb hab => ?_,
    fun input hinput => ?_⟩
  · obtain ⟨datumA, rankA, outA, hdatumA, hrankA, houtA, hcontA⟩ :=
      exists_continuation happroved hnodup ha
    obtain ⟨datumB, rankB, outB, hdatumB, hrankB, houtB, hcontB⟩ :=
      exists_continuation happroved hnodup hb
    simp only [continuationPosition, hdatumA, hdatumB, hrankA, hrankB, Option.elim_some] at hab
    rw [beaconBearingOutputs, hfilter] at houtA houtB
    have hsame : outA = outB := by
      rw [hab] at houtA
      exact Option.some.inj (houtA.symm.trans houtB)
    -- equal outputs carry equal datums, which agree on the policy
    have hpolicy : datumA.beaconPolicyId = datumB.beaconPolicyId := by
      obtain ⟨datumA', takeA, requiredA, hdA, -, -, -, -, -, hcA⟩ := hcontA
      obtain ⟨datumB', takeB, requiredB, hdB, -, -, -, -, -, hcB⟩ := hcontB
      obtain rfl : datumA = datumA' := Option.some.inj (hdatumA.symm.trans hdA)
      obtain rfl : datumB = datumB' := Option.some.inj (hdatumB.symm.trans hdB)
      have hd := hcA.datum
      rw [hsame, hcB.datum, Datum.inlineDatum.injEq, toData_inj] at hd
      exact (congrArg OrderDatum.beaconPolicyId hd).symm
    rw [hpolicy] at hab
    rw [(hmono _).injective hab] at hrankA
    exact input_eq_of_ref_eq hnodup (mem_partialInputs.mp ha).1 (mem_partialInputs.mp hb).1
      (idxOf?_inj hrankA hrankB)
  · obtain ⟨datum, rank, out, hdatum, hrank, hout, hcont⟩ :=
      exists_continuation happroved hnodup hinput
    rw [beaconBearingOutputs, hfilter] at hout
    exact ⟨out, by simpa [continuationPosition, hdatum, hrank] using hout, hcont⟩

/-- No output is a payment and a continuation. -/
theorem payment_ne_continuation {a b : Input} {out out' : Output}
    (hpayment : taggedPayment tx a.outputReference = some out) (hcont : ContinuationOf tx b out') :
    out ≠ out' := by
  rintro rfl
  obtain ⟨datum, takeAmount, required, -, -, -, -, -, -, hcont⟩ := hcont
  have hdatum := (taggedPayment_spec hpayment).2
  rw [hcont.datum, Datum.inlineDatum.injEq] at hdatum
  have hnone := ofData_paymentTag_toData_orderDatum (reducedDatum datum takeAmount required)
  rw [hdatum, ofData_toData] at hnone
  cases hnone

/-!
## What the sellers receive

The payments of the inputs that are paid at one address are outputs at that address, at
different positions, and each covers what its input is owed.  The sum over the outputs
is then at least the sum over the inputs (`sum_map_le_of_injOn`).
-/

/-- A full payment covers what is owed. -/
theorem takePaymentOk_covers {datum : OrderDatum} {deposit : ℤ} {v : Value} (asset : AssetClass)
    (h : takePaymentOk datum deposit v = true) (hnonneg : Nonnegative v) :
    (if asset = datum.ask then datum.askAmount else 0) + (if isAda asset then deposit else 0) ≤
      held asset v := by
  have hheld : 0 ≤ held asset v := hnonneg.apply _ _
  cases hask : isAda datum.ask with
  | true =>
      rw [takePaymentOk_of_ada hask] at h
      cases hada : isAda asset with
      | true =>
          rw [if_pos (AssetClass.eq_of_isAda hada hask), if_pos rfl, held_of_isAda hada]
          exact h.1
      | false =>
          have hne : asset ≠ datum.ask := by
            rintro rfl
            rw [hask] at hada
            cases hada
          simpa [hne] using hheld
  | false =>
      rw [takePaymentOk_of_token hask] at h
      have hv : held asset v = (if isAda asset then Assets.lovelaceOf v else 0) +
          if asset = datum.ask then datum.askAmount else 0 := by
        conv_lhs => rw [h.2]
        rw [held_add, held_fromLovelace, held_amount]
      rw [hv, add_comm]
      refine add_le_add_left ?_ _
      cases hada : isAda asset with
      | true => exact h.1
      | false => exact le_rfl

/-- A partial payment covers what is required. -/
theorem takePartialPaymentOk_covers {datum : OrderDatum} {required : ℤ} {v : Value}
    (asset : AssetClass) (h : takePartialPaymentOk datum required v = true)
    (hnonneg : Nonnegative v) : (if asset = datum.ask then required else 0) ≤ held asset v := by
  split
  · next hasset =>
    subst hasset
    cases hask : isAda datum.ask with
    | true =>
        rw [held_of_isAda hask]
        exact ((takePartialPaymentOk_of_ada hask).mp h).1
    | false =>
        rw [(takePartialPaymentOk_of_token hask).mp h, held_payment hask]
  · exact hnonneg.apply _ _

/-- A payment covers what its input is owed. -/
theorem PaymentFor.covers {input : Input} {out : Output} (asset : AssetClass)
    (h : PaymentFor tx input out) (hnonneg : Nonnegative out.value) :
    owed tx asset input ≤ held asset out.value := by
  obtain ⟨datum, hdatum, -, ⟨hred, hvalue⟩ | ⟨takeAmount, required, hred, hreq, hvalue⟩⟩ := h
  · simp only [owed, hdatum, hred]
    exact takePaymentOk_covers asset hvalue hnonneg
  · simp only [owed, hdatum, hred, hreq, Option.getD_some]
    exact takePartialPaymentOk_covers asset hvalue hnonneg

/-- At every address, the outputs cover what the orders paying there are
owed. -/
theorem sellers_covered (happroved : OrdersApproved orderScriptHash tx)
    (hnodup : (tx.inputs.map Input.outputReference).Nodup)
    (hnonneg : ∀ out ∈ tx.outputs, Nonnegative out.value) (address : Address)
    (asset : AssetClass) :
    (((takenInputs orderScriptHash tx).filter (paysTo tx address)).map (owed tx asset)).sum ≤
      ((tx.outputs.filter fun out => out.address = address).map
        fun out => held asset out.value).sum := by
  have hclaims : ((takenInputs orderScriptHash tx).filter (paysTo tx address)).Nodup :=
    (hnodup.of_map.filter _).filter _
  -- an output elsewhere counts for nothing
  have hfilter : ((tx.outputs.filter fun out => out.address = address).map
      fun out => held asset out.value).sum =
      (tx.outputs.map fun out =>
        if out.address = address then held asset out.value else 0).sum := by
    rw [← sum_map_filter_of_eq_zero (p := fun out : Output => out.address = address)
      (f := fun out => if out.address = address then held asset out.value else 0)
      (fun out _ hne => if_neg hne)]
    congr 1
    apply List.map_congr_left
    intro out hout
    rw [List.mem_filter, decide_eq_true_eq] at hout
    exact (if_pos hout.2).symm
  rw [hfilter]
  refine sum_map_le_of_injOn hclaims
    ((payment_injective happroved hnodup).mono fun input hinput => (List.mem_filter.mp hinput).1)
    (fun input hinput => ?_) fun out hout => ?_
  · obtain ⟨htaken, hpays⟩ := List.mem_filter.mp hinput
    obtain ⟨out, htag, hpayment⟩ := exists_payment happroved hnodup htaken
    refine ⟨out, getElem?_paymentPosition htag, ?_⟩
    have haddress : out.address = address := by
      obtain ⟨datum, hdatum, haddr, -⟩ := hpayment
      simp only [paysTo, hdatum, decide_eq_true_eq] at hpays
      rw [haddr, hpays]
    rw [if_pos haddress]
    exact hpayment.covers asset (hnonneg out (taggedPayment_spec htag).1)
  · split
    · exact (hnonneg out hout).apply _ _
    · exact le_rfl

/-- **No double satisfaction.**  The taken inputs have their payments, and the
partially taken ones their continuations, at output positions that are all
different; so at every address the outputs hold at least what all the orders
paying there are owed. -/
theorem no_double_satisfaction (happroved : OrdersApproved orderScriptHash tx)
    (hnodup : (tx.inputs.map Input.outputReference).Nodup) :
    (∃ payment continuation : Input → ℕ,
      Set.InjOn payment {input | input ∈ takenInputs orderScriptHash tx} ∧
      Set.InjOn continuation {input | input ∈ partialInputs orderScriptHash tx} ∧
      (∀ a ∈ takenInputs orderScriptHash tx, ∀ b ∈ partialInputs orderScriptHash tx,
        payment a ≠ continuation b) ∧
      (∀ input ∈ takenInputs orderScriptHash tx,
        ∃ out, tx.outputs[payment input]? = some out ∧ PaymentFor tx input out) ∧
      ∀ input ∈ partialInputs orderScriptHash tx,
        ∃ out, tx.outputs[continuation input]? = some out ∧ ContinuationOf tx input out) ∧
    ((∀ out ∈ tx.outputs, Nonnegative out.value) → ∀ (address : Address) (asset : AssetClass),
      (((takenInputs orderScriptHash tx).filter (paysTo tx address)).map (owed tx asset)).sum ≤
        ((tx.outputs.filter fun out => out.address = address).map
          fun out => held asset out.value).sum) := by
  obtain ⟨continuation, hcinj, hcont⟩ := continuation_injective happroved hnodup
  refine ⟨⟨paymentPosition tx, continuation, payment_injective happroved hnodup, hcinj, ?_, ?_,
    hcont⟩, ?_⟩
  · intro a ha b hb heq
    obtain ⟨out, htag, -⟩ := exists_payment happroved hnodup ha
    obtain ⟨out', hout', hcontinuation⟩ := hcont b hb
    rw [← heq, getElem?_paymentPosition htag] at hout'
    exact payment_ne_continuation htag hcontinuation (Option.some.inj hout')
  · intro input hinput
    obtain ⟨out, htag, hpayment⟩ := exists_payment happroved hnodup hinput
    exact ⟨out, getElem?_paymentPosition htag, hpayment⟩
  · intro hnonneg address asset
    exact sellers_covered happroved hnodup hnonneg address asset

theorem Sample.batch_approved : OrdersApproved Sample.deployment.orderScriptHash Sample.batch := by
  decide

/-- In the sample batch the seller's address receives the seven tokens owed. -/
theorem no_double_satisfaction_sample :
    ((takenInputs Sample.deployment.orderScriptHash Sample.batch).map
      (owed Sample.batch Sample.token)).sum = 7 ∧
    (((takenInputs Sample.deployment.orderScriptHash Sample.batch).filter
      (paysTo Sample.batch Sample.sale.paymentAddress)).map (owed Sample.batch Sample.token)).sum ≤
      ((Sample.batch.outputs.filter fun out => out.address = Sample.sale.paymentAddress).map
        fun out => held Sample.token out.value).sum :=
  ⟨by decide, (no_double_satisfaction Sample.batch_approved (by decide +kernel)).2
    (by decide) _ _⟩

end BeaconDex
