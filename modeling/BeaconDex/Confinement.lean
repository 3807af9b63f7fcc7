import BeaconDex.BeaconFlow

/-!
# Beacon confinement

Discovery trusts a beacon to sit in a well-formed order.  `Confined` is that
statement about a UTxO set.

The spend rules count the beacon-bearing outputs of a policy against *all*
partially taken inputs of the validator, while each of those inputs decides an
output of the policy its own datum names.  A hand-made UTxO that names another
policy therefore lets one beacon-bearing output through unchecked: taken in part
next to a full take, it gives the beacons of the full take a home.
`MixesPolicies` is that pattern, `confined_of_run` shows that beacons stay
confined in every run without it, and `beacons_leak` that they do not in
general.

## One step, and a run

A step of the ledger removes outputs and adds outputs.  Those it adds at the order
script bear beacons only where the mint rule or the rule for continuations has put them,
and those elsewhere bear none, because the sum over the transaction leaves nothing for
them.  The run is then an induction with nothing in it but the step.
-/

namespace BeaconDex

open Library

variable {d : Deployment} {tx : Transaction}

/-- Some order of the deployment is well formed in `output`. -/
def HoldsOrder (d : Deployment) (output : Output) : Prop :=
  ∃ datum owner names,
    WellFormedOrder d.sha2_256 d.orderScriptHash d.policyId output datum owner names

/-- **Confinement**: an unspent output with beacons is a well-formed order. -/
def Confined (d : Deployment) (utxo : Utxo) : Prop :=
  ∀ ref output, utxo ref = some output → Assets.tokens output.value d.policyId ≠ 0 →
    HoldsOrder d output

/-- No unspent output holds a beacon. -/
def BeaconFree (d : Deployment) (utxo : Utxo) : Prop :=
  ∀ ref output, utxo ref = some output → Assets.tokens output.value d.policyId = 0

/-- The transaction fully takes an order with beacons while it partially takes
an input whose datum names another policy. -/
def MixesPolicies (d : Deployment) (tx : Transaction) : Prop :=
  (∃ input ∈ tx.inputs, sitsAt d.orderScriptHash input.output = true ∧
    Assets.tokens input.output.value d.policyId ≠ 0 ∧
    spendRedeemer tx input.outputReference = some .takeOrder) ∧
  ∃ sibling ∈ partialInputs d.orderScriptHash tx, ∃ datum,
    orderDatum tx sibling = some datum ∧ datum.beaconPolicyId ≠ d.policyId

/-!
## One transaction

The outputs with beacons of a transaction that mixes no policies are its continuations
and what was minted.  Each continuation is one of a well-formed order, so it is one
itself; if an order is taken whole, there may be outputs with beacons only for the
partial takes, which account for all of them.
-/

/-- A continuation of a well-formed order is one. -/
theorem HoldsOrder.continuation {input : Input} {out : Output} (h : HoldsOrder d input.output)
    (hcont : ContinuationOf tx input out) : HoldsOrder d out := by
  obtain ⟨datum, owner, names, hwf⟩ := h
  obtain ⟨datum', takeAmount, required, hdatum, -, -, -, hlt, hreq, hcont⟩ := hcont
  obtain rfl := eq_of_orderDatum hwf.inline hdatum
  exact ⟨_, owner, names, hwf.continuation hlt hreq hcont⟩

/-- A spend of an order pins the count of beacon-bearing outputs. -/
theorem HoldsOrder.accounting (hvalid : LedgerValid d tx) {input : Input}
    (hinput : input ∈ tx.inputs) (h : HoldsOrder d input.output) :
    (beaconBearingOutputs tx d.policyId).length = (partialInputs d.orderScriptHash tx).length := by
  obtain ⟨datum, owner, names, hwf⟩ := h
  obtain ⟨datum', hdatum, hspent⟩ := hvalid.orders.spent hvalid.distinct hinput hwf.sits
  obtain rfl := eq_of_orderDatum hwf.inline hdatum
  rw [← hwf.policy]
  exact hspent.accounting hinput hwf.sits

/-- The output at the rank of a well-formed order holds its beacons. -/
theorem HoldsOrder.continuation_at_rank (hvalid : LedgerValid d tx) {input : Input} {out : Output}
    (h : HoldsOrder d input.output)
    (hmem : (input, out) ∈
      (partialInputs d.orderScriptHash tx).zip (beaconBearingOutputs tx d.policyId)) :
    ContinuationOf tx input out ∧
      Assets.tokens out.value d.policyId = Assets.tokens input.output.value d.policyId := by
  obtain ⟨datum, owner, names, hwf⟩ := h
  have hdatum : orderDatum tx input = some datum := orderDatum_of_inline hwf.inline
  have hcont := mem_zip_continuation hvalid.orders hvalid.distinct hdatum
    (by rw [hwf.policy]; exact hmem)
  exact ⟨hcont, hcont.tokens hdatum hwf.offer_policy⟩

/-- When every input with beacons is partially taken, they all go on to the
continuations, and no other candidate bears any. -/
theorem tokens_eq_zero_of_partialTakes (hvalid : LedgerValid d tx)
    (hin : ∀ input ∈ tx.inputs, Assets.tokens input.output.value d.policyId ≠ 0 →
      HoldsOrder d input.output)
    (hburnt : Assets.tokens tx.mint d.policyId ≤ 0)
    (hcount : (beaconBearingOutputs tx d.policyId).length =
      (partialInputs d.orderScriptHash tx).length)
    (hpart : ∀ input ∈ tx.inputs, Assets.tokens input.output.value d.policyId ≠ 0 →
      isPartialTake tx d.orderScriptHash input = true)
    {input : Input} {out : Output}
    (hmem : (input, out) ∈
      (partialInputs d.orderScriptHash tx).zip (beaconBearingOutputs tx d.policyId))
    (hinput : Assets.tokens input.output.value d.policyId = 0) :
    Assets.tokens out.value d.policyId = 0 := by
  refine eq_zero_of_sum_le
    (p := fun input : Input => Assets.tokens input.output.value d.policyId ≠ 0)
    (f := fun out : Output => Assets.tokens out.value d.policyId)
    (g := fun input : Input => Assets.tokens input.output.value d.policyId)
    hcount.symm ?_ ?_ ?_ hmem (not_not.mpr hinput)
  · intro a b hab ha
    have ha' := (mem_partialInputs.mp (List.of_mem_zip hab).1).1
    exact ((hin a ha' ha).continuation_at_rank hvalid hab).2
  · intro b hb
    exact (hvalid.outputs_nonneg b (mem_beaconBearingOutputs.mp hb).1).tokens d.policyId
  · have hbearing := sum_map_filter_of_eq_zero (l := partialInputs d.orderScriptHash tx)
      (p := fun input : Input => Assets.tokens input.output.value d.policyId ≠ 0)
      (f := fun input => Assets.tokens input.output.value d.policyId)
      (fun a _ ha => not_not.mp ha)
    have hall := sum_map_filter_of_eq_zero (l := tx.inputs)
      (p := fun input : Input => isPartialTake tx d.orderScriptHash input = true)
      (f := fun input => Assets.tokens input.output.value d.policyId)
      (fun a ha hnot => not_not.mp fun hne => hnot (hpart a ha hne))
    simp only [Bool.decide_eq_true] at hall
    rw [hbearing, sum_beaconBearingOutputs, ← hvalid.tokens d.policyId_ne_ada, partialInputs, hall]
    exact add_le_of_nonpos_right hburnt

/-- **Step lemma.**  A transaction that does not mix policies keeps beacons
confined. -/
theorem LedgerValid.confined (hvalid : LedgerValid d tx) (hmix : ¬ MixesPolicies d tx)
    (hin : ∀ input ∈ tx.inputs, Assets.tokens input.output.value d.policyId ≠ 0 →
      HoldsOrder d input.output) {out : Output} (hout : out ∈ tx.outputs)
    (hbears : Assets.tokens out.value d.policyId ≠ 0) : HoldsOrder d out := by
  have hmem : out ∈ beaconBearingOutputs tx d.policyId :=
    mem_beaconBearingOutputs.mpr ⟨hout, hbears⟩
  rcases hvalid.minted with ⟨output, datum, owner, names, hacc⟩ | hburnt
  · -- a creation: the new order is the only output with beacons
    rw [hacc.only, List.mem_singleton] at hmem
    exact ⟨datum, owner, names, hmem ▸ hacc.order⟩
  by_cases hnone : ∀ input ∈ tx.inputs, Assets.tokens input.output.value d.policyId = 0
  · -- nothing comes in and nothing is minted, so nothing goes out
    have hbalance := hvalid.tokens d.policyId_ne_ada
    rw [List.sum_eq_zero (by simpa using hnone), zero_add] at hbalance
    exact absurd (eq_zero_of_sum_map_le_zero
      (fun o ho => (hvalid.outputs_nonneg o ho).tokens d.policyId) (hbalance ▸ hburnt) hout) hbears
  push Not at hnone
  obtain ⟨order, horder, hne⟩ := hnone
  have hcount := (hin order horder hne).accounting hvalid horder
  -- `out` sits at the rank of some partially taken input
  obtain ⟨input, hzip⟩ := exists_mem_zip_of_mem_right hcount.le hmem
  obtain ⟨hinput, hsits, takeAmount, hred⟩ := mem_partialInputs.mp (List.of_mem_zip hzip).1
  suffices hholds : Assets.tokens input.output.value d.policyId ≠ 0 by
    have horder := hin input hinput hholds
    exact horder.continuation (horder.continuation_at_rank hvalid hzip).1
  intro hempty
  obtain ⟨datum, hdatum, -⟩ := hvalid.orders.spent hvalid.distinct hinput hsits
  by_cases hpolicy : datum.beaconPolicyId = d.policyId
  · -- a hand-made input naming this policy cannot continue into beacons it does not hold
    have hcont := mem_zip_continuation hvalid.orders hvalid.distinct hdatum
      (by rw [hpolicy]; exact hzip)
    exact hbears (le_antisymm (hempty ▸ hcont.tokens_le)
      ((hvalid.outputs_nonneg out hout).tokens d.policyId))
  · -- a foreign input: then every input with beacons is partially taken
    refine hbears (tokens_eq_zero_of_partialTakes hvalid hin hburnt hcount ?_ hzip hempty)
    intro other hother hne
    obtain ⟨datum', owner, names, hwf⟩ := hin other hother hne
    obtain ⟨datum'', -, hspent⟩ := hvalid.orders.spent hvalid.distinct hother hwf.sits
    cases hspent with
    | cancelled key hred' hacc =>
        have hnil := hacc.partialInputs_eq_nil hother hwf.sits hred'
        rw [hnil] at hzip
        cases hzip
    | taken payment refs hred' =>
        exact absurd ⟨⟨other, hother, hwf.sits, hne, hred'⟩, input, (List.of_mem_zip hzip).1, datum,
          hdatum, hpolicy⟩ hmix
    | partiallyTaken takeAmount' required payment refs rank continuation hred' =>
        exact isPartialTake_eq_true.mpr ⟨hwf.sits, takeAmount', hred'⟩

/-!
## Runs

From the step lemma by the invariant rule of `Library.Run`.
-/

/-- **Step lemma.** A transaction that does not mix policies leaves beacons confined. -/
theorem Step.confined {utxo utxo' : Utxo} {submitted : Bytes × Transaction}
    (h : Step d utxo submitted utxo') (hmix : ¬ MixesPolicies d submitted.2)
    (hconf : Confined d utxo) : Confined d utxo' := by
  intro ref output houtput hbears
  rcases h.cases houtput with hcreated | hold
  · exact h.valid.confined hmix
      (fun input hinput => hconf input.outputReference input.output (h.resolved input hinput))
      hcreated hbears
  · exact hconf ref output hold hbears

/-- **Beacons stay confined** in every run that begins without beacons and none of whose
transactions mixes policies: at its end, whatever bears a beacon is a well-formed order at
the order script.  Policies are mixed where an order with beacons is taken whole beside a
partial take of an input whose datum names another policy; that this does not happen
cannot be left out (`beacons_leak`). -/
theorem confined_of_run {utxo utxo' : Utxo} {submitted : List (Bytes × Transaction)}
    (hfree : BeaconFree d utxo) (hrun : Run (Step d) utxo submitted utxo')
    (hmix : ∀ s ∈ submitted, ¬ MixesPolicies d s.2) : Confined d utxo' := by
  refine hrun.invariant (P := fun s => ¬ MixesPolicies d s.2)
    (fun utxo s utxo' hs hstep => hstep.confined hs) hmix ?_
  intro ref output houtput hbears
  exact absurd (hfree ref output houtput) hbears

/-!
## The leak

A run of two transactions: an order is created, and it is taken whole while a decoy, whose
datum names another policy, is taken in part.  The count of outputs with beacons is one,
as it should be, and the output it counts is the taker's.
-/

namespace Sample

def foreignPolicy : PolicyId := List.replicate 28 0x0f

/-- The datum of a hand-made UTxO: two ADA for two tokens, under the taker's own
policy. -/
def decoyDatum : OrderDatum :=
  { order ada 2000000 token 2 with
    beaconPolicyId := foreignPolicy
    paymentAddress := ⟨.verificationKey takerKey, none⟩ }

def decoy (datum : OrderDatum) (lovelace : ℤ) : Output :=
  { orderOutput datum lovelace with
    value := Assets.fromLovelace lovelace + Assets.fromAsset foreignPolicy [0x51] 1 }

/-- Where the beacons of the order end up: the taker's wallet. -/
def stolen : Output := walletOutput takerKey (Assets.fromLovelace 2000000 + beacons sale)

/-- Takes the `sale` in full and the decoy in part. -/
def leak : Transaction where
  inputs := [⟨ref 0 1, decoy decoyDatum 3000000⟩, ⟨ref 0 2, wallet 5000000 7⟩,
    ⟨ref 1 0, orderOutput sale 12000000⟩]
  outputs := [payment sale (ref 1 0) (Assets.fromLovelace 2000000 + token.amount 5),
    payment decoyDatum (ref 0 1) (Assets.fromLovelace 1500000 + token.amount 1),
    decoy (reducedDatum decoyDatum 1000000 1) 2000000, stolen, wallet 12000000 1]
  mint := 0
  extraSignatories := []
  validityRange := always
  redeemers := [(.spend (ref 0 1), toData (OrderRedeemer.takeOrderPartial 1000000)),
    (.spend (ref 1 0), toData OrderRedeemer.takeOrder)]
  datums := []

/-- The seller's and the taker's wallet, and the decoy. -/
def genesis : Utxo := fun r =>
  if r = ref 0 0 then some (walletOutput ownerKey (Assets.fromLovelace 12000000 + offerValue sale))
  else if r = ref 0 1 then some (decoy decoyDatum 3000000)
  else if r = ref 0 2 then some (wallet 5000000 7)
  else none

def created : Utxo := applyTx genesis (ref 1 0).transactionId (creation sale 12000000)

theorem genesis_beaconFree : BeaconFree deployment genesis := by
  intro r output houtput
  unfold genesis at houtput
  split_ifs at houtput <;> cases houtput <;> decide

theorem genesis_eq_none {r : OutputReference} (h : r.transactionId ≠ (ref 0 0).transactionId) :
    genesis r = none := by
  unfold genesis
  split_ifs with h₀ h₁ h₂
  · exact absurd (congrArg OutputReference.transactionId h₀) h
  · exact absurd (congrArg OutputReference.transactionId h₁) h
  · exact absurd (congrArg OutputReference.transactionId h₂) h
  · rfl

theorem step_creation :
    Step deployment genesis ((ref 1 0).transactionId, creation sale 12000000) created where
  valid := creation_valid
  resolved := by
    intro input hinput
    obtain rfl := List.mem_singleton.mp hinput
    rfl
  fresh r hr := genesis_eq_none (by rw [hr]; decide)
  next := rfl

/-- An id that is neither that of a wallet UTxO nor that of the creation is unused. -/
theorem created_eq_none {r : OutputReference} (h₀ : r.transactionId ≠ (ref 0 0).transactionId)
    (h₁ : r.transactionId ≠ (ref 1 0).transactionId) : created r = none := by
  simp [created, applyTx, createdAt, h₁, genesis_eq_none h₀]

/-- Takes four ADA of the `sale`, for two tokens. -/
def salePart : Transaction where
  inputs := [⟨ref 0 2, wallet 5000000 7⟩, ⟨ref 1 0, orderOutput sale 12000000⟩]
  outputs := [payment sale (ref 1 0) (Assets.fromLovelace 1500000 + token.amount 2),
    orderOutput (reducedDatum sale 4000000 2) 8000000, wallet 7500000 5]
  mint := 0
  extraSignatories := []
  validityRange := always
  redeemers := [(.spend (ref 1 0), toData (OrderRedeemer.takeOrderPartial 4000000))]
  datums := []

def partSold : Utxo := applyTx created (ref 2 0).transactionId salePart

theorem step_salePart :
    Step deployment created ((ref 2 0).transactionId, salePart) partSold where
  valid := by decide
  resolved := by
    intro input hinput
    simp only [salePart, List.mem_cons, List.not_mem_nil, or_false] at hinput
    rcases hinput with rfl | rfl <;> rfl
  fresh r hr := created_eq_none (by rw [hr]; decide) (by rw [hr]; decide)
  next := rfl

/-- Takes the rest of it. -/
def saleRest : Transaction where
  inputs := [⟨ref 2 1, orderOutput (reducedDatum sale 4000000 2) 8000000⟩,
    ⟨ref 2 2, wallet 7500000 5⟩]
  outputs := [payment sale (ref 2 1) (Assets.fromLovelace 2000000 + token.amount 3),
    wallet 13500000 2]
  mint := -beacons sale
  extraSignatories := []
  validityRange := always
  redeemers := [(.spend (ref 2 1), toData OrderRedeemer.takeOrder),
    (.mint deployment.policyId, toData BeaconRedeemer.burnBeacons)]
  datums := []

def soldOut : Utxo := applyTx partSold (ref 3 0).transactionId saleRest

theorem step_saleRest :
    Step deployment partSold ((ref 3 0).transactionId, saleRest) soldOut where
  valid := by decide
  resolved := by
    intro input hinput
    simp only [saleRest, List.mem_cons, List.not_mem_nil, or_false] at hinput
    rcases hinput with rfl | rfl <;> rfl
  fresh r hr := by
    have hnone := created_eq_none (r := r) (by rw [hr]; decide) (by rw [hr]; decide)
    have hother : r.transactionId ≠ (ref 2 0).transactionId := by
      rw [hr]
      decide
    simp [partSold, applyTx, createdAt, hother, hnone]
  next := rfl

theorem step_leak :
    Step deployment created ((ref 2 0).transactionId, leak)
      (applyTx created (ref 2 0).transactionId leak) where
  valid := by decide
  resolved := by
    intro input hinput
    simp only [leak, List.mem_cons, List.not_mem_nil, or_false] at hinput
    rcases hinput with rfl | rfl | rfl <;> rfl
  fresh r hr := created_eq_none (by rw [hr]; decide) (by rw [hr]; decide)
  next := rfl

end Sample

/-- A sale is created, taken in part, and then taken in full. -/
theorem confined_of_run_sample :
    Confined Sample.deployment Sample.partSold ∧ Confined Sample.deployment Sample.soldOut := by
  have hcreation : ¬MixesPolicies Sample.deployment (Sample.creation Sample.sale 12000000) := by
    rintro ⟨⟨input, hinput, hsits, -⟩, -⟩
    obtain rfl := List.mem_singleton.mp hinput
    cases hsits
  -- the only order that it spends is not taken in full
  have hpart : ¬MixesPolicies Sample.deployment Sample.salePart := by
    rintro ⟨⟨input, hinput, hsits, -, htake⟩, -⟩
    simp only [Sample.salePart, List.mem_cons, List.not_mem_nil, or_false] at hinput
    rcases hinput with rfl | rfl
    · cases hsits
    · cases htake
  -- nothing that it spends is taken in part
  have hrest : ¬MixesPolicies Sample.deployment Sample.saleRest := by
    rintro ⟨-, sibling, hsibling, -⟩
    have hnone : partialInputs Sample.deployment.orderScriptHash Sample.saleRest = [] := by decide
    rw [hnone] at hsibling
    cases hsibling
  have hrun : Run (Step Sample.deployment) Sample.genesis
      [((Sample.ref 1 0).transactionId, Sample.creation Sample.sale 12000000),
        ((Sample.ref 2 0).transactionId, Sample.salePart)] Sample.partSold :=
    .cons Sample.step_creation (.single Sample.step_salePart)
  refine ⟨confined_of_run Sample.genesis_beaconFree hrun ?_,
    confined_of_run Sample.genesis_beaconFree (hrun.concat Sample.step_saleRest) ?_⟩
  · intro s hs
    rcases List.mem_pair.mp hs with rfl | rfl
    · exact hcreation
    · exact hpart
  · intro s hs
    simp only [List.cons_append, List.nil_append, List.mem_cons, List.not_mem_nil, or_false] at hs
    rcases hs with rfl | rfl | rfl
    · exact hcreation
    · exact hpart
    · exact hrest

/-- **Beacons leak**: after the order is created and taken next to the decoy, its
five beacons lie in the taker's wallet. -/
theorem beacons_leak :
    ¬ ∀ (d : Deployment) (utxo utxo' : Utxo) (submitted : List (Bytes × Transaction)),
      BeaconFree d utxo → Run (Step d) utxo submitted utxo' → Confined d utxo' := by
  intro hconfined
  have h := hconfined _ _ _ _ Sample.genesis_beaconFree
    (.cons Sample.step_creation (.single Sample.step_leak)) (Sample.ref 2 3) Sample.stolen rfl
    (by decide)
  obtain ⟨datum, owner, names, hwf⟩ := h
  cases hwf.payment

end BeaconDex
