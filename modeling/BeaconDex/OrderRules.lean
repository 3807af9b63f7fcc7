import BeaconDex.Beacons

/-!
# Order spending rules

`contracts/lib/p2p_dex/order_rules.ak` and the thin wrapper
`contracts/validators/order.ak`.

An Aiken rule ends in one of three ways: it approves, it returns `False`, or an
`expect` aborts the script.  A rule is therefore an `Option Bool` here, with
`none` for the abort, and the short-circuiting `and { … }` block is `<&&>`.  A
spend is approved exactly at `some true`.

The second half says once, for each rule, what an approval amounts to
(`TakeAccepted`, `TakePartialAccepted`, `CancelAccepted`).  Everything proved
about transactions starts from these records and never unfolds a rule again.

## What the rules do not look at

A spend rule knows its own input and datum, the outputs and the redeemers of the other
inputs.  It never looks at the mint field or at the datums of other orders.  What
follows for a transaction that spends several orders is not in this file; it is derived
from the records below, all of them at once, in the files on beacons and double
satisfaction.
-/

namespace BeaconDex

/-! ## The rules -/

/-- Whether an output sits at the validator's payment credential. -/
def sitsAt (ownHash : ScriptHash) (output : Output) : Bool :=
  output.address.paymentCredential = .script ownHash

/-- Resolve the input being spent and this validator's own script hash. -/
def ownInputAndHash (ownRef : OutputReference) (self : Transaction) :
    Option (Input × ScriptHash) :=
  (findInput self.inputs ownRef).bind fun ownInput =>
    match ownInput.output.address.paymentCredential with
    | .script ownHash => some (ownInput, ownHash)
    | .verificationKey _ => none

/-- Cancel only: exactly one input of the transaction at this validator. -/
def onlyOneOrderInput (self : Transaction) (ownHash : ScriptHash) : Bool :=
  self.inputs.countP (fun input => sitsAt ownHash input.output) = 1

/-- Whether an output carries any token of the policy. -/
def bearsBeacons (policyId : PolicyId) (output : Output) : Bool :=
  !Assets.isEmpty (Assets.tokens output.value policyId)

/-- No output of the transaction carries any token of the beacon policy. -/
def noBeaconsInOutputs (self : Transaction) (policyId : PolicyId) : Bool :=
  self.outputs.all fun output => Assets.isEmpty (Assets.tokens output.value policyId)

/-- The ask owed for a fill of `takeAmount`, rounded up.  Aiken's `/` is floor
division and fails on a zero divisor. -/
def requiredPayment (takeAmount askAmount offerAmount : ℤ) : Option ℤ :=
  if offerAmount = 0 then none
  else some ((takeAmount * askAmount + offerAmount - 1).fdiv offerAmount)

/-- The redeemer an order input is spent with. -/
def spendRedeemer (self : Transaction) (ref : OutputReference) : Option OrderRedeemer :=
  (self.redeemers.lookup (.spend ref)).bind ofData

/-- One step of `partial_take_refs`: keep the reference of a partially taken
order input, drop every other input. -/
def partialTakeRef (self : Transaction) (ownHash : ScriptHash) (input : Input) :
    Option (Option OutputReference) :=
  if sitsAt ownHash input.output then
    (spendRedeemer self input.outputReference).map fun
      | .takeOrderPartial _ => some input.outputReference
      | _ => none
  else some none

/-- Rank pairing, set S: the references of all inputs at this validator spent
with `TakeOrderPartial`, in input order. -/
def partialTakeRefs (self : Transaction) (ownHash : ScriptHash) :
    Option (List OutputReference) :=
  self.inputs.filterMapM (partialTakeRef self ownHash)

/-- Rank pairing, list C: all outputs carrying any token of the beacon policy,
in output order. -/
def beaconBearingOutputs (self : Transaction) (policyId : PolicyId) : List Output :=
  self.outputs.filter (bearsBeacons policyId)

/-- As many beacon-bearing outputs as partially taken inputs. -/
def beaconAccountingOk (self : Transaction) (ownHash : ScriptHash) (policyId : PolicyId) :
    Option Bool := do
  let refs ← partialTakeRefs self ownHash
  return (beaconBearingOutputs self policyId).length = refs.length

/-- The taker proves non-expiry with a finite validity upper bound. -/
def expirationOk (expiration : Option ℤ) (self : Transaction) : Bool :=
  match expiration with
  | none => true
  | some t =>
      match self.validityRange.upperBound.boundType with
      | .finite upper => upper ≤ t
      | _ => false

/-- `CancelOrder`. -/
def cancelOk (datum : OrderDatum) (ownRef : OutputReference) (self : Transaction) :
    Option Bool := do
  let (_, ownHash) ← ownInputAndHash ownRef self
  match datum.owner with
  | .verificationKey ownerKeyHash =>
      return self.extraSignatories.contains ownerKeyHash && onlyOneOrderInput self ownHash &&
        noBeaconsInOutputs self datum.beaconPolicyId
  | .script _ => none

/-- Whether an output is tagged as the payment of `ownRef`. -/
def hasPaymentTag (ownRef : OutputReference) (output : Output) : Bool :=
  match output.datum with
  | .inlineDatum data =>
      match (ofData data : Option PaymentTag) with
      | some tag => tag.orderRef = ownRef
      | none => false
  | _ => false

/-- The unique output tagged with this order's own reference; zero or several
abort the run. -/
def taggedPayment (self : Transaction) (ownRef : OutputReference) : Option Output :=
  match self.outputs.filter (hasPaymentTag ownRef) with
  | [payment] => some payment
  | _ => none

/-- Order lovelace beyond the offered amount, or all of it on a token offer. -/
def depositOf (datum : OrderDatum) (value : Value) : ℤ :=
  if isAda datum.offer then Assets.lovelaceOf value - datum.offerAmount
  else Assets.lovelaceOf value

/-- Full take: the ask exactly, at least the deposit, nothing else. -/
def takePaymentOk (datum : OrderDatum) (deposit : ℤ) (payment : Value) : Bool :=
  if isAda datum.ask then
    Assets.lovelaceOf payment ≥ datum.askAmount + deposit &&
      Assets.isZero (Assets.withoutLovelace payment)
  else
    Assets.lovelaceOf payment ≥ deposit &&
      payment = Assets.add (Assets.fromLovelace (Assets.lovelaceOf payment))
        datum.ask.policyId datum.ask.assetName datum.askAmount

/-- Partial take: the required ask exactly, lovelace free on a token ask. -/
def takePartialPaymentOk (datum : OrderDatum) (required : ℤ) (payment : Value) : Bool :=
  if isAda datum.ask then
    Assets.lovelaceOf payment ≥ required && Assets.isZero (Assets.withoutLovelace payment)
  else
    payment = Assets.add (Assets.fromLovelace (Assets.lovelaceOf payment))
      datum.ask.policyId datum.ask.assetName required

/-- `TakeOrder`. -/
def takeOk (datum : OrderDatum) (ownRef : OutputReference) (self : Transaction) :
    Option Bool := do
  let (ownInput, ownHash) ← ownInputAndHash ownRef self
  let deposit := depositOf datum ownInput.output.value
  let payment ← taggedPayment self ownRef
  let paymentValueOk := takePaymentOk datum deposit payment.value
  pure (decide (datum.version = 1)) <&&>
    pure (decide (payment.address = datum.paymentAddress)) <&&>
    beaconAccountingOk self ownHash datum.beaconPolicyId <&&>
    pure paymentValueOk <&&>
    pure (expirationOk datum.expiration self)

/-- The datum of the continuation: identical except both amounts reduced. -/
def reducedDatum (datum : OrderDatum) (takeAmount required : ℤ) : OrderDatum :=
  { datum with
    offerAmount := datum.offerAmount - takeAmount
    askAmount := datum.askAmount - required }

/-- The value of the continuation: the consumed order minus the taken offer. -/
def continuationValue (datum : OrderDatum) (takeAmount : ℤ) (value : Value) : Value :=
  Assets.add value datum.offer.policyId datum.offer.assetName (-takeAmount)

/-- The datum comparison of a continuation; a datum that is no `OrderDatum`
aborts. -/
def continuationDatumOk (expected : OrderDatum) (continuation : Output) : Option Bool :=
  match continuation.datum with
  | .inlineDatum raw => (ofData raw).map fun datum : OrderDatum => decide (datum = expected)
  | _ => some false

/-- `TakeOrderPartial`. -/
def takePartialOk (datum : OrderDatum) (takeAmount : ℤ) (ownRef : OutputReference)
    (self : Transaction) : Option Bool := do
  let (ownInput, ownHash) ← ownInputAndHash ownRef self
  let required ← requiredPayment takeAmount datum.askAmount datum.offerAmount
  let payment ← taggedPayment self ownRef
  let paymentValueOk := takePartialPaymentOk datum required payment.value
  let partialRefs ← partialTakeRefs self ownHash
  let rank ← partialRefs.idxOf? ownRef
  let continuations := beaconBearingOutputs self datum.beaconPolicyId
  let continuation ← continuations[rank]?
  let expectedContinuationValue := continuationValue datum takeAmount ownInput.output.value
  let datumOk ← continuationDatumOk (reducedDatum datum takeAmount required) continuation
  return decide (datum.version = 1) &&
    datum.allowPartialFill &&
    decide (takeAmount > 0) &&
    decide (takeAmount < datum.offerAmount) &&
    decide (required < datum.askAmount) &&
    decide (payment.address = datum.paymentAddress) &&
    paymentValueOk &&
    decide (continuations.length = partialRefs.length) &&
    decide (continuation.address = ownInput.output.address) &&
    decide (continuation.value = expectedContinuationValue) &&
    datumOk &&
    decide (continuation.referenceScript = none) &&
    expirationOk datum.expiration self

/-- The order validator (`validators/order.ak`, purpose `spend`): a UTxO without
a parseable datum is unspendable. -/
def orderSpend (datum : Option OrderDatum) (redeemer : OrderRedeemer) (ownRef : OutputReference)
    (self : Transaction) : Option Bool :=
  datum.bind fun orderDatum =>
    match redeemer with
    | .cancelOrder => cancelOk orderDatum ownRef self
    | .takeOrder => takeOk orderDatum ownRef self
    | .takeOrderPartial takeAmount => takePartialOk orderDatum takeAmount ownRef self

/-! ## What an approval says -/

@[simp] theorem sitsAt_eq_true {ownHash : ScriptHash} {output : Output} :
    sitsAt ownHash output = true ↔ output.address.paymentCredential = .script ownHash := by
  simp [sitsAt]

@[simp] theorem bearsBeacons_eq_true {policyId : PolicyId} {output : Output} :
    bearsBeacons policyId output = true ↔ Assets.tokens output.value policyId ≠ 0 := by
  simp [bearsBeacons]

theorem mem_beaconBearingOutputs {self : Transaction} {policyId : PolicyId} {output : Output} :
    output ∈ beaconBearingOutputs self policyId ↔
      output ∈ self.outputs ∧ Assets.tokens output.value policyId ≠ 0 := by
  simp [beaconBearingOutputs]

@[simp] theorem andM_eq_some_true {a b : Option Bool} :
    (a <&&> b) = some true ↔ a = some true ∧ b = some true := by
  rcases a with _ | _ | _ <;> simp [andM, toBool]

/-- The predicate behind `partial_take_refs`, once every sibling redeemer is
known to parse. -/
def isPartialTake (self : Transaction) (ownHash : ScriptHash) (input : Input) : Bool :=
  sitsAt ownHash input.output &&
    match spendRedeemer self input.outputReference with
    | some (.takeOrderPartial _) => true
    | _ => false

/-- An input is a partial take of the script if it sits there and is spent by that
redeemer, whatever its datum says. -/
theorem isPartialTake_eq_true {self : Transaction} {ownHash : ScriptHash} {input : Input} :
    isPartialTake self ownHash input = true ↔
      sitsAt ownHash input.output = true ∧
        ∃ takeAmount,
          spendRedeemer self input.outputReference = some (.takeOrderPartial takeAmount) := by
  simp only [isPartialTake, Bool.and_eq_true, and_congr_right_iff]
  intro _
  cases h : spendRedeemer self input.outputReference with
  | none => simp
  | some redeemer => cases redeemer <;> simp

theorem partialTakeRef_eq_some {self : Transaction} {ownHash : ScriptHash} {input : Input}
    {kept : Option OutputReference} (h : partialTakeRef self ownHash input = some kept) :
    kept = if isPartialTake self ownHash input then some input.outputReference else none := by
  unfold partialTakeRef at h
  unfold isPartialTake
  split at h
  · next hsits =>
    rw [Option.map_eq_some_iff] at h
    obtain ⟨redeemer, hred, rfl⟩ := h
    cases redeemer <;> simp [hsits, hred]
  · next hsits =>
    simp only [Option.some.injEq] at h
    simp [hsits, ← h]

/-- **S, in closed form**: whenever the list is computed at all, it is the
references of the partially taken inputs. -/
theorem partialTakeRefs_eq_some {self : Transaction} {ownHash : ScriptHash}
    {refs : List OutputReference} (h : partialTakeRefs self ownHash = some refs) :
    refs = (self.inputs.filter (isPartialTake self ownHash)).map Input.outputReference := by
  unfold partialTakeRefs at h
  generalize self.inputs = inputs at h ⊢
  induction inputs generalizing refs with
  | nil => simpa using h.symm
  | cons input inputs ih =>
      rw [List.filterMapM_cons, Option.bind_eq_bind, Option.bind_eq_some_iff] at h
      obtain ⟨kept, hkept, h⟩ := h
      have hk := partialTakeRef_eq_some hkept
      by_cases hp : isPartialTake self ownHash input = true
      · rw [if_pos hp] at hk
        subst hk
        simp only [Option.bind_eq_bind, Option.bind_eq_some_iff, Option.pure_def,
          Option.some.injEq] at h
        obtain ⟨rest, hrest, rfl⟩ := h
        rw [List.filter_cons_of_pos hp, List.map_cons, ← ih hrest]
      · rw [if_neg hp] at hk
        subst hk
        rw [List.filter_cons_of_neg hp]
        exact ih h

/-- …and it is computed as soon as every input at the validator carries an
order redeemer. -/
theorem partialTakeRefs_of_redeemers {self : Transaction} {ownHash : ScriptHash}
    (h : ∀ input ∈ self.inputs, sitsAt ownHash input.output = true →
      (spendRedeemer self input.outputReference).isSome) :
    partialTakeRefs self ownHash =
      some ((self.inputs.filter (isPartialTake self ownHash)).map Input.outputReference) := by
  suffices ∃ refs, partialTakeRefs self ownHash = some refs by
    obtain ⟨refs, hrefs⟩ := this
    rw [hrefs, partialTakeRefs_eq_some hrefs]
  unfold partialTakeRefs
  generalize self.inputs = inputs at h ⊢
  induction inputs with
  | nil => exact ⟨[], rfl⟩
  | cons input inputs ih =>
      obtain ⟨refs, hrefs⟩ := ih fun i hi => h i (List.mem_cons_of_mem _ hi)
      have hkept : ∃ kept, partialTakeRef self ownHash input = some kept := by
        unfold partialTakeRef
        split
        · next hsits =>
          obtain ⟨redeemer, hred⟩ := Option.isSome_iff_exists.mp (h input List.mem_cons_self hsits)
          exact ⟨_, by rw [hred]; rfl⟩
        · exact ⟨_, rfl⟩
      obtain ⟨kept, hkept⟩ := hkept
      rw [List.filterMapM_cons, hkept]
      cases kept with
      | none => exact ⟨refs, hrefs⟩
      | some ref => exact ⟨ref :: refs, by simp [hrefs]⟩

/-- `own` and `ownHash` are what `own_input_and_hash` resolves `ownRef` to. -/
structure ResolvesTo (tx : Transaction) (ownRef : OutputReference) (own : Input)
    (ownHash : ScriptHash) : Prop where
  found : findInput tx.inputs ownRef = some own
  sits : sitsAt ownHash own.output = true

/-- What the validator knows of its own input: the one with the reference it was called
for, at the script hash of its address. -/
theorem ownInputAndHash_eq_some {self : Transaction} {ownRef : OutputReference} {own : Input}
    {ownHash : ScriptHash} :
    ownInputAndHash ownRef self = some (own, ownHash) ↔ ResolvesTo self ownRef own ownHash := by
  simp only [ownInputAndHash, Option.bind_eq_some_iff]
  constructor
  · rintro ⟨input, hfound, h⟩
    split at h
    · next hash hcred =>
      simp only [Option.some.injEq, Prod.mk.injEq] at h
      obtain ⟨rfl, rfl⟩ := h
      exact ⟨hfound, sitsAt_eq_true.mpr hcred⟩
    · cases h
  · rintro ⟨hfound, hsits⟩
    exact ⟨own, hfound, by rw [sitsAt_eq_true.mp hsits]⟩

/-- An input is found under its own reference when references are distinct. -/
theorem findInput_of_mem {inputs : List Input} {input : Input}
    (hnodup : (inputs.map Input.outputReference).Nodup) (hmem : input ∈ inputs) :
    findInput inputs input.outputReference = some input := by
  unfold findInput
  rw [List.find?_eq_some_iff_getElem]
  obtain ⟨i, hi, rfl⟩ := List.getElem_of_mem hmem
  refine ⟨by simp, i, hi, rfl, ?_⟩
  intro j hj
  have hne := List.nodup_iff_injective_getElem.mp hnodup
  simp only [Bool.not_eq_eq_eq_not, Bool.not_true, decide_eq_false_iff_not]
  intro heq
  have := @hne ⟨j, by simp; omega⟩ ⟨i, by simpa using hi⟩ (by simpa using heq)
  simp only [Fin.mk.injEq] at this
  omega

/-- There is one output with the tag of an order, or the check fails. -/
theorem taggedPayment_eq_some {self : Transaction} {ownRef : OutputReference} {payment : Output} :
    taggedPayment self ownRef = some payment ↔
      self.outputs.filter (hasPaymentTag ownRef) = [payment] := by
  unfold taggedPayment
  split
  · next p hp => simp [hp]
  · next hne =>
    constructor
    · intro h
      cases h
    · intro h
      exact absurd h (hne payment)

/-- An output bears the tag of an order if its inline datum is that reference, and nothing
else. -/
theorem hasPaymentTag_eq_true {ownRef : OutputReference} {output : Output} :
    hasPaymentTag ownRef output = true ↔
      output.datum = .inlineDatum (toData (PaymentTag.mk ownRef)) := by
  unfold hasPaymentTag
  cases hdatum : output.datum with
  | noDatum => simp
  | datumHash hash => simp
  | inlineDatum data =>
      simp only [Datum.inlineDatum.injEq]
      rw [← IsData.ofData_eq_some]
      cases htag : (ofData data : Option PaymentTag) with
      | none => simp
      | some tag => cases tag; simp

/-- The tagged payment is an output, and it names the order it settles. -/
theorem taggedPayment_spec {self : Transaction} {ownRef : OutputReference} {payment : Output}
    (h : taggedPayment self ownRef = some payment) :
    payment ∈ self.outputs ∧
      payment.datum = .inlineDatum (toData (PaymentTag.mk ownRef)) := by
  have hmem : payment ∈ self.outputs.filter (hasPaymentTag ownRef) := by
    rw [taggedPayment_eq_some.mp h]
    exact List.mem_singleton_self _
  rw [List.mem_filter, hasPaymentTag_eq_true] at hmem
  exact hmem

/-- **What an approved `CancelOrder` says.** -/
structure CancelAccepted (ownHash : ScriptHash) (tx : Transaction) (datum : OrderDatum)
    (ownerKeyHash : VerificationKeyHash) : Prop where
  owner : datum.owner = .verificationKey ownerKeyHash
  signed : ownerKeyHash ∈ tx.extraSignatories
  alone : tx.inputs.countP (fun input => sitsAt ownHash input.output) = 1
  burnt : ∀ output ∈ tx.outputs, Assets.tokens output.value datum.beaconPolicyId = 0

/-- The cancel branch accepts exactly what `CancelAccepted` says. -/
theorem cancelOk_eq_some_true {datum : OrderDatum} {ownRef : OutputReference} {self : Transaction}
    {own : Input} {ownHash : ScriptHash} (hown : ResolvesTo self ownRef own ownHash) :
    cancelOk datum ownRef self = some true ↔ ∃ key, CancelAccepted ownHash self datum key := by
  unfold cancelOk
  rw [ownInputAndHash_eq_some.mpr hown]
  simp only [Option.bind_eq_bind, Option.bind_some]
  constructor
  · intro h
    split at h
    · next key hkey =>
      simp only [Option.pure_def, Option.some.injEq, Bool.and_eq_true, List.contains_iff_mem,
        onlyOneOrderInput, decide_eq_true_eq, noBeaconsInOutputs, List.all_eq_true,
        Assets.isEmpty_eq_true] at h
      exact ⟨key, hkey, h.1.1, h.1.2, h.2⟩
    · cases h
  · rintro ⟨key, hacc⟩
    rw [hacc.owner]
    simp only [Option.pure_def, Option.some.injEq, Bool.and_eq_true, List.contains_iff_mem,
      onlyOneOrderInput, decide_eq_true_eq, noBeaconsInOutputs, List.all_eq_true,
      Assets.isEmpty_eq_true]
    exact ⟨⟨hacc.signed, hacc.alone⟩, hacc.burnt⟩

/-- A full payment of an ADA ask. -/
theorem takePaymentOk_of_ada {datum : OrderDatum} {deposit : ℤ} {payment : Value}
    (hask : isAda datum.ask = true) :
    takePaymentOk datum deposit payment = true ↔
      datum.askAmount + deposit ≤ Assets.lovelaceOf payment ∧
        Assets.withoutLovelace payment = 0 := by
  simp [takePaymentOk, hask, Assets.isZero]

/-- A full payment of a token ask. -/
theorem takePaymentOk_of_token {datum : OrderDatum} {deposit : ℤ} {payment : Value}
    (hask : isAda datum.ask = false) :
    takePaymentOk datum deposit payment = true ↔
      deposit ≤ Assets.lovelaceOf payment ∧
        payment = Assets.fromLovelace (Assets.lovelaceOf payment) +
          datum.ask.amount datum.askAmount := by
  simp only [takePaymentOk, hask, Bool.false_eq_true, if_false, Bool.and_eq_true,
    decide_eq_true_eq, ge_iff_le]
  rfl

/-- A part payment of an ADA ask. -/
theorem takePartialPaymentOk_of_ada {datum : OrderDatum} {required : ℤ} {payment : Value}
    (hask : isAda datum.ask = true) :
    takePartialPaymentOk datum required payment = true ↔
      required ≤ Assets.lovelaceOf payment ∧ Assets.withoutLovelace payment = 0 := by
  simp [takePartialPaymentOk, hask, Assets.isZero]

/-- A part payment of a token ask. -/
theorem takePartialPaymentOk_of_token {datum : OrderDatum} {required : ℤ} {payment : Value}
    (hask : isAda datum.ask = false) :
    takePartialPaymentOk datum required payment = true ↔
      payment = Assets.fromLovelace (Assets.lovelaceOf payment) + datum.ask.amount required := by
  simp only [takePartialPaymentOk, hask, Bool.false_eq_true, if_false, decide_eq_true_eq]
  rfl

/-- **What an approved `TakeOrder` says**: one output is tagged with the order, it pays
what is asked at the seller's address, the beacons that are left over in outputs are as
many as the partial takes beside it, and the order has not expired. -/
structure TakeAccepted (ownHash : ScriptHash) (tx : Transaction) (own : Input)
    (datum : OrderDatum) (payment : Output) (refs : List OutputReference) : Prop where
  version : datum.version = 1
  tagged : taggedPayment tx own.outputReference = some payment
  paymentAddress : payment.address = datum.paymentAddress
  paymentValue : takePaymentOk datum (depositOf datum own.output.value) payment.value = true
  partialRefs : partialTakeRefs tx ownHash = some refs
  accounting : (beaconBearingOutputs tx datum.beaconPolicyId).length = refs.length
  expiration : expirationOk datum.expiration tx = true

/-- The branch for a whole order accepts exactly what `TakeAccepted` says. -/
theorem takeOk_eq_some_true {datum : OrderDatum} {self : Transaction} {own : Input}
    {ownHash : ScriptHash} (hown : ResolvesTo self own.outputReference own ownHash) :
    takeOk datum own.outputReference self = some true ↔
      ∃ payment refs, TakeAccepted ownHash self own datum payment refs := by
  unfold takeOk beaconAccountingOk
  rw [ownInputAndHash_eq_some.mpr hown]
  simp only [Option.bind_eq_bind, Option.bind_some, Option.bind_eq_some_iff, andM_eq_some_true,
    Option.pure_def, Option.some.injEq, decide_eq_true_eq]
  constructor
  · rintro ⟨payment, htag, hver, haddr, ⟨refs, hrefs, hcount⟩, hval, hexp⟩
    exact ⟨payment, refs, hver, htag, haddr, hval, hrefs, hcount, hexp⟩
  · rintro ⟨payment, refs, h⟩
    exact ⟨payment, h.tagged, h.version, h.paymentAddress, ⟨refs, h.partialRefs, h.accounting⟩,
      h.paymentValue, h.expiration⟩

/-- `continuation` re-creates the consumed order `own` after a fill of
`takeAmount` that owed `required`. -/
structure IsContinuation (own : Output) (datum : OrderDatum) (takeAmount required : ℤ)
    (continuation : Output) : Prop where
  address : continuation.address = own.address
  value : continuation.value = continuationValue datum takeAmount own.value
  datum : continuation.datum = .inlineDatum (toData (reducedDatum datum takeAmount required))
  referenceScript : continuation.referenceScript = none

/-- The datum of a continuation has to be the expected one, all of it. -/
theorem continuationDatumOk_eq_some_true {expected : OrderDatum} {continuation : Output} :
    continuationDatumOk expected continuation = some true ↔
      continuation.datum = .inlineDatum (toData expected) := by
  unfold continuationDatumOk
  cases hdatum : continuation.datum with
  | noDatum => simp
  | datumHash hash => simp
  | inlineDatum raw =>
      simp only [Datum.inlineDatum.injEq]
      rw [← IsData.ofData_eq_some]
      cases hraw : (ofData raw : Option OrderDatum) <;> simp

/-- **What an approved `TakeOrderPartial` says.**  `rank` is this input's
position in S, and `continuation` the output of that position in C. -/
structure TakePartialAccepted (ownHash : ScriptHash) (tx : Transaction) (own : Input)
    (datum : OrderDatum) (takeAmount required : ℤ) (payment : Output)
    (refs : List OutputReference) (rank : ℕ) (continuation : Output) : Prop where
  version : datum.version = 1
  allowed : datum.allowPartialFill = true
  takeAmount_pos : 0 < takeAmount
  takeAmount_lt : takeAmount < datum.offerAmount
  required_eq : requiredPayment takeAmount datum.askAmount datum.offerAmount = some required
  required_lt : required < datum.askAmount
  tagged : taggedPayment tx own.outputReference = some payment
  paymentAddress : payment.address = datum.paymentAddress
  paymentValue : takePartialPaymentOk datum required payment.value = true
  partialRefs : partialTakeRefs tx ownHash = some refs
  rank_eq : refs.idxOf? own.outputReference = some rank
  accounting : (beaconBearingOutputs tx datum.beaconPolicyId).length = refs.length
  continuation_eq : (beaconBearingOutputs tx datum.beaconPolicyId)[rank]? = some continuation
  isContinuation : IsContinuation own.output datum takeAmount required continuation
  expiration : expirationOk datum.expiration tx = true

/-- The branch for a part accepts exactly what `TakePartialAccepted` says. -/
theorem takePartialOk_eq_some_true {datum : OrderDatum} {takeAmount : ℤ} {self : Transaction}
    {own : Input} {ownHash : ScriptHash} (hown : ResolvesTo self own.outputReference own ownHash) :
    takePartialOk datum takeAmount own.outputReference self = some true ↔
      ∃ required payment refs rank continuation,
        TakePartialAccepted ownHash self own datum takeAmount required payment refs rank
          continuation := by
  unfold takePartialOk
  rw [ownInputAndHash_eq_some.mpr hown]
  simp only [Option.bind_eq_bind, Option.bind_some, Option.bind_eq_some_iff, Option.pure_def,
    Option.some.injEq, Bool.and_eq_true, decide_eq_true_eq]
  constructor
  · rintro ⟨required, hreq, payment, htag, refs, hrefs, rank, hrank, continuation, hcont, ok, hok,
      h⟩
    obtain ⟨⟨⟨⟨⟨⟨⟨⟨⟨⟨⟨⟨hver, hallow⟩, hpos⟩, hlt⟩, hreqlt⟩, hpay⟩, hval⟩, hlen⟩, haddr⟩, hcval⟩,
      rfl⟩, hscript⟩, hexp⟩ := h
    exact ⟨required, payment, refs, rank, continuation, hver, hallow, hpos, hlt, hreq, hreqlt, htag,
      hpay, hval, hrefs, hrank, hlen, hcont,
      ⟨haddr, hcval, continuationDatumOk_eq_some_true.mp hok, hscript⟩, hexp⟩
  · rintro ⟨required, payment, refs, rank, continuation, h⟩
    exact ⟨required, h.required_eq, payment, h.tagged, refs, h.partialRefs, rank, h.rank_eq,
      continuation, h.continuation_eq, true,
      continuationDatumOk_eq_some_true.mpr h.isContinuation.datum,
      ⟨⟨⟨⟨⟨⟨⟨⟨⟨⟨⟨⟨h.version, h.allowed⟩, h.takeAmount_pos⟩, h.takeAmount_lt⟩, h.required_lt⟩,
        h.paymentAddress⟩, h.paymentValue⟩, h.accounting⟩, h.isContinuation.address⟩,
        h.isContinuation.value⟩, rfl⟩, h.isContinuation.referenceScript⟩, h.expiration⟩⟩

end BeaconDex
