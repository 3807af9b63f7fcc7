import BeaconDex.Pricing

/-!
# Order lineages

An order outlives its UTxO: every partial take replaces it by its continuation.
`follow` is the chain reader's view of one order, transaction by transaction:
which UTxO it is in now and how it was spent so far.  `LineageSafe` says what the
owner can rely on at every point, and `lineage_safe` that it holds in every run
after the creation, whatever else happens in the same transactions.

## Why a history and not a state

The amounts of the tip say what is left, and not what was paid for the rest.  The
promise to the owner is about both: each spend was one they allowed, each paid them what
its branch of the validator asks for, and the parts and the remainder add up to the
original order.  `TipInvariant` therefore carries the list of spends, and one more spend
is appended at its end, as the chain does.

## What may happen beside it

A step is a whole ledger transaction, which may spend any other orders, mint beacons and
pay anyone.  The step lemma looks at the one input that spends the tip, and needs of the
rest only that the ledger accepted it.
-/

namespace BeaconDex

open Library

variable {d : Deployment} {tx : Transaction}

/-!
## Following an order

The reader of the chain looks for the transaction that spends the current tip, by its
redeemer decides what has happened, and in the case of a fill moves on to the output
that is the continuation by rank.
-/

/-- One spend of an order or of a continuation of it. -/
structure Spend where
  ref : OutputReference
  tx : Transaction
  redeemer : OrderRedeemer

/-- Where an order stands: its current UTxO, unless it is closed, and its spends
so far. -/
structure Lineage where
  tip : Option OutputReference
  spends : List Spend

/-- The reference of the continuation of a partially taken input: of the
beacon-bearing outputs of its policy, the one at its rank. -/
def continuationRef (txId : Bytes) (tx : Transaction) (orderScriptHash : ScriptHash)
    (input : Input) : Option OutputReference := do
  let datum ← orderDatum tx input
  let refs ← partialTakeRefs tx orderScriptHash
  let rank ← refs.idxOf? input.outputReference
  let continuation ←
    (tx.outputs.zipIdx.filter fun output => bearsBeacons datum.beaconPolicyId output.1)[rank]?
  return ⟨txId, continuation.2⟩

/-- Follow an order over one transaction. -/
def follow (orderScriptHash : ScriptHash) (lineage : Lineage) (submitted : Bytes × Transaction) :
    Lineage :=
  match lineage.tip with
  | none => lineage
  | some ref =>
      match findInput submitted.2.inputs ref, spendRedeemer submitted.2 ref with
      | some input, some redeemer =>
          { tip :=
              match redeemer with
              | .takeOrderPartial _ =>
                  continuationRef submitted.1 submitted.2 orderScriptHash input
              | _ => none
            spends := lineage.spends ++ [⟨ref, submitted.2, redeemer⟩] }
      | _, _ => lineage

/-- The fill a spend amounts to, when it is a partial take. -/
def Spend.fill (spend : Spend) : Option Fill :=
  match spend.redeemer with
  | .takeOrderPartial takeAmount => do
      let input ← findInput spend.tx.inputs spend.ref
      let datum ← orderDatum spend.tx input
      let required ← requiredPayment takeAmount datum.askAmount datum.offerAmount
      return ⟨takeAmount, required⟩
  | _ => none

/-- The partial takes of a lineage. -/
def Lineage.fills (lineage : Lineage) : List Fill := lineage.spends.filterMap Spend.fill

/-- What the tagged output of a take holds of an asset. -/
def Spend.delivered (asset : AssetClass) (spend : Spend) : ℤ :=
  match spend.redeemer with
  | .cancelOrder => 0
  | _ => ((taggedPayment spend.tx spend.ref).map fun payment => held asset payment.value).getD 0

/-- How much of an asset all spends of a lineage have delivered to the seller. -/
def Lineage.delivered (asset : AssetClass) (lineage : Lineage) : ℤ :=
  (lineage.spends.map (Spend.delivered asset)).sum

/-!
## What the owner relies on

Stated on what an outside reader sees: the list of spends, the tip, and the output that
is there.
-/

/-- A spend the owner agreed to: by signature, or, for a take, by not letting the
order expire before it. -/
def Authorized (original : OrderDatum) (spend : Spend) : Prop :=
  match spend.redeemer with
  | .cancelOrder =>
      ∃ key, original.owner = .verificationKey key ∧ key ∈ spend.tx.extraSignatories
  | _ =>
      (∀ t, original.expiration = some t →
        ∃ upper, spend.tx.validityRange.upperBound.boundType = .finite upper ∧ upper ≤ t) ∧
      ∃ payment, taggedPayment spend.tx spend.ref = some payment ∧
        payment.address = original.paymentAddress

/-- The order `original`, created in `origin`, after `fills`, as it lies in `output`: at
the same address, with the same datum but for the two amounts, which are what the fills
have left, and with the deposit and the beacons it was created with. -/
structure LiveOrder (d : Deployment) (origin : Output) (original : OrderDatum)
    (names : List AssetName) (fills : List Fill) (output : Output) (datum : OrderDatum) :
    Prop where
  address : output.address = origin.address
  inline : output.datum = .inlineDatum (toData datum)
  datum_eq : datum =
    { original with offerAmount := datum.offerAmount, askAmount := datum.askAmount }
  offer_pos : 0 < datum.offerAmount
  ask_pos : 0 < datum.askAmount
  offer_eq : datum.offerAmount = original.offerAmount - totalTaken fills
  ask_eq : totalRequired fills + datum.askAmount = original.askAmount
  value : output.value = Assets.fromLovelace (depositOf original origin.value) +
    original.offer.amount datum.offerAmount + oneOfEach d.policyId names

/-- **The guarantee of a lineage**, in a UTxO set.  All spends so far were authorised by
the terms of the order, all fills took something, and a tip that is there lies in the set
as a live order.  A closed lineage was cancelled, or was taken with the whole ask
delivered. -/
structure LineageSafe (d : Deployment) (origin : Output) (original : OrderDatum)
    (names : List AssetName) (utxo : Utxo) (lineage : Lineage) : Prop where
  authorized : ∀ spend ∈ lineage.spends, Authorized original spend
  fills_pos : ∀ fill ∈ lineage.fills, 0 < fill.takeAmount
  live : ∀ ref, lineage.tip = some ref →
    ∃ output datum, utxo ref = some output ∧
      LiveOrder d origin original names lineage.fills output datum
  closed : lineage.tip = none → ∃ last, lineage.spends.getLast? = some last ∧
    (last.redeemer = .cancelOrder ∨ last.redeemer = .takeOrder ∧
      (isAda original.ask = false → lineage.delivered original.ask = original.askAmount) ∧
      (isAda original.ask = true →
        original.askAmount + depositOf original origin.value ≤ lineage.delivered original.ask))

/-!
## One spend

A transaction that does not spend the tip leaves it as it is.  One that does has been
approved for it, and the three records of an approval give the three ways in which the
lineage goes on.
-/

/-- What is kept of a live order along a run: it is well formed, on the terms of the
original, with its deposit, its amounts are those a run of fills has left, and what has
been delivered is what the fills owed. -/
structure TipInvariant (d : Deployment) (origin : Output) (original : OrderDatum)
    (owner : VerificationKeyHash) (names : List AssetName) (lineage : Lineage) (output : Output)
    (datum : OrderDatum) : Prop where
  order : WellFormedOrder d.sha2_256 d.orderScriptHash d.policyId output datum owner names
  address : output.address = origin.address
  datum_eq : datum =
    { original with offerAmount := datum.offerAmount, askAmount := datum.askAmount }
  deposit : depositOf datum output.value = depositOf original origin.value
  fills : Run FillStep original.remainder lineage.fills datum.remainder
  delivered_token : isAda original.ask = false →
    lineage.delivered original.ask = totalRequired lineage.fills
  delivered_ada : isAda original.ask = true →
    totalRequired lineage.fills ≤ lineage.delivered original.ask

namespace TipInvariant

variable {origin output : Output} {original datum : OrderDatum} {owner : VerificationKeyHash}
variable {names : List AssetName} {lineage : Lineage}

/-- The amounts of the tip and of the fills are a split of the original order's, as the
price bounds are about. -/
theorem split (h : TipInvariant d origin original owner names lineage output datum)
    (hpos : 0 < original.offerAmount ∧ 0 < original.askAmount) :
    SplitInvariant original.remainder datum.remainder lineage.fills :=
  .of_run hpos h.fills

theorem liveOrder (h : TipInvariant d origin original owner names lineage output datum)
    (hpos : 0 < original.offerAmount ∧ 0 < original.askAmount) :
    LiveOrder d origin original names lineage.fills output datum where
  address := h.address
  inline := h.order.inline
  datum_eq := h.datum_eq
  offer_pos := h.order.offerAmount_pos
  ask_pos := h.order.askAmount_pos
  offer_eq := (h.split hpos).taken
  ask_eq := by
    have hpaid : datum.askAmount = original.askAmount - totalRequired lineage.fills :=
      (h.split hpos).paid
    omega
  value := by
    have hoffer : datum.offer = original.offer := (congrArg OrderDatum.offer h.datum_eq :)
    rw [← h.deposit, ← hoffer]
    exact h.order.value_eq_deposit

/-- What a fill may not touch is as the seller wrote it, however many fills there were:
the expiration here, and the three fields below. -/
theorem expiration_eq (h : TipInvariant d origin original owner names lineage output datum) :
    datum.expiration = original.expiration := (congrArg OrderDatum.expiration h.datum_eq :)

theorem paymentAddress_eq (h : TipInvariant d origin original owner names lineage output datum) :
    datum.paymentAddress = original.paymentAddress :=
  (congrArg OrderDatum.paymentAddress h.datum_eq :)

theorem ask_eq (h : TipInvariant d origin original owner names lineage output datum) :
    datum.ask = original.ask := (congrArg OrderDatum.ask h.datum_eq :)

theorem owner_eq (h : TipInvariant d origin original owner names lineage output datum) :
    datum.owner = original.owner := (congrArg OrderDatum.owner h.datum_eq :)

end TipInvariant

/-- The expiration check accepts a transaction that has an upper bound of its own not
after the expiration, and any transaction where there is none. -/
theorem expirationOk_eq_true {expiration : Option ℤ} :
    expirationOk expiration tx = true ↔ ∀ t, expiration = some t →
      ∃ upper, tx.validityRange.upperBound.boundType = .finite upper ∧ upper ≤ t := by
  unfold expirationOk
  cases expiration with
  | none => simp
  | some t => cases tx.validityRange.upperBound.boundType <;> simp

/-- Filtering a list leaves each kept element at a position of the list. -/
theorem getElem?_filter_zipIdx {p : Output → Bool} {outputs : List Output} {rank : ℕ}
    {out : Output} (h : (outputs.filter p)[rank]? = some out) :
    ∃ j, (outputs.zipIdx.filter fun output => p output.1)[rank]? = some (out, j) ∧
      outputs[j]? = some out := by
  have hmap : outputs.filter p = (outputs.zipIdx.filter fun output => p output.1).map Prod.fst := by
    conv_lhs => rw [← List.zipIdx_map_fst 0 outputs, List.filter_map]
    rfl
  rw [hmap, List.getElem?_map, Option.map_eq_some_iff] at h
  obtain ⟨⟨out', j⟩, hj, rfl⟩ := h
  have hmem := (List.mem_filter.mp (List.mem_of_getElem? hj)).1
  exact ⟨j, hj, List.mk_mem_zipIdx_iff_getElem?.mp hmem⟩

/-- The continuation of an approved partial take is where the reader looks. -/
theorem TakePartialAccepted.continuationRef_eq {orderScriptHash : ScriptHash} {own : Input}
    {datum : OrderDatum} {takeAmount required : ℤ} {payment : Output} {refs : List OutputReference}
    {rank : ℕ} {continuation : Output}
    (h : TakePartialAccepted orderScriptHash tx own datum takeAmount required payment refs rank
      continuation) (hdatum : orderDatum tx own = some datum) (txId : Bytes) :
    ∃ j : ℕ, continuationRef txId tx orderScriptHash own = some ⟨txId, j⟩ ∧
      tx.outputs[j]? = some continuation := by
  obtain ⟨j, hj, hout⟩ := getElem?_filter_zipIdx h.continuation_eq
  refine ⟨j, ?_, hout⟩
  simp only [continuationRef, hdatum, h.partialRefs, h.rank_eq, hj, Option.bind_eq_bind,
    Option.bind_some, Option.pure_def]

/-- One more spend adds its fill, if it is one, at the end of the history. -/
theorem Lineage.fills_concat (tip tip' : Option OutputReference) (spends : List Spend)
    (spend : Spend) :
    Lineage.fills ⟨tip, spends ++ [spend]⟩ =
      Lineage.fills ⟨tip', spends⟩ ++ spend.fill.toList := by
  rw [fills, fills, List.filterMap_append]
  cases h : spend.fill <;> simp [h]

theorem Lineage.delivered_concat (asset : AssetClass) (tip tip' : Option OutputReference)
    (spends : List Spend) (spend : Spend) :
    Lineage.delivered asset ⟨tip, spends ++ [spend]⟩ =
      Lineage.delivered asset ⟨tip', spends⟩ + spend.delivered asset := by
  simp [delivered]

/-- A partial take is the fill it asks for. -/
theorem TakePartialAccepted.fill_eq {orderScriptHash : ScriptHash} {own : Input}
    {datum : OrderDatum} {takeAmount required : ℤ} {payment : Output} {refs : List OutputReference}
    {rank : ℕ} {continuation : Output}
    (h : TakePartialAccepted orderScriptHash tx own datum takeAmount required payment refs rank
      continuation) (hfound : findInput tx.inputs own.outputReference = some own)
    (hdatum : orderDatum tx own = some datum) :
    Spend.fill ⟨own.outputReference, tx, .takeOrderPartial takeAmount⟩ =
      some ⟨takeAmount, required⟩ := by
  simp only [Spend.fill, hfound, hdatum, h.required_eq, Option.bind_eq_bind, Option.bind_some,
    Option.pure_def]

/-- What is kept of an order passes to its continuation. -/
theorem TipInvariant.continued {origin : Output} {original : OrderDatum}
    {owner : VerificationKeyHash} {names : List AssetName} {spends : List Spend} {input : Input}
    {datum : OrderDatum} {takeAmount required : ℤ} {payment continuation : Output}
    {refs : List OutputReference} {rank : ℕ}
    (h : TipInvariant d origin original owner names ⟨some input.outputReference, spends⟩
      input.output datum)
    (hfound : findInput tx.inputs input.outputReference = some input)
    (hdatum : orderDatum tx input = some datum)
    (hacc : TakePartialAccepted d.orderScriptHash tx input datum takeAmount required payment refs
      rank continuation) (tip : OutputReference) :
    TipInvariant d origin original owner names
      ⟨some tip, spends ++ [⟨input.outputReference, tx, .takeOrderPartial takeAmount⟩]⟩
      continuation (reducedDatum datum takeAmount required) := by
  have hfills : Lineage.fills
      ⟨some tip, spends ++ [⟨input.outputReference, tx, .takeOrderPartial takeAmount⟩]⟩ =
      Lineage.fills ⟨some input.outputReference, spends⟩ ++ [⟨takeAmount, required⟩] := by
    rw [Lineage.fills_concat _ (some input.outputReference), hacc.fill_eq hfound hdatum,
      Option.toList_some]
  have htotal : ∀ fills : List Fill,
      totalRequired (fills ++ [⟨takeAmount, required⟩]) = totalRequired fills + required := by
    simp [totalRequired]
  have hdelivered : Lineage.delivered original.ask
      ⟨some tip, spends ++ [⟨input.outputReference, tx, .takeOrderPartial takeAmount⟩]⟩ =
      Lineage.delivered original.ask ⟨some input.outputReference, spends⟩ +
        held original.ask payment.value := by
    rw [Lineage.delivered_concat _ _ (some input.outputReference), Spend.delivered, hacc.tagged]
    rfl
  refine ⟨?_, ?_, ?_, ?_, ?_, ?_, ?_⟩
  · exact h.order.continuation hacc.takeAmount_lt hacc.required_lt hacc.isContinuation
  · rw [hacc.isContinuation.address, h.address]
  · conv_lhs => rw [h.datum_eq]
    rfl
  · rw [hacc.isContinuation.depositOf_eq, h.deposit]
  · rw [hfills]
    exact h.fills.concat hacc.fillStep
  · intro hask
    have hvalue := hacc.paymentValue
    rw [takePartialPaymentOk_of_token (by rw [h.ask_eq, hask])] at hvalue
    have hpaid : held original.ask payment.value = required := by
      rw [hvalue, h.ask_eq, held_payment hask]
    rw [hfills, htotal, hdelivered, h.delivered_token hask, hpaid]
  · intro hask
    have hvalue := hacc.paymentValue
    rw [takePartialPaymentOk_of_ada (by rw [h.ask_eq, hask])] at hvalue
    have hpaid := h.delivered_ada hask
    rw [hfills, htotal, hdelivered, held_of_isAda hask]
    omega

/-- Everything kept along a run.  It is the guarantee with the invariant of the tip in
place of what the owner sees of it; the latter follows (`TipInvariant.liveOrder`), and
would not be enough to go on with. -/
structure LineageInvariant (d : Deployment) (origin : Output) (original : OrderDatum)
    (owner : VerificationKeyHash) (names : List AssetName) (utxo : Utxo) (lineage : Lineage) :
    Prop where
  authorized : ∀ spend ∈ lineage.spends, Authorized original spend
  fills_pos : ∀ fill ∈ lineage.fills, 0 < fill.takeAmount
  live : ∀ ref, lineage.tip = some ref →
    ∃ output datum, utxo ref = some output ∧
      TipInvariant d origin original owner names lineage output datum
  closed : lineage.tip = none → ∃ last, lineage.spends.getLast? = some last ∧
    (last.redeemer = .cancelOrder ∨ last.redeemer = .takeOrder ∧
      (isAda original.ask = false → lineage.delivered original.ask = original.askAmount) ∧
      (isAda original.ask = true →
        original.askAmount + depositOf original origin.value ≤ lineage.delivered original.ask))

namespace LineageInvariant

variable {origin : Output} {original : OrderDatum} {owner : VerificationKeyHash}
variable {names : List AssetName} {utxo utxo' : Utxo} {txId : Bytes} {spends : List Spend}
variable {ref : OutputReference} {input : Input} {datum : OrderDatum}

/-- Spends that the seller has authorised stay so when another that is authorised follows. -/
theorem authorized_concat (h : ∀ spend ∈ spends, Authorized original spend) {spend : Spend}
    (hspend : Authorized original spend) : ∀ s ∈ spends ++ [spend], Authorized original s := by
  intro s hs
  rcases List.mem_append.mp hs with hold | hnew
  · exact h s hold
  · rw [List.mem_singleton.mp hnew]
    exact hspend

/-- The owner cancels. -/
theorem cancelled {key : VerificationKeyHash}
    (h : LineageInvariant d origin original owner names utxo ⟨some ref, spends⟩)
    (htip : TipInvariant d origin original owner names ⟨some ref, spends⟩ input.output datum)
    (hacc : CancelAccepted d.orderScriptHash tx datum key) :
    LineageInvariant d origin original owner names utxo'
      ⟨none, spends ++ [⟨ref, tx, .cancelOrder⟩]⟩ where
  authorized :=
    authorized_concat h.authorized ⟨key, htip.owner_eq.symm.trans hacc.owner, hacc.signed⟩
  fills_pos := by
    rw [Lineage.fills_concat none (some ref)]
    simpa [Spend.fill] using h.fills_pos
  live := fun _ hnone => by cases hnone
  closed := fun _ => ⟨_, List.getLast?_concat, Or.inl rfl⟩

/-- The order is taken in full: what is still asked is paid. -/
theorem taken {payment : Output} {refs : List OutputReference}
    (h : LineageInvariant d origin original owner names utxo ⟨some input.outputReference, spends⟩)
    (hpos : 0 < original.offerAmount ∧ 0 < original.askAmount)
    (htip : TipInvariant d origin original owner names ⟨some input.outputReference, spends⟩
      input.output datum)
    (hacc : TakeAccepted d.orderScriptHash tx input datum payment refs) :
    LineageInvariant d origin original owner names utxo'
      ⟨none, spends ++ [⟨input.outputReference, tx, .takeOrder⟩]⟩ where
  authorized := authorized_concat h.authorized
    ⟨htip.expiration_eq ▸ expirationOk_eq_true.mp hacc.expiration, payment, hacc.tagged,
      hacc.paymentAddress.trans htip.paymentAddress_eq⟩
  fills_pos := by
    rw [Lineage.fills_concat none (some input.outputReference)]
    simpa [Spend.fill] using h.fills_pos
  live := fun _ hnone => by cases hnone
  closed := by
    refine fun _ => ⟨_, List.getLast?_concat, Or.inr ⟨rfl, fun hask => ?_, fun hask => ?_⟩⟩
    · have hvalue := hacc.paymentValue
      rw [takePaymentOk_of_token (by rw [htip.ask_eq, hask])] at hvalue
      have hpaid : held original.ask payment.value = datum.askAmount := by
        rw [hvalue.2, htip.ask_eq, held_payment hask]
      have hremaining := (htip.liveOrder hpos).ask_eq
      rw [Lineage.delivered_concat _ none (some input.outputReference), htip.delivered_token hask,
        Spend.delivered, hacc.tagged]
      simpa [hpaid] using hremaining
    · have hvalue := hacc.paymentValue
      rw [takePaymentOk_of_ada (by rw [htip.ask_eq, hask]), htip.deposit] at hvalue
      have hpaid := htip.delivered_ada hask
      have hremaining := (htip.liveOrder hpos).ask_eq
      rw [Lineage.delivered_concat _ none (some input.outputReference), Spend.delivered,
        hacc.tagged]
      simp only [Option.map_some, Option.getD_some, held_of_isAda hask]
      omega

/-- The order is taken in part: it goes on in its continuation. -/
theorem partiallyTaken {takeAmount required : ℤ} {payment continuation : Output}
    {refs : List OutputReference} {rank : ℕ} {tip : OutputReference}
    (h : LineageInvariant d origin original owner names utxo ⟨some input.outputReference, spends⟩)
    (htip : TipInvariant d origin original owner names ⟨some input.outputReference, spends⟩
      input.output datum)
    (hfound : findInput tx.inputs input.outputReference = some input)
    (hdatum : orderDatum tx input = some datum)
    (hacc : TakePartialAccepted d.orderScriptHash tx input datum takeAmount required payment refs
      rank continuation)
    (hlive : utxo' tip = some continuation) :
    LineageInvariant d origin original owner names utxo'
      ⟨some tip, spends ++ [⟨input.outputReference, tx, .takeOrderPartial takeAmount⟩]⟩ where
  authorized := authorized_concat h.authorized
    ⟨htip.expiration_eq ▸ expirationOk_eq_true.mp hacc.expiration, payment, hacc.tagged,
      hacc.paymentAddress.trans htip.paymentAddress_eq⟩
  fills_pos := by
    intro fill hmem
    rw [Lineage.fills_concat _ (some input.outputReference),
      hacc.fill_eq hfound hdatum, Option.toList_some] at hmem
    rcases List.mem_append.mp hmem with hold | hnew
    · exact h.fills_pos fill hold
    · rw [List.mem_singleton.mp hnew]
      exact hacc.takeAmount_pos
  live := by
    rintro ref' ⟨⟩
    exact ⟨continuation, _, hlive, htip.continued hfound hdatum hacc tip⟩
  closed := fun hnone => by cases hnone

/-- **Step lemma.** -/
theorem step {submitted : Bytes × Transaction} {lineage : Lineage}
    (hpos : 0 < original.offerAmount ∧ 0 < original.askAmount)
    (hstep : Step d utxo submitted utxo')
    (h : LineageInvariant d origin original owner names utxo lineage) :
    LineageInvariant d origin original owner names utxo'
      (follow d.orderScriptHash lineage submitted) := by
  obtain ⟨txId, tx⟩ := submitted
  obtain ⟨tip, spends⟩ := lineage
  cases tip with
  | none => exact ⟨h.authorized, h.fills_pos, (fun _ hnone => nomatch hnone), h.closed⟩
  | some ref =>
      obtain ⟨output, datum, hlive, htip⟩ := h.live ref rfl
      cases hfound : findInput tx.inputs ref with
      | none =>
          simp only [follow, hfound]
          refine ⟨h.authorized, h.fills_pos, ?_, h.closed⟩
          rintro ref' ⟨⟩
          exact ⟨output, datum, hstep.kept hlive hfound, htip⟩
      | some input =>
          obtain ⟨hmem, rfl⟩ := findInput_eq_some hfound
          obtain rfl := hstep.output_eq hlive hfound
          obtain ⟨datum', hdatum, hspent⟩ :=
            hstep.valid.orders.spent hstep.valid.distinct hmem htip.order.sits
          obtain rfl := eq_of_orderDatum htip.order.inline hdatum
          cases hspent with
          | cancelled key hred hacc =>
              simp only [follow, hfound, hred]
              exact h.cancelled htip hacc
          | taken payment refs hred hacc =>
              simp only [follow, hfound, hred]
              exact h.taken hpos htip hacc
          | partiallyTaken takeAmount required payment refs rank continuation hred hacc =>
              obtain ⟨j, href, hout⟩ := hacc.continuationRef_eq hdatum txId
              simp only [follow, hfound, hred, href]
              exact h.partiallyTaken htip hfound hdatum hacc (hstep.created hout)

/-- The invariant is the guarantee. -/
theorem safe {lineage : Lineage} (hpos : 0 < original.offerAmount ∧ 0 < original.askAmount)
    (h : LineageInvariant d origin original owner names utxo lineage) :
    LineageSafe d origin original names utxo lineage where
  authorized := h.authorized
  fills_pos := h.fills_pos
  live := by
    intro ref href
    obtain ⟨output, datum, hlive, htip⟩ := h.live ref href
    exact ⟨output, datum, hlive, htip.liveOrder hpos⟩
  closed := h.closed

/-- A new order starts a lineage. -/
theorem start {utxo : Utxo} {ref : OutputReference} (hlive : utxo ref = some origin)
    (horder : WellFormedOrder d.sha2_256 d.orderScriptHash d.policyId origin original owner names) :
    LineageInvariant d origin original owner names utxo ⟨some ref, []⟩ where
  authorized := fun _ hmem => by cases hmem
  fills_pos := fun _ hmem => by cases hmem
  live := by
    rintro ref' ⟨⟩
    exact ⟨origin, original, hlive, horder, rfl, rfl, rfl, .nil _, fun _ => rfl, fun _ => le_rfl⟩
  closed := fun hnone => by cases hnone

end LineageInvariant

/-- **Lineage safety.**  Create an order and let any transactions follow: every
spend of it or of a continuation was agreed to by its owner, what is live of it
is the original minus the takes, and when it is finally taken its owner has been
paid the whole ask — exactly in a token, at least (with the deposit) in ADA. -/
theorem lineage_safe {utxo₀ utxo utxo' : Utxo} {txId : Bytes} {i : ℕ} {origin : Output}
    {submitted : List (Bytes × Transaction)} (hcreate : Step d utxo₀ (txId, tx) utxo)
    (hmint : mintBeaconsOk d.sha2_256 d.orderScriptHash d.policyId tx = some true)
    (hout : tx.outputs[i]? = some origin) (hbears : bearsBeacons d.policyId origin = true)
    (hrun : Run (Step d) utxo submitted utxo') :
    ∃ original owner names, origin.datum = .inlineDatum (toData original) ∧
      original.owner = .verificationKey owner ∧
      beaconNames d.sha2_256 original.offer original.ask owner = some names ∧
      LineageSafe d origin original names utxo'
        (submitted.foldl (follow d.orderScriptHash) ⟨some ⟨txId, i⟩, []⟩) := by
  obtain ⟨output, original, owner, names, hacc⟩ := (mintBeaconsOk_eq_some_true _).mp hmint
  have hmem : origin ∈ beaconBearingOutputs tx d.policyId :=
    List.mem_filter.mpr ⟨List.mem_of_getElem? hout, hbears⟩
  rw [hacc.only, List.mem_singleton] at hmem
  subst hmem
  have hpos := And.intro hacc.order.offerAmount_pos hacc.order.askAmount_pos
  have hstart : LineageInvariant d origin original owner names utxo ⟨some ⟨txId, i⟩, []⟩ :=
    .start (hcreate.created hout) hacc.order
  have hinv := hrun.tracks
    (fun utxo submitted utxo' lineage hstep => LineageInvariant.step hpos hstep) hstart
  exact ⟨original, owner, names, hacc.order.inline, hacc.order.owner, hacc.order.names_eq,
    hinv.safe hpos⟩

namespace Sample

/-- Five tokens for ten ADA, with a deposit of two ADA. -/
def purchase : OrderDatum := order token 5 ada 10000000

/-- Takes the `purchase` at `ref 1 0` in full, paying the seller thirteen ADA. -/
def generousTake : Transaction where
  inputs := [⟨ref 0 2, wallet 20000000 0⟩, ⟨ref 1 0, orderOutput purchase 2000000⟩]
  outputs := [payment purchase (ref 1 0) (Assets.fromLovelace 13000000), wallet 8000000 5]
  mint := -beacons purchase
  extraSignatories := []
  validityRange := always
  redeemers := [(.spend (ref 1 0), toData OrderRedeemer.takeOrder),
    (.mint deployment.policyId, toData BeaconRedeemer.burnBeacons)]
  datums := []

/-- The seller's wallet, with the tokens on offer, and the taker's. -/
def market : Utxo := fun r =>
  if r = ref 0 0 then
    some (walletOutput ownerKey (Assets.fromLovelace 2000000 + offerValue purchase))
  else if r = ref 0 2 then some (wallet 20000000 0)
  else none

def listed : Utxo := applyTx market (ref 1 0).transactionId (creation purchase 2000000)

theorem market_eq_none {r : OutputReference} (h : r.transactionId ≠ (ref 0 0).transactionId) :
    market r = none := by
  unfold market
  split_ifs with h₀ h₁
  · exact absurd (congrArg OutputReference.transactionId h₀) h
  · exact absurd (congrArg OutputReference.transactionId h₁) h
  · rfl

theorem step_listing :
    Step deployment market ((ref 1 0).transactionId, creation purchase 2000000) listed where
  valid := by decide
  resolved := by
    intro input hinput
    obtain rfl := List.mem_singleton.mp hinput
    rfl
  fresh r hr := market_eq_none (by rw [hr]; decide)
  next := rfl

theorem listed_eq_none {r : OutputReference} (h₀ : r.transactionId ≠ (ref 0 0).transactionId)
    (h₁ : r.transactionId ≠ (ref 1 0).transactionId) : listed r = none := by
  simp [listed, applyTx, createdAt, h₁, market_eq_none h₀]

theorem step_generousTake :
    Step deployment listed ((ref 2 0).transactionId, generousTake)
      (applyTx listed (ref 2 0).transactionId generousTake) where
  valid := by decide
  resolved := by
    intro input hinput
    simp only [generousTake, List.mem_cons, List.not_mem_nil, or_false] at hinput
    rcases hinput with rfl | rfl <;> rfl
  fresh r hr := listed_eq_none (by rw [hr]; decide) (by rw [hr]; decide)
  next := rfl

/-- What two of the five tokens leave of the `purchase`. -/
def remainder : OrderDatum := reducedDatum purchase 2 4000000

/-- Takes two tokens of the `purchase`, for four ADA. -/
def purchasePart : Transaction where
  inputs := [⟨ref 0 2, wallet 20000000 0⟩, ⟨ref 1 0, orderOutput purchase 2000000⟩]
  outputs := [payment purchase (ref 1 0) (Assets.fromLovelace 4000000),
    orderOutput remainder 2000000, wallet 16000000 2]
  mint := 0
  extraSignatories := []
  validityRange := always
  redeemers := [(.spend (ref 1 0), toData (OrderRedeemer.takeOrderPartial 2))]
  datums := []

def partBought : Utxo := applyTx listed (ref 2 0).transactionId purchasePart

theorem step_purchasePart :
    Step deployment listed ((ref 2 0).transactionId, purchasePart) partBought where
  valid := by decide
  resolved := by
    intro input hinput
    simp only [purchasePart, List.mem_cons, List.not_mem_nil, or_false] at hinput
    rcases hinput with rfl | rfl <;> rfl
  fresh r hr := listed_eq_none (by rw [hr]; decide) (by rw [hr]; decide)
  next := rfl

theorem partBought_eq_none {r : OutputReference}
    (h₀ : r.transactionId ≠ (ref 0 0).transactionId)
    (h₁ : r.transactionId ≠ (ref 1 0).transactionId)
    (h₂ : r.transactionId ≠ (ref 2 0).transactionId) : partBought r = none := by
  simp [partBought, applyTx, createdAt, h₂, listed_eq_none h₀ h₁]

/-- Takes the remainder, for six ADA and the deposit. -/
def purchaseRest : Transaction where
  inputs := [⟨ref 2 1, orderOutput remainder 2000000⟩, ⟨ref 2 2, wallet 16000000 2⟩]
  outputs := [payment remainder (ref 2 1) (Assets.fromLovelace 8000000), wallet 10000000 5]
  mint := -beacons purchase
  extraSignatories := []
  validityRange := always
  redeemers := [(.spend (ref 2 1), toData OrderRedeemer.takeOrder),
    (.mint deployment.policyId, toData BeaconRedeemer.burnBeacons)]
  datums := []

theorem step_purchaseRest :
    Step deployment partBought ((ref 3 0).transactionId, purchaseRest)
      (applyTx partBought (ref 3 0).transactionId purchaseRest) where
  valid := by decide
  resolved := by
    intro input hinput
    simp only [purchaseRest, List.mem_cons, List.not_mem_nil, or_false] at hinput
    rcases hinput with rfl | rfl <;> rfl
  fresh r hr := partBought_eq_none (by rw [hr]; decide) (by rw [hr]; decide) (by rw [hr]; decide)
  next := rfl

/-- The two takes of the `purchase`. -/
def takes : List (Bytes × Transaction) :=
  [((ref 2 0).transactionId, purchasePart), ((ref 3 0).transactionId, purchaseRest)]

/-- The lineage of the `purchase` after some transactions. -/
def lineageAfter (submitted : List (Bytes × Transaction)) : Lineage :=
  submitted.foldl (follow deployment.orderScriptHash) ⟨some ⟨(ref 1 0).transactionId, (0 : ℕ)⟩, []⟩

end Sample

/-- The `purchase` is taken in part, and then in full. -/
theorem lineage_safe_sample :
    (Sample.lineageAfter (Sample.takes.take 1)).tip = some (Sample.ref 2 1) ∧
    (Sample.lineageAfter Sample.takes).tip = none ∧
    (Sample.lineageAfter Sample.takes).fills = [⟨2, 4000000⟩] ∧
    ∃ original owner names,
      (Sample.orderOutput Sample.purchase 2000000).datum = .inlineDatum (toData original) ∧
      original.owner = .verificationKey owner ∧
      beaconNames Sample.sha2_256 original.offer original.ask owner = some names ∧
      LineageSafe Sample.deployment (Sample.orderOutput Sample.purchase 2000000) original names
        (applyTx Sample.partBought (Sample.ref 3 0).transactionId Sample.purchaseRest)
        (Sample.lineageAfter Sample.takes) :=
  ⟨by decide, by decide, rfl, lineage_safe Sample.step_listing (by decide) rfl (by decide)
    (.cons Sample.step_purchasePart (.single Sample.step_purchaseRest))⟩

/-- **An ADA ask may be overpaid**: the thirteen ADA of the sample settle an ask
of ten and a deposit of two. -/
theorem ask_overpaid :
    ¬ ∀ (d : Deployment) (utxo₀ utxo utxo' : Utxo) (txId : Bytes) (tx : Transaction) (i : ℕ)
      (origin : Output) (original : OrderDatum) (submitted : List (Bytes × Transaction)),
      Step d utxo₀ (txId, tx) utxo →
      mintBeaconsOk d.sha2_256 d.orderScriptHash d.policyId tx = some true →
      tx.outputs[i]? = some origin → origin.datum = .inlineDatum (toData original) →
      Run (Step d) utxo submitted utxo' →
      ((submitted.foldl (follow d.orderScriptHash) ⟨some ⟨txId, i⟩, []⟩).spends.getLast?.map
        Spend.redeemer = some .takeOrder) →
      (submitted.foldl (follow d.orderScriptHash) ⟨some ⟨txId, i⟩, []⟩).delivered original.ask =
        original.askAmount := by
  intro hexact
  have h := hexact Sample.deployment Sample.market Sample.listed _ (Sample.ref 1 0).transactionId
    (Sample.creation Sample.purchase 2000000) 0 (Sample.orderOutput Sample.purchase 2000000)
    Sample.purchase _ Sample.step_listing (by decide) rfl rfl (.single Sample.step_generousTake)
    (by decide)
  revert h
  decide

end BeaconDex
