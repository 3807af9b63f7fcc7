import BeaconDex.Exchange
import BeaconDex.OrderMachine

/-!
# What can happen to an order

`BeaconDex.OrderMachine` says that the ledger does nothing with an order that its
machine does not do.  This file is the converse, and with it the machine is exact
(`order_traces`): whatever the machine can do, the ledger can do, as soon as
someone holds what the order asks and there are transaction ids left.

Two consequences stand on their own.  The owner of a live order can withdraw it at
any point of any run, whatever has been done to it (`owner_can_withdraw`); and the
number of partial fills an order goes through is bounded by its amounts, a bound
that is attained (`most_fills`).

## What is assumed of the world

For something to happen, someone has to be able to do it.  A fill needs a wallet that
holds what it costs, and every transaction needs an id that no transaction before it
had; hashes give these in practice.  Both are premises wherever a transaction is shown
to exist, and neither is needed where one is shown not to.
-/

namespace BeaconDex

open Library

variable {d : Deployment} {utxo utxo' : Utxo}

/-!
## Transaction ids

Ids have to be new, and there have to be as many as steps to be made.
-/

/-- Transaction ids of which the UTxO set holds no output. -/
structure FreshIds (utxo : Utxo) (ids : ℕ → Bytes) : Prop where
  injective : Function.Injective ids
  unused : ∀ n ref, ref.transactionId = ids n → utxo ref = none

/-- Using the first one leaves the others. -/
theorem FreshIds.next {ids : ℕ → Bytes} (h : FreshIds utxo ids) (tx : Transaction) :
    FreshIds (applyTx utxo (ids 0) tx) fun n => ids (n + 1) where
  injective := fun a b hab => Nat.succ.inj (h.injective hab)
  unused := by
    intro n ref href
    have hother : ref.transactionId ≠ ids 0 := by
      rw [href]
      exact fun heq => Nat.succ_ne_zero n (h.injective heq)
    have hcreated : createdAt (ids 0) tx ref = none := if_neg fun hid => hother hid.1
    rw [applyTx, hcreated, Option.none_or, h.unused (n + 1) ref href]
    exact ite_self none

/-- A valid transaction over unspent outputs is a step. -/
theorem FreshIds.step {ids : ℕ → Bytes} (h : FreshIds utxo ids) {tx : Transaction}
    (hvalid : LedgerValid d tx)
    (hresolved : ∀ input ∈ tx.inputs, utxo input.outputReference = some input.output) :
    Step d utxo (ids 0, tx) (applyTx utxo (ids 0) tx) :=
  ⟨hvalid, hresolved, h.unused 0, rfl⟩

/-!
## The machine is deterministic

So the stage an order has reached is known from its events, and the runs of the machine
that a lineage may have made are one.
-/

/-- A fill leaves one remainder. -/
theorem FillStep.unique {left left' left'' : Remainder} {fill : Fill}
    (h : FillStep left fill left') (h' : FillStep left fill left'') : left' = left'' := by
  cases left'
  cases left''
  rw [Remainder.mk.injEq]
  exact ⟨h.offer_eq.trans h'.offer_eq.symm, h.ask_eq.trans h'.ask_eq.symm⟩

/-- So an event leads to one stage: the machine is deterministic. -/
theorem OrderStep.unique {allowPartialFill : Bool} {stage stage' stage'' : OrderStage}
    {e : OrderEvent} (h : OrderStep allowPartialFill stage e stage')
    (h' : OrderStep allowPartialFill stage e stage'') : stage' = stage'' := by
  cases h with
  | filled _ hfill =>
      cases h' with
      | filled _ hfill' => rw [hfill.unique hfill']
  | taken => cases h' with | taken => rfl
  | cancelled => cases h' with | cancelled => rfl

/-!
## Every step of the machine happens

Given a live order and someone who can pay, each event of the machine is the event of a
transaction that can be written down.
-/

section Complete

variable {origin : Output} {original : OrderDatum} {owner : VerificationKeyHash}
variable {names : List AssetName} {stage stage' : OrderStage} {events : List OrderEvent}
variable {ref : OutputReference} {spends : List Spend} {e : OrderEvent}

/-- A spend of the order that is the event `e` takes the machine's step `e`. -/
theorem Stands.spent {txId : Bytes} {tx : Transaction} {input : Input} {redeemer : OrderRedeemer}
    (h : Stands d origin original owner names (utxo, ⟨some ref, spends⟩) stage events)
    (hstep : Step d utxo (txId, tx) utxo') (hfound : findInput tx.inputs ref = some input)
    (hred : spendRedeemer tx ref = some redeemer) (hevent : Spend.event ⟨ref, tx, redeemer⟩ = some e)
    (hmachine : OrderStep original.allowPartialFill stage e stage') :
    Stands d origin original owner names
      (utxo', follow d.orderScriptHash ⟨some ref, spends⟩ (txId, tx)) stage' (events ++ [e]) := by
  obtain ⟨es, stage'', hrun, hstands⟩ := h.step hstep
  have hevents : (follow d.orderScriptHash ⟨some ref, spends⟩ (txId, tx)).events =
      events ++ [e] := by
    simp only [follow, hfound, hred]
    rw [Lineage.events_concat _ (some ref), h.events_eq, hevent, Option.toList_some]
  obtain rfl : es = [e] := List.append_cancel_left (hstands.events_eq.symm.trans hevents)
  cases hrun with
  | cons hfirst hrest =>
      cases hrest
      rwa [hmachine.unique hfirst]

/-- An order that stands somewhere, with what it takes to go on: a wallet that
holds what is still asked, and unused transaction ids. -/
structure Ready (d : Deployment) (origin : Output) (original : OrderDatum)
    (owner : VerificationKeyHash) (names : List AssetName) (now : Utxo × Lineage)
    (stage : OrderStage) (events : List OrderEvent) : Prop
    extends Stands d origin original owner names now stage events where
  supplied : ∀ left, stage = .live left → ∃ wallet ids,
    Funds d original.ask left.askAmount wallet ∧
    now.1 wallet.outputReference = some wallet.output ∧ FreshIds now.1 ids

/-- Taking the order with `leg` out of a wallet. -/
theorem Stands.exchanged {leg : Leg} {wallet : Input} {ids : ℕ → Bytes} {amount : ℤ}
    (h : Stands d origin original owner names (utxo, ⟨some leg.ref, spends⟩) stage events)
    (hsound : leg.Sound d) (hfair : leg.Fair d) (hlive : utxo leg.ref = some leg.input.output)
    (hwallet : Funds d leg.datum.ask amount wallet) (hpaid : leg.paid ≤ amount)
    (hheld : utxo wallet.outputReference = some wallet.output) (hids : FreshIds utxo ids)
    (hevent : findInput (exchange d leg wallet).inputs leg.ref = some leg.input →
      Spend.event ⟨leg.ref, exchange d leg wallet, leg.redeemer⟩ = some e)
    (hmachine : OrderStep original.allowPartialFill stage e stage') :
    ∃ submitted s', Observed (Step d) (follow d.orderScriptHash) (utxo, ⟨some leg.ref, spends⟩)
        submitted s' ∧
      Stands d origin original owner names s' stage' (events ++ [e]) ∧
      ∃ wallet' ids', Funds d leg.datum.ask (amount - leg.paid) wallet' ∧
        s'.1 wallet'.outputReference = some wallet'.output ∧ FreshIds s'.1 ids' := by
  obtain ⟨key, horder⟩ := hsound.order
  have hne : leg.ref ≠ wallet.outputReference := by
    intro heq
    rw [heq, hheld] at hlive
    have hsits := hwallet.sitsAt_eq
    rw [Option.some.inj hlive, horder.sits] at hsits
    cases hsits
  have hvalid := exchange_valid hsound hfair hwallet hpaid hne
  have hstep : Step d utxo (ids 0, exchange d leg wallet)
      (applyTx utxo (ids 0) (exchange d leg wallet)) := by
    refine hids.step hvalid ?_
    intro input hinput
    simp only [exchange, List.mem_cons, List.not_mem_nil, or_false] at hinput
    rcases hinput with rfl | rfl
    · exact hlive
    · exact hheld
  have hfound : findInput (exchange d leg wallet).inputs leg.ref = some leg.input :=
    findInput_of_mem hvalid.distinct List.mem_cons_self
  have hred : spendRedeemer (exchange d leg wallet) leg.ref = some leg.redeemer := by
    rw [spendRedeemer]
    simp only [exchange, List.lookup_cons_self, Option.bind_some, ofData_toData]
  refine ⟨_, (_, _), ⟨hstep, rfl⟩, h.spent hstep hfound hred (hevent hfound) hmachine,
    ⟨⟨ids 0, leg.outputs.length⟩, changeOf leg wallet⟩, _, ?_, ?_, hids.next _⟩
  · exact hwallet.change hfair.given_nonneg hpaid horder.offer_policy horder.ask_policy _
  · refine hstep.created ?_
    show (leg.outputs ++ [changeOf leg wallet])[leg.outputs.length]? = _
    exact List.getElem?_concat_length

/-- **Realization.**  Whatever the machine can do next, some transaction does. -/
theorem Ready.step {s : Utxo × Lineage} (hdeposit : 0 ≤ depositOf original origin.value)
    (hmachine : OrderStep original.allowPartialFill stage e stage')
    (h : Ready d origin original owner names s stage events) :
    ∃ submitted s', Observed (Step d) (follow d.orderScriptHash) s submitted s' ∧
      Ready d origin original owner names s' stage' (events ++ [e]) := by
  obtain ⟨utxo, ⟨tip, spends⟩⟩ := s
  obtain ⟨left, rfl⟩ : ∃ left, stage = .live left := by
    cases hmachine <;> exact ⟨_, rfl⟩
  obtain ⟨wallet, ids, hwallet, hheld, hids⟩ := h.supplied left rfl
  cases tip with
  | none => exact absurd (h.closed rfl) (by simp)
  | some ref =>
      obtain ⟨output, datum, hlive, htip, hstage⟩ := h.live ref rfl
      obtain rfl := OrderStage.live.inj hstage
      have horder := htip.order
      have hpositive : 0 ≤ depositOf datum output.value := htip.deposit ▸ hdeposit
      have hask : datum.ask = original.ask := htip.ask_eq
      cases hmachine with
      | filled hallowed hfill =>
          rename_i left' fill
          let leg := Leg.partOf ⟨ref, output⟩ datum names fill.takeAmount fill.required
          obtain ⟨submitted, s', hobserved, hstands, wallet', ids', hfunds, hheld', hids'⟩ :=
            h.toStands.exchanged
              (Leg.sound_partOf horder (htip.allowPartialFill_eq.trans hallowed) hfill : leg.Sound d)
              (Leg.fair_partOf horder hpositive hfill) hlive (hask ▸ hwallet) hfill.required_lt.le
              hheld hids
              (fun hfound => event_takeOrderPartial hfound (orderDatum_of_inline horder.inline)
                hfill.required_eq)
              (.filled hallowed hfill)
          refine ⟨submitted, s', hobserved, hstands, ?_⟩
          rintro left'' ⟨⟩
          refine ⟨wallet', ids', ?_, hheld', hids'⟩
          rw [hfill.ask_eq, ← hask]
          exact hfunds
      | taken =>
          let leg := Leg.whole ⟨ref, output⟩ datum names
          obtain ⟨submitted, s', hobserved, hstands, -⟩ :=
            h.toStands.exchanged (Leg.sound_whole horder : leg.Sound d)
              (Leg.fair_whole horder hpositive) hlive (hask ▸ hwallet) le_rfl hheld hids
              (fun hfound => event_takeOrder hfound (orderDatum_of_inline horder.inline))
              (.taken datum.remainder)
          exact ⟨submitted, s', hobserved, hstands, fun left' hleft => by cases hleft⟩
      | cancelled =>
          have hvalid := @withdrawal_valid d ⟨ref, output⟩ datum owner names
            ⟨.verificationKey owner, none⟩ 0 horder le_rfl hpositive
          have hstep := hids.step hvalid (by
            intro input hinput
            rw [List.mem_singleton.mp hinput]
            exact hlive)
          have hfound := findInput_of_mem hvalid.distinct List.mem_cons_self
          exact ⟨_, (_, _), ⟨hstep, rfl⟩,
            h.toStands.spent hstep hfound spendRedeemer_withdrawal rfl (.cancelled _),
            fun left' hleft => by cases hleft⟩

/-- Every run of the machine happens. -/
theorem Ready.realized {s : Utxo × Lineage} {es : List OrderEvent}
    (hdeposit : 0 ≤ depositOf original origin.value)
    (h : Ready d origin original owner names s stage events)
    (hrun : Run (OrderStep original.allowPartialFill) stage es stage') :
    ∃ submitted s', Run (Observed (Step d) (follow d.orderScriptHash)) s submitted s' ∧
      Ready d origin original owner names s' stage' (events ++ es) :=
  hrun.realized (R := Ready d origin original owner names)
    (fun _ _ _ _ _ hmachine h => Ready.step hdeposit hmachine h) h

end Complete

/-!
## The machine is exact

Both inclusions: what the ledger does to the order, read as events, are traces of the
machine, and all its traces.
-/

/-- What a creation leaves: a well-formed order, with a deposit that is not
negative. -/
theorem order_of_creation {utxo₀ : Utxo} {txId : Bytes} {tx : Transaction} {i : ℕ} {origin : Output}
    (hcreate : Step d utxo₀ (txId, tx) utxo)
    (hmint : mintBeaconsOk d.sha2_256 d.orderScriptHash d.policyId tx = some true)
    (hout : tx.outputs[i]? = some origin) (hbears : bearsBeacons d.policyId origin = true) :
    ∃ original owner names,
      WellFormedOrder d.sha2_256 d.orderScriptHash d.policyId origin original owner names ∧
      utxo ⟨txId, i⟩ = some origin ∧ 0 ≤ depositOf original origin.value := by
  obtain ⟨output, original, owner, names, hacc⟩ := (mintBeaconsOk_eq_some_true _).mp hmint
  have hmem : origin ∈ beaconBearingOutputs tx d.policyId :=
    List.mem_filter.mpr ⟨List.mem_of_getElem? hout, hbears⟩
  rw [hacc.only, List.mem_singleton] at hmem
  subst hmem
  refine ⟨original, owner, names, hacc.order, hcreate.created hout, ?_⟩
  have hlovelace : 0 ≤ Assets.lovelaceOf origin.value :=
    (hcreate.valid.outputs_nonneg origin (List.mem_of_getElem? hout)).apply _ _
  unfold depositOf
  split
  · next hada =>
    have hcovered := hacc.order.offer_covered hada
    omega
  · exact hlovelace

/-- The events of an order over the runs that follow its creation. -/
def ledgerTraces (d : Deployment) (utxo : Utxo) (ref : OutputReference) : Set (List OrderEvent) :=
  {events | ∃ submitted utxo', Run (Step d) utxo submitted utxo' ∧
    (submitted.foldl (follow d.orderScriptHash) ⟨some ref, []⟩).events = events}

/-- From a well-formed order on. -/
theorem ledgerTraces_eq {origin : Output} {original : OrderDatum} {owner : VerificationKeyHash}
    {names : List AssetName} {ref : OutputReference} {wallet : Input} {ids : ℕ → Bytes}
    (horder : WellFormedOrder d.sha2_256 d.orderScriptHash d.policyId origin original owner names)
    (hlive : utxo ref = some origin) (hdeposit : 0 ≤ depositOf original origin.value)
    (hwallet : Funds d original.ask original.askAmount wallet)
    (hheld : utxo wallet.outputReference = some wallet.output) (hids : FreshIds utxo ids) :
    ledgerTraces d utxo ref =
      traces (OrderStep original.allowPartialFill) (.live original.remainder) := by
  ext events
  constructor
  · rintro ⟨submitted, utxo', hrun, rfl⟩
    obtain ⟨stage, hmachine, -⟩ := Stands.of_run hlive horder hrun
    exact ⟨stage, hmachine⟩
  · rintro ⟨stage, hmachine⟩
    have hready : Ready d origin original owner names (utxo, ⟨some ref, []⟩)
        (.live original.remainder) [] :=
      ⟨.start hlive horder, fun left hleft => ⟨wallet, ids, by cases hleft; exact hwallet, hheld,
        hids⟩⟩
    obtain ⟨submitted, s', hrun, hready'⟩ := hready.realized hdeposit hmachine
    obtain ⟨hledger, hlineage⟩ := run_observed.mp hrun
    refine ⟨submitted, s'.1, hledger, ?_⟩
    rw [← hlineage]
    exact hready'.events_eq

/-- **The ledger runs the order machine, and all of it.**  After the creation of
an order, the histories the ledger can give it are exactly the traces of its
machine, provided that somebody's wallet holds what the order asks and that unused
transaction ids remain. -/
theorem order_traces {utxo₀ : Utxo} {txId : Bytes} {tx : Transaction} {i : ℕ} {origin : Output}
    {original : OrderDatum} {wallet : Input} {ids : ℕ → Bytes}
    (hcreate : Step d utxo₀ (txId, tx) utxo)
    (hmint : mintBeaconsOk d.sha2_256 d.orderScriptHash d.policyId tx = some true)
    (hout : tx.outputs[i]? = some origin) (hbears : bearsBeacons d.policyId origin = true)
    (hdatum : origin.datum = .inlineDatum (toData original))
    (hwallet : Funds d original.ask original.askAmount wallet)
    (hheld : utxo wallet.outputReference = some wallet.output) (hids : FreshIds utxo ids) :
    ledgerTraces d utxo ⟨txId, i⟩ =
      traces (OrderStep original.allowPartialFill) (.live original.remainder) := by
  obtain ⟨original', owner, names, horder, hlive, hdeposit⟩ :=
    order_of_creation hcreate hmint hout hbears
  obtain rfl : original' = original :=
    toData_injective (Datum.inlineDatum.inj (horder.inline.symm.trans hdatum))
  exact ledgerTraces_eq horder hlive hdeposit hwallet hheld hids

namespace Sample

/-- Ids that are no hashes, and so not used. -/
def longIds (n : ℕ) : Bytes := List.replicate (33 + n) 0

theorem longIds_ne {r : OutputReference} {n : ℕ} (h : r.transactionId = longIds n) (k : Byte) :
    r.transactionId ≠ (ref k 0).transactionId := by
  intro heq
  have hlength := congrArg List.length (h.symm.trans heq)
  rw [longIds, ref, List.length_replicate, List.length_replicate] at hlength
  omega

theorem freshIds_listed : FreshIds listed longIds where
  injective := by
    intro a b hab
    have hlength := congrArg List.length hab
    simp only [longIds, List.length_replicate] at hlength
    omega
  unused n r hr := listed_eq_none (longIds_ne hr 0) (longIds_ne hr 1)

theorem funds_taker : Funds deployment ada 10000000 ⟨ref 0 2, wallet 20000000 0⟩ :=
  ⟨⟨takerKey, rfl⟩, by decide, by decide, by decide⟩

end Sample

theorem order_traces_sample :
    ledgerTraces Sample.deployment Sample.listed ⟨(Sample.ref 1 0).transactionId, (0 : ℕ)⟩ =
      traces (OrderStep true) (.live ⟨5, 10000000⟩) :=
  have hdatum : (Sample.orderOutput Sample.purchase 2000000).datum =
      .inlineDatum (toData Sample.purchase) := rfl
  order_traces Sample.step_listing (by decide) rfl (by decide) hdatum Sample.funds_taker rfl
    Sample.freshIds_listed

/-!
## Withdrawing at any time

No step of anyone can take the last step from the owner, as long as the order is live.
-/

/-- `tx` withdraws the order `original` that has gone through `fills`: its one input
is the order's current UTxO `tip`, its one signature the owner's, and its one output
sends what is left of the offer, and the deposit less the fee, to `address`. -/
structure Withdraws (origin : Output) (original : OrderDatum) (owner : VerificationKeyHash)
    (fills : List Fill) (tip : OutputReference) (address : Address) (fee : ℤ) (tx : Transaction) :
    Prop where
  inputs : tx.inputs.map Input.outputReference = [tip]
  signed : tx.extraSignatories = [owner]
  outputs : ∃ out, tx.outputs = [out] ∧ out.address = address ∧
    out.value = Assets.fromLovelace (depositOf original origin.value - fee) +
      original.offer.amount (original.offerAmount - totalTaken fills)

/-- **An order is never locked.**  Create an order and let any transactions follow.
As long as it is live, one transaction with the owner's signature alone withdraws
what is left of it to an address of the owner's choice, for any fee that the deposit
covers, and closes it. -/
theorem owner_can_withdraw {utxo₀ : Utxo} {txId txId' : Bytes} {tx : Transaction} {i : ℕ}
    {origin : Output} {submitted : List (Bytes × Transaction)} {tip : OutputReference}
    {lineage : Lineage} {original : OrderDatum} {owner : VerificationKeyHash}
    (hcreate : Step d utxo₀ (txId, tx) utxo)
    (hmint : mintBeaconsOk d.sha2_256 d.orderScriptHash d.policyId tx = some true)
    (hout : tx.outputs[i]? = some origin) (hbears : bearsBeacons d.policyId origin = true)
    (hdatum : origin.datum = .inlineDatum (toData original))
    (howner : original.owner = .verificationKey owner)
    (hrun : Run (Step d) utxo submitted utxo')
    (hlineage : submitted.foldl (follow d.orderScriptHash) ⟨some ⟨txId, i⟩, []⟩ = lineage)
    (htip : lineage.tip = some tip) (hfresh : ∀ ref, ref.transactionId = txId' → utxo' ref = none)
    (address : Address) {fee : ℤ} (hfee : 0 ≤ fee)
    (hcovered : fee ≤ depositOf original origin.value) :
    ∃ withdrawing, Withdraws origin original owner lineage.fills tip address fee withdrawing ∧
      Step d utxo' (txId', withdrawing) (applyTx utxo' txId' withdrawing) ∧
      (follow d.orderScriptHash lineage (txId', withdrawing)).tip = none := by
  obtain ⟨original', owner', names, horder, hlive, -⟩ :=
    order_of_creation hcreate hmint hout hbears
  obtain rfl : original' = original :=
    toData_injective (Datum.inlineDatum.inj (horder.inline.symm.trans hdatum))
  obtain rfl : owner' = owner :=
    Credential.verificationKey.inj (horder.owner.symm.trans howner)
  obtain ⟨stage, -, hstands⟩ := Stands.of_run hlive horder hrun
  rw [hlineage] at hstands
  obtain ⟨output, datum, hunspent, hinvariant, -⟩ := hstands.live tip htip
  have hlive' := hinvariant.liveOrder ⟨horder.offerAmount_pos, horder.askAmount_pos⟩
  have hvalid := @withdrawal_valid d ⟨tip, output⟩ datum owner' names address fee hinvariant.order
    hfee (hinvariant.deposit ▸ hcovered)
  have hoffer : datum.offer = original'.offer := (congrArg OrderDatum.offer hinvariant.datum_eq :)
  refine ⟨withdrawal d ⟨tip, output⟩ names owner' address (payoutOf datum output fee),
    ⟨rfl, rfl, _, rfl, rfl, ?_⟩, ⟨hvalid, ?_, hfresh, rfl⟩, ?_⟩
  · show payoutOf datum output fee = _
    rw [payoutOf, hinvariant.deposit, hoffer, hlive'.offer_eq]
  · intro input hinput
    rw [List.mem_singleton.mp hinput]
    exact hunspent
  · have hfound := findInput_of_mem hvalid.distinct List.mem_cons_self
    obtain ⟨tip', spends⟩ := lineage
    obtain rfl : tip' = some tip := htip
    simp only [follow]
    rw [hfound, spendRedeemer_withdrawal]

/-- After two of the five tokens have been taken, the owner withdraws the other three. -/
theorem owner_can_withdraw_sample :
    ∃ withdrawing, Withdraws (Sample.orderOutput Sample.purchase 2000000) Sample.purchase
        Sample.ownerKey [⟨2, 4000000⟩] (Sample.ref 2 1)
        ⟨.verificationKey Sample.sellerKey, none⟩ 170000 withdrawing ∧
      Step Sample.deployment Sample.partBought (Sample.longIds 0, withdrawing)
        (applyTx Sample.partBought (Sample.longIds 0) withdrawing) ∧
      (follow Sample.deployment.orderScriptHash (Sample.lineageAfter (Sample.takes.take 1))
        (Sample.longIds 0, withdrawing)).tip = none := by
  have hdatum : (Sample.orderOutput Sample.purchase 2000000).datum =
      .inlineDatum (toData Sample.purchase) := rfl
  have htip : (Sample.lineageAfter (Sample.takes.take 1)).tip = some (Sample.ref 2 1) := by decide
  have hfills : (Sample.lineageAfter (Sample.takes.take 1)).fills = [⟨2, 4000000⟩] := rfl
  have hfresh : ∀ r, r.transactionId = Sample.longIds 0 → Sample.partBought r = none := fun r hr =>
    Sample.partBought_eq_none (Sample.longIds_ne hr 0) (Sample.longIds_ne hr 1)
      (Sample.longIds_ne hr 2)
  rw [← hfills]
  exact owner_can_withdraw Sample.step_listing (by decide) rfl (by decide) hdatum rfl
    (.single Sample.step_purchasePart) rfl htip hfresh _ (by decide) (by decide)

/-!
## How often an order can be filled

A fill takes at least one unit and is paid with at least one, and leaves one of each,
which bounds the number of fills by the smaller amount.  The bound is reached by taking
the least possible at each step.
-/

section Fills

variable {left left' : Remainder} {fill : Fill} {fills : List Fill}

/-- A take is paid for. -/
theorem FillStep.required_pos (h : FillStep left fill left') : 0 < fill.required := by
  obtain ⟨hoffer, hask⟩ := h.order_pos
  obtain ⟨hlow, -⟩ := requiredPayment_bounds hoffer h.required_eq
  exact pos_of_mul_pos_left ((mul_pos h.takeAmount_pos hask).trans_le hlow) hoffer.le

/-- Each take leaves at least one unit less on both sides, and at least one unit. -/
theorem length_fills_lt (hleft : 0 < left.offerAmount ∧ 0 < left.askAmount)
    (hrun : Run FillStep left fills left') :
    (fills.length : ℤ) < left.offerAmount ∧ (fills.length : ℤ) < left.askAmount := by
  suffices 0 < left'.offerAmount ∧ 0 < left'.askAmount ∧
      left'.offerAmount + fills.length ≤ left.offerAmount ∧
      left'.askAmount + fills.length ≤ left.askAmount by omega
  refine hrun.history (R := fun now seen => 0 < now.offerAmount ∧ 0 < now.askAmount ∧
    now.offerAmount + seen.length ≤ left.offerAmount ∧
    now.askAmount + seen.length ≤ left.askAmount) ?_ ⟨hleft.1, hleft.2, by simp, by simp⟩
  intro now seen fill now' h hnow
  have htake := h.takeAmount_pos
  have hlt := h.takeAmount_lt
  have hreq := h.required_pos
  have hreqlt := h.required_lt
  rw [h.offer_eq, h.ask_eq, List.length_append, List.length_singleton]
  push_cast
  omega

/-- There is a required payment for every part, where the offer is positive. -/
theorem exists_requiredPayment (takeAmount ask : ℤ) {offer : ℤ} (hoffer : 0 < offer) :
    ∃ required, requiredPayment takeAmount ask offer = some required := by
  rw [requiredPayment, if_neg hoffer.ne']
  exact ⟨_, rfl⟩

/-- Where the offer is scarce, one unit of it leaves as much asked as offered. -/
theorem exists_fill_of_scarce_offer {offer ask : ℤ} (hoffer : 2 ≤ offer) (hle : offer ≤ ask) :
    ∃ fill left', FillStep ⟨offer, ask⟩ fill left' ∧ left'.offerAmount = offer - 1 ∧
      offer - 1 ≤ left'.askAmount := by
  obtain ⟨required, hreq⟩ := exists_requiredPayment 1 ask (by omega : 0 < offer)
  obtain ⟨-, hhigh⟩ := requiredPayment_bounds (by omega) hreq
  have hcheap : required ≤ ask - offer + 1 := by
    by_contra hdear
    push Not at hdear
    have : (ask - offer + 2) * offer ≤ required * offer :=
      mul_le_mul_of_nonneg_right (by omega) (by omega)
    nlinarith [mul_nonneg (sub_nonneg.mpr hle) (by omega : 0 ≤ offer - 1)]
  exact ⟨⟨1, required⟩, ⟨offer - 1, ask - required⟩,
    ⟨one_pos, show 1 < offer by omega, hreq, show required < ask by omega, rfl, rfl⟩, rfl,
    show offer - 1 ≤ ask - required by omega⟩

/-- Where the ask is scarce, what one unit of it buys leaves as much offered as
asked. -/
theorem exists_fill_of_scarce_ask {offer ask : ℤ} (hask : 2 ≤ ask) (hlt : ask < offer) :
    ∃ fill left', FillStep ⟨offer, ask⟩ fill left' ∧ left'.askAmount = ask - 1 ∧
      ask - 1 ≤ left'.offerAmount := by
  have hbuys : offer / ask * ask ≤ offer := Int.ediv_mul_le offer (by omega)
  have htake : 1 ≤ offer / ask := Int.le_ediv_of_mul_le (by omega) (by omega)
  have hsmall : offer / ask ≤ offer - ask + 1 := by
    by_contra hlarge
    push Not at hlarge
    have : (offer - ask + 2) * ask ≤ offer / ask * ask :=
      mul_le_mul_of_nonneg_right (by omega) (by omega)
    nlinarith [mul_nonneg (sub_nonneg.mpr hlt.le) (by omega : 0 ≤ ask - 1)]
  obtain ⟨required, hreq⟩ := exists_requiredPayment (offer / ask) ask (by omega : 0 < offer)
  obtain ⟨hlow, hhigh⟩ := requiredPayment_bounds (by omega) hreq
  -- a share of at most one unit, rounded up
  obtain rfl : required = 1 := by
    have hpos : 0 < required :=
      pos_of_mul_pos_left ((mul_pos htake (by omega)).trans_le hlow) (by omega)
    have hone : required < 2 := by
      by_contra htwo
      push Not at htwo
      have : 2 * offer ≤ required * offer := mul_le_mul_of_nonneg_right htwo (by omega)
      omega
    omega
  exact ⟨⟨offer / ask, 1⟩, ⟨offer - offer / ask, ask - 1⟩,
    ⟨htake, show offer / ask < offer by omega, hreq, show 1 < ask by omega, rfl, rfl⟩, rfl,
    show ask - 1 ≤ offer - offer / ask by omega⟩

/-- **The smaller side can be used up unit by unit.** -/
theorem exists_fills {n : ℕ} (hleft : min left.offerAmount left.askAmount = n + 1) :
    ∃ fills left', Run FillStep left fills left' ∧ fills.length = n := by
  induction n generalizing left with
  | zero => exact ⟨[], left, .nil left, rfl⟩
  | succ n ih =>
      obtain ⟨offer, ask⟩ := left
      simp only [Nat.cast_add, Nat.cast_one] at hleft
      obtain ⟨fill, left', hfill, hleft'⟩ : ∃ fill left', FillStep ⟨offer, ask⟩ fill left' ∧
          min left'.offerAmount left'.askAmount = n + 1 := by
        by_cases hle : offer ≤ ask
        · obtain ⟨fill, left', hfill, hoffer, hask⟩ :=
            exists_fill_of_scarce_offer (by omega) hle
          exact ⟨fill, left', hfill, by omega⟩
        · obtain ⟨fill, left', hfill, hask, hoffer⟩ :=
            @exists_fill_of_scarce_ask offer ask (by omega) (by omega)
          exact ⟨fill, left', hfill, by omega⟩
      obtain ⟨fills, last, hrun, hlength⟩ := ih hleft'
      exact ⟨fill :: fills, last, .cons hfill hrun, by rw [List.length_cons, hlength]⟩

end Fills

/-- The partial fills among the events. -/
def OrderEvent.partialFill : OrderEvent → Option Fill
  | .filled fill => some fill
  | _ => none

/-- The partial takes of a lineage are those among its events. -/
theorem Lineage.fills_eq (lineage : Lineage) :
    lineage.fills = lineage.events.filterMap OrderEvent.partialFill := by
  rw [fills, events, List.filterMap_filterMap]
  refine List.filterMap_congr fun spend _ => ?_
  obtain ⟨ref, tx, redeemer⟩ := spend
  cases redeemer with
  | cancelOrder => rfl
  | takeOrder =>
      simp only [Spend.fill, Spend.event]
      cases findInput tx.inputs ref with
      | none => rfl
      | some input => cases hdatum : orderDatum tx input <;> simp [hdatum, OrderEvent.partialFill]
  | takeOrderPartial takeAmount =>
      show Spend.fill _ = ((Spend.fill _).map OrderEvent.filled).bind OrderEvent.partialFill
      cases Spend.fill ⟨ref, tx, .takeOrderPartial takeAmount⟩ <;> rfl

/-- The fills of a run of the machine are a run of fills. -/
theorem OrderStep.exists_fills {allowPartialFill : Bool} {left : Remainder} {stage : OrderStage}
    {es : List OrderEvent} (hrun : Run (OrderStep allowPartialFill) (.live left) es stage) :
    ∃ left', Run FillStep left (es.filterMap OrderEvent.partialFill) left' := by
  suffices ∀ stage es stage', Run (OrderStep allowPartialFill) stage es stage' →
      ∀ left, stage = .live left →
        ∃ left', Run FillStep left (es.filterMap OrderEvent.partialFill) left' from
    this _ _ _ hrun _ rfl
  clear hrun left stage es
  intro stage es stage' hrun
  induction hrun with
  | nil stage => exact fun left _ => ⟨left, .nil left⟩
  | cons h hrest ih =>
      rintro left rfl
      cases h with
      | filled _ hfill =>
          obtain ⟨left'', hfills⟩ := ih _ rfl
          exact ⟨left'', .cons hfill hfills⟩
      | taken => cases hrest with | nil => exact ⟨left, .nil left⟩ | cons h _ => cases h
      | cancelled => cases hrest with | nil => exact ⟨left, .nil left⟩ | cons h _ => cases h

/-- **How often an order can be filled in part**: one time less than there are units on
its smaller side, in any run.  That often it is filled in some run, where a wallet holds
what the order asks for and enough ids are left that no transaction has used, as the
validators bound the number of fills by the amounts only. -/
theorem most_fills {utxo₀ : Utxo} {txId : Bytes} {tx : Transaction} {i : ℕ} {origin : Output}
    {original : OrderDatum} {wallet : Input} {ids : ℕ → Bytes}
    (hcreate : Step d utxo₀ (txId, tx) utxo)
    (hmint : mintBeaconsOk d.sha2_256 d.orderScriptHash d.policyId tx = some true)
    (hout : tx.outputs[i]? = some origin) (hbears : bearsBeacons d.policyId origin = true)
    (hdatum : origin.datum = .inlineDatum (toData original))
    (hallowed : original.allowPartialFill = true)
    (hwallet : Funds d original.ask original.askAmount wallet)
    (hheld : utxo wallet.outputReference = some wallet.output) (hids : FreshIds utxo ids) :
    IsGreatest
      {n : ℤ | ∃ submitted utxo', Run (Step d) utxo submitted utxo' ∧
        (submitted.foldl (follow d.orderScriptHash) ⟨some ⟨txId, i⟩, []⟩).fills.length = n}
      (min original.offerAmount original.askAmount - 1) := by
  obtain ⟨original', owner, names, horder, hlive, hdeposit⟩ :=
    order_of_creation hcreate hmint hout hbears
  obtain rfl : original' = original :=
    toData_injective (Datum.inlineDatum.inj (horder.inline.symm.trans hdatum))
  have hpos : 0 < original'.remainder.offerAmount ∧ 0 < original'.remainder.askAmount :=
    ⟨horder.offerAmount_pos, horder.askAmount_pos⟩
  constructor
  · -- as many fills as the machine can take, one after the other
    obtain ⟨n, hn⟩ := Int.eq_ofNat_of_zero_le
      (show 0 ≤ min original'.remainder.offerAmount original'.remainder.askAmount - 1 by omega)
    obtain ⟨fills, left', hfills, hlength⟩ := @exists_fills original'.remainder n (by omega)
    have htrace : fills.map OrderEvent.filled ∈ ledgerTraces d utxo ⟨txId, i⟩ := by
      rw [ledgerTraces_eq horder hlive hdeposit hwallet hheld hids]
      exact ⟨_, OrderStep.run_filled hallowed hfills⟩
    obtain ⟨submitted, utxo', hrun, hevents⟩ := htrace
    refine ⟨submitted, utxo', hrun, ?_⟩
    have hsome : fills.filterMap (OrderEvent.partialFill ∘ OrderEvent.filled) = fills :=
      List.filterMap_some
    rw [Lineage.fills_eq, hevents, List.filterMap_map, hsome, hlength]
    exact hn.symm
  · rintro n ⟨submitted, utxo', hrun, rfl⟩
    obtain ⟨stage, hmachine, -⟩ := Stands.of_run hlive horder hrun
    obtain ⟨left', hfills⟩ := OrderStep.exists_fills hmachine
    rw [← Lineage.fills_eq] at hfills
    obtain ⟨hoffer, hask⟩ := length_fills_lt hpos hfills
    exact Int.le_sub_one_of_lt (lt_min hoffer hask)

/-- Five tokens for ten million lovelace can be taken one token at a time. -/
theorem most_fills_sample :
    IsGreatest
      {n : ℤ | ∃ submitted utxo', Run (Step Sample.deployment) Sample.listed submitted utxo' ∧
        (submitted.foldl (follow Sample.deployment.orderScriptHash)
          ⟨some ⟨(Sample.ref 1 0).transactionId, (0 : ℕ)⟩, []⟩).fills.length = n} 4 :=
  have hdatum : (Sample.orderOutput Sample.purchase 2000000).datum =
      .inlineDatum (toData Sample.purchase) := rfl
  most_fills Sample.step_listing (by decide) rfl (by decide) hdatum rfl Sample.funds_taker rfl
    Sample.freshIds_listed

end BeaconDex
