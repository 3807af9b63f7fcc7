import BeaconDex.Lineage
import BeaconDex.Library.Refinement

/-!
# The order machine

What one order is for, without a ledger: it is live with something left, it can
be filled in part at the rounded-up price, taken for all it still asks, or
cancelled, and then it is closed.  `Stands.of_run` says that every run of the
ledger after the creation of an order is a run of this machine, whatever else the
transactions do; the converse is in `BeaconDex.OrderTraces`.

The machine says nothing of values, addresses or beacons.  What those are at each
point of a lineage is `LineageSafe`.
-/

namespace BeaconDex

open Library

/-!
## The machine

The stages and steps of one order, without a word of transactions.  A run of fills of
the machine is a run of fills in the sense of `Pricing`.
-/

/-- What happens to an order.  A fill says how much of the offer leaves and what
is paid for it. -/
inductive OrderEvent
  | filled (fill : Fill)
  | taken (fill : Fill)
  | cancelled

/-- **Where an order stands**: live with a remainder, or closed for good. -/
inductive OrderStage
  | live (left : Remainder)
  | closed

/-- One step of an order: a live one can be filled in part, if that is allowed, within the
bounds of the price rule; it can be taken for all that is left of it; and it can be
cancelled.  Nothing happens to a closed one. -/
inductive OrderStep (allowPartialFill : Bool) : OrderStage → OrderEvent → OrderStage → Prop
  | filled {left left' : Remainder} {fill : Fill} (allowed : allowPartialFill = true)
      (fills : FillStep left fill left') :
      OrderStep allowPartialFill (.live left) (.filled fill) (.live left')
  | taken (left : Remainder) :
      OrderStep allowPartialFill (.live left) (.taken ⟨left.offerAmount, left.askAmount⟩) .closed
  | cancelled (left : Remainder) : OrderStep allowPartialFill (.live left) .cancelled .closed

/-- A run of fills is a run of the machine. -/
theorem OrderStep.run_filled {allowPartialFill : Bool} {left left' : Remainder} {fills : List Fill}
    (hallowed : allowPartialFill = true) (hrun : Run FillStep left fills left') :
    Run (OrderStep allowPartialFill) (.live left) (fills.map .filled) (.live left') := by
  induction hrun with
  | nil left => exact .nil _
  | cons h _ ih => exact .cons (.filled hallowed h) ih

/-!
## Reading the machine off the ledger

The simulation: whatever transaction the ledger accepts, the lineage of the order makes
no step or one of the machine, under the event that can be read off its spend.
-/

variable {d : Deployment} {tx : Transaction}

/-- What a spend of an order amounts to. -/
def Spend.event (spend : Spend) : Option OrderEvent :=
  match spend.redeemer with
  | .cancelOrder => some .cancelled
  | .takeOrder => do
      let input ← findInput spend.tx.inputs spend.ref
      let datum ← orderDatum spend.tx input
      return .taken ⟨datum.offerAmount, datum.askAmount⟩
  | .takeOrderPartial _ => spend.fill.map .filled

/-- The history of an order, as the machine sees it. -/
def Lineage.events (lineage : Lineage) : List OrderEvent := lineage.spends.filterMap Spend.event

theorem Lineage.events_concat (tip tip' : Option OutputReference) (spends : List Spend)
    (spend : Spend) :
    Lineage.events ⟨tip, spends ++ [spend]⟩ =
      Lineage.events ⟨tip', spends⟩ ++ spend.event.toList := by
  rw [events, events, List.filterMap_append]
  cases h : spend.event <;> simp [h]

/-- The stage of the order `original`, created in `origin`, in a UTxO set with a lineage.
The events of the lineage are those of the machine, and the tip is live with the remainder
the machine says, or both are closed. -/
structure Stands (d : Deployment) (origin : Output) (original : OrderDatum)
    (owner : VerificationKeyHash) (names : List AssetName) (now : Utxo × Lineage)
    (stage : OrderStage) (events : List OrderEvent) : Prop where
  events_eq : now.2.events = events
  live : ∀ ref, now.2.tip = some ref → ∃ output datum, now.1 ref = some output ∧
    TipInvariant d origin original owner names now.2 output datum ∧ stage = .live datum.remainder
  closed : now.2.tip = none → stage = .closed

section Sound

variable {origin : Output} {original : OrderDatum} {owner : VerificationKeyHash}
variable {names : List AssetName} {utxo utxo' : Utxo} {lineage : Lineage} {stage : OrderStage}
variable {events : List OrderEvent}

theorem TipInvariant.allowPartialFill_eq {output : Output} {datum : OrderDatum}
    (h : TipInvariant d origin original owner names lineage output datum) :
    datum.allowPartialFill = original.allowPartialFill :=
  (congrArg OrderDatum.allowPartialFill h.datum_eq :)

/-- The event of a partial take. -/
theorem event_takeOrderPartial {own : Input} {datum : OrderDatum} {takeAmount required : ℤ}
    (hfound : findInput tx.inputs own.outputReference = some own)
    (hdatum : orderDatum tx own = some datum)
    (hrequired : requiredPayment takeAmount datum.askAmount datum.offerAmount = some required) :
    Spend.event ⟨own.outputReference, tx, .takeOrderPartial takeAmount⟩ =
      some (.filled ⟨takeAmount, required⟩) := by
  simp only [Spend.event, Spend.fill, hfound, hdatum, hrequired, Option.bind_eq_bind,
    Option.bind_some, Option.pure_def, Option.map_some]

/-- The event of a full take. -/
theorem event_takeOrder {own : Input} {datum : OrderDatum}
    (hfound : findInput tx.inputs own.outputReference = some own)
    (hdatum : orderDatum tx own = some datum) :
    Spend.event ⟨own.outputReference, tx, .takeOrder⟩ =
      some (.taken ⟨datum.offerAmount, datum.askAmount⟩) := by
  simp only [Spend.event, hfound, hdatum, Option.bind_eq_bind, Option.bind_some, Option.pure_def]

/-- **Step lemma.**  One transaction is at most one step of the order. -/
theorem Stands.step {submitted : Bytes × Transaction} (hstep : Step d utxo submitted utxo')
    (h : Stands d origin original owner names (utxo, lineage) stage events) :
    ∃ es stage', Run (OrderStep original.allowPartialFill) stage es stage' ∧
      Stands d origin original owner names
        (utxo', follow d.orderScriptHash lineage submitted) stage' (events ++ es) := by
  obtain ⟨txId, tx⟩ := submitted
  obtain ⟨tip, spends⟩ := lineage
  cases tip with
  | none =>
      exact ⟨[], stage, .nil stage, by rw [List.append_nil]; exact h.events_eq,
        (fun _ hnone => nomatch hnone), h.closed⟩
  | some ref =>
      obtain ⟨output, datum, hlive, htip, rfl⟩ := h.live ref rfl
      cases hfound : findInput tx.inputs ref with
      | none =>
          -- the order is not spent: it stays where it is
          simp only [follow, hfound]
          refine ⟨[], _, .nil _, by rw [List.append_nil]; exact h.events_eq, ?_, ?_⟩
          · rintro ref' ⟨⟩
            exact ⟨output, datum, hstep.kept hlive hfound, htip, rfl⟩
          · rintro ⟨⟩
      | some input =>
          obtain ⟨hmem, rfl⟩ := findInput_eq_some hfound
          obtain rfl := hstep.output_eq hlive hfound
          obtain ⟨datum', hdatum, hspent⟩ :=
            hstep.valid.orders.spent hstep.valid.distinct hmem htip.order.sits
          obtain rfl := eq_of_orderDatum htip.order.inline hdatum
          cases hspent with
          | cancelled key hred hacc =>
              simp only [follow, hfound, hred]
              refine ⟨[.cancelled], .closed, .single (.cancelled _), ?_, ?_, fun _ => rfl⟩
              · rw [← h.events_eq]
                exact Lineage.events_concat none (some input.outputReference) spends _
              · rintro ref' ⟨⟩
          | taken payment refs hred hacc =>
              simp only [follow, hfound, hred]
              refine ⟨[.taken ⟨datum.offerAmount, datum.askAmount⟩], .closed,
                .single (.taken datum.remainder), ?_, ?_, fun _ => rfl⟩
              · rw [← h.events_eq]
                show Lineage.events ⟨none, _⟩ = _
                rw [Lineage.events_concat none (some input.outputReference) spends,
                  event_takeOrder hfound hdatum, Option.toList_some]
              · rintro ref' ⟨⟩
          | partiallyTaken takeAmount required payment refs rank continuation hred hacc =>
              obtain ⟨j, href, hout⟩ := hacc.continuationRef_eq hdatum txId
              simp only [follow, hfound, hred, href]
              refine ⟨[.filled ⟨takeAmount, required⟩], .live _,
                .single (.filled (htip.allowPartialFill_eq ▸ hacc.allowed) hacc.fillStep), ?_, ?_,
                ?_⟩
              · rw [← h.events_eq]
                show Lineage.events ⟨some _, _⟩ = _
                rw [Lineage.events_concat _ (some input.outputReference) spends,
                  event_takeOrderPartial hfound hdatum hacc.required_eq, Option.toList_some]
              · rintro ref' ⟨⟩
                exact ⟨continuation, _, hstep.created hout, htip.continued hfound hdatum hacc _,
                  rfl⟩
              · rintro ⟨⟩

/-- A new order stands at its beginning. -/
theorem Stands.start {ref : OutputReference} (hlive : utxo ref = some origin)
    (horder : WellFormedOrder d.sha2_256 d.orderScriptHash d.policyId origin original owner names) :
    Stands d origin original owner names (utxo, ⟨some ref, []⟩) (.live original.remainder) [] where
  events_eq := rfl
  live := by
    rintro ref' ⟨⟩
    exact ⟨origin, original, hlive,
      ⟨horder, rfl, rfl, rfl, .nil _, fun _ => rfl, fun _ => le_rfl⟩, rfl⟩
  closed := fun hnone => by cases hnone

/-- **Run lemma.**  From a well-formed order on, the ledger runs the order's
machine. -/
theorem Stands.of_run {ref : OutputReference} {submitted : List (Bytes × Transaction)}
    (hlive : utxo ref = some origin)
    (horder : WellFormedOrder d.sha2_256 d.orderScriptHash d.policyId origin original owner names)
    (hrun : Run (Step d) utxo submitted utxo') :
    ∃ stage, Run (OrderStep original.allowPartialFill) (.live original.remainder)
        (submitted.foldl (follow d.orderScriptHash) ⟨some ref, []⟩).events stage ∧
      Stands d origin original owner names
        (utxo', submitted.foldl (follow d.orderScriptHash) ⟨some ref, []⟩) stage
        (submitted.foldl (follow d.orderScriptHash) ⟨some ref, []⟩).events := by
  have hobserved : Run (Observed (Step d) (follow d.orderScriptHash)) (utxo, ⟨some ref, []⟩)
      submitted (utxo', submitted.foldl (follow d.orderScriptHash) ⟨some ref, []⟩) :=
    run_observed.mpr ⟨hrun, rfl⟩
  obtain ⟨es, stage, hmachine, hstands⟩ :=
    hobserved.simulated (R := Stands d origin original owner names)
      (fun s l s' t seen hstep hs => by
        obtain ⟨u, lin⟩ := s
        obtain ⟨u', lin'⟩ := s'
        obtain ⟨hstep, rfl⟩ := hstep
        exact Stands.step hstep hs)
      (Stands.start hlive horder)
  obtain rfl : _ = es := hstands.events_eq
  exact ⟨stage, hmachine, hstands⟩

end Sound

end BeaconDex
