import BeaconDex.Lineage
import BeaconDex.Settlement

/-!
# Spending one order

The two ways to spend a live order that nobody can take away: its owner withdraws
it (`withdrawal`), or someone who holds what it asks takes it, whole or in part
(`exchange`).  Both transactions are written out and shown to be ledger-valid.

They balance in ADA as well, up to the fee of a withdrawal, although the ledger of
`BeaconDex.Ledger` does not ask for it.

## Transactions that are written out

That the validators do not accept too much is the subject of the files before this one.
This file is about the other direction, for which it is not enough to satisfy a list of
rules: a transaction has to be there, with its inputs, outputs, mint and redeemers, and
every script has to approve it as a whole.  `Leg.Fair` is what balances it, and
`Settles` is what the rules ask for.
-/

namespace BeaconDex

open Library

variable {d : Deployment}

/-! ## Values without negative quantities -/

theorem nonnegative_iff {v : Value} : Nonnegative v ↔ ∀ p t, 0 ≤ v p t :=
  ⟨fun h p t => h.apply p t, fun h p _ t _ => h p t⟩

theorem Nonnegative.add {v w : Value} (hv : Nonnegative v) (hw : Nonnegative w) :
    Nonnegative (v + w) :=
  nonnegative_iff.mpr fun p t => add_nonneg (hv.apply p t) (hw.apply p t)

theorem nonnegative_fromAsset {q : ℤ} (hq : 0 ≤ q) (p : PolicyId) (n : AssetName) :
    Nonnegative (Assets.fromAsset p n q) := by
  refine nonnegative_iff.mpr fun p' t => ?_
  have hquantity := Assets.quantityOf_fromAsset p p' n t q
  rw [Assets.quantityOf] at hquantity
  rw [hquantity]
  split
  · exact hq
  · exact le_rfl

/-- A set of beacons is a value without debts. -/
theorem nonnegative_oneOfEach (p : PolicyId) (names : List AssetName) :
    Nonnegative (oneOfEach p names) := by
  induction names with
  | nil => exact nonnegative_iff.mpr fun _ _ => le_rfl
  | cons name names ih => exact (nonnegative_fromAsset zero_le_one p name).add ih

/-- Taking what is held of one asset out of a value leaves nothing negative. -/
theorem Nonnegative.sub_amount {v : Value} (hv : Nonnegative v) {a : AssetClass} {q : ℤ}
    (hq : q ≤ held a v) : Nonnegative (v + a.amount (-q)) := by
  refine nonnegative_iff.mpr fun p t => ?_
  have hquantity := Assets.quantityOf_fromAsset a.policyId p a.assetName t (-q)
  rw [Assets.quantityOf] at hquantity
  rw [DFinsupp.add_apply, DFinsupp.add_apply, AssetClass.amount, hquantity]
  split
  · next hat =>
    obtain ⟨rfl, rfl⟩ := hat
    rw [held, Assets.quantityOf] at hq
    omega
  · rw [add_zero]
    exact hv.apply p t

theorem withoutLovelace_add (v w : Value) :
    Assets.withoutLovelace (v + w) = Assets.withoutLovelace v + Assets.withoutLovelace w :=
  DFinsupp.erase_add _ _ _

theorem withoutLovelace_lovelace (q : ℤ) : Assets.withoutLovelace (Assets.fromLovelace q) = 0 :=
  DFinsupp.erase_single_same _ _

/-!
## Live orders

What a well-formed order has: quantities that are not negative, and names to burn.
-/

section Order

variable {output : Output} {datum : OrderDatum} {owner : VerificationKeyHash}
variable {names : List AssetName}

/-- An order with a deposit holds nothing negative. -/
theorem WellFormedOrder.nonnegative {sha2_256 : Bytes → Bytes} {orderScriptHash : ScriptHash}
    {policyId : PolicyId}
    (h : WellFormedOrder sha2_256 orderScriptHash policyId output datum owner names)
    (hdeposit : 0 ≤ depositOf datum output.value) : Nonnegative output.value := by
  rw [h.value_eq_deposit]
  exact ((nonnegative_fromAsset hdeposit _ _).add
    (nonnegative_fromAsset h.offerAmount_pos.le _ _)).add (nonnegative_oneOfEach _ _)

theorem WellFormedOrder.names_ne_nil {sha2_256 : Bytes → Bytes} {orderScriptHash : ScriptHash}
    {policyId : PolicyId}
    (h : WellFormedOrder sha2_256 orderScriptHash policyId output datum owner names) :
    names ≠ [] :=
  List.ne_nil_of_mem h.orderBeaconName_mem

end Order

/-- Burning one of each name is approved. -/
theorem burnBeaconsOk_oneOfEach {tx : Transaction} {names : List AssetName} (hnames : names ≠ [])
    (hmint : tx.mint = -oneOfEach d.policyId names) : burnBeaconsOk d.policyId tx = true := by
  have happly : ∀ t, Assets.tokens tx.mint d.policyId t = -(names.count t : ℤ) := by
    intro t
    rw [hmint, show Assets.tokens (-oneOfEach d.policyId names) d.policyId =
      -Assets.tokens (oneOfEach d.policyId names) d.policyId from rfl, DFinsupp.neg_apply,
      tokens_oneOfEach_apply]
  obtain ⟨name, hname⟩ := List.exists_mem_of_ne_nil _ hnames
  simp only [burnBeaconsOk, Bool.and_eq_true, Bool.not_eq_true', Assets.isEmpty_eq_false,
    Assets.allPairs, decide_eq_true_eq]
  constructor
  · intro hzero
    have hcount := happly name
    rw [hzero, DFinsupp.zero_apply] at hcount
    have := List.count_pos_iff.mpr hname
    omega
  · intro t ht
    have hnonzero := DFinsupp.mem_support_iff.mp ht
    rw [happly] at hnonzero ⊢
    omega

/-!
## Withdrawing

One input, one output, the burn of the names and the owner's signature.  The output is
what the order held, without its beacons and without the fee.
-/

/-- The owner takes the order back: `payout` goes to `address`, the beacons are
burnt. -/
def withdrawal (d : Deployment) (input : Input) (names : List AssetName)
    (owner : VerificationKeyHash) (address : Address) (payout : Value) : Transaction where
  inputs := [input]
  outputs := [⟨address, payout, .noDatum, none⟩]
  mint := -oneOfEach d.policyId names
  extraSignatories := [owner]
  validityRange := ⟨⟨.negativeInfinity, true⟩, ⟨.positiveInfinity, true⟩⟩
  redeemers := [(.spend input.outputReference, toData OrderRedeemer.cancelOrder),
    (.mint d.policyId, toData BeaconRedeemer.burnBeacons)]
  datums := []

/-- What the owner gets back: the deposit less the fee, and what is left of the
offer. -/
def payoutOf (datum : OrderDatum) (output : Output) (fee : ℤ) : Value :=
  Assets.fromLovelace (depositOf datum output.value - fee) + datum.offer.amount datum.offerAmount

section Withdrawal

variable {input : Input} {datum : OrderDatum} {owner : VerificationKeyHash}
variable {names : List AssetName} {address : Address} {fee : ℤ}

theorem spendRedeemer_withdrawal {payout : Value} :
    spendRedeemer (withdrawal d input names owner address payout) input.outputReference =
      some .cancelOrder := by
  simp only [spendRedeemer, withdrawal, List.lookup_cons_self, Option.bind_some, ofData_toData]

/-- What a withdrawal pays out bears no beacons: these are burned. -/
theorem payoutOf_beaconFree
    (horder : WellFormedOrder d.sha2_256 d.orderScriptHash d.policyId input.output datum owner
      names) : Assets.tokens (payoutOf datum input.output fee) d.policyId = 0 := by
  rw [payoutOf, Assets.tokens_add, Assets.fromLovelace,
    Assets.tokens_fromAsset_of_ne d.policyId_ne_ada, AssetClass.amount,
    Assets.tokens_fromAsset_of_ne horder.offer_policy.symm, add_zero]

/-- **A withdrawal is valid**, for every fee the deposit covers. -/
theorem withdrawal_valid
    (horder : WellFormedOrder d.sha2_256 d.orderScriptHash d.policyId input.output datum owner
      names) (hfee : 0 ≤ fee) (hdeposit : fee ≤ depositOf datum input.output.value) :
    LedgerValid d (withdrawal d input names owner address (payoutOf datum input.output fee)) where
  distinct := List.nodup_singleton _
  inputs_nonneg := by
    intro other hother
    rw [List.mem_singleton.mp hother]
    exact horder.nonnegative (hfee.trans hdeposit)
  outputs_nonneg := by
    intro out hout
    rw [List.mem_singleton.mp hout]
    exact (nonnegative_fromAsset (sub_nonneg.mpr hdeposit) _ _).add
      (nonnegative_fromAsset horder.offerAmount_pos.le _ _)
  conserved := by
    -- the beacons cancel, and the fee is in lovelace
    have hvalue := horder.value_eq_deposit
    simp only [inputValue, outputValue, withdrawal, List.map_singleton, List.sum_singleton]
    rw [hvalue, payoutOf, add_assoc, add_neg_cancel, add_zero, withoutLovelace_add,
      withoutLovelace_add, withoutLovelace_lovelace, withoutLovelace_lovelace]
  orders := by
    intro other hother hsits
    obtain rfl := List.mem_singleton.mp hother
    have hdistinct : ((withdrawal d other names owner address
        (payoutOf datum other.output fee)).inputs.map Input.outputReference).Nodup :=
      List.nodup_singleton _
    refine (runOrder_eq_some_true hdistinct hother hsits).mpr
      ⟨datum, orderDatum_of_inline horder.inline, .cancelled owner spendRedeemer_withdrawal
        ⟨horder.owner, List.mem_singleton_self _, ?_, ?_⟩⟩
    · show List.countP _ [other] = 1
      rw [List.countP_singleton, if_pos hsits]
    · intro out hout
      rw [List.mem_singleton.mp hout, horder.policy]
      exact payoutOf_beaconFree horder
  beacon := by
    intro _
    have hburn : burnBeaconsOk d.policyId
        (withdrawal d input names owner address (payoutOf datum input.output fee)) = true :=
      burnBeaconsOk_oneOfEach horder.names_ne_nil rfl
    have hlookup : (withdrawal d input names owner address
        (payoutOf datum input.output fee)).redeemers.lookup (.mint d.policyId) =
        some (toData BeaconRedeemer.burnBeacons) := by
      rw [withdrawal, List.lookup_cons, List.lookup_cons_self]
      rfl
    rw [runBeacon, hlookup, Option.bind_some, ofData_toData, Option.bind_some, beaconMint, hburn]

end Withdrawal

/-!
## Taking

Two inputs, the order and a wallet that can pay; the outputs are those of the leg, and
the change.  The order of the two inputs is the ledger's to decide, so both are treated.
-/

/-- What leaves an order with a leg: part of the offer, or all of it. -/
def Leg.given (leg : Leg) : ℤ := (leg.part.map Part.takeAmount).getD leg.datum.offerAmount

/-- What is paid for it. -/
def Leg.paid (leg : Leg) : ℤ := (leg.part.map Part.required).getD leg.datum.askAmount

/-- An order taken whole: its seller gets the ask and the deposit. -/
def Leg.whole (input : Input) (datum : OrderDatum) (names : List AssetName) : Leg where
  input := input
  datum := datum
  names := names
  payment := ⟨datum.paymentAddress,
    Assets.fromLovelace (depositOf datum input.output.value) + datum.ask.amount datum.askAmount,
    .inlineDatum (toData (PaymentTag.mk input.outputReference)), none⟩
  part := none

/-- An order taken in part: the rest is locked again. -/
def Leg.partOf (input : Input) (datum : OrderDatum) (names : List AssetName)
    (takeAmount required : ℤ) : Leg where
  input := input
  datum := datum
  names := names
  payment := ⟨datum.paymentAddress, datum.ask.amount required,
    .inlineDatum (toData (PaymentTag.mk input.outputReference)), none⟩
  part := some ⟨takeAmount, required,
    ⟨input.output.address, continuationValue datum takeAmount input.output.value,
      .inlineDatum (toData (reducedDatum datum takeAmount required)), none⟩⟩

/-- What is left in the wallet. -/
def changeOf (leg : Leg) (wallet : Input) : Output :=
  ⟨wallet.output.address,
    wallet.output.value + leg.datum.offer.amount leg.given + leg.datum.ask.amount (-leg.paid),
    .noDatum, none⟩

/-- One order taken out of one wallet. -/
def exchange (d : Deployment) (leg : Leg) (wallet : Input) : Transaction where
  inputs := [leg.input, wallet]
  outputs := leg.outputs ++ [changeOf leg wallet]
  mint := -oneOfEach d.policyId leg.burns
  extraSignatories := []
  validityRange := ⟨⟨.negativeInfinity, true⟩,
    ⟨(leg.datum.expiration.map .finite).getD .positiveInfinity, true⟩⟩
  redeemers := (.spend leg.ref, toData leg.redeemer) ::
    if leg.part.isNone then [(.mint d.policyId, toData BeaconRedeemer.burnBeacons)] else []
  datums := []

/-- A wallet that can pay `amount` of `ask`: an output at a key, with no beacons in
it. -/
structure Funds (d : Deployment) (ask : AssetClass) (amount : ℤ) (wallet : Input) : Prop where
  key : ∃ key, wallet.output.address.paymentCredential = .verificationKey key
  beaconFree : Assets.tokens wallet.output.value d.policyId = 0
  nonneg : Nonnegative wallet.output.value
  covers : amount ≤ held ask wallet.output.value

section Exchange

variable {input wallet : Input} {datum : OrderDatum} {owner : VerificationKeyHash}
variable {names : List AssetName} {leg : Leg}

/-- A wallet that funds a fill does not sit at the order script. -/
theorem Funds.sitsAt_eq {ask : AssetClass} {amount : ℤ} (h : Funds d ask amount wallet) :
    sitsAt d.orderScriptHash wallet.output = false := by
  obtain ⟨key, hkey⟩ := h.key
  rw [sitsAt, hkey]
  exact decide_eq_false (by simp)

/-- The legs of this file are sound. -/
theorem Leg.sound_whole
    (horder : WellFormedOrder d.sha2_256 d.orderScriptHash d.policyId input.output datum owner
      names) : (Leg.whole input datum names).Sound d where
  order := ⟨owner, horder⟩
  tag := rfl
  paymentAddress := rfl
  beaconFree := by
    show Assets.tokens (Assets.fromLovelace _ + _) d.policyId = 0
    rw [Assets.tokens_add, Assets.fromLovelace, AssetClass.amount,
      Assets.tokens_fromAsset_of_ne d.policyId_ne_ada,
      Assets.tokens_fromAsset_of_ne horder.ask_policy.symm, add_zero]
  full := by
    intro _
    show takePaymentOk datum _ (Assets.fromLovelace _ + _) = true
    cases hask : isAda datum.ask with
    | true =>
        rw [takePaymentOk_of_ada hask, AssetClass.amount_of_isAda hask, Assets.lovelaceOf_add,
          Assets.lovelaceOf_fromLovelace, Assets.lovelaceOf_fromLovelace, withoutLovelace_add,
          withoutLovelace_lovelace, withoutLovelace_lovelace]
        exact ⟨(add_comm _ _).le, add_zero 0⟩
    | false =>
        have hlovelace : Assets.lovelaceOf (Assets.fromLovelace (depositOf datum input.output.value)
            + datum.ask.amount datum.askAmount) = depositOf datum input.output.value := by
          rw [Assets.lovelaceOf_add, Assets.lovelaceOf_fromLovelace, AssetClass.lovelaceOf_amount,
            if_neg (by simp [hask]), add_zero]
        rw [takePaymentOk_of_token hask, hlovelace]
        exact ⟨le_rfl, rfl⟩
  part := fun _ h => by cases h

/-- A part that an order allows can be taken, at the payment the validators ask for. -/
theorem Leg.sound_partOf
    (horder : WellFormedOrder d.sha2_256 d.orderScriptHash d.policyId input.output datum owner
      names) (hallowed : datum.allowPartialFill = true) {fill : Fill} {left' : Remainder}
    (hfill : FillStep datum.remainder fill left') :
    (Leg.partOf input datum names fill.takeAmount fill.required).Sound d where
  order := ⟨owner, horder⟩
  tag := rfl
  paymentAddress := rfl
  beaconFree := by
    show Assets.tokens (datum.ask.amount _) d.policyId = 0
    exact Assets.tokens_fromAsset_of_ne horder.ask_policy.symm _ _
  full := fun h => by cases h
  part := by
    rintro part ⟨⟩
    refine ⟨hallowed, hfill.takeAmount_pos, hfill.takeAmount_lt, hfill.required_eq,
      hfill.required_lt, ?_, ⟨rfl, rfl, rfl, rfl⟩⟩
    show takePartialPaymentOk datum fill.required (datum.ask.amount fill.required) = true
    cases hask : isAda datum.ask with
    | true =>
        rw [takePartialPaymentOk_of_ada hask, AssetClass.amount_of_isAda hask,
          Assets.lovelaceOf_fromLovelace, withoutLovelace_lovelace]
        exact ⟨le_rfl, rfl⟩
    | false =>
        rw [takePartialPaymentOk_of_token hask, AssetClass.lovelaceOf_amount,
          if_neg (by simp [hask]), Assets.fromLovelace, Assets.fromAsset, DFinsupp.single_zero,
          DFinsupp.single_zero, zero_add]

/-- A leg moves what it says: the order's value leaves it against the payment, and
nothing in it is negative. -/
structure Leg.Fair (d : Deployment) (leg : Leg) : Prop where
  given_nonneg : 0 ≤ leg.given
  value : (leg.outputs.map Output.value).sum + oneOfEach d.policyId leg.burns +
    leg.datum.offer.amount leg.given =
      leg.input.output.value + leg.datum.ask.amount leg.paid
  input_nonneg : Nonnegative leg.input.output.value
  outputs_nonneg : ∀ out ∈ leg.outputs, Nonnegative out.value

/-- Taking an order whole moves its offer to the taker and its ask to the seller, and
makes no value and destroys none. -/
theorem Leg.fair_whole
    (horder : WellFormedOrder d.sha2_256 d.orderScriptHash d.policyId input.output datum owner
      names) (hdeposit : 0 ≤ depositOf datum input.output.value) :
    (Leg.whole input datum names).Fair d where
  given_nonneg := horder.offerAmount_pos.le
  value := by
    show ([Assets.fromLovelace _ + _].sum) + oneOfEach d.policyId names +
      datum.offer.amount datum.offerAmount = input.output.value + datum.ask.amount datum.askAmount
    conv_rhs => rw [horder.value_eq_deposit]
    rw [List.sum_singleton]
    abel
  input_nonneg := horder.nonnegative hdeposit
  outputs_nonneg := by
    intro out hout
    rw [List.mem_singleton.mp hout]
    exact (nonnegative_fromAsset hdeposit _ _).add
      (nonnegative_fromAsset horder.askAmount_pos.le _ _)

/-- Taking a part moves the part and what is required for it, and makes no value and
destroys none. -/
theorem Leg.fair_partOf
    (horder : WellFormedOrder d.sha2_256 d.orderScriptHash d.policyId input.output datum owner
      names) (hdeposit : 0 ≤ depositOf datum input.output.value) {fill : Fill} {left' : Remainder}
    (hfill : FillStep datum.remainder fill left') :
    (Leg.partOf input datum names fill.takeAmount fill.required).Fair d where
  given_nonneg := hfill.takeAmount_pos.le
  value := by
    have hback : datum.offer.amount (-fill.takeAmount) + datum.offer.amount fill.takeAmount = 0 := by
      rw [← AssetClass.amount_add, neg_add_cancel, AssetClass.amount, Assets.fromAsset,
        DFinsupp.single_zero, DFinsupp.single_zero]
    show [datum.ask.amount fill.required,
        input.output.value + datum.offer.amount (-fill.takeAmount)].sum +
      oneOfEach d.policyId [] + datum.offer.amount fill.takeAmount =
        input.output.value + datum.ask.amount fill.required
    calc _ = input.output.value + datum.ask.amount fill.required +
          (datum.offer.amount (-fill.takeAmount) + datum.offer.amount fill.takeAmount) := by
          rw [List.sum_cons, List.sum_singleton, show oneOfEach d.policyId [] = 0 from rfl]
          abel
      _ = _ := by rw [hback, add_zero]
  input_nonneg := horder.nonnegative hdeposit
  outputs_nonneg := by
    -- the continuation is an order again, with the same deposit
    have hcontinuation : IsContinuation input.output datum fill.takeAmount fill.required
        ⟨input.output.address, continuationValue datum fill.takeAmount input.output.value,
          .inlineDatum (toData (reducedDatum datum fill.takeAmount fill.required)), none⟩ :=
      ⟨rfl, rfl, rfl, rfl⟩
    intro out hout
    rcases List.mem_cons.mp hout with rfl | hout
    · refine nonnegative_fromAsset ?_ _ _
      obtain ⟨hlow, -⟩ := requiredPayment_bounds hfill.order_pos.1 hfill.required_eq
      have hshare : 0 ≤ fill.takeAmount * datum.remainder.askAmount :=
        mul_nonneg hfill.takeAmount_pos.le hfill.order_pos.2.le
      exact nonneg_of_mul_nonneg_left (hshare.trans hlow) hfill.order_pos.1
    · rw [List.mem_singleton.mp hout]
      refine (horder.continuation hfill.takeAmount_lt hfill.required_lt hcontinuation).nonnegative ?_
      rw [hcontinuation.depositOf_eq]
      exact hdeposit

/-- Change is a wallet again. -/
theorem Funds.change {amount : ℤ}
    (h : Funds d leg.datum.ask amount wallet) (hgiven : 0 ≤ leg.given) (hpaid : leg.paid ≤ amount)
    (hoffer : leg.datum.offer.policyId ≠ d.policyId) (hask : leg.datum.ask.policyId ≠ d.policyId)
    (ref : OutputReference) :
    Funds d leg.datum.ask (amount - leg.paid) ⟨ref, changeOf leg wallet⟩ := by
  have hheld : held leg.datum.ask wallet.output.value ≤
      held leg.datum.ask (wallet.output.value + leg.datum.offer.amount leg.given) := by
    rw [held_add, held_amount]
    split <;> omega
  have hcovers := h.covers
  refine ⟨h.key, ?_, ?_, ?_⟩
  · show Assets.tokens (wallet.output.value + _ + _) d.policyId = 0
    rw [Assets.tokens_add, Assets.tokens_add, h.beaconFree, AssetClass.amount, AssetClass.amount,
      Assets.tokens_fromAsset_of_ne hoffer.symm, Assets.tokens_fromAsset_of_ne hask.symm, add_zero,
      add_zero]
  · have hnonneg : Nonnegative (wallet.output.value + leg.datum.offer.amount leg.given) :=
      h.nonneg.add (nonnegative_fromAsset hgiven _ _)
    exact hnonneg.sub_amount (by omega)
  · show amount - leg.paid ≤ held leg.datum.ask (_ + leg.datum.ask.amount (-leg.paid))
    rw [held_add, held_amount, if_pos rfl]
    omega

/-- **An exchange settles its leg.** -/
theorem settles_exchange {amount : ℤ} (hsound : leg.Sound d)
    (hwallet : Funds d leg.datum.ask amount wallet) (hne : leg.ref ≠ wallet.outputReference)
    (hchange : Funds d leg.datum.ask (amount - leg.paid) ⟨leg.ref, changeOf leg wallet⟩) :
    Settles d [leg] (exchange d leg wallet) where
  distinct := by
    show [leg.ref, wallet.outputReference].Nodup
    simpa using hne
  inputs := by
    obtain ⟨owner, horder⟩ := hsound.order
    show [leg.input, wallet].filter _ = [leg.input]
    rw [List.filter_cons_of_pos (by exact horder.sits),
      List.filter_cons_of_neg (by simp [hwallet.sitsAt_eq]), List.filter_nil]
  others := by
    intro other hother hsits
    obtain ⟨owner, horder⟩ := hsound.order
    simp only [exchange, List.mem_cons, List.not_mem_nil, or_false] at hother
    rcases hother with rfl | rfl
    · rw [horder.sits] at hsits
      cases hsits
    · exact hwallet.beaconFree
  redeemers := by
    intro other hother
    rw [List.mem_singleton.mp hother, spendRedeemer]
    simp only [exchange, List.lookup_cons_self, Option.bind_some, ofData_toData]
  outputs := by
    refine ⟨[changeOf leg wallet], by simp [exchange], ?_⟩
    intro out hout
    rw [List.mem_singleton.mp hout]
    exact ⟨hchange.beaconFree, fun raw hraw => by cases hraw⟩
  burnt := by
    show Assets.tokens (-oneOfEach d.policyId leg.burns) d.policyId = _
    simp only [List.flatMap_cons, List.flatMap_nil, List.append_nil]
    rfl
  burnRedeemer := by
    intro hburns
    cases hpart : leg.part with
    | some part => simp [Leg.burns, hpart] at hburns
    | none =>
        have hlookup : (exchange d leg wallet).redeemers.lookup (.mint d.policyId) =
            some (toData BeaconRedeemer.burnBeacons) := by
          rw [exchange, hpart, Option.isNone_none, if_pos rfl, List.lookup_cons,
            List.lookup_cons_self]
          rfl
        rw [hlookup, Option.bind_some, ofData_toData]
  expiration := by
    intro other hother
    rw [List.mem_singleton.mp hother, expirationOk_eq_true]
    intro t ht
    exact ⟨t, by simp [exchange, ht], le_rfl⟩

/-- **An exchange is valid.** -/
theorem exchange_valid {amount : ℤ} (hsound : leg.Sound d) (hfair : leg.Fair d)
    (hwallet : Funds d leg.datum.ask amount wallet) (hpaid : leg.paid ≤ amount)
    (hne : leg.ref ≠ wallet.outputReference) : LedgerValid d (exchange d leg wallet) := by
  obtain ⟨owner, horder⟩ := hsound.order
  have hchange := hwallet.change hfair.given_nonneg hpaid horder.offer_policy horder.ask_policy
    leg.ref
  have hsettles := settles_exchange hsound hwallet hne hchange
  have hall : ∀ other ∈ [leg], other.Sound d := by
    intro other hother
    rwa [List.mem_singleton.mp hother]
  -- what goes in comes out, lovelace included
  have hbalance : inputValue (exchange d leg wallet) + (exchange d leg wallet).mint =
      outputValue (exchange d leg wallet) := by
    have hback : leg.datum.ask.amount leg.paid + leg.datum.ask.amount (-leg.paid) = 0 := by
      rw [← AssetClass.amount_add, add_neg_cancel, AssetClass.amount, Assets.fromAsset,
        DFinsupp.single_zero, DFinsupp.single_zero]
    have hout : outputValue (exchange d leg wallet) =
        (leg.outputs.map Output.value).sum + (wallet.output.value +
          leg.datum.offer.amount leg.given + leg.datum.ask.amount (-leg.paid)) := by
      simp [outputValue, exchange, changeOf]
    have hin : inputValue (exchange d leg wallet) =
        leg.input.output.value + wallet.output.value := by
      simp [inputValue, exchange]
    rw [hin, hout]
    calc leg.input.output.value + wallet.output.value + -oneOfEach d.policyId leg.burns
        = leg.input.output.value + (leg.datum.ask.amount leg.paid +
            leg.datum.ask.amount (-leg.paid)) + wallet.output.value +
            -oneOfEach d.policyId leg.burns := by rw [hback, add_zero]
      _ = (leg.input.output.value + leg.datum.ask.amount leg.paid) +
            leg.datum.ask.amount (-leg.paid) + wallet.output.value +
            -oneOfEach d.policyId leg.burns := by abel
      _ = _ := by
          rw [← hfair.value]
          abel
  refine ⟨⟨hsettles.distinct, ?_, ?_, by rw [hbalance]⟩, ?_, ?_⟩
  · intro other hother
    simp only [exchange, List.mem_cons, List.not_mem_nil, or_false] at hother
    rcases hother with rfl | rfl
    · exact hfair.input_nonneg
    · exact hwallet.nonneg
  · intro out hout
    simp only [exchange, List.mem_append, List.mem_singleton] at hout
    rcases hout with hout | rfl
    · exact hfair.outputs_nonneg out hout
    · exact hchange.nonneg
  · intro other hother hsits
    simp only [exchange, List.mem_cons, List.not_mem_nil, or_false] at hother
    rcases hother with rfl | rfl
    · exact hsettles.runOrder_accepted hall List.mem_cons_self
    · rw [hwallet.sitsAt_eq] at hsits
      cases hsits
  · intro hruns
    refine hsettles.runBeacon_accepted ?_
    intro hburns
    simp only [List.flatMap_cons, List.flatMap_nil, List.append_nil] at hburns
    rw [runsPolicy, exchange, hburns, Bool.not_eq_true', Assets.isEmpty_eq_false] at hruns
    exact hruns neg_zero

end Exchange

end BeaconDex
