import BeaconDex.Backend.OrderCreation
import BeaconDex.Backend.OrderIndexer
import BeaconDex.Settlement
import Mathlib.Data.Char
import Mathlib.Data.List.Lex
import Mathlib.Data.Set.List

/-!
# The builder refines the validators

Whatever batch `buildTakeManyOrders` accepts, over live orders the builder itself
created or continuations of them, the transaction assembled from its draft is
approved by every script that runs (`builder_refines_validators`).

The proof goes through the chain's own description of a batch: each leg of the
draft reads as a sound `Leg` (`exists_leg`), and the assembled transaction
settles these legs (`settles_of_assembles`).  The two agree on the order of the
inputs because hex keeps the order of bytes.

## What Mesh is trusted with

Between a draft and a transaction stand coin selection, fees, change and serialisation.
They are not modelled; `Assembles` says what they leave alone: the script inputs and
their redeemers, the outputs of the draft at the head of the outputs, and the mint
field.  Change follows them and is no order, and the ledger sorts the inputs.
Everything the validators look at is then a matter of the draft.

## What the orders are trusted with

The builder resolves an order from its UTxO as the provider reports it.  An order of
another maker may have a datum the backend reads differently from the validators, such
as an address with a script for its owner, so the result is about orders the builder
itself makes, and about what is left of them after any number of partial fills
(`BuilderOrder`).
-/

namespace BeaconDex.Backend

open Library

section Refinement

variable {d : Deployment} {mesh : Mesh} {scripts : ProtocolScripts} {reading : ChainReading}
variable {opts : BuilderOptions} {p : ChainProvider} {now : ℤ} {utxo : Utxo}

/-!
## The assembled transaction

What Mesh and the wallet may add to a draft, and what they may not touch.
-/

/-- The order of a transaction's inputs: by id bytes, then by index. -/
def precedes (r s : OutputReference) : Prop :=
  r.transactionId < s.transactionId ∨
    r.transactionId = s.transactionId ∧ r.outputIndex < s.outputIndex

instance : DecidableRel precedes := fun _ _ => inferInstanceAs (Decidable (_ ∨ _ ∧ _))

/-- An input a wallet can add: locked by a key, without beacons. -/
def IsWalletInput (d : Deployment) (input : Input) : Prop :=
  (∃ key, input.output.address.paymentCredential = .verificationKey key) ∧
    Assets.tokens input.output.value d.policyId = 0

/-- An output the change can be: without beacons or an inline datum. -/
def IsChange (d : Deployment) (out : Output) : Prop :=
  Assets.tokens out.value d.policyId = 0 ∧ ∀ raw, out.datum ≠ .inlineDatum raw

/-- The mint field that Mesh makes of the instructions of a draft. -/
def mintOf (mints : List DraftMint) : Value :=
  (mints.map fun m => Assets.fromAsset (bytesOfHex m.policyId) (bytesOfHex m.name) m.quantity).sum

/-- **`tx` is assembled from `draft`** over the unspent outputs `utxo`: the
ledger sorts the inputs, the wallet adds some of its own, change follows the
outputs of the draft. -/
structure Assembles (d : Deployment) (reading : ChainReading) (utxo : Utxo) (draft : TxDraft)
    (tx : Transaction) : Prop where
  sorted : tx.inputs.Pairwise fun a b => precedes a.outputReference b.outputReference
  resolved : ∀ input ∈ tx.inputs, utxo input.outputReference = some input.output
  spends : ∀ spend ∈ draft.spends, ∃ input ∈ tx.inputs,
    input.outputReference = reference spend.input
  inputs : ∀ input ∈ tx.inputs, IsWalletInput d input ∨
    ∃ spend ∈ draft.spends, input.outputReference = reference spend.input
  outputs : ∃ change, tx.outputs = draft.outputs.map reading.output ++ change ∧
    ∀ out ∈ change, IsChange d out
  mint : tx.mint = mintOf draft.mints
  spendRedeemers : ∀ spend ∈ draft.spends,
    tx.redeemers.lookup (.spend (reference spend.input)) = some (reading.data spend.redeemer)
  mintRedeemers : ∀ m ∈ draft.mints,
    tx.redeemers.lookup (.mint (bytesOfHex m.policyId)) = some (reading.data m.redeemer)
  bound : ∀ slot, draft.invalidHereafter = some (.finite slot) →
    tx.validityRange.upperBound.boundType = .finite (reading.slotTime slot)

/-- The provider shows unspent outputs as they are. -/
def ShowsLive (mesh : Mesh) (reading : ChainReading) (p : ChainProvider) (utxo : Utxo) : Prop :=
  ∀ ref u, p.getUtxo ref = .ok (some u) →
    ∃ out, utxo (reference ref) = some out ∧ Reports mesh reading u out

/-!
## The order of the inputs

The builder sorts by hash and index as texts and numbers; the ledger sorts by bytes and
index.
-/

instance : Std.Total inInputOrder where
  total a b := by
    simp only [inInputOrder]
    rcases lt_trichotomy a.ref.txHash b.ref.txHash with hlt | heq | hgt
    · exact Or.inl (Or.inl hlt)
    · rcases le_total a.ref.outputIndex b.ref.outputIndex with hle | hle
      · exact Or.inl (Or.inr ⟨heq, hle⟩)
      · exact Or.inr (Or.inr ⟨heq.symm, hle⟩)
    · exact Or.inr (Or.inl hgt)

instance : IsTrans ResolvedLeg inInputOrder where
  trans a b c := by
    rintro (hab | ⟨hab, hab'⟩) (hbc | ⟨hbc, hbc'⟩)
    · exact Or.inl (hab.trans hbc)
    · exact Or.inl (hbc ▸ hab)
    · exact Or.inl (hab ▸ hbc)
    · exact Or.inr ⟨hab.trans hbc, hab'.trans hbc'⟩

/-- No reference comes before itself in the order in which the ledger sorts inputs. -/
theorem precedes_irrefl (r : OutputReference) : ¬precedes r r := by
  rintro (h | ⟨-, h⟩)
  · exact lt_irrefl _ h
  · exact lt_irrefl _ h

theorem precedes_asymm {r s : OutputReference} (h : precedes r s) : ¬precedes s r := by
  rintro (h' | ⟨heq', h'⟩) <;> rcases h with h | ⟨heq, h⟩
  · exact lt_asymm h h'
  · exact (heq ▸ h').ne rfl
  · exact (heq' ▸ h).ne rfl
  · exact lt_asymm h h'

/-- The text of a transaction id is the hex of its bytes. -/
theorem hexOf_txHash {orderId : Str} {ref : OutRef} (h : orderTarget orderId = some ref) :
    hexOf (reference ref).transactionId = ref.txHash := by
  obtain ⟨hlen, hhex⟩ := txHash_of_orderTarget h
  exact hexOf_bytesOfHex hhex (by rw [hlen]; decide)

/-- **The builder's order is the ledger's**: hex keeps the order of bytes. -/
theorem precedes_of_inInputOrder {id id' : Str} {a b : ResolvedLeg}
    (ha : orderTarget id = some a.ref) (hb : orderTarget id' = some b.ref)
    (hne : a.ref ≠ b.ref) (h : inInputOrder a b) :
    precedes (reference a.ref) (reference b.ref) := by
  rcases h with hlt | ⟨heq, hle⟩
  · left
    rw [← hexOf_txHash ha, ← hexOf_txHash hb] at hlt
    exact hexOf_lt_hexOf.mp hlt
  · -- equal ids: the references still differ, so the indices do
    refine Or.inr ⟨congrArg bytesOfHex heq, ?_⟩
    have hindex : a.ref.outputIndex ≠ b.ref.outputIndex := fun hindex =>
      hne (by
        cases hra : a.ref
        cases hrb : b.ref
        simp_all)
    show (a.ref.outputIndex : ℤ) < b.ref.outputIndex
    omega

/-!
## One leg

The draft of a leg, read as the ledger reads it, is a sound leg of a settlement:
payment, continuation, redeemer and names to burn.
-/

/-- What a resolved order is on the chain: the live output `out`, on the terms
`k`. -/
structure Terms (d : Deployment) (mesh : Mesh) (reading : ChainReading) (utxo : Utxo)
    (order : ResolvedOrder) (out : Output) (k : KeyOrder) (names : List AssetName) : Prop where
  live : utxo (reference order.ref) = some out
  reports : Reports mesh reading order.utxo out
  wellFormed : WellFormedOrder d.sha2_256 d.orderScriptHash d.policyId out k.datum k.owner names
  datum : order.datum = k.fields
  beaconNames : order.beaconNames = names.map hexOf
  deposit : order.deposit = BeaconDex.depositOf k.datum out.value

/-- **The builder reads its own orders right.** -/
theorem Resolved.exists_terms (h : Documented d mesh scripts reading)
    (hlive : ShowsLive mesh reading p utxo) {orderId : Str} {order : ResolvedOrder}
    (hresolved : Resolved mesh scripts p orderId order)
    (horder : ∀ out, utxo (reference order.ref) = some out →
      BuilderOrder d mesh scripts reading out) :
    ∃ out k names, Terms d mesh reading utxo order out k names := by
  obtain ⟨out, hout, hreports⟩ := hlive _ _ hresolved.fetched
  obtain ⟨k, names, hwf⟩ := (horder out hout).exists_keyOrder h
  obtain ⟨cbor, hcbor, hdecode⟩ := hresolved.datum
  obtain ⟨cbor', hcbor', hnode⟩ := hreports.datum _ hwf.inline
  obtain rfl : cbor = cbor' := Option.some.inj (hcbor.symm.trans hcbor')
  have hdatum : order.datum = k.fields := by
    rw [decodeOrderDatum, hnode, KeyOrder.decodeNode_toData] at hdecode
    exact (Option.some.inj hdecode).symm
  refine ⟨out, k, names, hout, hreports, hwf, hdatum, ?_, ?_⟩
  · rw [hresolved.beaconNames, hdatum]
    exact deriveBeaconNames_values h.sha256 hwf.names_eq
  · rw [hresolved.deposit, hdatum, depositOf, BeaconDex.depositOf, hreports.amount.lovelaceOf_eq]
    simp only [KeyOrder.fields, isAda_assetHex]
    rfl

section Payments

variable {datum : OrderDatumFields} {ask : AssetClass}

/-- The payment for a whole order as a value: the ask and the deposit, in one quantity
where the ask is ADA. -/
theorem valueOf_fullPayment (hask : Nameable ask) (hdatum : datum.ask = assetHex ask)
    (deposit : ℤ) :
    valueOf (fullPayment datum deposit) =
      if BeaconDex.isAda ask then Assets.fromLovelace (datum.askAmount + deposit)
      else Assets.fromLovelace deposit + ask.amount datum.askAmount := by
  simp only [fullPayment, hdatum, unitOf_eq_lovelaceUnit_iff hask]
  split <;> simp [value_lovelace, value_unitOf hask]

/-- The payment for a part as a value: what is required, which is padded to the floor
where it is ADA and comes with the floor where it is not. -/
theorem valueOf_partialPayment (hask : Nameable ask) (hdatum : datum.ask = assetHex ask)
    (required : ℤ) :
    valueOf (partialPayment datum required) =
      if BeaconDex.isAda ask then
        Assets.fromLovelace (if required > PARTIAL_PAYMENT_LOVELACE then required
          else PARTIAL_PAYMENT_LOVELACE)
      else Assets.fromLovelace PARTIAL_PAYMENT_LOVELACE + ask.amount required := by
  simp only [partialPayment, hdatum, unitOf_eq_lovelaceUnit_iff hask]
  split <;> simp [value_lovelace, value_unitOf hask]

variable {k : KeyOrder} {names : List AssetName} {out : Output}

theorem withoutLovelace_fromLovelace (q : ℤ) :
    Assets.withoutLovelace (Assets.fromLovelace q) = 0 :=
  DFinsupp.erase_single_same _ _

theorem lovelaceOf_tokenPayment {ask : AssetClass} (hask : BeaconDex.isAda ask = false) (l q : ℤ) :
    Assets.lovelaceOf (Assets.fromLovelace l + ask.amount q) = l := by
  rw [Assets.lovelaceOf_add, Assets.lovelaceOf_fromLovelace, AssetClass.lovelaceOf_amount,
    if_neg (by simp [hask]), add_zero]

/-- The builder's full payment is accepted. -/
theorem takePaymentOk_fullPayment (deposit : ℤ) :
    takePaymentOk k.datum deposit (valueOf (fullPayment k.fields deposit)) = true := by
  rw [valueOf_fullPayment k.ask_nameable rfl]
  cases hask : BeaconDex.isAda k.ask with
  | true =>
      rw [takePaymentOk_of_ada hask, if_pos rfl, Assets.lovelaceOf_fromLovelace]
      exact ⟨le_rfl, withoutLovelace_fromLovelace _⟩
  | false =>
      rw [takePaymentOk_of_token hask, if_neg (by simp), lovelaceOf_tokenPayment hask]
      exact ⟨le_rfl, rfl⟩

/-- The builder's part payment is accepted, topped up or not. -/
theorem takePartialPaymentOk_partialPayment (required : ℤ) :
    takePartialPaymentOk k.datum required (valueOf (partialPayment k.fields required)) = true := by
  rw [valueOf_partialPayment k.ask_nameable rfl]
  cases hask : BeaconDex.isAda k.ask with
  | true =>
      rw [takePartialPaymentOk_of_ada hask, if_pos rfl, Assets.lovelaceOf_fromLovelace]
      refine ⟨?_, withoutLovelace_fromLovelace _⟩
      split <;> omega
  | false =>
      rw [takePartialPaymentOk_of_token hask, if_neg (by simp), lovelaceOf_tokenPayment hask]
      rfl

/-- Payments bear no beacons. -/
theorem tokens_payment (d : Deployment) {ask : AssetClass} (hask : ask.policyId ≠ d.policyId)
    (l q : ℤ) : Assets.tokens (Assets.fromLovelace l + ask.amount q) d.policyId = 0 := by
  rw [Assets.tokens_add, Assets.fromLovelace, AssetClass.amount,
    Assets.tokens_fromAsset_of_ne d.policyId_ne_ada, Assets.tokens_fromAsset_of_ne hask.symm,
    add_zero]

theorem tokens_fromLovelace (d : Deployment) (q : ℤ) :
    Assets.tokens (Assets.fromLovelace q) d.policyId = 0 :=
  Assets.tokens_fromAsset_of_ne d.policyId_ne_ada _ _

end Payments

/-- What the transaction gets for a leg that takes `takeAmount`. -/
def takeRedeemer : Option ℤ → OrderRedeemer
  | none => .takeOrder
  | some takeAmount => .takeOrderPartial takeAmount

/-- `leg` is the resolved order, as its draft spends it. -/
structure ReadsOrder (d : Deployment) (utxo : Utxo) (order : ResolvedLeg) (leg : Leg) : Prop where
  ref : leg.ref = reference order.ref
  live : utxo leg.ref = some leg.input.output
  sound : leg.Sound d
  redeemer : leg.redeemer = takeRedeemer order.takeAmount
  expiration : order.datum.expiration = leg.datum.expiration.map .finite

/-- `leg` is what the draft says. -/
structure ReadsDraft (reading : ChainReading) (draft : LegDraft) (leg : Leg) : Prop where
  input : reference draft.spend.input = leg.ref
  redeemer : reading.data draft.spend.redeemer = toData leg.redeemer
  outputs : draft.outputs.map reading.output = leg.outputs
  burns : draft.burnNames = leg.burns.map hexOf

section Leg

variable {order : ResolvedLeg} {out : Output} {k : KeyOrder} {names : List AssetName}

/-- A payment output, as the ledger reads it: it goes to the payment address of the order,
and its tag is its inline datum. -/
theorem payment_read (h : Documented d mesh scripts reading) {orderId : Str}
    (htarget : orderTarget orderId = some order.ref)
    (hterms : Terms d mesh reading utxo order.toResolvedOrder out k names) {address : Str}
    (haddress : paymentAddress mesh order = .ok address) (amount : List Asset) :
    (reading.output (paymentOutput order address amount)).address = k.datum.paymentAddress ∧
      (reading.output (paymentOutput order address amount)).datum =
        .inlineDatum (toData (PaymentTag.mk (reference order.ref))) := by
  rw [paymentAddress, orThrow_eq_ok, hterms.datum] at haddress
  refine ⟨h.serializeKeyAddress _ _ _ haddress, ?_⟩
  show Datum.inlineDatum (reading.data (encodePaymentTag order.ref.txHash _)) = _
  rw [← hexOf_txHash htarget, h.data_paymentTag]
  rfl

/-- A full leg of the draft. -/
theorem exists_leg_of_buildFullLeg (h : Documented d mesh scripts reading) {orderId : Str}
    (htarget : orderTarget orderId = some order.ref)
    (hterms : Terms d mesh reading utxo order.toResolvedOrder out k names)
    (htake : order.takeAmount = none) {draft : LegDraft}
    (hbuild : buildFullLeg mesh scripts opts order = .ok draft) :
    ∃ leg, ReadsOrder d utxo order leg ∧ ReadsDraft reading draft leg := by
  simp only [buildFullLeg, bind, bind_eq_ok, pure, Except.pure, Except.ok.injEq] at hbuild
  obtain ⟨address, hpays, rfl⟩ := hbuild
  let payment := paymentOutput order address (fullPayment order.datum order.deposit)
  obtain ⟨haddress, htag⟩ := payment_read h htarget hterms hpays
    (fullPayment order.datum order.deposit)
  have hvalue : (reading.output payment).value =
      valueOf (fullPayment order.datum order.deposit) := rfl
  let leg : BeaconDex.Leg :=
    ⟨⟨reference order.ref, out⟩, k.datum, names, reading.output payment, none⟩
  have hsound : leg.Sound d := {
    order := ⟨k.owner, hterms.wellFormed⟩
    tag := htag
    paymentAddress := haddress
    beaconFree := by
      rw [hvalue, hterms.datum, valueOf_fullPayment k.ask_nameable rfl]
      split
      · exact tokens_fromLovelace d _
      · exact tokens_payment d hterms.wellFormed.ask_policy _ _
    full := fun _ => by
      rw [hvalue, hterms.datum, hterms.deposit]
      exact takePaymentOk_fullPayment _
    part := fun part hpart => by cases hpart }
  refine ⟨leg, ⟨rfl, hterms.live, hsound, ?_, ?_⟩, ⟨rfl, ?_, rfl, hterms.beaconNames⟩⟩
  · rw [htake]
    rfl
  · rw [hterms.datum]
    rfl
  · exact (h.con 1 []).trans rfl

/-- The two roundings agree on positive arguments. -/
theorem requiredPayment_onChain {take ask offer required : ℤ}
    (h : requiredPayment take ask offer = some required) :
    BeaconDex.requiredPayment take ask offer = some required := by
  unfold requiredPayment at h
  split at h
  · cases h
  · next hpos =>
    simp only [not_or, not_le] at hpos
    obtain ⟨htake, hask, hoffer⟩ := hpos
    have hnonneg : 0 ≤ take * ask + offer - 1 := by
      have := mul_pos htake hask
      omega
    rw [Int.tdiv_eq_ediv_of_nonneg hnonneg] at h
    rw [BeaconDex.requiredPayment, if_neg hoffer.ne', Int.fdiv_eq_ediv_of_nonneg _ hoffer.le, h]

/-- The rest of a partially taken order is locked as its continuation. -/
theorem isContinuation_continuationOutput (h : Documented d mesh scripts reading)
    (hterms : Terms d mesh reading utxo order.toResolvedOrder out k names)
    {takeAmount required : ℤ} (hpos : 0 < takeAmount) (hlt : takeAmount < k.offerAmount)
    (hreq : required < k.askAmount) :
    IsContinuation out k.datum takeAmount required
      (reading.output (continuationOutput order takeAmount required)) := by
  refine ⟨hterms.reports.address, ?_, ?_, rfl⟩
  · have hheld : takeAmount < held k.offer out.value :=
      hlt.trans_le hterms.wellFormed.offerAmount_le_held
    show valueOf (continuationAmount (unitOf order.datum.offer) takeAmount order.utxo.amount) = _
    rw [hterms.datum]
    exact hterms.reports.amount.valueOf_continuationAmount k.offer_nameable hpos hheld
  · show Datum.inlineDatum (reading.data
      (encodeOrderDatum (continuationDatum order.datum takeAmount required))) = _
    rw [hterms.datum]
    exact congrArg Datum.inlineDatum (h.data_fields (k.reduced takeAmount required hlt hreq))

/-- A partial leg of the draft. -/
theorem exists_leg_of_buildPartialLeg (h : Documented d mesh scripts reading) {orderId : Str}
    (htarget : orderTarget orderId = some order.ref)
    (hterms : Terms d mesh reading utxo order.toResolvedOrder out k names) {takeAmount : ℤ}
    (htake : order.takeAmount = some takeAmount) {draft : LegDraft}
    (hbuild : buildPartialLeg mesh scripts opts order takeAmount = .ok draft) :
    ∃ leg, ReadsOrder d utxo order leg ∧ ReadsDraft reading draft leg := by
  simp only [buildPartialLeg, bind, bind_eq_ok, orThrow_eq_ok, throwIf_eq_ok, pure, Except.pure,
    Except.ok.injEq, not_le, ge_iff_le, Bool.not_eq_false] at hbuild
  obtain ⟨address, hpays, -, hallow, -, hpos, -, hlt, required, hrequired, -, hreq, rfl⟩ := hbuild
  rw [hterms.datum] at hallow hlt hrequired hreq
  let payment := paymentOutput order address (partialPayment order.datum required)
  obtain ⟨haddress, htag⟩ := payment_read h htarget hterms hpays
    (partialPayment order.datum required)
  have hvalue : (reading.output payment).value =
      valueOf (partialPayment k.fields required) := by
    rw [← hterms.datum]
    rfl
  let leg : BeaconDex.Leg :=
    ⟨⟨reference order.ref, out⟩, k.datum, names, reading.output payment,
      some ⟨takeAmount, required, reading.output (continuationOutput order takeAmount required)⟩⟩
  have hsound : leg.Sound d := {
    order := ⟨k.owner, hterms.wellFormed⟩
    tag := htag
    paymentAddress := haddress
    beaconFree := by
      rw [hvalue, valueOf_partialPayment k.ask_nameable rfl]
      split
      · exact tokens_fromLovelace d _
      · exact tokens_payment d hterms.wellFormed.ask_policy _ _
    full := fun hnone => by cases hnone
    part := fun part hpart => by
      obtain rfl := Option.some.inj hpart
      exact {
        allowed := hallow
        takeAmount_pos := hpos
        takeAmount_lt := hlt
        required_eq := requiredPayment_onChain hrequired
        required_lt := hreq
        paymentValue := by
          rw [hvalue]
          exact takePartialPaymentOk_partialPayment required
        isContinuation := isContinuation_continuationOutput h hterms hpos hlt hreq } }
  refine ⟨leg, ⟨rfl, hterms.live, hsound, ?_, ?_⟩, ⟨rfl, ?_, rfl, rfl⟩⟩
  · rw [htake]
    rfl
  · rw [hterms.datum]
    rfl
  · refine (h.con 2 _).trans ?_
    rw [List.map_singleton, h.bigint]
    rfl

/-- **Each leg of the draft reads as a sound leg.** -/
theorem exists_leg (h : Documented d mesh scripts reading) {orderId : Str}
    (htarget : orderTarget orderId = some order.ref)
    (hterms : Terms d mesh reading utxo order.toResolvedOrder out k names) {draft : LegDraft}
    (hbuild : buildLeg mesh scripts opts order = .ok draft) :
    ∃ leg, ReadsOrder d utxo order leg ∧ ReadsDraft reading draft leg := by
  unfold buildLeg at hbuild
  split at hbuild
  · next htake => exact exists_leg_of_buildFullLeg h htarget hterms htake hbuild
  · next takeAmount htake => exact exists_leg_of_buildPartialLeg h htarget hterms htake hbuild

end Leg

/-!
## The whole batch

The legs in order make up all the script inputs and, before the change, all the outputs;
the mints are their burns.  What is left is `Settlement`.
-/

/-- The mint entries of a list of names are one token for every time a name is
listed, minted or burned. -/
theorem mintOf_mintBeacons (h : Documented d mesh scripts reading) (names : List AssetName)
    (sign : ℤ) :
    mintOf (mintBeacons scripts (names.map hexOf) sign) = sign • oneOfEach d.policyId names := by
  have hmint : mintOf (mintBeacons scripts (names.map hexOf) sign) =
      ((countNames (names.map hexOf)).map fun entry =>
        Assets.fromAsset d.policyId (bytesOfHex entry.1) (sign * entry.2)).sum := by
    rw [mintOf, mintBeacons, List.map_map, h.beaconPolicyId]
    refine congrArg List.sum (List.map_congr_left ?_)
    intro entry _
    show Assets.fromAsset (bytesOfHex (hexOf d.policyId)) _ _ = _
    rw [bytesOfHex_hexOf]
  rw [hmint, sum_countNames (f := fun name count =>
    Assets.fromAsset d.policyId (bytesOfHex name) (sign * count)) fun name m n => by
      rw [mul_add, Assets.fromAsset_add]]
  have hone : ∀ name : AssetName, Assets.fromAsset d.policyId (bytesOfHex (hexOf name)) (sign * 1) =
      sign • Assets.fromAsset d.policyId name 1 := by
    intro name
    rw [bytesOfHex_hexOf, Assets.fromAsset, Assets.fromAsset, ← DFinsupp.single_smul,
      ← DFinsupp.single_smul, smul_eq_mul]
  clear hmint
  induction names with
  | nil => exact (smul_zero sign).symm
  | cons name names ih =>
      rw [List.map_cons, List.map_cons, List.sum_cons, ih, hone, oneOfEach, oneOfEach,
        List.map_cons, List.sum_cons]
      exact (zsmul_add _ _ _).symm

/-- Burning beacons runs the policy with the redeemer for burns. -/
theorem exists_burn (scripts : ProtocolScripts) {names : List Str} (h : names ≠ []) :
    ∃ m ∈ mintBeacons scripts names (-1),
      m.policyId = scripts.beaconPolicyId ∧ m.redeemer = BURN_BEACONS_REDEEMER := by
  have hne : countNames names ≠ [] := by
    intro hnil
    have hlen := sum_countNames (f := fun _ n => n) (fun _ _ _ => rfl) names
    rw [hnil] at hlen
    simp only [List.map_nil, List.sum_nil, List.map_const', List.sum_replicate, nsmul_eq_mul,
      mul_one] at hlen
    have := List.length_pos_iff.mpr h
    omega
  obtain ⟨entry, hentry⟩ := List.exists_mem_of_ne_nil _ hne
  exact ⟨_, List.mem_map_of_mem hentry, rfl, rfl⟩

/-- The bound of a batch meets every expiration in it. -/
theorem slotTime_validityBound (h : Documented d mesh scripts reading) {legs : List ResolvedLeg}
    (hfinite : ∀ leg ∈ legs, ∃ expiration : Option ℤ,
      leg.datum.expiration = expiration.map .finite) {leg : ResolvedLeg} (hleg : leg ∈ legs) {t : ℤ}
    (ht : leg.datum.expiration = some (.finite t)) :
    ∃ slot, validityBound mesh legs = some (.finite slot) ∧ reading.slotTime slot ≤ t := by
  -- the expirations of orders on the chain are integers
  obtain ⟨times, htimes⟩ : ∃ times : List ℤ,
      times.map JsNumber.finite = legs.filterMap fun leg => leg.datum.expiration := by
    have hmem : (legs.filterMap fun leg => leg.datum.expiration) ∈
        Set.range (List.map JsNumber.finite) := by
      rw [Set.range_list_map]
      intro time htime
      obtain ⟨other, hother, hexpiration⟩ := List.mem_filterMap.mp htime
      obtain ⟨expiration, heq⟩ := hfinite other hother
      rw [heq, Option.map_eq_some_iff] at hexpiration
      obtain ⟨n, -, rfl⟩ := hexpiration
      exact ⟨n, rfl⟩
    exact hmem
  have hmem : t ∈ times := by
    have hlisted : JsNumber.finite t ∈ legs.filterMap fun leg => leg.datum.expiration :=
      List.mem_filterMap.mpr ⟨leg, hleg, ht⟩
    rw [← htimes, List.mem_map] at hlisted
    obtain ⟨n, hn, heq⟩ := hlisted
    cases heq
    exact hn
  rw [validityBound, ← htimes]
  cases times with
  | nil => cases hmem
  | cons first rest =>
      obtain ⟨least, hleast, hfirst, hrest⟩ := minimum_finite first rest
      obtain ⟨slot, hslot, htime⟩ := h.slot least
      refine ⟨slot, ?_, htime.trans ?_⟩
      · simp only [List.map_cons, hleast, hslot]
      · rcases List.mem_cons.mp hmem with rfl | hmem
        · exact hfirst
        · exact hrest t hmem

section Assembled

variable {params : TakeManyOrdersParams} {unsorted : List ResolvedLeg} {drafts : List LegDraft}
variable {draft : TxDraft} {tx : Transaction} {legs : List Leg}

/-- What the transaction has for each leg. -/
theorem Assembles.leg (h : Assembles d reading utxo draft tx)
    (hbatch : Batch mesh scripts opts p now params unsorted drafts draft)
    (hdrafts : List.Forall₂ (ReadsDraft reading) drafts legs) {leg : Leg} (hleg : leg ∈ legs) :
    (∃ input ∈ tx.inputs, input.outputReference = leg.ref) ∧
      spendRedeemer tx leg.ref = some leg.redeemer := by
  obtain ⟨legDraft, hdraft, hreads⟩ := exists_of_mem_right hdrafts hleg
  have hspend : legDraft.spend ∈ draft.spends := by
    rw [hbatch.spends]
    exact List.mem_map_of_mem hdraft
  constructor
  · rw [← hreads.input]
    exact h.spends _ hspend
  · rw [spendRedeemer, ← hreads.input, h.spendRedeemers _ hspend, hreads.redeemer]
    exact ofData_toData leg.redeemer

/-- An input is one the wallet added or one of the legs. -/
theorem Assembles.input_cases (h : Assembles d reading utxo draft tx)
    (hbatch : Batch mesh scripts opts p now params unsorted drafts draft)
    (hlive : ∀ leg ∈ legs, utxo leg.ref = some leg.input.output)
    (hdrafts : List.Forall₂ (ReadsDraft reading) drafts legs) {input : Input}
    (hinput : input ∈ tx.inputs) : IsWalletInput d input ∨ ∃ leg ∈ legs, leg.input = input := by
  refine (h.inputs input hinput).imp_right ?_
  rintro ⟨spend, hspend, href⟩
  rw [hbatch.spends, List.mem_map] at hspend
  obtain ⟨legDraft, hdraft, rfl⟩ := hspend
  obtain ⟨leg, hleg, hreads⟩ := exists_of_mem_left hdrafts hdraft
  rw [hreads.input] at href
  have hout := h.resolved input hinput
  rw [href, hlive leg hleg] at hout
  exact ⟨leg, hleg, Input.ext href.symm (Option.some.inj hout)⟩

theorem Assembles.mem_inputs (h : Assembles d reading utxo draft tx)
    (hbatch : Batch mesh scripts opts p now params unsorted drafts draft)
    (hlive : ∀ leg ∈ legs, utxo leg.ref = some leg.input.output)
    (hdrafts : List.Forall₂ (ReadsDraft reading) drafts legs) {leg : Leg} (hleg : leg ∈ legs) :
    leg.input ∈ tx.inputs := by
  obtain ⟨⟨input, hinput, href⟩, -⟩ := h.leg hbatch hdrafts hleg
  have hout := h.resolved input hinput
  rw [href, hlive leg hleg] at hout
  have heq : leg.input = input := Input.ext href.symm (Option.some.inj hout)
  exact heq ▸ hinput

/-- The order inputs of the transaction are the legs, in the builder's order. -/
theorem Assembles.orderInputs (h : Assembles d reading utxo draft tx)
    (hbatch : Batch mesh scripts opts p now params unsorted drafts draft)
    (hlive : ∀ leg ∈ legs, utxo leg.ref = some leg.input.output)
    (hsound : ∀ leg ∈ legs, leg.Sound d)
    (hsorted : legs.Pairwise fun a b => precedes a.ref b.ref)
    (hdrafts : List.Forall₂ (ReadsDraft reading) drafts legs) :
    (tx.inputs.filter fun input => sitsAt d.orderScriptHash input.output) = legs.map Leg.input := by
  -- two strictly sorted lists with the same members are equal
  let byRef : Input → Input → Prop := fun a b => precedes a.outputReference b.outputReference
  have : Std.Irrefl byRef := ⟨fun input => precedes_irrefl _⟩
  have : Std.Antisymm byRef := ⟨fun a b hab hba => absurd hba (precedes_asymm hab)⟩
  refine List.Pairwise.eq_of_mem_iff (r := byRef) (h.sorted.sublist List.filter_sublist)
    (List.pairwise_map.mpr hsorted) fun input => ?_
  rw [List.mem_filter, List.mem_map]
  constructor
  · rintro ⟨hinput, hsits⟩
    rcases h.input_cases hbatch hlive hdrafts hinput with ⟨⟨key, hkey⟩, -⟩ | hleg
    · rw [sitsAt_eq_true, hkey] at hsits
      cases hsits
    · exact hleg
  · rintro ⟨leg, hleg, rfl⟩
    obtain ⟨owner, hwf⟩ := (hsound leg hleg).order
    exact ⟨h.mem_inputs hbatch hlive hdrafts hleg, hwf.sits⟩

/-- A burn runs the beacon policy under `BurnBeacons`. -/
theorem Assembles.burnRedeemer (hassembles : Assembles d reading utxo draft tx)
    (h : Documented d mesh scripts reading)
    (hbatch : Batch mesh scripts opts p now params unsorted drafts draft)
    (hburns : drafts.flatMap LegDraft.burnNames = (legs.flatMap Leg.burns).map hexOf)
    (hne : legs.flatMap Leg.burns ≠ []) :
    (tx.redeemers.lookup (.mint d.policyId)).bind ofData = some BeaconRedeemer.burnBeacons := by
  have hnames : (legs.flatMap Leg.burns).map hexOf ≠ [] := by simpa using hne
  obtain ⟨m, hm, hpolicy, hredeemer⟩ := exists_burn scripts hnames
  rw [← hburns, ← hbatch.mints] at hm
  have hlookup := hassembles.mintRedeemers m hm
  rw [hpolicy, h.beaconPolicyId, bytesOfHex_hexOf, hredeemer, BURN_BEACONS_REDEEMER,
    h.con] at hlookup
  rw [hlookup]
  exact ofData_toData BeaconRedeemer.burnBeacons

/-- The upper bound of the transaction meets the expiration of every leg. -/
theorem Assembles.expirationOk (hassembles : Assembles d reading utxo draft tx)
    (h : Documented d mesh scripts reading)
    (hbatch : Batch mesh scripts opts p now params unsorted drafts draft)
    (horders : List.Forall₂ (ReadsOrder d utxo) (unsorted.insertionSort inInputOrder) legs)
    {leg : Leg} (hleg : leg ∈ legs) :
    BeaconDex.expirationOk leg.datum.expiration tx = true := by
  obtain ⟨order, horder, hreads⟩ := exists_of_mem_right horders hleg
  cases ht : leg.datum.expiration with
  | none => rfl
  | some t =>
      have hexpiration : order.datum.expiration = some (.finite t) := by
        rw [hreads.expiration, ht]
        rfl
      have hfinite : ∀ other ∈ unsorted.insertionSort inInputOrder, ∃ expiration : Option ℤ,
          other.datum.expiration = expiration.map .finite := by
        intro other hother
        obtain ⟨leg, -, hreads⟩ := exists_of_mem_left horders hother
        exact ⟨_, hreads.expiration⟩
      obtain ⟨slot, hslot, hle⟩ := slotTime_validityBound h hfinite horder hexpiration
      rw [← hbatch.bound] at hslot
      simp only [BeaconDex.expirationOk, hassembles.bound slot hslot, decide_eq_true_eq]
      exact hle

/-- **The assembled transaction settles the legs of the draft.** -/
theorem settles_of_assembles (h : Documented d mesh scripts reading)
    (hassembles : Assembles d reading utxo draft tx)
    (hbatch : Batch mesh scripts opts p now params unsorted drafts draft)
    (hsorted : legs.Pairwise fun a b => precedes a.ref b.ref)
    (horders : List.Forall₂ (ReadsOrder d utxo) (unsorted.insertionSort inInputOrder) legs)
    (hdrafts : List.Forall₂ (ReadsDraft reading) drafts legs) : Settles d legs tx := by
  have hsound : ∀ leg ∈ legs, leg.Sound d := by
    intro leg hleg
    obtain ⟨order, -, hreads⟩ := exists_of_mem_right horders hleg
    exact hreads.sound
  have hlive : ∀ leg ∈ legs, utxo leg.ref = some leg.input.output := by
    intro leg hleg
    obtain ⟨order, -, hreads⟩ := exists_of_mem_right horders hleg
    exact hreads.live
  have hburns : drafts.flatMap LegDraft.burnNames = (legs.flatMap Leg.burns).map hexOf := by
    rw [List.map_flatMap]
    exact flatMap_eq_of_forall₂ (hdrafts.imp fun _ _ hreads => hreads.burns)
  exact {
    distinct := by
      rw [List.nodup_iff_pairwise_ne, List.pairwise_map]
      apply hassembles.sorted.imp
      intro a b hab heq
      rw [heq] at hab
      exact precedes_irrefl _ hab
    inputs := hassembles.orderInputs hbatch hlive hsound hsorted hdrafts
    others := by
      intro input hinput hsits
      rcases hassembles.input_cases hbatch hlive hdrafts hinput with ⟨-, hnone⟩ | ⟨leg, hleg, rfl⟩
      · exact hnone
      · obtain ⟨owner, hwf⟩ := (hsound leg hleg).order
        rw [hwf.sits] at hsits
        cases hsits
    redeemers := fun leg hleg => (hassembles.leg hbatch hdrafts hleg).2
    outputs := by
      obtain ⟨change, houtputs, hchange⟩ := hassembles.outputs
      refine ⟨change, ?_, hchange⟩
      rw [houtputs, hbatch.outputs, List.map_flatMap]
      congr 1
      exact flatMap_eq_of_forall₂ (hdrafts.imp fun _ _ hreads => hreads.outputs)
    burnt := by
      rw [hassembles.mint, hbatch.mints, hburns, mintOf_mintBeacons h, neg_one_zsmul]
      rfl
    burnRedeemer := fun hne => hassembles.burnRedeemer h hbatch hburns hne
    expiration := fun leg hleg => hassembles.expirationOk h hbatch horders hleg }

end Assembled

/-- Legs over distinct outputs come out strictly sorted. -/
theorem Batch.pairwise_precedes {params : TakeManyOrdersParams} {unsorted : List ResolvedLeg}
    {drafts : List LegDraft} {draft : TxDraft}
    (hbatch : Batch mesh scripts opts p now params unsorted drafts draft)
    (hdistinct : (params.orders.map fun leg => orderTarget leg.orderId).Nodup) :
    (unsorted.insertionSort inInputOrder).Pairwise fun a b =>
      precedes (reference a.ref) (reference b.ref) := by
  have hperm := List.perm_insertionSort inInputOrder unsorted
  have htargets : (params.orders.map fun leg => orderTarget leg.orderId) =
      unsorted.map fun order => some order.ref :=
    map_eq_of_forall₂ (hbatch.resolved.imp fun _ _ hresolve => (resolveLeg_eq_ok hresolve).1.target)
  have hrefs :
      (unsorted.insertionSort inInputOrder).Pairwise fun a b => some a.ref ≠ some b.ref := by
    rw [htargets] at hdistinct
    exact List.pairwise_map.mp ((hperm.map _).nodup_iff.mpr hdistinct)
  have htarget : ∀ order ∈ unsorted.insertionSort inInputOrder,
      ∃ orderId, orderTarget orderId = some order.ref := by
    intro order horder
    obtain ⟨leg, -, hresolve⟩ := exists_of_mem_right hbatch.resolved (hperm.mem_iff.mp horder)
    exact ⟨leg.orderId, (resolveLeg_eq_ok hresolve).1.target⟩
  refine ((List.pairwise_insertionSort inInputOrder unsorted).and hrefs).imp_of_mem ?_
  rintro a b ha hb ⟨horder, hne⟩
  obtain ⟨id, hid⟩ := htarget a ha
  obtain ⟨id', hid'⟩ := htarget b hb
  exact precedes_of_inInputOrder hid hid' (fun heq => hne (congrArg some heq)) horder

/-- A batch reads as legs that the assembled transaction settles. -/
theorem Batch.exists_legs (hdocumented : Documented d mesh scripts reading)
    (hlive : ShowsLive mesh reading p utxo) {params : TakeManyOrdersParams}
    {unsorted : List ResolvedLeg} {drafts : List LegDraft} {draft : TxDraft} {tx : Transaction}
    (hbatch : Batch mesh scripts opts p now params unsorted drafts draft)
    (hdistinct : (params.orders.map fun leg => orderTarget leg.orderId).Nodup)
    (horders : ∀ leg ∈ params.orders, ∀ ref out, orderTarget leg.orderId = some ref →
      utxo (reference ref) = some out → BuilderOrder d mesh scripts reading out)
    (hassembles : Assembles d reading utxo draft tx) :
    ∃ legs, Settles d legs tx ∧
      List.Forall₂ (ReadsOrder d utxo) (unsorted.insertionSort inInputOrder) legs := by
  have hperm := List.perm_insertionSort inInputOrder unsorted
  have hread : ∀ order ∈ unsorted.insertionSort inInputOrder, ∀ legDraft,
      buildLeg mesh scripts opts order = .ok legDraft →
        ∃ leg, ReadsOrder d utxo order leg ∧ ReadsDraft reading legDraft leg := by
    intro order horder legDraft hbuilt
    obtain ⟨leg, hleg, hresolve⟩ := exists_of_mem_right hbatch.resolved (hperm.mem_iff.mp horder)
    obtain ⟨hresolved, -⟩ := resolveLeg_eq_ok hresolve
    obtain ⟨out, k, names, hterms⟩ :=
      hresolved.exists_terms hdocumented hlive fun out => horders leg hleg _ out hresolved.target
    exact exists_leg hdocumented hresolved.target hterms hbuilt
  obtain ⟨legs, hreadOrders, hreadDrafts⟩ := exists_forall₂ hbatch.built hread
  have hsorted : legs.Pairwise fun a b => precedes a.ref b.ref := by
    have hrefs : (unsorted.insertionSort inInputOrder).map (fun order => reference order.ref) =
        legs.map Leg.ref :=
      map_eq_of_forall₂ (hreadOrders.imp fun _ _ hreads => hreads.ref.symm)
    rw [← List.pairwise_map, ← hrefs, List.pairwise_map]
    exact hbatch.pairwise_precedes hdistinct
  exact ⟨legs, settles_of_assembles hdocumented hassembles hbatch hsorted hreadOrders hreadDrafts,
    hreadOrders⟩

/-- **The builder refines the validators.**  `params` is any batch of full and
partial legs that the builder accepts, over distinct live UTxOs that are orders
of the builder; `tx` is the transaction assembled from its draft.  Every leg is
approved under the redeemer its request asks for; if a leg is full the beacon
policy approves the burn; and beacons are conserved. -/
theorem builder_refines_validators {params : TakeManyOrdersParams} {draft : TxDraft}
    {tx : Transaction} (hdocumented : Documented d mesh scripts reading)
    (hlive : ShowsLive mesh reading p utxo)
    (hbuild : buildTakeManyOrders mesh scripts opts p now params = .ok draft)
    (hdistinct : (params.orders.map fun leg => orderTarget leg.orderId).Nodup)
    (horders : ∀ leg ∈ params.orders, ∀ ref out, orderTarget leg.orderId = some ref →
      utxo (reference ref) = some out → BuilderOrder d mesh scripts reading out)
    (hassembles : Assembles d reading utxo draft tx) :
    (∀ leg ∈ params.orders, ∃ ref, orderTarget leg.orderId = some ref ∧ ∃ input ∈ tx.inputs,
      input.outputReference = reference ref ∧
      spendRedeemer tx input.outputReference = some (takeRedeemer leg.takeAmount) ∧
      runOrder tx input = some true) ∧
    ((∃ leg ∈ params.orders, leg.takeAmount = none) → runBeacon d tx = some true) ∧
    (tx.inputs.map fun input => Assets.tokens input.output.value d.policyId).sum +
        Assets.tokens tx.mint d.policyId =
      (tx.outputs.map fun out => Assets.tokens out.value d.policyId).sum := by
  obtain ⟨unsorted, drafts, hbatch⟩ := buildTakeManyOrders_eq_ok hbuild
  obtain ⟨legs, hsettles, hreads⟩ :=
    hbatch.exists_legs hdocumented hlive hdistinct horders hassembles
  have hsound : ∀ leg ∈ legs, leg.Sound d := by
    intro leg hleg
    obtain ⟨order, -, hread⟩ := exists_of_mem_right hreads hleg
    exact hread.sound
  -- every request has its leg
  have hrequested : ∀ request ∈ params.orders, ∃ leg ∈ legs, ∃ ref,
      orderTarget request.orderId = some ref ∧ leg.ref = reference ref ∧
        leg.redeemer = takeRedeemer request.takeAmount := by
    intro request hrequest
    obtain ⟨order, horder, hresolve⟩ := exists_of_mem_left hbatch.resolved hrequest
    obtain ⟨hresolved, htake⟩ := resolveLeg_eq_ok hresolve
    obtain ⟨leg, hleg, hread⟩ := exists_of_mem_left hreads
      ((List.perm_insertionSort inInputOrder unsorted).mem_iff.mpr horder)
    exact ⟨leg, hleg, order.ref, hresolved.target, hread.ref, hread.redeemer.trans (by rw [htake])⟩
  refine ⟨?_, ?_, hsettles.conserved hsound⟩
  · intro request hrequest
    obtain ⟨leg, hleg, ref, htarget, href, hredeemer⟩ := hrequested request hrequest
    refine ⟨ref, htarget, leg.input, (hsettles.mem_inputs hleg).1, href, ?_,
      hsettles.runOrder_accepted hsound hleg⟩
    rw [← hredeemer]
    exact hsettles.redeemers leg hleg
  · rintro ⟨request, hrequest, hfull⟩
    obtain ⟨leg, hleg, -, -, -, hredeemer⟩ := hrequested request hrequest
    have hpart : leg.part = none := by
      cases hpart : leg.part with
      | none => rfl
      | some part =>
          rw [hfull, Leg.redeemer, hpart] at hredeemer
          cases hredeemer
    refine hsettles.runBeacon_accepted fun hnone => ?_
    have hburns := List.flatMap_eq_nil_iff.mp hnone leg hleg
    obtain ⟨owner, hwf⟩ := (hsound leg hleg).order
    rw [Leg.burns, hpart, Option.isNone_none, if_pos rfl] at hburns
    have htokens := hwf.tokens_eq d.policyId_ne_ada
    rw [hburns] at htokens
    exact hwf.tokens_ne_zero d.policyId_ne_ada htokens

end Refinement

/-! Two orders of ten ADA for five tokens, one taken whole and four ADA taken
out of the other. -/

namespace SampleBatch

open BeaconDex.Sample (deployment ownerKey sellerKey takerKey token)
open SampleChain (txId orderAddress sellerAddress takerAddress)

def sellerWallet : Str := SampleChain.bech32 ((0x00 : Byte) :: sellerKey ++ ownerKey) "ygl3me"

def mesh : Mesh :=
  { SampleChain.mesh with
    deserializeAddress := fun address =>
      if address = sellerWallet then some ⟨hexOf sellerKey, [], hexOf ownerKey, []⟩
      else if address = sellerAddress then some ⟨hexOf sellerKey, [], [], []⟩
      else SampleChain.mesh.deserializeAddress address }

def scripts : ProtocolScripts where
  orderValidatorCbor := []
  orderValidatorHash := hexOf deployment.orderScriptHash
  beaconPolicyCbor := []
  beaconPolicyId := hexOf deployment.policyId

mutual

def dataOf : MeshData → Data
  | .con alternative fields => .constr alternative (datasOf fields)
  | .text hex => .bytes (bytesOfHex hex)
  | .num (.finite n) => .int n
  | .num (.infinite _) => .list []
  | .bigint n => .int n

def datasOf : List MeshData → List Data
  | [] => []
  | data :: rest => dataOf data :: datasOf rest

end

def reading : ChainReading where
  address text :=
    if text = orderAddress then
      ⟨.script deployment.orderScriptHash, some (.inline (.verificationKey ownerKey))⟩
    else addressOfKeys sellerKey none
  data := dataOf
  slotTime slot := (slot - 86400) * 1000 + 1655769600000

theorem datasOf_eq_map (fields : List MeshData) : datasOf fields = fields.map dataOf := by
  induction fields with
  | nil => rfl
  | cons field fields ih => rw [datasOf, ih, List.map_cons]

theorem documented : Documented deployment mesh scripts reading where
  sha256 := rfl
  orderValidatorHash := rfl
  beaconPolicyId := rfl
  deserializeAddress text parts h := by
    simp only [mesh, SampleChain.mesh] at h
    split_ifs at h <;> cases h
    · exact ⟨⟨sellerKey, rfl⟩, ownerKey, rfl⟩
    · exact ⟨⟨sellerKey, rfl⟩, [], rfl⟩
    · exact ⟨⟨[], rfl⟩, ownerKey, rfl⟩
  serializePlutusScript owner text h := by
    simp only [mesh, SampleChain.mesh, Option.ite_none_right_eq_some, Option.some.injEq] at h
    obtain ⟨howner, rfl⟩ := h
    rw [hexOf_injective howner]
    simp only [reading, if_true]
  serializeKeyAddress key stake text h := by
    simp only [mesh, SampleChain.mesh, Option.ite_none_right_eq_some, Option.some.injEq,
      Option.map_eq_none_iff] at h
    obtain ⟨⟨hkey, rfl⟩, rfl⟩ := h
    have hne : sellerAddress ≠ orderAddress := by decide
    rw [hexOf_injective hkey]
    simp only [reading, if_neg hne]
  con alternative fields := by
    show dataOf _ = _
    rw [dataOf, datasOf_eq_map]
    rfl
  text b := congrArg Data.bytes (bytesOfHex_hexOf b)
  num n := rfl
  bigint n := rfl
  slot t := by
    refine ⟨_, rfl, ?_⟩
    show ((t - 1655769600000).fdiv 1000 + 86400 - 86400) * 1000 + 1655769600000 ≤ t
    rw [Int.fdiv_eq_ediv_of_nonneg _ (by decide)]
    omega

/-- Ten ADA for five tokens. -/
def terms : KeyOrder where
  policyId := deployment.policyId
  owner := ownerKey
  paymentKey := sellerKey
  paymentStake := none
  offer := adaAsset
  offerAmount := 10000000
  ask := token
  askAmount := 5
  expiration := none
  allowPartialFill := true
  offer_nameable := nameable_ada
  ask_nameable := Or.inr rfl
  offerAmount_pos := by decide
  askAmount_pos := by decide
  expiration_exact := by simp

def names : List AssetName := Sample.names terms.datum

def opts : BuilderOptions := ⟨2000000, none, none⟩

def now : ℤ := 1780000000000

def funds (n : Byte) (address : Str) (amount : List Asset) : UTxO :=
  ⟨⟨txId n, 0⟩, address, amount, none⟩

def creation : CreateOrderParams where
  wallet := ⟨sellerWallet, [funds 0xf0 sellerWallet [⟨lovelaceUnit, 50000000⟩],
    funds 0xf1 sellerWallet [⟨lovelaceUnit, 5000000⟩]],
    some (funds 0xf1 sellerWallet [⟨lovelaceUnit, 5000000⟩])⟩
  paymentAddress := some sellerAddress
  offerAsset := lovelaceUnit
  offerAmount := 10000000
  askAsset := hexOf token.policyId ++ '.' :: hexOf token.assetName
  askAmount := 5
  expiration := none
  allowPartialFill := some true

def amount : List Asset := orderAmount scripts opts (assetHex adaAsset) 10000000 (names.map hexOf)

def created : DraftOutput := ⟨orderAddress, amount, encodeOrderDatum terms.fields⟩

set_option maxRecDepth 100000 in
theorem exists_created : ∃ draft, buildCreateOrder mesh scripts opts now creation = .ok draft ∧
    created ∈ draft.outputs := by
  have hnames : (deriveBeaconNames mesh ADA (assetHex token) (hexOf ownerKey)).values =
      names.map hexOf := by decide
  simp only [buildCreateOrder, parseAddress, bind, bind_eq_ok, orThrow_eq_ok, throwIf_eq_ok, pure,
    Except.pure, Except.ok.injEq]
  refine ⟨_, ⟨ADA, by decide, assetHex token, by decide, (), by decide, (), by decide, (),
    by decide, (), by decide, ⟨hexOf sellerKey, [], hexOf ownerKey, []⟩, by decide, (), by decide,
    (), by decide, ⟨hexOf sellerKey, [], [], []⟩, by decide, (), by decide, orderAddress,
    by decide, ⟨sellerWallet, [funds 0xf0 sellerWallet [⟨lovelaceUnit, 50000000⟩]],
      funds 0xf1 sellerWallet [⟨lovelaceUnit, 5000000⟩]⟩, by decide, rfl⟩, ?_⟩
  simp only [hnames, List.mem_singleton]
  rfl

def orderUtxo (n : Byte) : UTxO :=
  ⟨⟨txId n, 0⟩, orderAddress, amount,
    some (SampleChain.datumCbor [0x00, 0x98, 0x96, 0x80] [0x05])⟩

/-- The order on the chain, the wallet of the taker, and what is unspent. -/
def order : Output := reading.output created

def wallet : Output := Sample.wallet 5000000 7

def utxo : Utxo := fun ref =>
  if ref = Sample.ref 1 0 ∨ ref = Sample.ref 2 0 then some order
  else if ref = Sample.ref 3 0 then some wallet
  else none

def provider : ChainProvider :=
  { SampleChain.created.provider [] with
    getUtxo := fun ref =>
      .ok (if ref = ⟨txId 1, 0⟩ then some (orderUtxo 1)
        else if ref = ⟨txId 2, 0⟩ then some (orderUtxo 2)
        else none) }

set_option maxRecDepth 100000 in
theorem reports (n : Byte) : Reports mesh reading (orderUtxo n) order where
  address := rfl
  amount := by
    show Represents amount order.value
    decide +kernel
  datum raw h := by
    obtain rfl : reading.data (encodeOrderDatum terms.fields) = raw := Datum.inlineDatum.inj h
    refine ⟨_, rfl, ?_⟩
    rw [documented.data_fields]
    simp only [mesh, SampleChain.mesh, if_true]
    rfl

theorem showsLive : ShowsLive mesh reading provider utxo := by
  intro ref u h
  have hu : (if ref = ⟨txId 1, 0⟩ then some (orderUtxo 1)
      else if ref = ⟨txId 2, 0⟩ then some (orderUtxo 2) else none) = some u := Except.ok.inj h
  split_ifs at hu with h₁ h₂
  · obtain rfl := Option.some.inj hu
    exact ⟨order, by rw [h₁]; exact if_pos (by decide), reports 1⟩
  · obtain rfl := Option.some.inj hu
    exact ⟨order, by rw [h₂]; exact if_pos (by decide), reports 2⟩

def takerFunds : UTxO :=
  funds 3 takerAddress [⟨lovelaceUnit, 5000000⟩, ⟨unitOf (assetHex token), 7⟩]

def collateral : UTxO := funds 4 takerAddress [⟨lovelaceUnit, 5000000⟩]

/-- The second order is asked for first. -/
def takes : TakeManyOrdersParams where
  wallet := ⟨takerAddress, [takerFunds, collateral], some collateral⟩
  orders := [⟨orderIdOf ⟨txId 2, 0⟩, some 4000000⟩, ⟨orderIdOf ⟨txId 1, 0⟩, none⟩]

def resolved (n : Byte) (takeAmount : Option ℤ) : ResolvedLeg where
  ref := ⟨txId n, 0⟩
  utxo := orderUtxo n
  datum := terms.fields
  beaconNames := names.map hexOf
  deposit := 2000000
  orderId := orderIdOf ⟨txId n, 0⟩
  takeAmount := takeAmount

set_option maxRecDepth 100000 in
theorem resolveLeg_takes :
    resolveLeg mesh scripts provider ⟨orderIdOf ⟨txId 2, 0⟩, some 4000000⟩ =
      .ok (resolved 2 (some 4000000)) ∧
    resolveLeg mesh scripts provider ⟨orderIdOf ⟨txId 1, 0⟩, none⟩ = .ok (resolved 1 none) := by
  decide

def fullDraft : LegDraft where
  spend := spendOrder scripts opts (resolved 1 none).toResolvedOrder TAKE_REDEEMER
  outputs := [⟨sellerAddress, fullPayment terms.fields 2000000, encodePaymentTag (txId 1) 0⟩]
  burnNames := names.map hexOf

def partialDraft : LegDraft where
  spend := spendOrder scripts opts (resolved 2 (some 4000000)).toResolvedOrder
    (takePartialRedeemer 4000000)
  outputs := [⟨sellerAddress, partialPayment terms.fields 2, encodePaymentTag (txId 2) 0⟩,
    continuationOutput (resolved 2 (some 4000000)) 4000000 2]
  burnNames := []

def draft : TxDraft where
  spends := [fullDraft.spend, partialDraft.spend]
  mints := mintBeacons scripts (names.map hexOf) (-1)
  outputs := fullDraft.outputs ++ partialDraft.outputs
  requiredSigners := []
  invalidHereafter := none
  wallet := ⟨takerAddress, [takerFunds], collateral⟩

set_option maxRecDepth 100000 in
theorem built : buildTakeManyOrders mesh scripts opts provider now takes = .ok draft := by
  have hpayment : mesh.serializeKeyAddress (hexOf sellerKey) none = some sellerAddress := by decide
  have hsort : [resolved 2 (some 4000000), resolved 1 none].insertionSort inInputOrder =
      [resolved 1 none, resolved 2 (some 4000000)] := by decide
  have hfull : buildLeg mesh scripts opts (resolved 1 none) = .ok fullDraft := by
    simp only [buildLeg, resolved, buildFullLeg, bind, bind_eq_ok, paymentAddress, orThrow_eq_ok,
      pure, Except.pure]
    exact ⟨_, hpayment, rfl⟩
  have hpartial : buildLeg mesh scripts opts (resolved 2 (some 4000000)) = .ok partialDraft := by
    simp only [buildLeg, resolved, buildPartialLeg, bind, bind_eq_ok, paymentAddress, orThrow_eq_ok,
      throwIf_eq_ok, pure, Except.pure]
    exact ⟨_, hpayment, (), by decide, (), by decide, (), by decide, 2, by decide, (), by decide,
      rfl⟩
  simp only [buildTakeManyOrders, bind, bind_eq_ok, throwIf_eq_ok, mapM_eq_ok, forM_eq_ok, pure,
    Except.pure]
  refine ⟨(), by decide, (), by decide, (), by decide,
    [resolved 2 (some 4000000), resolved 1 none],
    .cons resolveLeg_takes.1 (.cons resolveLeg_takes.2 .nil), (), ?_, [fullDraft, partialDraft], ?_,
    ⟨takerAddress, [takerFunds], collateral⟩, by decide, rfl⟩
  · rw [hsort]
    decide
  · rw [hsort]
    exact .cons hfull (.cons hpartial .nil)

def tx : Transaction where
  inputs := [⟨Sample.ref 1 0, order⟩, ⟨Sample.ref 2 0, order⟩, ⟨Sample.ref 3 0, wallet⟩]
  outputs := draft.outputs.map reading.output ++ [Sample.wallet 17000000 0]
  mint := mintOf draft.mints
  extraSignatories := []
  validityRange := Sample.always
  redeemers := [(.spend (Sample.ref 1 0), reading.data TAKE_REDEEMER),
    (.spend (Sample.ref 2 0), reading.data (takePartialRedeemer 4000000)),
    (.mint deployment.policyId, reading.data BURN_BEACONS_REDEEMER)]
  datums := []

theorem assembles : Assembles deployment reading utxo draft tx where
  sorted := by decide
  resolved input hinput := by
    simp only [tx, List.mem_cons, List.not_mem_nil, or_false] at hinput
    rcases hinput with rfl | rfl | rfl
    · exact if_pos (by decide)
    · exact if_pos (by decide)
    · exact (if_neg (by decide)).trans (if_pos rfl)
  spends spend hspend := by
    simp only [draft, List.mem_cons, List.not_mem_nil, or_false] at hspend
    rcases hspend with rfl | rfl
    · exact ⟨_, List.mem_cons_self, by decide⟩
    · exact ⟨_, List.mem_cons_of_mem _ List.mem_cons_self, by decide⟩
  inputs input hinput := by
    simp only [tx, List.mem_cons, List.not_mem_nil, or_false] at hinput
    rcases hinput with rfl | rfl | rfl
    · exact Or.inr ⟨_, List.mem_cons_self, by decide⟩
    · exact Or.inr ⟨_, List.mem_cons_of_mem _ List.mem_cons_self, by decide⟩
    · exact Or.inl ⟨⟨takerKey, rfl⟩, by decide⟩
  outputs := by
    refine ⟨_, rfl, ?_⟩
    intro out hout
    rw [List.mem_singleton] at hout
    subst hout
    exact ⟨by decide, fun raw h => by cases h⟩
  mint := rfl
  spendRedeemers spend hspend := by
    simp only [draft, List.mem_cons, List.not_mem_nil, or_false] at hspend
    rcases hspend with rfl | rfl
    · rfl
    · rfl
  mintRedeemers m hm := by
    obtain ⟨entry, -, rfl⟩ := List.mem_map.mp hm
    rfl
  bound slot h := by cases h

theorem order_builder : BuilderOrder deployment mesh scripts reading order := by
  obtain ⟨draft, hbuilt, hmem⟩ := exists_created
  exact .created (by decide) ⟨fun a ha => by cases ha; decide, fun a ha => by cases ha; decide,
    fun t ht => by cases ht⟩ hbuilt hmem

set_option maxRecDepth 100000 in
theorem orders : ∀ leg ∈ takes.orders, ∀ ref out, orderTarget leg.orderId = some ref →
    utxo (reference ref) = some out → BuilderOrder deployment mesh scripts reading out := by
  intro leg hleg ref out href hout
  have htarget : orderTarget (orderIdOf ⟨txId 2, 0⟩) = some ⟨txId 2, 0⟩ ∧
      orderTarget (orderIdOf ⟨txId 1, 0⟩) = some ⟨txId 1, 0⟩ := by decide
  have horder : utxo (reference ref) = some order := by
    simp only [takes, List.mem_cons, List.not_mem_nil, or_false] at hleg
    rcases hleg with rfl | rfl
    · obtain rfl := Option.some.inj (htarget.1.symm.trans href)
      exact if_pos (by decide)
    · obtain rfl := Option.some.inj (htarget.2.symm.trans href)
      exact if_pos (by decide)
  obtain rfl := Option.some.inj (horder.symm.trans hout)
  exact order_builder

end SampleBatch

theorem builder_refines_validators_sample :
    (∀ leg ∈ SampleBatch.takes.orders, ∃ ref, orderTarget leg.orderId = some ref ∧
      ∃ input ∈ SampleBatch.tx.inputs, input.outputReference = reference ref ∧
        spendRedeemer SampleBatch.tx input.outputReference = some (takeRedeemer leg.takeAmount) ∧
        runOrder SampleBatch.tx input = some true) ∧
    runBeacon Sample.deployment SampleBatch.tx = some true :=
  have h := builder_refines_validators SampleBatch.documented SampleBatch.showsLive
    SampleBatch.built (by decide) SampleBatch.orders SampleBatch.assembles
  ⟨h.1, h.2.1 ⟨_, List.mem_cons_of_mem _ List.mem_cons_self, rfl⟩⟩

end BeaconDex.Backend
