import BeaconDex.Backend.BuilderRefinement
import BeaconDex.Backend.TakeSummary
import BeaconDex.Exchange

/-!
# Cancelling through the backend

`buildCancelOrder` in `backend/src/services/tx-builder.ts`.  The draft spends one
order, burns its beacons and asks for the owner's signature; it creates no output,
so what the order holds comes back as the wallet's change.

`cancel_refines_validators` says that whatever the builder drafts over an order of
its own making, or a continuation of one, the balanced transaction assembled from
it is ledger-valid, and that the response names what comes back.

## A draft without outputs

The builder leaves it to the wallet where the value of a cancelled order goes.  The
validator asks for the owner's signature, that no other order is spent beside it, and
that no output has beacons in it; that the owner also gets the value is not enforced on
the chain, and is a fact about the transaction that the owner signs.
-/

namespace BeaconDex.Backend

open Library

/-!
## The response

The draft that is handed to Mesh and the summary beside it.
-/

/-- The summary of a cancellation; its sentences are left out. -/
structure CancelSummary where
  offered : AssetAmount
  depositLovelace : ℤ
  burned : List Str
  orderId : Str
  deriving DecidableEq

/-- The whole response of `buildCancelOrder`. -/
def respondCancelOrder (mesh : Mesh) (scripts : ProtocolScripts) (opts : BuilderOptions)
    (p : ChainProvider) (wallet : WalletContext) (orderId : Str) :
    Except Thrown (TxDraft × CancelSummary) := do
  let order ← resolveOrder mesh scripts p orderId
  let draft ← buildCancelOrder mesh scripts opts p wallet orderId
  return (draft, {
    offered := ⟨toApiAssetId order.datum.offer, order.datum.offerAmount⟩
    depositLovelace := order.deposit
    burned := order.beaconNames
    orderId := orderId })

/-- Mesh adds the signers a draft requires. -/
def Signed (draft : TxDraft) (tx : Transaction) : Prop :=
  ∀ signer ∈ draft.requiredSigners, bytesOfHex signer ∈ tx.extraSignatories

section Cancel

variable {d : Deployment} {mesh : Mesh} {scripts : ProtocolScripts} {reading : ChainReading}
variable {opts : BuilderOptions} {p : ChainProvider} {utxo : Utxo} {wallet : WalletContext}
variable {orderId : Str} {order : ResolvedOrder} {draft : TxDraft} {tx : Transaction}

/-- **What a drafted cancellation is**: it spends the order with the redeemer for
cancelling, burns its five beacons, adds no output, and asks for the signature of the
owner that the datum names. -/
structure Cancels (scripts : ProtocolScripts) (opts : BuilderOptions) (order : ResolvedOrder)
    (draft : TxDraft) : Prop where
  spends : draft.spends = [spendOrder scripts opts order CANCEL_REDEEMER]
  mints : draft.mints = mintBeacons scripts order.beaconNames (-1)
  outputs : draft.outputs = []
  signers : draft.requiredSigners = [order.datum.ownerKeyHash]

/-- What an answered cancel is: an order that resolves, the draft that cancels it, and the
summary of what it gives back. -/
theorem respondCancelOrder_eq_ok {summary : CancelSummary}
    (h : respondCancelOrder mesh scripts opts p wallet orderId = .ok (draft, summary)) :
    ∃ order, Resolved mesh scripts p orderId order ∧ Cancels scripts opts order draft ∧
      summary = ⟨⟨toApiAssetId order.datum.offer, order.datum.offerAmount⟩, order.deposit,
        order.beaconNames, orderId⟩ := by
  simp only [respondCancelOrder, buildCancelOrder, bind, bind_eq_ok, pure, Except.pure,
    Except.ok.injEq, Prod.mk.injEq] at h
  obtain ⟨order, horder, draft, ⟨order', horder', walletDraft, -, rfl⟩, rfl, rfl⟩ := h
  obtain rfl : order = order' := Except.ok.inj (horder.symm.trans horder')
  exact ⟨order, resolveOrder_eq_ok horder, ⟨rfl, rfl, rfl, rfl⟩, rfl⟩

/-!
## The assembled transaction

The order is the only input at the script and the burn is all that is minted, so both
scripts run once, on what the draft says.
-/

variable {out : Output} {k : KeyOrder} {names : List AssetName}

/-- The order is the one input at the validator. -/
theorem Assembles.only_order (hassembles : Assembles d reading utxo draft tx)
    (hcancels : Cancels scripts opts order draft)
    (hterms : Terms d mesh reading utxo order out k names) :
    (tx.inputs.filter fun input => sitsAt d.orderScriptHash input.output) =
      [⟨reference order.ref, out⟩] := by
  have hnodup : (tx.inputs.map Input.outputReference).Nodup := by
    rw [List.nodup_iff_pairwise_ne, List.pairwise_map]
    refine hassembles.sorted.imp fun {a b} hab heq => ?_
    rw [heq] at hab
    exact precedes_irrefl _ hab
  have hspend : spendOrder scripts opts order CANCEL_REDEEMER ∈ draft.spends := by
    rw [hcancels.spends]
    exact List.mem_singleton_self _
  obtain ⟨input, hinput, href⟩ := hassembles.spends _ hspend
  obtain rfl : (⟨reference order.ref, out⟩ : Input) = input := by
    have hout := hassembles.resolved input hinput
    rw [href] at hout
    exact Input.ext href.symm (Option.some.inj (hterms.live.symm.trans hout))
  -- what sits at the validator was not added by the wallet
  have hfilter : (tx.inputs.filter fun input => sitsAt d.orderScriptHash input.output) =
      tx.inputs.filter fun input => input.outputReference = reference order.ref := by
    refine List.filter_congr fun other hother => ?_
    rw [Bool.eq_iff_iff, decide_eq_true_eq]
    constructor
    · intro hsits
      rcases hassembles.inputs other hother with ⟨⟨key, hkey⟩, -⟩ | ⟨spend, hmem, hspend⟩
      · rw [sitsAt_eq_true, hkey] at hsits
        cases hsits
      · rw [hcancels.spends, List.mem_singleton] at hmem
        rw [hspend, hmem]
        rfl
    · intro hsame
      have hlive := hassembles.resolved other hother
      rw [hsame, hterms.live] at hlive
      rw [← Option.some.inj hlive]
      exact hterms.wellFormed.sits
  rw [hfilter]
  exact filter_key_eq_singleton hnodup hinput fun other _ => decide_eq_true_iff

/-- A cancel mints nothing, and burns the beacons of its order. -/
theorem Assembles.cancel_mint (hassembles : Assembles d reading utxo draft tx)
    (hdocumented : Documented d mesh scripts reading)
    (hcancels : Cancels scripts opts order draft)
    (hterms : Terms d mesh reading utxo order out k names) :
    tx.mint = -oneOfEach d.policyId names := by
  rw [hassembles.mint, hcancels.mints, hterms.beaconNames, mintOf_mintBeacons hdocumented,
    neg_one_zsmul]

/-- The order is released to its owner. -/
theorem Assembles.cancel_accepted (hassembles : Assembles d reading utxo draft tx)
    (hcancels : Cancels scripts opts order draft) (hsigned : Signed draft tx)
    (hterms : Terms d mesh reading utxo order out k names) :
    CancelAccepted d.orderScriptHash tx k.datum k.owner where
  owner := rfl
  signed := by
    have hsigner := hsigned order.datum.ownerKeyHash
      (by rw [hcancels.signers]; exact List.mem_singleton_self _)
    rw [hterms.datum] at hsigner
    change bytesOfHex (hexOf k.owner) ∈ _ at hsigner
    rwa [bytesOfHex_hexOf] at hsigner
  alone := by
    rw [List.countP_eq_length_filter, hassembles.only_order hcancels hterms, List.length_singleton]
  burnt := by
    obtain ⟨change, houtputs, hchange⟩ := hassembles.outputs
    intro o ho
    rw [houtputs, hcancels.outputs, List.map_nil, List.nil_append] at ho
    rw [hterms.wellFormed.policy]
    exact (hchange o ho).1

/-- The validator approves every input at the order script: the order is the only one, and
its owner has signed. -/
theorem Assembles.cancel_orders (hassembles : Assembles d reading utxo draft tx)
    (hdocumented : Documented d mesh scripts reading)
    (hcancels : Cancels scripts opts order draft) (hsigned : Signed draft tx)
    (hdistinct : (tx.inputs.map Input.outputReference).Nodup)
    (hterms : Terms d mesh reading utxo order out k names) :
    OrdersApproved d.orderScriptHash tx := by
  intro input hinput hsits
  have honly : input ∈ [(⟨reference order.ref, out⟩ : Input)] :=
    hassembles.only_order hcancels hterms ▸ List.mem_filter.mpr ⟨hinput, hsits⟩
  obtain rfl := List.mem_singleton.mp honly
  refine (runOrder_eq_some_true hdistinct hinput hsits).mpr ⟨k.datum,
    orderDatum_of_inline hterms.wellFormed.inline,
    .cancelled k.owner ?_ (hassembles.cancel_accepted hcancels hsigned hterms)⟩
  have hlookup := hassembles.spendRedeemers (spendOrder scripts opts order CANCEL_REDEEMER)
    (by rw [hcancels.spends]; exact List.mem_singleton_self _)
  change tx.redeemers.lookup (.spend (reference order.ref)) =
    some (reading.data CANCEL_REDEEMER) at hlookup
  rw [spendRedeemer, hlookup, CANCEL_REDEEMER, hdocumented.con]
  exact ofData_toData OrderRedeemer.cancelOrder

/-- The policy accepts the burn. -/
theorem Assembles.cancel_beacon (hassembles : Assembles d reading utxo draft tx)
    (hdocumented : Documented d mesh scripts reading)
    (hcancels : Cancels scripts opts order draft)
    (hterms : Terms d mesh reading utxo order out k names) : runBeacon d tx = some true := by
  have hnames : names.map hexOf ≠ [] := by simpa using hterms.wellFormed.names_ne_nil
  obtain ⟨m, hm, hpolicy, hredeemer⟩ := exists_burn scripts hnames
  rw [← hterms.beaconNames, ← hcancels.mints] at hm
  have hlookup := hassembles.mintRedeemers m hm
  rw [hpolicy, hdocumented.beaconPolicyId, bytesOfHex_hexOf, hredeemer, BURN_BEACONS_REDEEMER,
    hdocumented.con] at hlookup
  have hburn : burnBeaconsOk d.policyId tx = true :=
    burnBeaconsOk_oneOfEach hterms.wellFormed.names_ne_nil
      (hassembles.cancel_mint hdocumented hcancels hterms)
  have hred : (tx.redeemers.lookup (.mint d.policyId)).bind ofData =
      some BeaconRedeemer.burnBeacons := by
    rw [hlookup]
    exact ofData_toData BeaconRedeemer.burnBeacons
  rw [runBeacon, hred, Option.bind_some, beaconMint, hburn]

/-- What the wallet put in. -/
def walletValue (d : Deployment) (tx : Transaction) : Value :=
  ((tx.inputs.filter fun input => !sitsAt d.orderScriptHash input.output).map fun input =>
    input.output.value).sum

/-- The wallet's outputs hold what it put in and what the order offered. -/
theorem Assembles.cancel_refund (hassembles : Assembles d reading utxo draft tx)
    (hdocumented : Documented d mesh scripts reading)
    (hcancels : Cancels scripts opts order draft) (hbalanced : Balanced tx)
    (hterms : Terms d mesh reading utxo order out k names) :
    Assets.withoutLovelace (outputValue tx) =
      Assets.withoutLovelace (walletValue d tx + k.offer.amount k.offerAmount) := by
  have hinputs : inputValue tx = out.value + walletValue d tx := by
    have hperm := List.filter_append_perm
      (fun input : Input => sitsAt d.orderScriptHash input.output) tx.inputs
    have hsum := (hperm.map fun input => input.output.value).sum_eq
    rw [List.map_append, List.sum_append, hassembles.only_order hcancels hterms] at hsum
    rw [inputValue, ← hsum, List.map_singleton, List.sum_singleton]
    rfl
  have hvalue : out.value = Assets.fromLovelace (BeaconDex.depositOf k.datum out.value) +
      k.offer.amount k.offerAmount + oneOfEach d.policyId names :=
    hterms.wellFormed.value_eq_deposit
  rw [← hbalanced.conserved, hinputs, hassembles.cancel_mint hdocumented hcancels hterms]
  calc Assets.withoutLovelace (out.value + walletValue d tx + -oneOfEach d.policyId names)
      = Assets.withoutLovelace (Assets.fromLovelace (BeaconDex.depositOf k.datum out.value) +
          (walletValue d tx + k.offer.amount k.offerAmount)) := by
        congr 1
        conv_lhs => rw [hvalue]
        abel
    _ = _ := by rw [withoutLovelace_add, withoutLovelace_lovelace, zero_add]

/-- **Cancelling through the backend is accepted and refunds what it says.**  The
order is a live one the builder created, or a continuation of one; `tx` is any
balanced transaction assembled from the draft and signed by the required signer.
Every script approves it, the summary names the deposit, the offer and the beacons
the order holds, and the wallet ends up with what it put in and the whole offer, in
every asset but ADA, of which the fee is paid. -/
theorem cancel_refines_validators {summary : CancelSummary}
    (hdocumented : Documented d mesh scripts reading) (hlive : ShowsLive mesh reading p utxo)
    (hrespond : respondCancelOrder mesh scripts opts p wallet orderId = .ok (draft, summary))
    (horder : ∀ ref out, orderTarget orderId = some ref → utxo (reference ref) = some out →
      BuilderOrder d mesh scripts reading out)
    (hassembles : Assembles d reading utxo draft tx) (hsigned : Signed draft tx)
    (hbalanced : Balanced tx) :
    LedgerValid d tx ∧ ∃ ref out k names,
      orderTarget orderId = some ref ∧ utxo (reference ref) = some out ∧
      WellFormedOrder d.sha2_256 d.orderScriptHash d.policyId out (KeyOrder.datum k) k.owner names ∧
      summary = ⟨⟨toApiAssetId (assetHex k.offer), k.offerAmount⟩,
        BeaconDex.depositOf k.datum out.value, names.map hexOf, orderId⟩ ∧
      (tx.inputs.filter fun input => sitsAt d.orderScriptHash input.output) =
        [⟨reference ref, out⟩] ∧
      Assets.withoutLovelace (outputValue tx) =
        Assets.withoutLovelace (walletValue d tx + k.offer.amount k.offerAmount) := by
  obtain ⟨order, hresolved, hcancels, rfl⟩ := respondCancelOrder_eq_ok hrespond
  obtain ⟨out, k, names, hterms⟩ :=
    hresolved.exists_terms hdocumented hlive fun out => horder _ out hresolved.target
  refine ⟨⟨hbalanced, ?_, fun _ => hassembles.cancel_beacon hdocumented hcancels hterms⟩,
    order.ref, out, k, names, hresolved.target, hterms.live, hterms.wellFormed, ?_,
    hassembles.only_order hcancels hterms,
    hassembles.cancel_refund hdocumented hcancels hbalanced hterms⟩
  · exact hassembles.cancel_orders hdocumented hcancels hsigned hbalanced.distinct hterms
  · rw [hterms.datum, hterms.deposit, hterms.beaconNames]
    rfl

end Cancel

/-! The owner of one of the two orders of ten ADA for five tokens withdraws it. -/

namespace SampleCancel

open SampleBatch
open BeaconDex.Sample (deployment ownerKey)

def ownerFunds : WalletContext :=
  ⟨SampleChain.takerAddress, [takerFunds, collateral], some collateral⟩

def orderId : Str := orderIdOf ⟨SampleChain.txId 1, 0⟩

def draft : TxDraft where
  spends := [spendOrder scripts opts (resolved 1 none).toResolvedOrder CANCEL_REDEEMER]
  mints := mintBeacons scripts (names.map hexOf) (-1)
  outputs := []
  requiredSigners := [hexOf ownerKey]
  invalidHereafter := none
  wallet := ⟨SampleChain.takerAddress, [takerFunds], collateral⟩

def summary : CancelSummary := ⟨⟨lovelaceUnit, 10000000⟩, 2000000, names.map hexOf, orderId⟩

theorem resolve_order : resolveOrder mesh scripts provider orderId =
    .ok (resolved 1 none).toResolvedOrder := by
  have h := resolveLeg_takes.2
  simp only [resolveLeg, bind, bind_eq_ok, pure, Except.pure, Except.ok.injEq] at h
  obtain ⟨order, horder, hleg⟩ := h
  have hsame : order = (resolved 1 none).toResolvedOrder := congrArg ResolvedLeg.toResolvedOrder hleg
  rw [← hsame]
  exact horder

theorem responded : respondCancelOrder mesh scripts opts provider ownerFunds orderId =
    .ok (draft, summary) := by
  simp only [respondCancelOrder, buildCancelOrder, bind, bind_eq_ok, pure, Except.pure]
  exact ⟨_, resolve_order, draft, ⟨_, resolve_order,
    ⟨SampleChain.takerAddress, [takerFunds], collateral⟩, by decide, rfl⟩, rfl⟩

def tx : Transaction where
  inputs := [⟨Sample.ref 1 0, order⟩, ⟨Sample.ref 3 0, SampleBatch.wallet⟩]
  outputs := [Sample.wallet 17000000 7]
  mint := mintOf draft.mints
  extraSignatories := [ownerKey]
  validityRange := Sample.always
  redeemers := [(.spend (Sample.ref 1 0), reading.data CANCEL_REDEEMER),
    (.mint deployment.policyId, reading.data BURN_BEACONS_REDEEMER)]
  datums := []

theorem assembles : Assembles deployment reading utxo draft tx where
  sorted := by decide
  resolved input hinput := by
    simp only [tx, List.mem_cons, List.not_mem_nil, or_false] at hinput
    rcases hinput with rfl | rfl
    · exact if_pos (by decide)
    · exact (if_neg (by decide)).trans (if_pos rfl)
  spends spend hspend := by
    obtain rfl := List.mem_singleton.mp hspend
    exact ⟨_, List.mem_cons_self, by decide⟩
  inputs input hinput := by
    simp only [tx, List.mem_cons, List.not_mem_nil, or_false] at hinput
    rcases hinput with rfl | rfl
    · exact Or.inr ⟨_, List.mem_cons_self, by decide⟩
    · exact Or.inl ⟨⟨BeaconDex.Sample.takerKey, rfl⟩, by decide⟩
  outputs := by
    refine ⟨_, rfl, ?_⟩
    intro out hout
    obtain rfl := List.mem_singleton.mp hout
    exact ⟨by decide, fun raw h => by cases h⟩
  mint := rfl
  spendRedeemers spend hspend := by
    obtain rfl := List.mem_singleton.mp hspend
    rfl
  mintRedeemers m hm := by
    obtain ⟨entry, -, rfl⟩ := List.mem_map.mp hm
    rfl
  bound slot h := by cases h

theorem signed : Signed draft tx := by
  intro signer hsigner
  obtain rfl := List.mem_singleton.mp hsigner
  decide

theorem balanced : Balanced tx where
  distinct := by decide
  inputs_nonneg := by decide
  outputs_nonneg := by decide
  conserved := by decide

set_option maxRecDepth 100000 in
theorem target : orderTarget orderId = some ⟨SampleChain.txId 1, 0⟩ := by decide

theorem utxo_order : utxo (reference ⟨SampleChain.txId 1, 0⟩) = some order := if_pos (by decide)

theorem order_built : ∀ ref out, orderTarget orderId = some ref → utxo (reference ref) = some out →
    BuilderOrder deployment mesh scripts reading out := by
  intro ref out href hout
  obtain rfl := Option.some.inj (target.symm.trans href)
  obtain rfl := Option.some.inj (utxo_order.symm.trans hout)
  exact order_builder

end SampleCancel

theorem cancel_refines_validators_sample :
    LedgerValid Sample.deployment SampleCancel.tx ∧ ∃ k names,
      WellFormedOrder Sample.sha2_256 Sample.deployment.orderScriptHash Sample.deployment.policyId
        SampleBatch.order (KeyOrder.datum k) k.owner names ∧
      SampleCancel.summary = ⟨⟨toApiAssetId (assetHex k.offer), k.offerAmount⟩,
        BeaconDex.depositOf k.datum SampleBatch.order.value, names.map hexOf,
        SampleCancel.orderId⟩ ∧
      (SampleCancel.tx.inputs.filter fun input =>
        sitsAt Sample.deployment.orderScriptHash input.output) =
          [⟨Sample.ref 1 0, SampleBatch.order⟩] ∧
      Assets.withoutLovelace (outputValue SampleCancel.tx) = Assets.withoutLovelace
        (walletValue Sample.deployment SampleCancel.tx + k.offer.amount k.offerAmount) := by
  obtain ⟨hvalid, ref, out, k, names, htarget, hlive, hwf, hsummary, honly, hrefund⟩ :=
    cancel_refines_validators SampleBatch.documented SampleBatch.showsLive SampleCancel.responded
      SampleCancel.order_built SampleCancel.assembles SampleCancel.signed SampleCancel.balanced
  obtain rfl : ref = ⟨SampleChain.txId 1, 0⟩ :=
    Option.some.inj (htarget.symm.trans SampleCancel.target)
  obtain rfl : out = SampleBatch.order :=
    Option.some.inj (hlive.symm.trans SampleCancel.utxo_order)
  exact ⟨hvalid, k, names, hwf, hsummary, honly, hrefund⟩

end BeaconDex.Backend
