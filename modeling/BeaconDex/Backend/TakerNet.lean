import BeaconDex.Backend.ArbitrageGuarantees
import BeaconDex.Backend.BuilderRefinement
import BeaconDex.Backend.TakeSummary

/-!
# The previewed net is the real one

The net a batch shows its taker is added up from what the outputs of the batch
hold.  This file says what it comes to: leg by leg, what the order gives minus
what it asks for, minus the lovelace that tops up a partial payment
(`takerNet_exact`).  Deposits and beacons cancel.

## From entries to assets

Every loop of the summary adds to a net, entry by entry and unit by unit.  What a
loop adds is said for each asset (`Changes`), and loops compose by adding up
(`Changes.foldl`), so the order of the entries and the several units of ADA play no
part from there on.

## The two views of a leg

`takerGain` is what a leg does to the taker by the terms of its order.  It is stated
on asset ids, as the scan's `legNet` is; the two differ by the top-up of a partial
payment, which the scan reports apart (`takerGain_of_cycleLegOf`).
-/

namespace BeaconDex.Backend

open Library

/-!
## Nets

Lists of units with amounts, of traded assets only, and how they change.
-/

section

variable {d : Deployment} {scripts : ProtocolScripts} {net net' net'' : List (Str × ℤ)}

/-- An asset that is traded: it has a unit and is no beacon. -/
structure Tradable (d : Deployment) (asset : AssetClass) : Prop where
  nameable : Nameable asset
  policy : asset.policyId ≠ d.policyId

/-- ADA can be traded on any deployment. -/
theorem tradable_ada (d : Deployment) : Tradable d adaAsset :=
  ⟨nameable_ada, d.policyId_ne_ada.symm⟩

/-- The keys of a net are units of traded assets, each once. -/
structure IsNet (d : Deployment) (net : List (Str × ℤ)) : Prop where
  nodup : (net.map Prod.fst).Nodup
  keys : ∀ key ∈ net.map Prod.fst, ∃ asset, Tradable d asset ∧ key = unitOf (assetHex asset)

/-- **`net'` is `net` with `change asset` more of every traded asset**, and is still a net: its
keys are units of traded assets, which beacons are not. -/
structure Changes (d : Deployment) (net net' : List (Str × ℤ)) (change : AssetClass → ℤ) :
    Prop where
  isNet : IsNet d net → IsNet d net'
  value : ∀ asset, Tradable d asset → valueAt (unitOf (assetHex asset)) net' =
    valueAt (unitOf (assetHex asset)) net + change asset

namespace Changes

variable {change change' : AssetClass → ℤ}

/-- Changes that are made one after the other add up. -/
theorem trans (h : Changes d net net' change) (h' : Changes d net' net'' change') :
    Changes d net net'' fun asset => change asset + change' asset := by
  refine ⟨fun hnet => h'.isNet (h.isNet hnet), ?_⟩
  intro asset hasset
  rw [h'.value asset hasset, h.value asset hasset, add_assoc]

/-- The same change, said otherwise. -/
theorem congr (h : Changes d net net' change)
    (heq : ∀ asset, Tradable d asset → change asset = change' asset) :
    Changes d net net' change' :=
  ⟨h.isNet, fun asset hasset => by rw [h.value asset hasset, heq asset hasset]⟩

/-- **A loop changes what its turns change.** -/
theorem foldl {α : Type} {turn : List (Str × ℤ) → α → List (Str × ℤ)} {change : α → AssetClass → ℤ}
    {xs : List α} (h : ∀ x ∈ xs, ∀ net, Changes d net (turn net x) (change x))
    (net : List (Str × ℤ)) :
    Changes d net (xs.foldl turn net) fun asset => (xs.map fun x => change x asset).sum := by
  induction xs generalizing net with
  | nil => exact ⟨id, fun asset _ => (add_zero _).symm⟩
  | cons x xs ih =>
      refine ((h x List.mem_cons_self net).trans
        (ih (fun y hy => h y (List.mem_cons_of_mem _ hy)) (turn net x))).congr ?_
      intro asset _
      rw [List.map_cons, List.sum_cons]

end Changes

/-!
## What the loops add

An output that is spent is added and one that is created is taken off, entry by entry,
beacons and other tokens of the policy left out.
-/

/-- The units of beacons are those that begin with the policy id. -/
theorem isPrefixOf_unitOf {asset : AssetClass} (h : Nameable asset) :
    (hexOf d.policyId).isPrefixOf (unitOf (assetHex asset)) = true ↔
      asset.policyId = d.policyId := by
  have hlen : (hexOf d.policyId).length = 56 := by rw [length_hexOf, d.policyId_length]
  rw [List.isPrefixOf_iff_prefix]
  cases hada : BeaconDex.isAda asset with
  | true =>
      rw [unitOf_eq_lovelaceUnit hada, (isAda_eq_true.mp hada).1]
      constructor
      · intro hle
        have hshort := hle.length_le
        rw [hlen, show lovelaceUnit.length = 8 from rfl] at hshort
        omega
      · intro heq
        exact absurd heq.symm d.policyId_ne_ada
  | false =>
      have hlen' : (hexOf asset.policyId).length = 56 := by
        rw [length_hexOf, h.resolve_left (by simp [hada])]
      rw [unitOf_token hada, List.prefix_iff_eq_take, hlen, ← hlen', List.take_left]
      exact ⟨fun heq => (hexOf_injective heq).symm, fun heq => congrArg hexOf heq.symm⟩

variable (hscripts : scripts.beaconPolicyId = hexOf d.policyId)
include hscripts

/-- One entry adds what it holds. -/
theorem changes_addEntry {a : Asset} (ha : IsUnit a.unit) (sign : ℤ) (net : List (Str × ℤ)) :
    Changes d net (addEntry scripts sign net a) fun asset => sign * held asset a.value := by
  obtain ⟨hnameable, hunit⟩ := ha.eq_unitOf
  have hheld : ∀ asset, held asset a.value = if asset = assetOf a.unit then a.quantity else 0 :=
    fun asset => by rw [Asset.value, held_amount]
  simp only [addEntry, hunit, hscripts]
  by_cases hbeacon : (assetOf a.unit).policyId = d.policyId
  · -- a beacon is no traded asset
    rw [if_pos ((isPrefixOf_unitOf hnameable).mpr hbeacon)]
    refine ⟨id, ?_⟩
    intro asset hasset
    rw [hheld, if_neg (by rintro rfl; exact hasset.policy hbeacon), mul_zero, add_zero]
  · rw [if_neg fun h => hbeacon ((isPrefixOf_unitOf hnameable).mp h)]
    refine ⟨?_, ?_⟩
    · intro hnet
      refine ⟨addAt_nodup _ _ hnet.nodup, ?_⟩
      intro key hkey
      rw [addAt_keys] at hkey
      split at hkey
      · exact hnet.keys key hkey
      · rcases List.mem_append.mp hkey with hold | hnew
        · exact hnet.keys key hold
        · exact ⟨_, ⟨hnameable, hbeacon⟩, List.mem_singleton.mp hnew⟩
    · intro asset hasset
      rw [valueAt_addAt, hheld]
      simp only [unitOf_inj hnameable hasset.nameable, @eq_comm _ asset]
      split
      · rfl
      · rw [mul_zero]

/-- An amount adds what it holds. -/
theorem changes_addNet {amount : List Asset} (hunits : ∀ a ∈ amount, IsUnit a.unit) (sign : ℤ)
    (net : List (Str × ℤ)) :
    Changes d net (addNet scripts amount sign net) fun asset =>
      sign * held asset (valueOf amount) := by
  refine (Changes.foldl (fun a ha => changes_addEntry hscripts (hunits a ha) sign) net).congr ?_
  intro asset _
  induction amount with
  | nil => exact (mul_zero sign).symm
  | cons a amount ih =>
      rw [List.map_cons, List.sum_cons, ih fun b hb => hunits b (List.mem_cons_of_mem _ hb),
        valueOf_cons, held_add, mul_add]

/-- A leg adds what its order holds and takes away what its outputs hold. -/
theorem changes_addLeg {leg : ResolvedLeg} {draft : LegDraft}
    (horder : ∀ a ∈ leg.utxo.amount, IsUnit a.unit)
    (houtputs : ∀ output ∈ draft.outputs, ∀ a ∈ output.amount, IsUnit a.unit)
    (net : List (Str × ℤ)) :
    Changes d net (addLeg scripts net (leg, draft)) fun asset =>
      held asset (valueOf leg.utxo.amount) -
        (draft.outputs.map fun output => held asset (valueOf output.amount)).sum := by
  have hturn : ∀ output ∈ draft.outputs, ∀ net,
      Changes d net (addNet scripts output.amount (-1) net)
        fun asset => -1 * held asset (valueOf output.amount) :=
    fun output houtput => changes_addNet hscripts (houtputs output houtput) (-1)
  have houts := Changes.foldl hturn (addNet scripts leg.utxo.amount 1 net)
  refine ((changes_addNet hscripts horder 1 net).trans houts).congr ?_
  intro asset _
  rw [one_mul, List.sum_map_mul_left]
  omega

end

/-!
## The lines of a net

What is shown: the assets with amounts that are not zero, under their ids.
-/

section

variable {d : Deployment} {net : List (Str × ℤ)} {a b : AssetClass}

/-- The lines are named as the rest of the backend names assets. -/
theorem assetIdOfUnit_unitOf (h : Nameable a) :
    assetIdOfUnit (unitOf (assetHex a)) = toApiAssetId (assetHex a) := by
  cases hada : BeaconDex.isAda a with
  | true =>
      rw [unitOf_eq_lovelaceUnit hada, assetIdOfUnit, if_pos rfl, toApiAssetId, isAda_assetHex,
        hada, if_pos rfl]
  | false =>
      have hne : unitOf (assetHex a) ≠ lovelaceUnit := by
        rw [Ne, unitOf_eq_lovelaceUnit_iff h, hada]
        exact Bool.noConfusion
      have hlen : (hexOf a.policyId).length = 56 := by
        rw [length_hexOf, h.resolve_left (by simp [hada])]
      rw [assetIdOfUnit, if_neg hne, unitOf_token hada, ← hlen, List.take_left, List.drop_left,
        toApiAssetId, isAda_assetHex, hada, if_neg Bool.noConfusion]
      rfl

/-- **The lines say what the net says.** -/
theorem valueAt_takerNetLines (h : IsNet d net) {asset : AssetClass} (hasset : Tradable d asset) :
    valueAt (toApiAssetId (assetHex asset)) (takerNetLines net) =
      valueAt (unitOf (assetHex asset)) net := by
  have hperm := List.perm_insertionSort lineBefore (net.filter fun entry => entry.2 ≠ 0)
  rw [takerNetLines, ← assetIdOfUnit_unitOf hasset.nameable, valueAt_map, valueAt_perm _ hperm,
    valueAt_filter_ne_zero]
  -- distinct units have distinct ids
  intro key hkey heq
  have hmem : key ∈ net.map Prod.fst :=
    (List.filter_sublist.map _).subset ((hperm.map _).mem_iff.mp hkey)
  obtain ⟨asset', hasset', rfl⟩ := h.keys key hmem
  rw [assetIdOfUnit_unitOf hasset'.nameable, assetIdOfUnit_unitOf hasset.nameable,
    toApiAssetId_inj hasset'.nameable hasset.nameable] at heq
  rw [heq]

/-- Each line is of one traded asset, which it changes. -/
theorem IsNet.lines (h : IsNet d net) :
    ((takerNetLines net).map Prod.fst).Nodup ∧ ∀ line ∈ takerNetLines net, line.2 ≠ 0 ∧
      ∃ asset, Tradable d asset ∧ line.1 = toApiAssetId (assetHex asset) := by
  have hperm := List.perm_insertionSort lineBefore (net.filter fun entry => entry.2 ≠ 0)
  have hkeys : ∀ entry ∈ (net.filter fun entry => entry.2 ≠ 0).insertionSort lineBefore,
      entry.2 ≠ 0 ∧ ∃ asset, Tradable d asset ∧ entry.1 = unitOf (assetHex asset) := by
    intro entry hentry
    obtain ⟨hmem, hne⟩ := List.mem_filter.mp (hperm.mem_iff.mp hentry)
    exact ⟨of_decide_eq_true hne, h.keys _ (List.mem_map_of_mem hmem)⟩
  constructor
  · rw [takerNetLines, List.map_map]
    have hnodup : (((net.filter fun entry => entry.2 ≠ 0).insertionSort lineBefore).map
        Prod.fst).Nodup :=
      ((hperm.map _).nodup_iff).mpr (h.nodup.sublist (List.filter_sublist.map _))
    have hmap := List.Nodup.map_on (f := assetIdOfUnit) ?_ hnodup
    · rwa [List.map_map] at hmap
    · intro key hkey key' hkey' heq
      obtain ⟨entry, hentry, rfl⟩ := List.mem_map.mp hkey
      obtain ⟨entry', hentry', rfl⟩ := List.mem_map.mp hkey'
      obtain ⟨-, asset, hasset, hunit⟩ := hkeys entry hentry
      obtain ⟨-, asset', hasset', hunit'⟩ := hkeys entry' hentry'
      rw [hunit, hunit', assetIdOfUnit_unitOf hasset.nameable,
        assetIdOfUnit_unitOf hasset'.nameable,
        toApiAssetId_inj hasset.nameable hasset'.nameable] at heq
      rw [hunit, hunit', heq]
  · intro line hline
    obtain ⟨entry, hentry, rfl⟩ := List.mem_map.mp hline
    obtain ⟨hne, asset, hasset, hunit⟩ := hkeys entry hentry
    exact ⟨hne, asset, hasset, by rw [hunit, assetIdOfUnit_unitOf hasset.nameable]⟩

end

/-!
## The economics of a leg

From the side of the taker and by the terms of the order alone.
-/

/-- What the taker pays of the ask. -/
def takerPays (leg : ResolvedLeg) : ℤ :=
  match paidOf leg with
  | .ok paid => paid
  | .error _ => 0

/-- The lovelace the taker adds to a partial payment. -/
def takerTopUp (leg : ResolvedLeg) : ℤ :=
  if leg.takeAmount = none then 0
  else if toApiAssetId leg.datum.ask = "lovelace".toList then
    max 0 (PARTIAL_PAYMENT_LOVELACE - takerPays leg)
  else PARTIAL_PAYMENT_LOVELACE

/-- **What a leg does to the taker's holding of `id`**, by the terms of its
order. -/
def takerGain (id : Str) (leg : ResolvedLeg) : ℤ :=
  (if toApiAssetId leg.datum.offer = id then receivedOf leg else 0) -
    (if toApiAssetId leg.datum.ask = id then takerPays leg else 0) -
    if id = "lovelace".toList then takerTopUp leg else 0

/-- `u` is the report of a well-formed order, whose ask is an asset. -/
structure ReportsOrder (d : Deployment) (mesh : Mesh) (reading : ChainReading) (u : UTxO)
    (out : Output) (datum : OrderDatum) (owner : VerificationKeyHash) (names : List AssetName) :
    Prop where
  reports : Reports mesh reading u out
  wellFormed : WellFormedOrder d.sha2_256 d.orderScriptHash d.policyId out datum owner names
  ask_nameable : Nameable datum.ask

/-- The output is a well-formed order on the ledger, and is reported as it is. -/
def IsOrderUtxo (d : Deployment) (mesh : Mesh) (reading : ChainReading) (u : UTxO) : Prop :=
  ∃ out datum owner names, ReportsOrder d mesh reading u out datum owner names

/-- What an order trades, and what its output holds. -/
structure Trades (d : Deployment) (order : ResolvedOrder) (value : Value) (offer ask : AssetClass)
    (names : List AssetName) : Prop where
  offers : order.datum.offer = assetHex offer
  asks : order.datum.ask = assetHex ask
  offer_tradable : Tradable d offer
  ask_tradable : Tradable d ask
  amount : Represents order.utxo.amount value
  value_eq : value = Assets.fromLovelace order.deposit +
    offer.amount order.datum.offerAmount + oneOfEach d.policyId names
  covered : order.datum.offerAmount ≤ held offer value

section

variable {d : Deployment} {mesh : Mesh} {scripts : ProtocolScripts} {reading : ChainReading}
variable {opts : BuilderOptions} {p : ChainProvider}

theorem Resolved.exists_trades {orderId : Str} {order : ResolvedOrder}
    (hresolved : Resolved mesh scripts p orderId order)
    (horder : IsOrderUtxo d mesh reading order.utxo) :
    ∃ value offer ask names, Trades d order value offer ask names := by
  obtain ⟨out, datum, owner, names, hreports, hwf, hask⟩ := horder
  obtain ⟨cbor, hcbor, hdecode⟩ := hresolved.datum
  obtain ⟨cbor', hcbor', hnode⟩ := hreports.datum _ hwf.inline
  obtain rfl : cbor = cbor' := Option.some.inj (hcbor.symm.trans hcbor')
  rw [decodeOrderDatum, hnode] at hdecode
  obtain ⟨paymentKey, paymentStake, -, -, hcheck⟩ := (decodeNode_eq_some hwf.owner).mp hdecode
  have hfields := (checkDatum_eq_some.mp hcheck).1.symm
  have hcovered := hwf.offerAmount_le_held
  -- what is offered is held, so a unit names it
  have hoffer : Nameable datum.offer :=
    hreports.amount.nameable_of_held_pos (hwf.offerAmount_pos.trans_le hcovered)
  refine ⟨out.value, datum.offer, datum.ask, names, by rw [hfields]; rfl, by rw [hfields]; rfl,
    ⟨hoffer, hwf.offer_policy⟩, ⟨hask, hwf.ask_policy⟩, hreports.amount, ?_, ?_⟩
  · have hdeposit : order.deposit = BeaconDex.depositOf datum out.value := by
      rw [hresolved.deposit, hfields, depositOf, BeaconDex.depositOf, hreports.amount.lovelaceOf_eq]
      simp only [fieldsOf, isAda_assetHex]
    rw [hdeposit, hfields]
    exact hwf.value_eq_deposit
  · rw [hfields]
    exact hcovered

section

variable {leg : ResolvedLeg} {value : Value} {offer ask asset : AssetClass}
variable {names : List AssetName} {draft : LegDraft}

theorem Trades.held_value (h : Trades d leg.toResolvedOrder value offer ask names)
    (hasset : Tradable d asset) :
    held asset (valueOf leg.utxo.amount) =
      (if BeaconDex.isAda asset then leg.deposit else 0) +
        if asset = offer then leg.datum.offerAmount else 0 := by
  have hbeacons : held asset (oneOfEach d.policyId names) = 0 :=
    congrArg (fun tokens : Tokens => tokens asset.assetName)
      (tokens_oneOfEach_of_ne hasset.policy names)
  rw [← h.amount.value_eq, h.value_eq, held_add, held_add, held_fromLovelace, held_amount, hbeacons,
    add_zero]

/-- What a payment of the ask over some lovelace holds. -/
theorem held_fullPayment (h : Trades d leg.toResolvedOrder value offer ask names)
    (asset : AssetClass) :
    held asset (valueOf (fullPayment leg.datum leg.deposit)) =
      (if BeaconDex.isAda asset then leg.deposit else 0) +
        if asset = ask then leg.datum.askAmount else 0 := by
  rw [valueOf_fullPayment h.ask_tradable.nameable h.asks]
  cases hask : BeaconDex.isAda ask with
  | true =>
      rw [if_pos rfl, held_fromLovelace]
      simp only [isAda_eq_true_iff_eq hask]
      split <;> omega
  | false => rw [if_neg Bool.noConfusion, held_add, held_fromLovelace, held_amount]

/-- What the payment for a part holds of an asset: what is required of the ask, and the
floor of lovelace where the ask is another asset or asks for less than it. -/
theorem held_partialPayment (h : Trades d leg.toResolvedOrder value offer ask names)
    {takeAmount required : ℤ} (htake : leg.takeAmount = some takeAmount)
    (hrequired : requiredPayment takeAmount leg.datum.askAmount leg.datum.offerAmount =
      some required) (asset : AssetClass) :
    held asset (valueOf (partialPayment leg.datum required)) =
      (if BeaconDex.isAda asset then takerTopUp leg else 0) +
        if asset = ask then required else 0 := by
  have hpays : takerPays leg = required := by
    rw [takerPays, paidOf, htake]
    simp only [hrequired, orThrow]
  have hid : toApiAssetId leg.datum.ask = "lovelace".toList ↔ BeaconDex.isAda ask = true := by
    have hada : toApiAssetId (assetHex adaAsset) = "lovelace".toList := rfl
    rw [h.asks, ← hada, toApiAssetId_inj h.ask_tradable.nameable nameable_ada, isAda_eq_true_iff]
  have htopUp : takerTopUp leg = if BeaconDex.isAda ask then
      max 0 (PARTIAL_PAYMENT_LOVELACE - required) else PARTIAL_PAYMENT_LOVELACE := by
    rw [takerTopUp, if_neg (by rw [htake]; exact Option.some_ne_none _), hpays]
    simp only [hid]
  rw [valueOf_partialPayment h.ask_tradable.nameable h.asks, htopUp]
  cases hask : BeaconDex.isAda ask with
  | true =>
      rw [if_pos rfl, if_pos rfl, held_fromLovelace]
      simp only [isAda_eq_true_iff_eq hask]
      split
      · split <;> omega
      · rfl
  | false =>
      simp only [Bool.false_eq_true, if_false, held_add, held_fromLovelace, held_amount]

/-- `takerGain` of a traded asset, by the assets instead of their ids. -/
theorem Trades.takerGain_eq (h : Trades d leg.toResolvedOrder value offer ask names)
    (hasset : Tradable d asset) :
    takerGain (toApiAssetId (assetHex asset)) leg =
      (if asset = offer then receivedOf leg else 0) - (if asset = ask then takerPays leg else 0) -
        if BeaconDex.isAda asset then takerTopUp leg else 0 := by
  have hada : toApiAssetId (assetHex adaAsset) = "lovelace".toList := rfl
  have hlovelace : toApiAssetId (assetHex asset) = "lovelace".toList ↔
      BeaconDex.isAda asset = true := by
    rw [← hada, toApiAssetId_inj hasset.nameable nameable_ada, isAda_eq_true_iff]
  rw [takerGain, h.offers, h.asks]
  simp only [toApiAssetId_inj h.offer_tradable.nameable hasset.nameable,
    toApiAssetId_inj h.ask_tradable.nameable hasset.nameable, hlovelace, @eq_comm _ asset]

/-- **What a built leg moves is its economics.** -/
structure LegMoves (d : Deployment) (leg : ResolvedLeg) (draft : LegDraft) : Prop where
  units : ∀ output ∈ draft.outputs, ∀ a ∈ output.amount, IsUnit a.unit
  paid : paidOf leg = .ok (takerPays leg)
  moved : ∀ asset, Tradable d asset → held asset (valueOf leg.utxo.amount) -
    (draft.outputs.map fun output => held asset (valueOf output.amount)).sum =
      takerGain (toApiAssetId (assetHex asset)) leg

theorem isUnit_lovelace : IsUnit lovelaceUnit :=
  Or.inr ⟨adaAsset, nameable_ada, (unitOf_eq_lovelaceUnit rfl).symm⟩

/-- A payment is in lovelace, or in lovelace and the ask. -/
theorem isUnit_of_mem_payment {asset : AssetClass} {ada lovelace ask : ℤ} {a : Asset}
    (h : Nameable asset)
    (ha : a ∈ if unitOf (assetHex asset) = lovelaceUnit then [⟨lovelaceUnit, ada⟩]
      else [⟨lovelaceUnit, lovelace⟩, ⟨unitOf (assetHex asset), ask⟩]) : IsUnit a.unit := by
  split at ha
  · obtain rfl := List.mem_singleton.mp ha
    exact isUnit_lovelace
  · rcases List.mem_pair.mp ha with rfl | rfl
    · exact isUnit_lovelace
    · exact Or.inr ⟨asset, h, rfl⟩

/-- A leg that takes its order whole: of the order's value, the payment gives the seller
the ask and the deposit, so that the taker gains the offer and pays the ask. -/
theorem legMoves_of_buildFullLeg (h : Trades d leg.toResolvedOrder value offer ask names)
    (htake : leg.takeAmount = none) (hbuild : buildFullLeg mesh scripts opts leg = .ok draft) :
    LegMoves d leg draft := by
  simp only [buildFullLeg, bind, bind_eq_ok, pure, Except.pure, Except.ok.injEq] at hbuild
  obtain ⟨address, -, rfl⟩ := hbuild
  have hpaid : paidOf leg = .ok leg.datum.askAmount := by rw [paidOf, htake]
  have hpays : takerPays leg = leg.datum.askAmount := by rw [takerPays, hpaid]
  refine ⟨?_, by rw [hpaid, hpays], ?_⟩
  · intro output houtput a ha
    obtain rfl := List.mem_singleton.mp houtput
    simp only [paymentOutput, fullPayment, h.asks] at ha
    exact isUnit_of_mem_payment h.ask_tradable.nameable ha
  · intro asset hasset
    rw [h.held_value hasset, List.map_singleton, List.sum_singleton, h.takerGain_eq hasset,
      takerTopUp, if_pos htake, receivedOf, htake, hpays]
    show _ - held asset (valueOf (fullPayment leg.datum leg.deposit)) = _
    rw [held_fullPayment h, ite_self, Option.getD_none]
    omega

/-- A leg that takes a part: the continuation keeps the rest of the order's value, so that
the taker gains the part, and pays what is required and what tops it up. -/
theorem legMoves_of_buildPartialLeg (h : Trades d leg.toResolvedOrder value offer ask names)
    {takeAmount : ℤ} (htake : leg.takeAmount = some takeAmount)
    (hbuild : buildPartialLeg mesh scripts opts leg takeAmount = .ok draft) :
    LegMoves d leg draft := by
  simp only [buildPartialLeg, bind, bind_eq_ok, orThrow_eq_ok, throwIf_eq_ok, pure, Except.pure,
    Except.ok.injEq, not_le, ge_iff_le, Bool.not_eq_false] at hbuild
  obtain ⟨address, -, -, -, -, hpos, -, hlt, required, hrequired, -, -, rfl⟩ := hbuild
  have hpaid : paidOf leg = .ok required := by
    rw [paidOf, htake]
    exact orThrow_eq_ok.mpr hrequired
  have hpays : takerPays leg = required := by rw [takerPays, hpaid]
  refine ⟨?_, by rw [hpaid, hpays], ?_⟩
  · intro output houtput a ha
    rcases List.mem_cons.mp houtput with rfl | houtput
    · simp only [paymentOutput, partialPayment, h.asks] at ha
      exact isUnit_of_mem_payment h.ask_tradable.nameable ha
    · -- the continuation keeps the units of the order
      obtain rfl := List.mem_singleton.mp houtput
      obtain ⟨b, hb, rfl⟩ := List.mem_map.mp (List.mem_filter.mp ha).1
      have hunit := h.amount.units b hb
      split
      · exact hunit
      · exact hunit
  · intro asset hasset
    have hcontinuation : held asset (valueOf (continuationOutput leg takeAmount required).amount) =
        held asset (valueOf leg.utxo.amount) - if asset = offer then takeAmount else 0 := by
      rw [continuationOutput, h.offers, h.amount.valueOf_continuationAmount
        h.offer_tradable.nameable hpos (hlt.trans_le h.covered), held_add, held_amount,
        ← h.amount.value_eq]
      split <;> omega
    rw [List.map_cons, List.map_singleton, List.sum_cons, List.sum_singleton, hcontinuation,
      h.takerGain_eq hasset, receivedOf, htake, hpays]
    show _ - (held asset (valueOf (partialPayment leg.datum required)) + _) = _
    rw [held_partialPayment h htake hrequired, Option.getD_some]
    omega

/-- Either way, what the builder has drafted for a leg moves what the leg is said to move. -/
theorem legMoves_of_buildLeg (h : Trades d leg.toResolvedOrder value offer ask names)
    (hbuild : buildLeg mesh scripts opts leg = .ok draft) : LegMoves d leg draft := by
  unfold buildLeg at hbuild
  split at hbuild
  · next htake => exact legMoves_of_buildFullLeg h htake hbuild
  · next takeAmount htake => exact legMoves_of_buildPartialLeg h htake hbuild

/-! ## The scan's view of a leg -/

/-- A row of an output is on the terms of its datum. -/
theorem validateAndMap_terms {iopts : IndexerOptions} {orderId : Str} {order : ResolvedOrder}
    {row : Order} (hresolved : Resolved mesh scripts p orderId order)
    (hrow : validateAndMap mesh iopts order.utxo = some row) :
    (⟨row.offeredPolicyId, row.offeredAssetName⟩ : AssetClassHex) = order.datum.offer ∧
      row.offeredAmount = order.datum.offerAmount ∧
      (⟨row.requestedPolicyId, row.requestedAssetName⟩ : AssetClassHex) = order.datum.ask ∧
      row.requestedAmount = order.datum.askAmount := by
  simp only [validateAndMap, Option.bind_eq_bind, Option.bind_eq_some_iff, Option.guard_eq_some',
    Option.pure_def, Option.some.injEq] at hrow
  obtain ⟨addr, -, -, -, cbor, hcbor, -, -, datum, hdatum, -, -, -, -, -, -, deposit, -,
    paymentAddress, -, rfl⟩ := hrow
  obtain ⟨cbor', hcbor', hdatum'⟩ := hresolved.datum
  obtain rfl : cbor = cbor' := Option.some.inj (hcbor.symm.trans hcbor')
  obtain rfl : datum = order.datum := Option.some.inj (hdatum.symm.trans hdatum')
  exact ⟨rfl, rfl, rfl, rfl⟩

/-- The planners tell ADA by its policy id alone. -/
theorem lovelace_of_policyId (h : Nameable asset) :
    (if (assetHex asset).policyId = [] then "lovelace".toList
      else (assetHex asset).policyId ++ '.' :: (assetHex asset).assetNameHex) =
      toApiAssetId (assetHex asset) := by
  have hiff : (assetHex asset).policyId = [] ↔ isAda (assetHex asset) = true := by
    rw [isAda_assetHex, assetHex, hexOf_eq_nil]
    constructor
    · intro hnil
      apply h.resolve_right
      rw [hnil]
      exact Nat.zero_ne_add_one _
    · intro hada
      exact (isAda_eq_true.mp hada).1
  simp only [toApiAssetId, hiff]

/-- **The scan sees the economics, less the top-up.** -/
theorem takerGain_of_cycleLegOf {iopts : IndexerOptions} {time : JsNumber} {o : OpenOrder time}
    {cycleLeg : ArbitrageLeg} (h : Trades d leg.toResolvedOrder value offer ask names)
    {orderId : Str} (hresolved : Resolved mesh scripts p orderId leg.toResolvedOrder)
    (hrow : validateAndMap mesh iopts leg.utxo = some o.toOrder) (hleg : CycleLegOf o cycleLeg)
    (htake : leg.takeAmount = cycleLeg.takeAmount) (id : Str) :
    takerGain id leg =
      legNet id cycleLeg - if id = "lovelace".toList then topUpOf cycleLeg else 0 := by
  obtain ⟨hoffer, hofferAmount, hask, haskAmount⟩ := validateAndMap_terms hresolved hrow
  rw [h.offers] at hoffer
  rw [h.asks] at hask
  have hreceiveAsset : cycleLeg.receiveAsset = toApiAssetId leg.datum.offer := by
    rw [hleg.receiveAsset, h.offers, ← lovelace_of_policyId h.offer_tradable.nameable, ← hoffer]
    rfl
  have hpayAsset : cycleLeg.payAsset = toApiAssetId leg.datum.ask := by
    rw [hleg.payAsset, h.asks, ← lovelace_of_policyId h.ask_tradable.nameable, ← hask]
    rfl
  have hamounts : receivedOf leg = cycleLeg.receiveAmount ∧
      paidOf leg = .ok cycleLeg.payAmount := by
    cases hpart : cycleLeg.takeAmount with
    | none =>
        obtain ⟨hpay, hreceive⟩ := hleg.fills.whole hpart
        rw [receivedOf, paidOf, htake, hpart, hpay, hreceive, hofferAmount, haskAmount]
        exact ⟨rfl, rfl⟩
    | some take =>
        obtain ⟨hreceive, hvalid⟩ := hleg.fills.part take hpart
        have hrequired := hvalid.required_eq
        rw [hofferAmount, haskAmount] at hrequired
        rw [receivedOf, paidOf, htake, hpart, hreceive]
        exact ⟨rfl, orThrow_eq_ok.mpr hrequired⟩
  have hpays : takerPays leg = cycleLeg.payAmount := by rw [takerPays, hamounts.2]
  have htopUp : takerTopUp leg = topUpOf cycleLeg := by
    rw [takerTopUp, topUpOf, htake, hpays, hpayAsset]
    simp only [Option.isNone_iff_eq_none, PARTIAL_PAYMENT_LOVELACE,
      Arbitrage.PARTIAL_PAYMENT_LOVELACE, ne_eq, ite_not]
    split
    · rfl
    · split
      · omega
      · rfl
  rw [takerGain, legNet, hamounts.1, hpays, htopUp, hreceiveAsset, hpayAsset]

end

/-!
## The whole batch

The sum over the legs, and what it is if the legs are those of an opportunity.
-/

variable {now : ℤ} {params : TakeManyOrdersParams} {unsorted : List ResolvedLeg}
variable {drafts : List LegDraft} {draft : TxDraft}

/-- The net of the sorted legs, added up. -/
theorem changes_of_built (hscripts : scripts.beaconPolicyId = hexOf d.policyId)
    {legs : List ResolvedLeg}
    (hunits : ∀ leg ∈ legs, ∀ a ∈ leg.utxo.amount, IsUnit a.unit)
    (hmoves : List.Forall₂ (LegMoves d) legs drafts) :
    Changes d [] ((legs.zip drafts).foldl (addLeg scripts) []) fun asset =>
      (legs.map fun leg => takerGain (toApiAssetId (assetHex asset)) leg).sum := by
  suffices ∀ net, Changes d net ((legs.zip drafts).foldl (addLeg scripts) net) fun asset =>
      (legs.map fun leg => takerGain (toApiAssetId (assetHex asset)) leg).sum from this []
  intro net
  induction hmoves generalizing net with
  | nil => exact ⟨id, fun asset _ => (add_zero _).symm⟩
  | @cons leg draft legs drafts hmove _ ih =>
      have hfirst := changes_addLeg hscripts (hunits leg List.mem_cons_self) hmove.units net
      refine (hfirst.trans
        (ih (fun other hother => hunits other (List.mem_cons_of_mem _ hother)) _)).congr ?_
      intro asset hasset
      rw [hmove.moved asset hasset, List.map_cons, List.sum_cons]

theorem resolveOrder_of_resolveLeg {leg : TakeLeg} {resolved : ResolvedLeg}
    (h : resolveLeg mesh scripts p leg = .ok resolved) :
    resolveOrder mesh scripts p leg.orderId = .ok resolved.toResolvedOrder ∧
      resolved.takeAmount = leg.takeAmount := by
  simp only [resolveLeg, bind, bind_eq_ok, pure, Except.pure, Except.ok.injEq] at h
  obtain ⟨order, hfound, rfl⟩ := h
  exact ⟨hfound, rfl⟩

/-- An id of no traded asset is not in anyone's gain. -/
theorem takerGain_of_untraded {leg : ResolvedLeg} {value : Value} {offer ask : AssetClass}
    {names : List AssetName} (h : Trades d leg.toResolvedOrder value offer ask names) {id : Str}
    (hid : ∀ asset, Tradable d asset → id ≠ toApiAssetId (assetHex asset)) :
    takerGain id leg = 0 := by
  have hlovelace : id ≠ "lovelace".toList := hid adaAsset (tradable_ada d)
  rw [takerGain, h.offers, h.asks, if_neg (hid offer h.offer_tradable).symm,
    if_neg (hid ask h.ask_tradable).symm, if_neg hlovelace]
  rfl

/-- **The net of an accepted batch.** -/
theorem Batch.takerNet (hbatch : Batch mesh scripts opts p now params unsorted drafts draft)
    (hscripts : scripts.beaconPolicyId = hexOf d.policyId)
    (htrades : ∀ leg ∈ unsorted, ∃ value offer ask names,
      Trades d leg.toResolvedOrder value offer ask names) :
    let net := takerNetOf scripts (unsorted.insertionSort inInputOrder) drafts
    (∀ leg ∈ unsorted, paidOf leg = .ok (takerPays leg)) ∧
      (∀ id, valueAt id net = (unsorted.map (takerGain id)).sum) ∧
      (net.map Prod.fst).Nodup ∧ ∀ line ∈ net, line.2 ≠ 0 := by
  have hperm := List.perm_insertionSort inInputOrder unsorted
  have hsorted : ∀ leg ∈ unsorted.insertionSort inInputOrder, ∃ value offer ask names,
      Trades d leg.toResolvedOrder value offer ask names :=
    fun leg hleg => htrades leg (hperm.mem_iff.mp hleg)
  have hmoves : List.Forall₂ (LegMoves d) (unsorted.insertionSort inInputOrder) drafts := by
    refine ((List.forall₂_and_left _ _).mpr ⟨hsorted, hbatch.built⟩).imp ?_
    rintro leg legDraft ⟨⟨value, offer, ask, names, h⟩, hbuilt⟩
    exact legMoves_of_buildLeg h hbuilt
  have hunits : ∀ leg ∈ unsorted.insertionSort inInputOrder, ∀ a ∈ leg.utxo.amount,
      IsUnit a.unit := by
    intro leg hleg
    obtain ⟨value, offer, ask, names, h⟩ := hsorted leg hleg
    exact h.amount.units
  have hchanges := changes_of_built hscripts hunits hmoves
  have hnet := hchanges.isNet ⟨List.nodup_nil, fun key hkey => by cases hkey⟩
  obtain ⟨hnodup, hlines⟩ := hnet.lines
  refine ⟨?_, ?_, hnodup, fun line hline => (hlines line hline).1⟩
  · intro leg hleg
    obtain ⟨legDraft, -, hmove⟩ := exists_of_mem_left hmoves (hperm.mem_iff.mpr hleg)
    exact hmove.paid
  · intro id
    by_cases hid : ∃ asset, Tradable d asset ∧ id = toApiAssetId (assetHex asset)
    · obtain ⟨asset, hasset, rfl⟩ := hid
      rw [takerNetOf, valueAt_takerNetLines hnet hasset, hchanges.value asset hasset]
      refine (zero_add _).trans ?_
      exact (hperm.map _).sum_eq
    · rw [valueAt_of_notMem, List.sum_eq_zero]
      · intro n hn
        obtain ⟨leg, hleg, rfl⟩ := List.mem_map.mp hn
        obtain ⟨value, offer, ask, names, h⟩ := htrades leg hleg
        exact takerGain_of_untraded h fun asset hasset heq => hid ⟨asset, hasset, heq⟩
      · intro hmem
        obtain ⟨line, hline, rfl⟩ := List.mem_map.mp hmem
        exact hid (hlines line hline).2

/-- What the scan reports, less the top-ups, is what the legs of the opportunity
gain. -/
theorem sum_takerGain_of_opportunity {rows : List Order} {aparams : ArbitrageParams}
    {opportunity : ArbitrageOpportunity} {iopts : IndexerOptions}
    (hopportunity : opportunity ∈ (findArbitrage rows aparams).opportunities)
    (hresolved : List.Forall₂ (fun leg resolved => resolveLeg mesh scripts p leg = .ok resolved)
      (opportunity.legs.map fun leg => ⟨leg.orderId, leg.takeAmount⟩) unsorted)
    (horders : ∀ leg ∈ opportunity.legs, ∀ order,
      resolveOrder mesh scripts p leg.orderId = .ok order → IsOrderUtxo d mesh reading order.utxo)
    (hrows : ∀ row ∈ rows, ∀ order, resolveOrder mesh scripts p row.orderId = .ok order →
      validateAndMap mesh iopts order.utxo = some row) (id : Str) :
    (unsorted.map (takerGain id)).sum = valueAt id opportunity.net -
      if id = "lovelace".toList then opportunity.partialMinAdaLovelace else 0 := by
  obtain ⟨cycle, ev, -, hbook, hev, rfl⟩ := exists_cycle_of_opportunity hopportunity
  obtain ⟨⟨r, hsize, -⟩, hnets, hminAda⟩ := evaluateCycle_eq_some hev
  have hlegs := (sizeRotation_spec hsize).1
  -- each leg of the sizing is resolved to the order it was sized on
  have hgains : ev.legs.map (fun cycleLeg =>
      legNet id cycleLeg - if id = "lovelace".toList then topUpOf cycleLeg else 0) =
      unsorted.map (takerGain id) := by
    have hpairs := List.forall₂_map_left_iff.mp hresolved
    refine map_eq_of_forall₂ (((List.forall₂_and_left _ _).mpr ⟨fun _ h => h, hpairs⟩).imp ?_)
    rintro cycleLeg leg ⟨hcycleLeg, hresolve⟩
    obtain ⟨o, ho, hof⟩ := exists_of_mem_right hlegs hcycleLeg
    obtain ⟨hfound, htake⟩ := resolveOrder_of_resolveLeg hresolve
    have hresolvedOrder := resolveOrder_eq_ok hfound
    obtain ⟨value, offer, ask, names, h⟩ :=
      hresolvedOrder.exists_trades (horders cycleLeg hcycleLeg _ hfound)
    rw [hof.orderId] at hfound
    exact (takerGain_of_cycleLegOf h hresolvedOrder
      (hrows _ (hbook o (List.mem_rotate.mp ho)) _ hfound) hof htake id).symm
  have hnet : valueAt id (toOpportunity cycle ev aparams.feeEstimateLovelace).net =
      netOf id ev.legs := by
    show valueAt id (ev.nets.filter fun entry => entry.2 ≠ 0) = _
    rw [valueAt_filter_ne_zero, hnets, valueAt_netsOf]
  have htopUp : (if id = "lovelace".toList then
      (toOpportunity cycle ev aparams.feeEstimateLovelace).partialMinAdaLovelace else 0) =
      (ev.legs.map fun leg => if id = "lovelace".toList then topUpOf leg else 0).sum := by
    show (if id = "lovelace".toList then ev.partialMinAda else 0) = _
    rw [hminAda, partialMinAdaOf]
    split
    · rfl
    · exact (List.sum_eq_zero (by simp)).symm
  rw [← hgains, hnet, htopUp, eq_sub_iff_add_eq, ← List.sum_map_add, netOf]
  simp only [sub_add_cancel]

/-- **The previewed net is the real one.**  `params` is any batch the builder
accepts, over reports of well-formed orders.  The net shown for an asset id is
the sum of what the legs gain in it by the terms of their orders.  If the legs
are those of an opportunity, found in rows of the same outputs, it is the
opportunity's net, less the top-ups on the lovelace line. -/
theorem takerNet_exact {summary : TakeSummary}
    (hscripts : scripts.beaconPolicyId = hexOf d.policyId)
    (horders : ∀ leg ∈ params.orders, ∀ order,
      resolveOrder mesh scripts p leg.orderId = .ok order → IsOrderUtxo d mesh reading order.utxo)
    (h : respondTakeManyOrders mesh scripts opts p now params = .ok (draft, summary)) :
    (∃ legs, List.Forall₂ (fun leg resolved => resolveLeg mesh scripts p leg = .ok resolved)
        params.orders legs ∧
      (∀ leg ∈ legs, paidOf leg = .ok (takerPays leg)) ∧
      ∀ id, valueAt id summary.takerNet = (legs.map (takerGain id)).sum) ∧
    (summary.takerNet.map Prod.fst).Nodup ∧ (∀ line ∈ summary.takerNet, line.2 ≠ 0) ∧
    ∀ (rows : List Order) (aparams : ArbitrageParams) (iopts : IndexerOptions),
      ∀ opportunity ∈ (findArbitrage rows aparams).opportunities,
        params.orders = opportunity.legs.map (fun leg => ⟨leg.orderId, leg.takeAmount⟩) →
        (∀ row ∈ rows, ∀ order, resolveOrder mesh scripts p row.orderId = .ok order →
          validateAndMap mesh iopts order.utxo = some row) →
        ∀ id, valueAt id summary.takerNet = valueAt id opportunity.net -
          if id = "lovelace".toList then opportunity.partialMinAdaLovelace else 0 := by
  obtain ⟨unsorted, drafts, hbatch, hnet⟩ := respondTakeManyOrders_eq_ok h
  have htrades : ∀ leg ∈ unsorted, ∃ value offer ask names,
      Trades d leg.toResolvedOrder value offer ask names := by
    intro leg hleg
    obtain ⟨request, hrequest, hresolve⟩ := exists_of_mem_right hbatch.resolved hleg
    have hfound := (resolveOrder_of_resolveLeg hresolve).1
    exact (resolveOrder_eq_ok hfound).exists_trades (horders request hrequest _ hfound)
  obtain ⟨hpaid, hvalue, hnodup, hnonzero⟩ := hbatch.takerNet hscripts htrades
  rw [hnet]
  refine ⟨⟨unsorted, hbatch.resolved, hpaid, hvalue⟩, hnodup, hnonzero, ?_⟩
  intro rows aparams iopts opportunity hopportunity hlegs hrows id
  have hcycle : ∀ leg ∈ opportunity.legs, ∀ order,
      resolveOrder mesh scripts p leg.orderId = .ok order →
        IsOrderUtxo d mesh reading order.utxo := by
    intro leg hleg
    rw [hlegs] at horders
    exact horders _ (List.mem_map_of_mem hleg)
  rw [hvalue id]
  exact sum_takerGain_of_opportunity hopportunity (hlegs ▸ hbatch.resolved) hcycle hrows id

end

namespace SampleBatch

/-- The batch of the samples, in the order of its request. -/
def resolvedLegs : List ResolvedLeg := [resolved 2 (some 4000000), resolved 1 none]

theorem resolves {legs : List ResolvedLeg} (h : List.Forall₂ (fun leg resolved =>
    resolveLeg mesh scripts provider leg = .ok resolved) takes.orders legs) :
    legs = resolvedLegs := by
  have hresolved : takes.orders.mapM (resolveLeg mesh scripts provider) = .ok resolvedLegs :=
    mapM_eq_ok.mpr (.cons resolveLeg_takes.1 (.cons resolveLeg_takes.2 .nil))
  exact Except.ok.inj ((mapM_eq_ok.mpr h).symm.trans hresolved)

set_option maxRecDepth 100000 in
theorem responds : ∃ summary, respondTakeManyOrders mesh scripts opts provider now takes =
    .ok (draft, summary) := by
  obtain ⟨unsorted, drafts, hbatch⟩ := buildTakeManyOrders_eq_ok built
  obtain rfl := resolves hbatch.resolved
  have hsort : resolvedLegs.insertionSort inInputOrder =
      [resolved 1 none, resolved 2 (some 4000000)] := by decide
  obtain ⟨partialFills, hpartialFills⟩ : ∃ partialFills,
      [resolved 1 none, resolved 2 (some 4000000)].mapM partialFillOf = .ok partialFills :=
    ⟨_, mapM_eq_ok.mpr (.cons rfl (.cons rfl .nil))⟩
  have hpaid : [resolved 1 none, resolved 2 (some 4000000)].mapM paidOf = .ok [5, 2] :=
    mapM_eq_ok.mpr (.cons rfl (.cons rfl .nil))
  simp only [respondTakeManyOrders, takeSummary, bind, bind_eq_ok, pure, Except.pure,
    Except.ok.injEq, Prod.mk.injEq]
  refine ⟨_, draft, built, resolvedLegs, mapM_eq_ok.mpr hbatch.resolved, drafts,
    mapM_eq_ok.mpr hbatch.built, _, ⟨partialFills, ?_, [5, 2], ?_, rfl⟩, rfl, rfl⟩
  · rw [hsort]
    exact hpartialFills
  · rw [hsort]
    exact hpaid

theorem orderUtxos : ∀ leg ∈ takes.orders, ∀ order,
    resolveOrder mesh scripts provider leg.orderId = .ok order →
      IsOrderUtxo Sample.deployment mesh reading order.utxo := by
  have hreported : ∀ n, IsOrderUtxo Sample.deployment mesh reading (orderUtxo n) := by
    intro n
    obtain ⟨k, names, hwf⟩ := order_builder.exists_keyOrder documented
    exact ⟨order, k.datum, k.owner, names, reports n, hwf, k.ask_nameable⟩
  intro leg hleg order horder
  simp only [takes, List.mem_cons, List.not_mem_nil, or_false] at hleg
  rcases hleg with rfl | rfl
  · rw [(resolveOrder_of_resolveLeg resolveLeg_takes.1).1] at horder
    obtain rfl := Except.ok.inj horder
    exact hreported 2
  · rw [(resolveOrder_of_resolveLeg resolveLeg_takes.2).1] at horder
    obtain rfl := Except.ok.inj horder
    exact hreported 1

end SampleBatch

/-! A crossed pair: ten ADA are sold for five tokens, which sell for eight ADA. -/

namespace SampleCross

open BeaconDex.Sample (deployment ownerKey sellerKey token)
open SampleBatch (scripts opts now reading takes)
open SampleChain (txId orderAddress)

/-- Five tokens for eight ADA. -/
def bid : OrderDatum := Sample.order token 5 Sample.ada 8000000

def bidCbor : Str :=
  hexOf ([0xd8, 0x79, 0x9f, 0x01, 0x58, 0x1c] ++ deployment.policyId ++
    [0xd8, 0x79, 0x9f, 0x58, 0x1c] ++ ownerKey ++ [0xff, 0xd8, 0x79, 0x9f, 0xd8, 0x79, 0x9f,
      0x58, 0x1c] ++ sellerKey ++ [0xff, 0xd8, 0x7a, 0x80, 0xff, 0xd8, 0x79, 0x9f, 0x58, 0x1c] ++
    token.policyId ++ [0x41, 0x54, 0xff, 0x05, 0xd8, 0x79, 0x9f, 0x40, 0x40, 0xff,
      0x1a, 0x00, 0x7a, 0x12, 0x00, 0xd8, 0x7a, 0x80, 0xd8, 0x7a, 0x80, 0xff])

def mesh : Mesh :=
  { SampleBatch.mesh with
    deserializeDatum := fun cbor =>
      if cbor = bidCbor then some (nodeOf (toData bid))
      else SampleBatch.mesh.deserializeDatum cbor }

def bidAmount : List Asset :=
  ⟨lovelaceUnit, 2000000⟩ :: ⟨unitOf (assetHex token), 5⟩ ::
    (deriveBeaconNames mesh (assetHex token) ADA (hexOf ownerKey)).values.map fun name =>
      ⟨hexOf deployment.policyId ++ name, 1⟩

/-- The bid as the ledger has it. -/
def bidOutput : Output := Sample.orderOutput bid 2000000

def bidNames : List AssetName := (beaconNames Sample.sha2_256 bid.offer bid.ask ownerKey).getD []

set_option maxRecDepth 100000 in
theorem bid_wellFormed : WellFormedOrder deployment.sha2_256 deployment.orderScriptHash
    deployment.policyId bidOutput bid ownerKey bidNames where
  payment := rfl
  stake := rfl
  inline := rfl
  owner := rfl
  version := rfl
  policy := rfl
  offerAmount_pos := by decide
  askAmount_pos := by decide
  offer_policy := by decide
  ask_policy := by decide
  offer_covered h := absurd h (by decide)
  names_eq := by decide
  value := by decide +kernel

def bidUtxo : UTxO := ⟨⟨txId 2, 0⟩, orderAddress, bidAmount, some bidCbor⟩

set_option maxRecDepth 100000 in
theorem bid_reports : Reports mesh reading bidUtxo bidOutput where
  address := rfl
  amount := by decide +kernel
  datum raw h := by
    obtain rfl : toData bid = raw := Datum.inlineDatum.inj h
    refine ⟨bidCbor, rfl, ?_⟩
    simp only [mesh, if_true]

/-- The CBOR of the sale is another one. -/
def saleCbor : Str := SampleChain.datumCbor [0x00, 0x98, 0x96, 0x80] [0x05]

set_option maxRecDepth 100000 in
theorem saleCbor_ne : saleCbor ≠ bidCbor := by decide

set_option maxRecDepth 100000 in
theorem sale_reports : Reports mesh reading (SampleBatch.orderUtxo 1) SampleBatch.order where
  address := (SampleBatch.reports 1).address
  amount := (SampleBatch.reports 1).amount
  datum raw h := by
    obtain ⟨cbor, hcbor, hdatum⟩ := (SampleBatch.reports 1).datum raw h
    obtain rfl : saleCbor = cbor := Option.some.inj hcbor
    refine ⟨saleCbor, hcbor, ?_⟩
    simp only [mesh, if_neg saleCbor_ne]
    exact hdatum

/-- The sale and the bid. -/
def utxos : List UTxO := [SampleBatch.orderUtxo 1, bidUtxo]

def provider : ChainProvider :=
  { SampleBatch.provider with
    getUtxo := fun ref => .ok (utxos.find? fun u => u.input = ref) }

def rows : List Order := utxos.filterMap (validateAndMap mesh SampleChain.opts)

def params : ArbitrageParams := { nowPosixMs := .finite now }

/-- The legs of the opportunity, as they are sent. -/
def request : TakeManyOrdersParams where
  wallet := takes.wallet
  orders := [⟨orderIdOf ⟨txId 1, 0⟩, none⟩, ⟨orderIdOf ⟨txId 2, 0⟩, none⟩]

set_option maxRecDepth 100000 in
theorem found : ∃ opportunity ∈ (findArbitrage rows params).opportunities,
    request.orders = opportunity.legs.map (fun leg => ⟨leg.orderId, leg.takeAmount⟩) ∧
      opportunity.net = [("lovelace".toList, 2000000)] ∧ opportunity.partialMinAdaLovelace = 0 := by
  have hfound : (findArbitrage rows params).opportunities.map (fun opportunity =>
      (opportunity.legs.map fun leg => (⟨leg.orderId, leg.takeAmount⟩ : TakeLeg),
        opportunity.net, opportunity.partialMinAdaLovelace)) =
        [(request.orders, [("lovelace".toList, 2000000)], 0)] := by decide
  obtain ⟨opportunity, hmem, hshown⟩ := List.mem_map.mp (hfound.symm ▸ List.mem_singleton_self _)
  simp only [Prod.mk.injEq] at hshown
  exact ⟨opportunity, hmem, hshown.1.symm, hshown.2⟩

set_option maxRecDepth 100000 in
theorem responds : ∃ response,
    respondTakeManyOrders mesh scripts opts provider now request = .ok response := by
  have hok : (respondTakeManyOrders mesh scripts opts provider now request).isOk := by decide
  cases hresponse : respondTakeManyOrders mesh scripts opts provider now request with
  | error e =>
      rw [hresponse] at hok
      cases hok
  | ok response => exact ⟨response, rfl⟩

/-- What is resolved is one of the two. -/
theorem utxo_of_resolveOrder {orderId : Str} {order : ResolvedOrder}
    (h : resolveOrder mesh scripts provider orderId = .ok order) :
    order.utxo ∈ utxos ∧ order.utxo.input = order.ref := by
  have hfind : utxos.find? (fun u => u.input = order.ref) = some order.utxo :=
    Except.ok.inj (resolveOrder_eq_ok h).fetched
  exact ⟨List.mem_of_find?_eq_some hfind, by simpa using List.find?_some hfind⟩

theorem orderUtxos : ∀ leg ∈ request.orders, ∀ order,
    resolveOrder mesh scripts provider leg.orderId = .ok order →
      IsOrderUtxo deployment mesh reading order.utxo := by
  intro leg _ order horder
  obtain ⟨hmem, -⟩ := utxo_of_resolveOrder horder
  rcases List.mem_pair.mp hmem with hsale | hbid
  · obtain ⟨k, names, hwf⟩ := SampleBatch.order_builder.exists_keyOrder SampleBatch.documented
    rw [hsale]
    exact ⟨SampleBatch.order, k.datum, k.owner, names, sale_reports, hwf, k.ask_nameable⟩
  · rw [hbid]
    exact ⟨bidOutput, bid, ownerKey, bidNames, bid_reports, bid_wellFormed, nameable_ada⟩

set_option maxRecDepth 100000 in
/-- The rows are those of what is resolved under their ids. -/
theorem rows_mapped : ∀ row ∈ rows, ∀ order,
    resolveOrder mesh scripts provider row.orderId = .ok order →
      validateAndMap mesh SampleChain.opts order.utxo = some row := by
  intro row hrow order horder
  obtain ⟨u, hu, hmapped⟩ := List.mem_filterMap.mp hrow
  obtain ⟨hmem, hinput⟩ := utxo_of_resolveOrder horder
  have htargets : ∀ u ∈ utxos, orderTarget (orderIdOf u.input) = some u.input := by decide
  have hsame : ∀ u ∈ utxos, ∀ u' ∈ utxos, u.input = u'.input → u = u' := by decide
  have hid : row.orderId = orderIdOf u.input :=
    row.orderId_eq_ref.trans (congrArg orderIdOf (validateAndMap_eq_some hmapped).1)
  have htarget := (resolveOrder_eq_ok horder).target
  rw [hid, htargets u hu] at htarget
  rw [hsame _ hmem u hu (hinput.trans (Option.some.inj htarget).symm)]
  exact hmapped

end SampleCross

open SampleBatch in
/-- A whole and a partial leg, and the two legs of a crossed pair. -/
theorem takerNet_exact_sample :
    (∃ summary, respondTakeManyOrders mesh scripts opts provider now takes = .ok (draft, summary) ∧
      ∀ id, valueAt id summary.takerNet = (resolvedLegs.map (takerGain id)).sum) ∧
    ∃ response, respondTakeManyOrders SampleCross.mesh scripts opts SampleCross.provider now
        SampleCross.request = .ok response ∧
      valueAt "lovelace".toList response.2.takerNet = 2000000 := by
  constructor
  · obtain ⟨summary, hresponds⟩ := responds
    obtain ⟨⟨legs, hlegs, -, hvalue⟩, -⟩ := takerNet_exact rfl orderUtxos hresponds
    obtain rfl := resolves hlegs
    exact ⟨summary, hresponds, hvalue⟩
  · obtain ⟨response, hresponds⟩ := SampleCross.responds
    obtain ⟨opportunity, hmem, hlegs, hnet, hminAda⟩ := SampleCross.found
    obtain ⟨-, -, -, hscan⟩ := takerNet_exact rfl SampleCross.orderUtxos hresponds
    refine ⟨response, hresponds, ?_⟩
    rw [hscan SampleCross.rows SampleCross.params SampleChain.opts opportunity hmem hlegs
      SampleCross.rows_mapped, hnet, hminAda]
    rfl

end BeaconDex.Backend
