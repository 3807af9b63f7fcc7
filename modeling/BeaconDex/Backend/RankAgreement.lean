import BeaconDex.Backend.BuilderRefinement
import BeaconDex.Backend.OpenBook

/-!
# One lineage, on chain and off chain

Which output continues a partially taken order is settled three times: by the
order validator (`take_partial_ok`), by the indexer when it classifies the spend,
and by the indexer again when it climbs from the continuation to its parent.  The
three look at different lists.  The validator ranks references among the partially
taken inputs and takes the outputs with any token of the policy; the indexer ranks
redeemer indices and takes the outputs with the OrderBeacon.

On a valid transaction that spends well-formed orders the lists are the same, as
positions (`partialInputIdxs_eq`, `continuationIdxs_eq`), so all three agree
(`lineage_is_rank_pairing`).

## From the ledger to the explorer

`Published` says what a chain state holds of a ledger transaction: its inputs in the
ledger's order, its outputs by index, and its redeemers by the position of their
input.  It is the only link between the two; the amounts and datums of an output are
tied by `Shows`.

What the validator bound an input to is read off the record of its approval
(`Binds`), not computed a fourth time.
-/

namespace BeaconDex.Backend

open Library

/-!
## What is published of a transaction

The one link between the ledger's transactions and the explorer's.
-/

/-- `u` shows `out`: a report under the text of its address, with a datum that is
not empty and without a nameless unit. -/
structure Shows (mesh : Mesh) (reading : ChainReading) (text : Address → Str) (u : UTxO)
    (out : Output) : Prop extends Reports mesh reading u out where
  text_eq : u.address = text out.address
  datum_ne : u.plutusData ≠ some []
  unit_ne : ∀ a ∈ u.amount, a.unit ≠ []

/-- **What a chain state holds of `tx`**: a transaction with the same inputs in the same
order, outputs of the same values, and a redeemer for each script input that has one, by
the position of that input.  The orders among its inputs and outputs can be looked up. -/
structure Published (d : Deployment) (mesh : Mesh) (reading : ChainReading) (text : Address → Str)
    (c : ChainState) (tx : Transaction) (published : ChainTx) : Prop where
  mem : published ∈ c.txs.entries
  inputs : List.Forall₂ (fun ref (input : Input) => reference ref = input.outputReference)
    published.inputs tx.inputs
  outputs : List.Forall₂ (fun (o : ChainOutput) (out : Output) => Represents o.amount out.value)
    published.outputs tx.outputs
  redeemers : ∀ (i : ℕ) (hash : ScriptHash) (k : ℕ),
    ⟨i, hexOf hash, k⟩ ∈ published.redeemers ↔ ∃ input fields, tx.inputs[i]? = some input ∧
      input.output.address.paymentCredential = .script hash ∧
      tx.redeemers.lookup (.spend input.outputReference) = some (.constr k fields)
  /-- The order inputs were created on this chain. -/
  spent : ∀ (i : ℕ) (ref : OutRef) (input : Input), published.inputs[i]? = some ref →
    tx.inputs[i]? = some input → sitsAt d.orderScriptHash input.output = true →
      ∃ u, c.utxoAt ref = some u ∧ Shows mesh reading text u input.output
  created : ∀ (j : ℕ) (out : Output), tx.outputs[j]? = some out →
    sitsAt d.orderScriptHash out = true →
      ∃ u, c.utxoAt ⟨published.hash, j⟩ = some u ∧ Shows mesh reading text u out

/-- The indexer follows the deployment. -/
structure Follows (d : Deployment) (opts : IndexerOptions) : Prop where
  beaconPolicyId : opts.beaconPolicyId = hexOf d.policyId
  orderValidatorHash : opts.orderValidatorHash = hexOf d.orderScriptHash

/-- **`take_partial_ok` bound `input` to output `j`**: it approved the input with
that output as the continuation, the beacon-bearing output of the input's rank. -/
def Binds (d : Deployment) (tx : Transaction) (input : Input) (j : ℕ) : Prop :=
  ∃ datum takeAmount required payment refs rank continuation,
    orderDatum tx input = some datum ∧
    spendRedeemer tx input.outputReference = some (.takeOrderPartial takeAmount) ∧
    TakePartialAccepted d.orderScriptHash tx input datum takeAmount required payment refs rank
      continuation ∧
    (tx.outputs.findIdxs (bearsBeacons datum.beaconPolicyId))[rank]? = some j ∧
    tx.outputs[j]? = some continuation

section

variable {d : Deployment} {mesh : Mesh} {reading : ChainReading} {text : Address → Str}
variable {opts : IndexerOptions} {p : ChainProvider} {c : ChainState} {tx : Transaction}
variable {published : ChainTx} {input : Input} {ref : OutRef} {i j : ℕ}

/-!
## The partially taken inputs

The validator goes through the inputs, the indexer through the redeemers; on what is
published they find the same positions in the same order.
-/

/-- The constructor of a redeemer, as it is on chain. -/
def redeemerConstructor : OrderRedeemer → ℕ
  | .cancelOrder => 0
  | .takeOrder => 1
  | .takeOrderPartial _ => 2

/-- A redeemer is told by its constructor, whatever its fields. -/
theorem toData_redeemer (redeemer : OrderRedeemer) :
    ∃ fields, toData redeemer = .constr (redeemerConstructor redeemer) fields := by
  cases redeemer <;> exact ⟨_, rfl⟩

theorem lookup_of_spendRedeemer {ref : OutputReference} {redeemer : OrderRedeemer}
    (h : spendRedeemer tx ref = some redeemer) :
    tx.redeemers.lookup (.spend ref) = some (toData redeemer) := by
  obtain ⟨data, hlookup, hdata⟩ := Option.bind_eq_some_iff.mp h
  rw [hlookup, (IsData.ofData_eq_some _ _).mp hdata]

/-- The redeemer of an order input is published under the position of the input. -/
theorem Published.mem_redeemers (hpub : Published d mesh reading text c tx published)
    (hfollows : Follows d opts) (hinput : tx.inputs[i]? = some input)
    (hsits : sitsAt d.orderScriptHash input.output = true) {redeemer : OrderRedeemer}
    (hred : spendRedeemer tx input.outputReference = some redeemer) {k : ℕ} :
    ⟨i, opts.orderValidatorHash, k⟩ ∈ published.redeemers ↔ redeemerConstructor redeemer = k := by
  obtain ⟨fields, hdata⟩ := toData_redeemer redeemer
  have hlookup := lookup_of_spendRedeemer hred
  rw [hdata] at hlookup
  rw [hfollows.orderValidatorHash, hpub.redeemers]
  constructor
  · rintro ⟨input', fields', hinput', -, hlookup'⟩
    obtain rfl := Option.some.inj (hinput.symm.trans hinput')
    exact (Data.constr.inj (Option.some.inj (hlookup.symm.trans hlookup'))).1
  · rintro rfl
    exact ⟨input, fields, hinput, sitsAt_eq_true.mp hsits, hlookup⟩

/-- **The inputs the indexer takes for partially taken are the validator's.** -/
theorem partialInputIdxs_eq (hvalid : LedgerValid d tx)
    (hpub : Published d mesh reading text c tx published) (hfollows : Follows d opts) :
    partialInputIdxs opts published.redeemers =
      tx.inputs.findIdxs (isPartialTake tx d.orderScriptHash) := by
  have hsorted : (partialInputIdxs opts published.redeemers).Pairwise (· < ·) := by
    have hle : (partialInputIdxs opts published.redeemers).Pairwise (· ≤ ·) :=
      List.pairwise_insertionSort (· ≤ ·) _
    have hne : (partialInputIdxs opts published.redeemers).Pairwise (· ≠ ·) :=
      partialInputIdxs_nodup (c.redeemers_nodup published hpub.mem)
    exact hle.imp₂ (fun _ _ => Nat.lt_of_le_of_ne) hne
  refine eq_findIdxs hsorted ?_
  intro i
  rw [mem_partialInputIdxs]
  constructor
  · rintro ⟨⟨i, hash, k⟩, hr, rfl, rfl, rfl⟩
    have hr' := hr
    rw [hfollows.orderValidatorHash, hpub.redeemers] at hr'
    obtain ⟨input, fields, hinput, hcred, -⟩ := hr'
    have hsits := sitsAt_eq_true.mpr hcred
    obtain ⟨datum, -, hspent⟩ :=
      hvalid.orders.spent hvalid.distinct (List.mem_of_getElem? hinput) hsits
    refine ⟨input, hinput, isPartialTake_eq_true.mpr ⟨hsits, ?_⟩⟩
    -- constructor 2 is that of a partial take only
    cases hspent with
    | cancelled key hred =>
        exact absurd ((hpub.mem_redeemers hfollows hinput hsits hred).mp hr) nofun
    | taken payment refs hred =>
        exact absurd ((hpub.mem_redeemers hfollows hinput hsits hred).mp hr) nofun
    | partiallyTaken takeAmount required payment refs rank continuation hred =>
        exact ⟨takeAmount, hred⟩
  · rintro ⟨input, hinput, hpart⟩
    obtain ⟨hsits, takeAmount, hred⟩ := isPartialTake_eq_true.mp hpart
    exact ⟨_, (hpub.mem_redeemers hfollows hinput hsits hred).mpr rfl, rfl, rfl, rfl⟩

/-!
## The beacon-bearing outputs

The validator looks for any token of the policy, the indexer for one name; on outputs
that are well-formed orders or nothing, this is the same.
-/

theorem unitOf_beacon (d : Deployment) (name : AssetName) :
    unitOf (assetHex ⟨d.policyId, name⟩) = hexOf d.policyId ++ hexOf name := by
  apply unitOf_token
  rw [Bool.eq_false_iff, ne_eq, isAda_eq_true_iff]
  intro h
  exact d.policyId_ne_ada (congrArg AssetClass.policyId h)

/-- The unit the indexer asks for is that of the beacon all orders have. -/
theorem orderBeaconUnit_eq (hfollows : Follows d opts) :
    orderBeaconUnit opts = unitOf (assetHex ⟨d.policyId, orderBeaconName⟩) := by
  rw [unitOf_beacon, orderBeaconUnit, hfollows.beaconPolicyId]
  rfl

/-- The order beacon is seen in a report when the value holds it. -/
theorem bearsOrderBeacon_iff (hfollows : Follows d opts) {amount : List Asset} {value : Value}
    (h : Represents amount value) :
    bearsOrderBeacon opts amount = true ↔
      0 < Assets.tokens value d.policyId orderBeaconName := by
  have hname : Nameable ⟨d.policyId, orderBeaconName⟩ := .inr d.policyId_length
  simp only [bearsOrderBeacon, List.any_eq_true, Bool.and_eq_true, decide_eq_true_eq,
    orderBeaconUnit_eq hfollows]
  constructor
  · rintro ⟨a, ha, hunit, hpos⟩
    have hheld := h.held_of_mem ha
    rw [hunit, assetOf_unitOf hname] at hheld
    exact hpos.trans_eq hheld.symm
  · intro hpos
    have hheld : 0 < held ⟨d.policyId, orderBeaconName⟩ value := hpos
    obtain ⟨a, ha, hasset⟩ := List.mem_map.mp (h.mem_of_held_pos hheld)
    refine ⟨a, ha, ?_, h.positive a ha⟩
    obtain ⟨-, hunit⟩ := (h.units a ha).eq_unitOf
    have hne : a.unit ≠ [] := by
      intro hnil
      rw [hnil, assetOf_nil] at hasset
      exact d.policyId_ne_ada (congrArg AssetClass.policyId hasset).symm
    rwa [if_neg hne, hasset] at hunit

/-- **The outputs the indexer takes for continuations are the validator's**, when
an order is spent. -/
theorem continuationIdxs_eq (hvalid : LedgerValid d tx) (horders : SpendsOrders d tx)
    (hsome : ∃ input ∈ tx.inputs, sitsAt d.orderScriptHash input.output = true)
    (hpub : Published d mesh reading text c tx published) (hfollows : Follows d opts) :
    continuationIdxs opts published = tx.outputs.findIdxs (bearsBeacons d.policyId) := by
  have hcontinuations := horders.continuations hvalid.orders hvalid.distinct hsome
  -- whatever bears a beacon is a continuation, so it bears the order beacon
  have hbears : ∀ out ∈ tx.outputs, 0 < Assets.tokens out.value d.policyId orderBeaconName ↔
      bearsBeacons d.policyId out = true := by
    intro out hout
    rw [bearsBeacons_eq_true]
    constructor
    · intro hpos hzero
      rw [hzero] at hpos
      exact lt_irrefl _ hpos
    · intro hne
      obtain ⟨input, hinput, hcont⟩ := exists_of_mem_right hcontinuations
        (mem_beaconBearingOutputs.mpr ⟨hout, hne⟩)
      obtain ⟨hmem, hsits, -⟩ := mem_partialInputs.mp hinput
      obtain ⟨datum, owner, names, hwf⟩ := horders input hmem hsits
      rw [hcont.tokens (orderDatum_of_inline hwf.inline) hwf.offer_policy]
      exact hwf.orderBeacon_pos d.policyId_ne_ada
  refine eq_findIdxs (continuationIdxs_pairwise opts published) ?_
  intro j
  simp only [continuationIdxs, List.mem_map, List.mem_filter, Prod.exists, exists_eq_right,
    List.mk_mem_zipIdx_iff_getElem?]
  constructor
  · rintro ⟨o, ho, hbeacon⟩
    obtain ⟨out, hout, hreport⟩ := exists_of_getElem?_left hpub.outputs ho
    exact ⟨out, hout, (hbears out (List.mem_of_getElem? hout)).mp
      ((bearsOrderBeacon_iff hfollows hreport).mp hbeacon)⟩
  · rintro ⟨out, hout, hbeacon⟩
    obtain ⟨o, ho, hreport⟩ := exists_of_getElem?_right hpub.outputs hout
    exact ⟨o, ho, (bearsOrderBeacon_iff hfollows hreport).mpr
      ((hbears out (List.mem_of_getElem? hout)).mpr hbeacon)⟩

/-!
## Forwards

From an input to its class.
-/

/-- **The class the redeemer of an order input stands for**: cancelled, taken, or filled
in part with the output that the validator has bound the input to. -/
inductive ClassOf (d : Deployment) (tx : Transaction) (hash : Str) (input : Input) :
    SpendClass → Prop
  | cancelled (hred : spendRedeemer tx input.outputReference = some .cancelOrder) :
      ClassOf d tx hash input ⟨.cancelled, some hash, none⟩
  | taken (hred : spendRedeemer tx input.outputReference = some .takeOrder) :
      ClassOf d tx hash input ⟨.taken, some hash, none⟩
  | partiallyFilled {takeAmount : ℤ} {j : ℕ}
      (hred : spendRedeemer tx input.outputReference = some (.takeOrderPartial takeAmount))
      (hbinds : Binds d tx input j) :
      ClassOf d tx hash input ⟨.partiallyFilled, some hash, some (orderIdOf ⟨hash, j⟩)⟩

/-- An order input was spent under its own redeemer. -/
theorem Published.spentUnder (hpub : Published d mesh reading text c tx published)
    (hfollows : Follows d opts) (href : published.inputs[i]? = some ref)
    (hinput : tx.inputs[i]? = some input) (hsits : sitsAt d.orderScriptHash input.output = true)
    {redeemer : OrderRedeemer} (hred : spendRedeemer tx input.outputReference = some redeemer) :
    SpentUnder opts c ref published (redeemerConstructor redeemer) where
  created := by
    obtain ⟨u, hu, -⟩ := hpub.spent i ref input href hinput hsits
    rw [ChainState.utxoAt] at hu
    exact Option.isSome_map.symm.trans (Option.isSome_of_eq_some hu)
  spender := ChainState.spender_eq_some.mpr ⟨hpub.mem, List.mem_of_getElem? href⟩
  redeemer := ⟨i, idxOf?_of_nodup (ChainState.inputs_nodup_of_mem hpub.mem) href,
    (hpub.mem_redeemers hfollows hinput hsits hred).mpr rfl⟩

/-- **What the validator bound, the chain state continues.** -/
theorem Binds.continuedBy (hbinds : Binds d tx input j) (hvalid : LedgerValid d tx)
    (horders : SpendsOrders d tx) (hpub : Published d mesh reading text c tx published)
    (hfollows : Follows d opts) (href : published.inputs[i]? = some ref)
    (hinput : tx.inputs[i]? = some input) (hsits : sitsAt d.orderScriptHash input.output = true) :
    ContinuedBy opts c ref ⟨published.hash, j⟩ published i := by
  obtain ⟨datum, takeAmount, required, payment, refs, rank, continuation, hdatum, hred, hacc, hj,
    -⟩ := hbinds
  have hspent := hpub.spentUnder hfollows href hinput hsits hred
  have hmem := List.mem_of_getElem? hinput
  obtain ⟨datum', owner, names, hwf⟩ := horders input hmem hsits
  obtain rfl := eq_of_orderDatum hwf.inline hdatum
  refine ⟨hspent.created, hspent.spender, rfl,
    idxOf?_of_nodup (ChainState.inputs_nodup_of_mem hpub.mem) href, rank, ?_, ?_⟩
  · rw [partialInputIdxs_eq hvalid hpub hfollows, idxOf?_findIdxs hvalid.distinct hinput,
      ← partialTakeRefs_eq_some hacc.partialRefs]
    exact hacc.rank_eq
  · rw [continuationIdxs_eq hvalid horders ⟨input, hmem, hsits⟩ hpub hfollows, ← hwf.policy]
    exact hj

/-- A partial take that the validator approved bound an output. -/
theorem exists_binds {datum : OrderDatum} {takeAmount required : ℤ}
    {payment continuation : Output} {refs : List OutputReference} {rank : ℕ}
    (hacc : TakePartialAccepted d.orderScriptHash tx input datum takeAmount required payment refs
      rank continuation) (hdatum : orderDatum tx input = some datum)
    (hred : spendRedeemer tx input.outputReference = some (.takeOrderPartial takeAmount)) :
    ∃ j, Binds d tx input j := by
  obtain ⟨j, hj, hout⟩ := exists_getElem?_findIdxs hacc.continuation_eq
  exact ⟨j, datum, takeAmount, required, payment, refs, rank, continuation, hdatum, hred, hacc, hj,
    hout⟩

/-- **A spend is classified by the redeemer of its own input.** -/
theorem classOf_classifySpend (hvalid : LedgerValid d tx) (horders : SpendsOrders d tx)
    (hpub : Published d mesh reading text c tx published) (hfollows : Follows d opts)
    (hp : Faithful p c) (hinput : tx.inputs[i]? = some input)
    (hsits : sitsAt d.orderScriptHash input.output = true) {cached : Order}
    (hcached : published.inputs[i]? = some cached.ref) :
    ClassOf d tx published.hash input (classifySpend opts p cached) := by
  obtain ⟨datum, hdatum, hspent⟩ :=
    hvalid.orders.spent hvalid.distinct (List.mem_of_getElem? hinput) hsits
  have hclass : ∀ {redeemer}, spendRedeemer tx input.outputReference = some redeemer →
      ∃ idx, classifySpend opts p cached = classifyRedeemer opts published.hash
        ⟨published.inputs, published.outputs.mapIdx (c.report published.hash)⟩ published.redeemers
        idx ⟨idx, opts.orderValidatorHash, redeemerConstructor redeemer⟩ := by
    intro redeemer hred
    obtain ⟨idx, -, hclass⟩ := classifySpend_of_spentUnder hp
      (hpub.spentUnder hfollows hcached hinput hsits hred)
    exact ⟨idx, hclass⟩
  cases hspent with
  | cancelled key hred =>
      obtain ⟨idx, hclass⟩ := hclass hred
      rw [hclass]
      exact .cancelled hred
  | taken payment refs hred =>
      obtain ⟨idx, hclass⟩ := hclass hred
      rw [hclass]
      exact .taken hred
  | partiallyTaken takeAmount required payment refs rank continuation hred hacc =>
      obtain ⟨j, hbinds⟩ := exists_binds hacc hdatum hred
      have hnext := hbinds.continuedBy hvalid horders hpub hfollows hcached hinput hsits
      have hchild : (classifySpend opts p cached).childOrderId =
          some (orderIdOf ⟨published.hash, j⟩) :=
        (classifySpend_childOrderId hp).mpr ⟨_, ⟨_, _, hnext⟩, rfl⟩
      obtain ⟨idx, hclass⟩ := hclass hred
      rw [hclass] at hchild ⊢
      rw [show classifyRedeemer opts published.hash
        ⟨published.inputs, published.outputs.mapIdx (c.report published.hash)⟩ published.redeemers
        idx ⟨idx, opts.orderValidatorHash, redeemerConstructor (.takeOrderPartial takeAmount)⟩ =
        ⟨.partiallyFilled, some published.hash, some (orderIdOf ⟨published.hash, j⟩)⟩ from
          congrArg (SpendClass.mk _ _) hchild]
      exact .partiallyFilled hred hbinds

/-!
## Backwards

From an output to the order it continues, by the row that is made of the parent.
-/

/-- **Every output with a beacon is bound**, when an order is spent. -/
theorem exists_binds_of_bearsBeacons (hvalid : LedgerValid d tx) (horders : SpendsOrders d tx)
    (hsome : ∃ input ∈ tx.inputs, sitsAt d.orderScriptHash input.output = true) {out : Output}
    (hout : tx.outputs[j]? = some out) (hbears : bearsBeacons d.policyId out = true) :
    ∃ (i : ℕ) (input : Input), tx.inputs[i]? = some input ∧
      sitsAt d.orderScriptHash input.output = true ∧ Binds d tx input j := by
  have hcontinuations := horders.continuations hvalid.orders hvalid.distinct hsome
  obtain ⟨rank, hj⟩ := List.mem_iff_getElem?.mp (mem_findIdxs.mpr ⟨out, hout, hbears⟩)
  obtain ⟨out', hbearing, hout'⟩ := exists_getElem?_filter hj
  obtain rfl := Option.some.inj (hout.symm.trans hout')
  -- the input of the same rank
  obtain ⟨input, hpartial, -⟩ := exists_of_getElem?_right hcontinuations hbearing
  obtain ⟨i, -, hinput⟩ := exists_getElem?_findIdxs hpartial
  obtain ⟨hmem, hsits, takeAmount, hred⟩ := mem_partialInputs.mp (List.mem_of_getElem? hpartial)
  refine ⟨i, input, hinput, hsits, ?_⟩
  obtain ⟨datum, hdatum, hspent⟩ := hvalid.orders.spent hvalid.distinct hmem hsits
  obtain ⟨datum', owner, names, hwf⟩ := horders input hmem hsits
  obtain rfl := eq_of_orderDatum hwf.inline hdatum
  cases hspent with
  | cancelled key hred' => rw [hred] at hred'; cases hred'
  | taken payment refs hred' => rw [hred] at hred'; cases hred'
  | partiallyTaken takeAmount' required payment refs rank' continuation hred' hacc =>
      have hrefs := partialTakeRefs_eq_some hacc.partialRefs
      have hat : refs[rank]? = some input.outputReference := by
        rw [hrefs, List.getElem?_map]
        exact congrArg (Option.map Input.outputReference) hpartial
      have hnodup : refs.Nodup := hrefs ▸ partialInputs_nodup hvalid.distinct
      obtain rfl : rank = rank' :=
        Option.some.inj ((idxOf?_of_nodup hnodup hat).symm.trans hacc.rank_eq)
      have hcontinuation := hacc.continuation_eq
      rw [hwf.policy] at hcontinuation
      obtain rfl := Option.some.inj (hbearing.symm.trans hcontinuation)
      exact ⟨datum', takeAmount', required, payment, refs, rank, out, hdatum, hred', hacc,
        hwf.policy ▸ hj, hout⟩

/-- What the indexer finds under a unit is what the value holds of the asset. -/
theorem qty_unitOf {amount : List Asset} {value : Value} (h : Represents amount value)
    (hne : ∀ a ∈ amount, a.unit ≠ []) {asset : AssetClass} (hasset : Nameable asset) :
    qty amount (unitOf (assetHex asset)) = held asset value := by
  refine h.held_eq_find? ?_
  intro a ha
  obtain ⟨hnameable, hunit⟩ := (h.units a ha).eq_unitOf
  rw [if_neg (hne a ha)] at hunit
  rw [decide_eq_true_eq, hunit, unitOf_inj hnameable hasset, assetOf_unitOf hnameable]

/-- Beacon names are hex. -/
theorem hexOf_of_mem_values {offer ask : AssetClassHex} {owner : Bytes} {name : Str}
    (h : name ∈ (deriveBeaconNames mesh offer ask (hexOf owner)).values) :
    ∃ bytes, name = hexOf bytes := by
  simp only [BeaconNames.values, deriveBeaconNames, List.mem_cons, List.not_mem_nil, or_false] at h
  obtain rfl | rfl | rfl | rfl | rfl := h
  · exact ⟨orderBeaconName, by decide⟩
  · exact ⟨_, rfl⟩
  · exact ⟨_, rfl⟩
  · exact ⟨_, rfl⟩
  · exact ⟨owner, toLowerCase_hexOf owner⟩

/-- What is reported of a beacon's unit is what the output holds of the beacon. -/
theorem qty_beaconUnit (hfollows : Follows d opts) {u : UTxO} {out : Output}
    (hu : Shows mesh reading text u out) (name : AssetName) :
    qty u.amount (opts.beaconPolicyId ++ hexOf name) = Assets.tokens out.value d.policyId name := by
  rw [hfollows.beaconPolicyId, ← unitOf_beacon]
  exact qty_unitOf hu.amount hu.unit_ne (.inr d.policyId_length)

/-- An order holds what it offers, for the indexer too. -/
theorem isSome_verifiedDeposit {u : UTxO} {out : Output} {datum : OrderDatum}
    {owner : VerificationKeyHash} {names : List AssetName}
    (hwf : WellFormedOrder d.sha2_256 d.orderScriptHash d.policyId out datum owner names)
    (hu : Shows mesh reading text u out) (paymentKey : VerificationKeyHash)
    (paymentStake : Option VerificationKeyHash) :
    (verifiedDeposit (fieldsOf datum owner paymentKey paymentStake) u.amount).isSome := by
  have hcovered := hwf.offerAmount_le_held
  have hoffer : Nameable datum.offer :=
    hu.amount.nameable_of_held_pos (hwf.offerAmount_pos.trans_le hcovered)
  rw [← qty_unitOf hu.amount hu.unit_ne hoffer] at hcovered
  have hamount :
      (fieldsOf datum owner paymentKey paymentStake).offerAmount = datum.offerAmount := rfl
  have hasset : (fieldsOf datum owner paymentKey paymentStake).offer = assetHex datum.offer := rfl
  rw [verifiedDeposit, hamount, hasset, isAda_assetHex]
  cases hada : BeaconDex.isAda datum.offer with
  | true =>
      rw [unitOf_eq_lovelaceUnit hada] at hcovered
      have hlovelace : ¬ qty u.amount "lovelace".toList < datum.offerAmount := not_lt.mpr hcovered
      simp only [if_true, hlovelace, if_false, Option.isSome_some]
  | false =>
      rw [unitOf_token hada] at hcovered
      have hheld : ¬ qty u.amount ((assetHex datum.offer).policyId ++
          (assetHex datum.offer).assetNameHex) < datum.offerAmount := not_lt.mpr hcovered
      simp only [Bool.false_eq_true, if_false, hheld, Option.isSome_some]

/-- The terms of an order and of its continuation, as they are decoded, differ in
the two amounts only. -/
theorem fieldsOf_reducedDatum (datum : OrderDatum) (takeAmount required : ℤ)
    (owner paymentKey : VerificationKeyHash) (paymentStake : Option VerificationKeyHash) :
    fieldsOf (reducedDatum datum takeAmount required) owner paymentKey paymentStake =
      { fieldsOf datum owner paymentKey paymentStake with
        offerAmount := datum.offerAmount - takeAmount
        askAmount := datum.askAmount - required } := rfl

/-- **Who accepts a continuation, accepts the order it continues.** -/
theorem accepted_of_continuation (hfollows : Follows d opts) {u u' : UTxO} {out out' : Output}
    {datum : OrderDatum} {owner : VerificationKeyHash} {names : List AssetName}
    {takeAmount required : ℤ}
    (hwf : WellFormedOrder d.sha2_256 d.orderScriptHash d.policyId out datum owner names)
    (hcont : IsContinuation out datum takeAmount required out')
    (hu : Shows mesh reading text u out) (hu' : Shows mesh reading text u' out')
    (hacc : Accepted mesh opts u') : Accepted mesh opts u := by
  obtain ⟨addr, cbor', fields', haddr, hscript, hcbor', -, hdecode', hpolicy, hstake, hbeacons, -,
    hpayment⟩ := isSome_validateAndMap.mp hacc
  -- the continuation was decoded, so the payment address is one of keys
  obtain ⟨cbor'', hcbor'', hnode'⟩ := hu'.datum _ hcont.datum
  obtain rfl := Option.some.inj (hcbor'.symm.trans hcbor'')
  rw [decodeOrderDatum, hnode'] at hdecode'
  have howner : (reducedDatum datum takeAmount required).owner = .verificationKey owner := hwf.owner
  obtain ⟨paymentKey, paymentStake, hkey, hstakeKey, hcheck⟩ :=
    (decodeNode_eq_some howner).mp hdecode'
  obtain ⟨rfl, -⟩ := checkDatum_eq_some.mp hcheck
  rw [fieldsOf_reducedDatum] at hpolicy hstake hbeacons hpayment
  obtain ⟨cbor, hcbor, hnode⟩ := hu.datum _ hwf.inline
  have hdecode :
      decodeOrderDatum mesh cbor = some (fieldsOf datum owner paymentKey paymentStake) := by
    rw [decodeOrderDatum, hnode]
    refine (decodeNode_eq_some hwf.owner).mpr ⟨paymentKey, paymentStake, hkey, hstakeKey, ?_⟩
    refine checkDatum_eq_some.mpr ⟨rfl, ?_, hwf.offerAmount_pos, hwf.askAmount_pos⟩
    show toNumber datum.version = .finite 1
    rw [hwf.version, KeyOrder.toNumber_one]
  have htext : u.address = u'.address := by
    rw [hu.text_eq, hu'.text_eq, hcont.address]
  refine isSome_validateAndMap.mpr ⟨addr, cbor, _, htext ▸ haddr, hscript, hcbor, ?_, hdecode,
    hpolicy, hstake, ?_, ?_, hpayment⟩
  · rintro rfl
    exact hu.datum_ne hcbor
  · intro name hname
    obtain ⟨bytes, rfl⟩ := hexOf_of_mem_values hname
    rw [← hbeacons _ hname, qty_beaconUnit hfollows hu, qty_beaconUnit hfollows hu',
      hcont.tokens hwf.offer_policy]
  · exact isSome_verifiedDeposit hwf hu paymentKey paymentStake

/-- **The parent of a continuation**, from the continuation. -/
theorem Binds.climbStep_eq (hbinds : Binds d tx input j) (hvalid : LedgerValid d tx)
    (horders : SpendsOrders d tx) (hpub : Published d mesh reading text c tx published)
    (hfollows : Follows d opts) (hp : Faithful p c) (hinput : tx.inputs[i]? = some input)
    (hsits : sitsAt d.orderScriptHash input.output = true) {u : UTxO}
    (hu : c.utxoAt ⟨published.hash, j⟩ = some u) (hacc : Accepted mesh opts u) {node : Order}
    (hnode : node.ref = ⟨published.hash, j⟩) {repo : OrdersRepo}
    (hlineage : repo.getLineage node.orderId = none) :
    ∃ parent, climbStep mesh opts p repo node = .ok (.parent parent) ∧
      published.inputs[i]? = some parent.ref := by
  obtain ⟨ref, href, -⟩ := exists_of_getElem?_right hpub.inputs hinput
  have hnext := hbinds.continuedBy hvalid horders hpub hfollows href hinput hsits
  obtain ⟨datum, takeAmount, required, payment, refs, rank, continuation, hdatum, -, hacc', -,
    hout⟩ := hbinds
  have hcont := hacc'.isContinuation
  obtain ⟨datum', owner, names, hwf⟩ := horders input (List.mem_of_getElem? hinput) hsits
  obtain rfl := eq_of_orderDatum hwf.inline hdatum
  -- the order as the provider shows it is accepted, for its continuation was
  obtain ⟨v, hv, hshows⟩ := hpub.spent i ref input href hinput hsits
  have hsits' : sitsAt d.orderScriptHash continuation = true := by
    rw [sitsAt_eq_true, hcont.address]
    exact hwf.payment
  obtain ⟨u', hu', hshows'⟩ := hpub.created j continuation hout hsits'
  obtain rfl := Option.some.inj (hu.symm.trans hu')
  obtain ⟨parent, hparent⟩ := Option.isSome_iff_exists.mp
    (accepted_of_continuation hfollows hwf hcont hshows hshows' hacc)
  refine ⟨parent, ?_, ?_⟩
  · have hcontinues : Continues opts c ref node.ref := by
      rw [hnode]
      exact ⟨_, _, hnext⟩
    rw [climbStep_of_continues hp hlineage hcontinues, hv, Option.bind_some, hparent]
  · rw [href, (validateAndMap_eq_some hparent).1, ChainState.input_of_utxoAt hv]

/-- **Lineage off chain is rank pairing on chain.**  On every valid transaction
that spends well-formed orders, each spend is classified by its own redeemer, a
partial fill with the output the validator bound it to; and from every continuation
the indexer climbs to the order whose spend it is classified as. -/
theorem lineage_is_rank_pairing (hvalid : LedgerValid d tx) (horders : SpendsOrders d tx)
    (hpub : Published d mesh reading text c tx published) (hfollows : Follows d opts)
    (hp : Faithful p c) :
    (∀ (i : ℕ) (input : Input) (cached : Order), tx.inputs[i]? = some input →
      sitsAt d.orderScriptHash input.output = true → published.inputs[i]? = some cached.ref →
      ClassOf d tx published.hash input (classifySpend opts p cached)) ∧
    ((∃ input ∈ tx.inputs, sitsAt d.orderScriptHash input.output = true) →
      ∀ (j : ℕ) (out : Output) (u : UTxO) (node : Order) (repo : OrdersRepo),
        tx.outputs[j]? = some out → bearsBeacons d.policyId out = true →
        c.utxoAt ⟨published.hash, j⟩ = some u → Accepted mesh opts u →
        node.ref = ⟨published.hash, j⟩ → repo.getLineage node.orderId = none →
        ∃ (i : ℕ) (input : Input) (parent : Order), tx.inputs[i]? = some input ∧
          Binds d tx input j ∧ climbStep mesh opts p repo node = .ok (.parent parent) ∧
          published.inputs[i]? = some parent.ref ∧
          (classifySpend opts p parent).childOrderId = some node.orderId ∧
          ∀ tipSlot l, (backfillAncestry mesh opts p repo node tipSlot).getLineage node.orderId =
            some l → l.parentOrderId = parent.orderId) := by
  refine ⟨?_, ?_⟩
  · intro i input cached hinput hsits hcached
    exact classOf_classifySpend hvalid horders hpub hfollows hp hinput hsits hcached
  · intro hsome j out u node repo hout hbears hu hacc hnode hlineage
    obtain ⟨i, input, hinput, hsits, hbinds⟩ :=
      exists_binds_of_bearsBeacons hvalid horders hsome hout hbears
    obtain ⟨parent, hstep, hparent⟩ := hbinds.climbStep_eq hvalid horders hpub hfollows hp hinput
      hsits hu hacc hnode hlineage
    have hnext : Continues opts c parent.ref ⟨published.hash, j⟩ :=
      ⟨_, _, hbinds.continuedBy hvalid horders hpub hfollows hparent hinput hsits⟩
    refine ⟨i, input, parent, hinput, hbinds, hstep, hparent, ?_, ?_⟩
    · rw [node.orderId_eq_ref, hnode]
      exact (classifySpend_childOrderId hp).mpr ⟨_, hnext, rfl⟩
    · intro tipSlot l hl
      rw [node.orderId_eq_ref, hnode] at hl hlineage
      rw [parent.orderId_eq_ref]
      exact parentOrderId_of_backfillAncestry hp.truthful hnext hlineage hl

end

namespace SampleChain

open BeaconDex.Sample (deployment sale batch batch_valid batch_onlyOrders)
open SampleBatch (reading)

/-- One of the two orders the batch of the samples spends, and the batch. -/
def origin (n : Byte) : ChainTx where
  hash := txId n
  height := 100
  inputs := [⟨txId (0xf0 + n), 0⟩]
  outputs := [orderOutput 12000000 (datumCbor [0x00, 0x98, 0x96, 0x80] [0x05])]
  redeemers := []

def batched : ChainTx where
  hash := txId 0xb1
  height := 200
  inputs := [⟨txId 1, 0⟩, ⟨txId 2, 0⟩, ⟨txId 3, 0⟩]
  outputs :=
    [⟨sellerAddress, [⟨lovelaceUnit, 2000000⟩, ⟨unitOf (assetHex Sample.token), 5⟩], none⟩,
      ⟨sellerAddress, [⟨lovelaceUnit, 1500000⟩, ⟨unitOf (assetHex Sample.token), 2⟩], none⟩,
      orderOutput 8000000 (datumCbor [0x00, 0x5b, 0x8d, 0x80] [0x03]),
      ⟨takerAddress, [⟨lovelaceUnit, 17000000⟩], none⟩]
  redeemers := [⟨0, opts.orderValidatorHash, 1⟩, ⟨1, opts.orderValidatorHash, 2⟩]

def afterBatch : ChainState where
  tip := ⟨5000, 200⟩
  txs := ⟨[origin 1, origin 2, batched], by decide⟩
  hash_text := by decide
  inputs_nodup := by decide
  redeemers_nodup := by decide

def text : Address → Str := fun _ => orderAddress

/-- An order of the samples as the provider shows it. -/
def orderUtxo (ref : OutRef) (lovelace : ℤ) (cbor : Str) : UTxO :=
  ⟨ref, orderAddress, (orderOutput lovelace cbor).amount, some cbor⟩

theorem shows_order (ref : OutRef) {lovelace : ℤ} {cbor : Str} {datum : OrderDatum}
    (howner : datum.owner = .verificationKey Sample.ownerKey)
    (hamount : Represents (orderOutput lovelace cbor).amount
      (Sample.orderOutput datum lovelace).value)
    (hunits : ∀ a ∈ (orderOutput lovelace cbor).amount, a.unit ≠ [])
    (hnode : mesh.deserializeDatum cbor = some (nodeOf (toData datum))) (hcbor : cbor ≠ []) :
    Shows mesh reading text (orderUtxo ref lovelace cbor) (Sample.orderOutput datum lovelace) where
  address := by
    rw [Sample.orderOutput, howner]
    rfl
  amount := hamount
  datum raw h := ⟨cbor, rfl, Datum.inlineDatum.inj h ▸ hnode⟩
  text_eq := rfl
  datum_ne := fun h => hcbor (Option.some.inj h)
  unit_ne := hunits

set_option maxRecDepth 100000 in
theorem shows_sale (ref : OutRef) : Shows mesh reading text
    (orderUtxo ref 12000000 (datumCbor [0x00, 0x98, 0x96, 0x80] [0x05]))
    (Sample.orderOutput sale 12000000) := by
  refine shows_order ref rfl (by decide +kernel) (by decide +kernel) ?_ (by decide +kernel)
  simp only [mesh, if_true]
  rfl

set_option maxRecDepth 100000 in
theorem shows_rest (ref : OutRef) : Shows mesh reading text
    (orderUtxo ref 8000000 (datumCbor [0x00, 0x5b, 0x8d, 0x80] [0x03]))
    (Sample.orderOutput (reducedDatum sale 4000000 2) 8000000) := by
  refine shows_order ref rfl (by decide +kernel) (by decide +kernel) ?_ (by decide +kernel)
  have hne : datumCbor [0x00, 0x5b, 0x8d, 0x80] [0x03] ≠
      datumCbor [0x00, 0x98, 0x96, 0x80] [0x05] := by decide +kernel
  simp only [mesh, if_neg hne, if_true]
  rfl

set_option maxRecDepth 100000 in
theorem batched_published : Published deployment mesh reading text afterBatch batch batched where
  mem := by decide
  inputs := .cons (by decide) (.cons (by decide) (.cons (by decide) .nil))
  outputs := .cons (by decide) (.cons (by decide) (.cons (shows_rest ⟨batched.hash, 2⟩).amount
    (.cons (by decide) .nil)))
  redeemers i hash k := by
    have hredeemers : ⟨i, hexOf hash, k⟩ ∈ batched.redeemers ↔
        (i = 0 ∧ hash = deployment.orderScriptHash ∧ k = 1) ∨
          (i = 1 ∧ hash = deployment.orderScriptHash ∧ k = 2) := by
      simp only [batched, List.mem_cons, List.not_mem_nil, or_false, SpendRedeemer.mk.injEq, opts,
        hexOf_injective.eq_iff]
    rw [hredeemers]
    constructor
    · rintro (⟨rfl, rfl, rfl⟩ | ⟨rfl, rfl, rfl⟩)
      · exact ⟨_, [], rfl, rfl, rfl⟩
      · exact ⟨_, [.int 4000000], rfl, rfl, rfl⟩
    · rintro ⟨input, fields, hinput, hcred, hlookup⟩
      match i with
      | 0 =>
          cases hinput
          cases hcred
          cases hlookup
          exact Or.inl ⟨rfl, rfl, rfl⟩
      | 1 =>
          cases hinput
          cases hcred
          cases hlookup
          exact Or.inr ⟨rfl, rfl, rfl⟩
      | 2 =>
          cases hinput
          cases hcred
      | i + 3 => cases hinput
  spent i ref input href hinput hsits := by
    match i with
    | 0 =>
      cases href
      cases hinput
      exact ⟨_, rfl, shows_sale _⟩
    | 1 =>
      cases href
      cases hinput
      exact ⟨_, rfl, shows_sale _⟩
    | 2 =>
      cases hinput
      cases hsits
    | i + 3 => cases hinput
  created j out hout hsits := by
    match j with
    | 0 | 1 | 3 =>
      cases hout
      cases hsits
    | 2 =>
      cases hout
      exact ⟨_, rfl, shows_rest _⟩
    | j + 4 => cases hout

end SampleChain

open SampleChain in
set_option maxRecDepth 100000 in
/-- From the continuation in the batch to the second order, and back. -/
theorem lineage_is_rank_pairing_sample :
    ∃ node parent, node.ref = ⟨batched.hash, 2⟩ ∧
      climbStep mesh opts (afterBatch.provider []) .empty node = .ok (.parent parent) ∧
      (classifySpend opts (afterBatch.provider []) parent).childOrderId = some node.orderId := by
  have hfollows : Follows Sample.deployment opts := ⟨rfl, rfl⟩
  have hfaithful : Faithful (afterBatch.provider []) afterBatch := ChainState.provider_faithful
  obtain ⟨-, hback⟩ := lineage_is_rank_pairing Sample.batch_valid
    Sample.batch_onlyOrders.spendsOrders batched_published hfollows hfaithful
  have haccepted : Accepted mesh opts (orderUtxo ⟨batched.hash, 2⟩ 8000000
    (datumCbor [0x00, 0x5b, 0x8d, 0x80] [0x03])) := by decide +kernel
  obtain ⟨node, hnode⟩ := Option.isSome_iff_exists.mp haccepted
  have href : node.ref = ⟨batched.hash, 2⟩ := (validateAndMap_eq_some hnode).1
  obtain ⟨-, -, parent, -, -, hstep, -, hchild, -⟩ := hback ⟨_, List.mem_cons_self, rfl⟩ 2 _ _ node
    .empty rfl (by decide) rfl haccepted href rfl
  exact ⟨node, parent, href, hstep, hchild⟩

end BeaconDex.Backend
