import BeaconDex.Ledger

/-!
# Beacons across one transaction

The spend rules never look at the mint field, and each of them sees only its own
order.  What one transaction does to the beacons follows from all of them
together with the balance.

* `mem_zip_continuation`: the order of rank `k` among the partially taken inputs
  decides beacon-bearing output `k` of *its own* policy, and no other.
* `forall₂_continuations`: when all partially taken inputs name one policy, the
  two lists agree from end to end.

## The policies of decoys

The spend rule counts partial takes of the script, whatever the datums say, and counts
outputs that bear beacons of the policy its own datum names.  As long as all partially
taken inputs name one policy the counts are about the same orders, and no beacon is left
over.  With a forged datum that names another policy they are counts of different
orders, which is why the results here say of which policy they speak.
-/

namespace BeaconDex

open Library

variable {orderScriptHash : ScriptHash} {tx : Transaction} {policyId : PolicyId}

/-!
## Rank pairing

Each partially taken input has its rank among all of them, in the order of the inputs,
and its continuation is the output of this rank among those with beacons of the policy
its datum names.  The pairing is the one of `Library.RankPairing`, with inputs as keys
and outputs as candidates.
-/

/-- The partially taken inputs, in input order. -/
def partialInputs (orderScriptHash : ScriptHash) (tx : Transaction) : List Input :=
  tx.inputs.filter (isPartialTake tx orderScriptHash)

/-- The inputs the redeemer count is about: at the order script, spent by a partial take
of any amount. -/
theorem mem_partialInputs {input : Input} :
    input ∈ partialInputs orderScriptHash tx ↔
      input ∈ tx.inputs ∧ sitsAt orderScriptHash input.output = true ∧
        ∃ takeAmount,
          spendRedeemer tx input.outputReference = some (.takeOrderPartial takeAmount) := by
  rw [partialInputs, List.mem_filter, isPartialTake_eq_true]

/-- They are counted once each, as a transaction spends an output once. -/
theorem partialInputs_nodup (hnodup : (tx.inputs.map Input.outputReference).Nodup) :
    ((partialInputs orderScriptHash tx).map Input.outputReference).Nodup :=
  hnodup.sublist (List.Sublist.map _ List.filter_sublist)

/-- `out` is what the rule demands in place of the partially taken `input`. -/
def ContinuationOf (tx : Transaction) (input : Input) (out : Output) : Prop :=
  ∃ datum takeAmount required,
    orderDatum tx input = some datum ∧
    spendRedeemer tx input.outputReference = some (.takeOrderPartial takeAmount) ∧
    requiredPayment takeAmount datum.askAmount datum.offerAmount = some required ∧
    0 < takeAmount ∧ takeAmount < datum.offerAmount ∧ required < datum.askAmount ∧
    IsContinuation input.output datum takeAmount required out

/-- A partially taken input has its continuation at its rank. -/
theorem exists_continuation (happroved : OrdersApproved orderScriptHash tx)
    (hnodup : (tx.inputs.map Input.outputReference).Nodup) {input : Input}
    (hinput : input ∈ partialInputs orderScriptHash tx) :
    ∃ datum rank out, orderDatum tx input = some datum ∧
      ((partialInputs orderScriptHash tx).map Input.outputReference).idxOf? input.outputReference =
        some rank ∧
      (beaconBearingOutputs tx datum.beaconPolicyId)[rank]? = some out ∧
      ContinuationOf tx input out := by
  obtain ⟨hin, hsits, takeAmount, hred⟩ := mem_partialInputs.mp hinput
  obtain ⟨datum, hdatum, hspent⟩ := happroved.spent hnodup hin hsits
  cases hspent with
  | cancelled key hred' => rw [hred] at hred'; cases hred'
  | taken payment refs hred' => rw [hred] at hred'; cases hred'
  | partiallyTaken takeAmount' required payment refs rank continuation hred' hacc =>
      rw [hred] at hred'
      cases hred'
      have hrefs := partialTakeRefs_eq_some hacc.partialRefs
      exact ⟨datum, rank, continuation, hdatum, hrefs ▸ hacc.rank_eq, hacc.continuation_eq, datum,
        takeAmount, required, hdatum, hred, hacc.required_eq, hacc.takeAmount_pos,
        hacc.takeAmount_lt, hacc.required_lt, hacc.isContinuation⟩

/-- A partially taken input decides the output at its rank, in the list of the
policy its datum names. -/
theorem mem_zip_continuation (happroved : OrdersApproved orderScriptHash tx)
    (hnodup : (tx.inputs.map Input.outputReference).Nodup) {input : Input} {datum : OrderDatum}
    {out : Output} (hdatum : orderDatum tx input = some datum)
    (hmem : (input, out) ∈
      (partialInputs orderScriptHash tx).zip (beaconBearingOutputs tx datum.beaconPolicyId)) :
    ContinuationOf tx input out := by
  obtain ⟨datum', rank, out', hdatum', hrank, hout, hcontinuation⟩ :=
    exists_continuation happroved hnodup (List.of_mem_zip hmem).1
  obtain rfl : datum = datum' := Option.some.inj (hdatum.symm.trans hdatum')
  have hzip : (input.outputReference, out) ∈
      ((partialInputs orderScriptHash tx).map Input.outputReference).zip
        (beaconBearingOutputs tx datum.beaconPolicyId) := by
    rw [List.zip_map_left]
    exact List.mem_map.mpr ⟨(input, out), hmem, rfl⟩
  obtain ⟨rank', hrank', hout'⟩ := (pinned_iff_mem_zip (partialInputs_nodup hnodup)).mpr hzip
  obtain rfl : rank = rank' := Option.some.inj (hrank.symm.trans hrank')
  obtain rfl : out' = out := Option.some.inj (hout.symm.trans hout')
  exact hcontinuation

/-- **Rank pairing is a bijection** when one policy is all there is. -/
theorem forall₂_continuations (happroved : OrdersApproved orderScriptHash tx)
    (hnodup : (tx.inputs.map Input.outputReference).Nodup)
    (hcount : (beaconBearingOutputs tx policyId).length =
      (partialInputs orderScriptHash tx).length)
    (hpolicy : ∀ input ∈ partialInputs orderScriptHash tx, ∀ datum,
      orderDatum tx input = some datum → datum.beaconPolicyId = policyId) :
    List.Forall₂ (ContinuationOf tx) (partialInputs orderScriptHash tx)
      (beaconBearingOutputs tx policyId) := by
  rw [List.forall₂_iff_zip]
  refine ⟨hcount.symm, ?_⟩
  intro input out hmem
  have hinput := (List.of_mem_zip hmem).1
  obtain ⟨hin, hsits, -⟩ := mem_partialInputs.mp hinput
  obtain ⟨datum, hdatum, -⟩ := happroved.spent hnodup hin hsits
  have hpol := hpolicy input hinput datum hdatum
  exact mem_zip_continuation happroved hnodup hdatum (by rw [hpol]; exact hmem)

/-- A cancelled order is alone at the validator, so nothing is partially
taken. -/
theorem CancelAccepted.partialInputs_eq_nil {input : Input} {datum : OrderDatum}
    {key : VerificationKeyHash} (h : CancelAccepted orderScriptHash tx datum key)
    (hmem : input ∈ tx.inputs) (hsits : sitsAt orderScriptHash input.output = true)
    (hred : spendRedeemer tx input.outputReference = some .cancelOrder) :
    partialInputs orderScriptHash tx = [] := by
  have halone := h.alone
  rw [List.countP_eq_length_filter, List.length_eq_one_iff] at halone
  obtain ⟨only, honly⟩ := halone
  -- a partially taken input would be a second one at the validator
  have honly_of : ∀ other ∈ tx.inputs, sitsAt orderScriptHash other.output = true →
      other = only := by
    intro other hother hs
    have : other ∈ [only] := honly ▸ List.mem_filter.mpr ⟨hother, hs⟩
    exact List.mem_singleton.mp this
  rw [List.eq_nil_iff_forall_not_mem]
  intro other hother
  obtain ⟨hin, hs, takeAmount, hpart⟩ := mem_partialInputs.mp hother
  rw [honly_of other hin hs, ← honly_of input hmem hsits, hred] at hpart
  cases hpart

/-- **Beacon accounting.**  Every spend of an order, whatever its redeemer,
leaves as many beacon-bearing outputs of its policy as there are partially taken
inputs. -/
theorem Spent.accounting {input : Input} {datum : OrderDatum}
    (hspent : Spent orderScriptHash tx input datum) (hmem : input ∈ tx.inputs)
    (hsits : sitsAt orderScriptHash input.output = true) :
    (beaconBearingOutputs tx datum.beaconPolicyId).length =
      (partialInputs orderScriptHash tx).length := by
  cases hspent with
  | cancelled key hred hacc =>
      -- both lists are empty
      have hnone : beaconBearingOutputs tx datum.beaconPolicyId = [] := by
        rw [List.eq_nil_iff_forall_not_mem]
        intro output houtput
        obtain ⟨hout, hbears⟩ := mem_beaconBearingOutputs.mp houtput
        exact hbears (hacc.burnt output hout)
      rw [hacc.partialInputs_eq_nil hmem hsits hred, hnone, List.length_nil, List.length_nil]
  | taken payment refs hred hacc =>
      rw [hacc.accounting, partialTakeRefs_eq_some hacc.partialRefs, List.length_map]
      rfl
  | partiallyTaken takeAmount required payment refs rank continuation hred hacc =>
      rw [hacc.accounting, partialTakeRefs_eq_some hacc.partialRefs, List.length_map]
      rfl

/-- A continuation holds the beacons of its order, unless those are what the
order offers. -/
theorem IsContinuation.tokens {own out : Output} {datum : OrderDatum} {takeAmount required : ℤ}
    (h : IsContinuation own datum takeAmount required out)
    (hoffer : datum.offer.policyId ≠ policyId) :
    Assets.tokens out.value policyId = Assets.tokens own.value policyId := by
  rw [continuation_value h, Assets.tokens_add, AssetClass.amount,
    Assets.tokens_fromAsset_of_ne hoffer.symm, add_zero]

/-- A continuation carries the tokens of its order, where the offer is not made of them.
The proviso matters: an offer of beacons would shrink with its amount. -/
theorem ContinuationOf.tokens {input : Input} {out : Output} {datum : OrderDatum}
    (h : ContinuationOf tx input out) (hdatum : orderDatum tx input = some datum)
    (hoffer : datum.offer.policyId ≠ policyId) :
    Assets.tokens out.value policyId = Assets.tokens input.output.value policyId := by
  obtain ⟨datum', takeAmount, required, hdatum', -, -, -, -, -, hcont⟩ := h
  obtain rfl : datum = datum' := Option.some.inj (hdatum.symm.trans hdatum')
  exact hcont.tokens hoffer

/-- A continuation never holds more of a policy than its order did. -/
theorem ContinuationOf.tokens_le {input : Input} {out : Output} (h : ContinuationOf tx input out) :
    Assets.tokens out.value policyId ≤ Assets.tokens input.output.value policyId := by
  obtain ⟨datum, takeAmount, required, -, -, -, hpos, -, -, hcont⟩ := h
  rw [continuation_value hcont, Assets.tokens_add, add_le_iff_nonpos_right, AssetClass.amount,
    Assets.tokens_fromAsset]
  split
  -- the offer is of this policy itself, so what is taken of it is gone
  · intro t
    by_cases ht : t = datum.offer.assetName
    · subst ht
      simpa using hpos.le
    · simp [DFinsupp.single_eq_of_ne ht]
  · exact le_rfl

/-- The outputs hold what the beacon-bearing ones hold. -/
theorem sum_beaconBearingOutputs :
    ((beaconBearingOutputs tx policyId).map fun output =>
      Assets.tokens output.value policyId).sum =
    (tx.outputs.map fun output => Assets.tokens output.value policyId).sum := by
  have h := sum_map_filter_of_eq_zero (p := fun output => bearsBeacons policyId output = true)
    (f := fun output : Output => Assets.tokens output.value policyId) (l := tx.outputs)
    (fun output _ hb => by simpa using hb)
  simp only [Bool.decide_eq_true] at h
  exact h

/-!
## Batches of well-formed orders

If all that is spent at the script are well-formed orders, their datums name one policy,
and the count of each of them is the count of all.  The beacons that go in are then
those of the closed orders and of the continued ones, and only the first can be burned.
-/

variable {d : Deployment}

/-- A well-formed order of the deployment, with five different beacons. -/
def IsOrder (d : Deployment) (output : Output) (datum : OrderDatum) (names : List AssetName) :
    Prop :=
  (∃ ownerKeyHash, WellFormedOrder d.sha2_256 d.orderScriptHash d.policyId output datum ownerKeyHash
    names) ∧ names.Nodup

/-- **A transaction that spends nothing but orders** at the order script: what sits there
is a well-formed order each time, and no other input holds beacons.  Confined beacons make
every transaction one. -/
structure OnlyOrders (d : Deployment) (tx : Transaction) : Prop where
  orders : ∀ input ∈ tx.inputs, sitsAt d.orderScriptHash input.output = true →
    ∃ datum names, IsOrder d input.output datum names
  others : ∀ input ∈ tx.inputs, sitsAt d.orderScriptHash input.output = false →
    Assets.tokens input.output.value d.policyId = 0

/-- The beacon names of an order, read off its inline datum. -/
def orderBeacons (sha2_256 : Bytes → Bytes) (output : Output) : Option (List AssetName) := do
  let rawDatum ← expectInline output.datum
  let datum : OrderDatum ← ofData rawDatum
  let ownerKeyHash ← expectKey datum.owner
  beaconNames sha2_256 datum.offer datum.ask ownerKeyHash

/-- Whether `t` is one of the beacons of the order. -/
def hasBeacon (sha2_256 : Bytes → Bytes) (output : Output) (t : AssetName) : Bool :=
  (orderBeacons sha2_256 output).any (·.contains t)

/-- Whether the input is an order that ends here: fully taken or cancelled. -/
def isClosed (tx : Transaction) (orderScriptHash : ScriptHash) (input : Input) : Bool :=
  sitsAt orderScriptHash input.output &&
    (spendRedeemer tx input.outputReference = some .takeOrder ||
      spendRedeemer tx input.outputReference = some .cancelOrder)

/-- The beacons the rules expect of a well-formed order are the names it was minted with. -/
theorem orderBeacons_of_wellFormed {sha2_256 : Bytes → Bytes} {output : Output} {datum : OrderDatum}
    {ownerKeyHash : VerificationKeyHash} {names : List AssetName}
    (h : WellFormedOrder sha2_256 orderScriptHash policyId output datum ownerKeyHash names) :
    orderBeacons sha2_256 output = some names := by
  rw [orderBeacons, expectInline_eq_some.mpr h.inline]
  simp only [Option.bind_eq_bind, Option.bind_some, ofData_toData]
  rw [expectKey_eq_some.mpr h.owner]
  exact h.names_eq

/-- An order holds one of each of its beacons. -/
theorem IsOrder.quantity {output : Output} {datum : OrderDatum} {names : List AssetName}
    (h : IsOrder d output datum names) (t : AssetName) :
    Assets.tokens output.value d.policyId t = if hasBeacon d.sha2_256 output t then 1 else 0 := by
  obtain ⟨⟨owner, hwf⟩, hnodup⟩ := h
  rw [hwf.tokens_eq d.policyId_ne_ada, tokens_oneOfEach_apply, hasBeacon,
    orderBeacons_of_wellFormed hwf, hnodup.count]
  by_cases ht : t ∈ names <;> simp [ht]

/-- An accepted order input that is not partially taken is closed. -/
theorem Spent.isClosed_eq {input : Input} {datum : OrderDatum}
    (hspent : Spent orderScriptHash tx input datum)
    (hsits : sitsAt orderScriptHash input.output = true) :
    isClosed tx orderScriptHash input = !isPartialTake tx orderScriptHash input := by
  cases hspent with
  | cancelled key hred => simp [isClosed, isPartialTake, hsits, hred]
  | taken payment refs hred => simp [isClosed, isPartialTake, hsits, hred]
  | partiallyTaken takeAmount required payment refs rank continuation hred =>
      simp [isClosed, isPartialTake, hsits, hred]

/-- The order inputs are well-formed orders of the deployment's policy. -/
def SpendsOrders (d : Deployment) (tx : Transaction) : Prop :=
  ∀ input ∈ tx.inputs, sitsAt d.orderScriptHash input.output = true → ∃ datum owner names,
    WellFormedOrder d.sha2_256 d.orderScriptHash d.policyId input.output datum owner names

theorem OnlyOrders.spendsOrders (h : OnlyOrders d tx) : SpendsOrders d tx := by
  intro input hinput hsits
  obtain ⟨datum, names, ⟨owner, hwf⟩, -⟩ := h.orders input hinput hsits
  exact ⟨datum, owner, names, hwf⟩

/-- In a batch of well-formed orders the beacon-bearing outputs are the
continuations, rank by rank. -/
theorem SpendsOrders.continuations (horders : SpendsOrders d tx)
    (happroved : OrdersApproved d.orderScriptHash tx)
    (hnodup : (tx.inputs.map Input.outputReference).Nodup)
    (hsome : ∃ input ∈ tx.inputs, sitsAt d.orderScriptHash input.output = true) :
    List.Forall₂ (ContinuationOf tx) (partialInputs d.orderScriptHash tx)
      (beaconBearingOutputs tx d.policyId) := by
  have hpolicy : ∀ input ∈ tx.inputs, sitsAt d.orderScriptHash input.output = true → ∀ datum,
      orderDatum tx input = some datum → datum.beaconPolicyId = d.policyId := by
    intro input hinput hsits datum hdatum
    obtain ⟨datum', owner, names, hwf⟩ := horders input hinput hsits
    rw [← eq_of_orderDatum hwf.inline hdatum]
    exact hwf.policy
  refine forall₂_continuations happroved hnodup ?_ fun input hinput =>
    hpolicy input (mem_partialInputs.mp hinput).1 (mem_partialInputs.mp hinput).2.1
  obtain ⟨input, hinput, hsits⟩ := hsome
  obtain ⟨datum, hdatum, hspent⟩ := happroved.spent hnodup hinput hsits
  rw [← hpolicy input hinput hsits datum hdatum]
  exact hspent.accounting hinput hsits

/-- What a batch of well-formed orders mints is minus what its closed orders
held. -/
theorem OnlyOrders.mint_eq (horders : OnlyOrders d tx) (hbalanced : Balanced tx)
    (hcontinuations : List.Forall₂ (ContinuationOf tx) (partialInputs d.orderScriptHash tx)
      (beaconBearingOutputs tx d.policyId)) :
    Assets.tokens tx.mint d.policyId =
      -((tx.inputs.filter fun input => !isPartialTake tx d.orderScriptHash input).map
        fun input => Assets.tokens input.output.value d.policyId).sum := by
  -- what the partially taken inputs hold reappears in the outputs
  have hkept : List.Forall₂ (fun input output =>
      Assets.tokens input.output.value d.policyId = Assets.tokens output.value d.policyId)
      (partialInputs d.orderScriptHash tx) (beaconBearingOutputs tx d.policyId) := by
    rw [List.forall₂_iff_zip] at hcontinuations ⊢
    refine ⟨hcontinuations.1, ?_⟩
    intro input output hmem
    obtain ⟨hinput, hsits, -⟩ := mem_partialInputs.mp (List.of_mem_zip hmem).1
    obtain ⟨datum, names, ⟨owner, hwf⟩, -⟩ := horders.orders input hinput hsits
    exact ((hcontinuations.2 hmem).tokens (orderDatum_of_inline hwf.inline) hwf.offer_policy).symm
  have hbalance := hbalanced.tokens d.policyId_ne_ada
  rw [← sum_beaconBearingOutputs, ← sum_map_eq_of_forall₂ hkept, partialInputs,
    ← List.sum_map_filter_add_sum_map_filter_not
      (fun input => isPartialTake tx d.orderScriptHash input = true), add_assoc] at hbalance
  simp only [Bool.decide_eq_true, Bool.not_eq_true, Bool.decide_eq_false] at hbalance
  exact eq_neg_of_add_eq_zero_right (left_eq_add.mp hbalance.symm)

/-- **A batch burns exactly what it closes.**  However the legs are mixed, the
outputs bearing beacons are the continuations, one per partially taken input, and
of every token name the burn is the number of closed orders that carry it; names
shared between orders add up.  A batch of partial takes alone never runs the
policy. -/
theorem batch_burns_closed (hvalid : LedgerValid d tx) (horders : OnlyOrders d tx)
    (hsome : ∃ input ∈ tx.inputs, sitsAt d.orderScriptHash input.output = true) :
    List.Forall₂ (ContinuationOf tx) (partialInputs d.orderScriptHash tx)
      (beaconBearingOutputs tx d.policyId) ∧
    (∀ t, Assets.quantityOf tx.mint d.policyId t =
      -((tx.inputs.countP fun input =>
        isClosed tx d.orderScriptHash input && hasBeacon d.sha2_256 input.output t : ℕ) : ℤ)) ∧
    ((∀ input ∈ tx.inputs, sitsAt d.orderScriptHash input.output = true →
      isPartialTake tx d.orderScriptHash input = true) →
      runsPolicy tx d.policyId = false) := by
  have hcontinuations := horders.spendsOrders.continuations hvalid.orders hvalid.distinct hsome
  have hmint := horders.mint_eq hvalid.toBalanced hcontinuations
  refine ⟨hcontinuations, ?_, ?_⟩
  · intro t
    rw [Assets.quantityOf, show tx.mint d.policyId = Assets.tokens tx.mint d.policyId from rfl,
      hmint,
      DFinsupp.neg_apply, tokens_sum_apply, sum_map_filter_eq_countP]
    · intro input hinput hnot
      cases hsits : sitsAt d.orderScriptHash input.output with
      | false => simp [horders.others input hinput hsits, isClosed, hsits]
      | true =>
          obtain ⟨datum, hdatum, hspent⟩ := hvalid.orders.spent hvalid.distinct hinput hsits
          obtain ⟨datum', names, horder⟩ := horders.orders input hinput hsits
          rw [horder.quantity, hspent.isClosed_eq hsits, hnot, Bool.true_and]
    · intro input hinput hpart
      rw [Bool.not_eq_eq_eq_not, Bool.not_false, isPartialTake_eq_true] at hpart
      obtain ⟨hsits, takeAmount, hred⟩ := hpart
      simp [isClosed, hred]
  · intro honly
    rw [runsPolicy, Bool.not_eq_eq_eq_not, Bool.not_false, Assets.isEmpty_eq_true, hmint,
      neg_eq_zero]
    refine List.sum_eq_zero fun tokens htokens => ?_
    obtain ⟨input, hinput, rfl⟩ := List.mem_map.mp htokens
    rw [List.mem_filter, Bool.not_eq_true'] at hinput
    refine horders.others input hinput.1 (Bool.eq_false_iff.mpr fun hsits => ?_)
    rw [honly input hinput.1 hsits] at hinput
    cases hinput.2

/-! A batch of one full and one partial take of two identical orders. -/

namespace Sample

def names (datum : OrderDatum) : List AssetName :=
  (beaconNames sha2_256 datum.offer datum.ask ownerKey).getD []

theorem sale_isOrder : IsOrder deployment (orderOutput sale 12000000) sale (names sale) :=
  ⟨⟨ownerKey, rfl, rfl, rfl, rfl, rfl, rfl, by decide, by decide, by decide, by decide,
    fun _ => by decide, by decide +kernel, by decide +kernel⟩, by decide +kernel⟩

def wallet (lovelace tokens : ℤ) : Output :=
  walletOutput takerKey (Assets.fromLovelace lovelace + token.amount tokens)

/-- Takes the `sale` at `ref 1 0` in full and four ADA of the one at `ref 2 0`. -/
def batch : Transaction where
  inputs := [⟨ref 1 0, orderOutput sale 12000000⟩, ⟨ref 2 0, orderOutput sale 12000000⟩,
    ⟨ref 3 0, wallet 5000000 7⟩]
  outputs := [payment sale (ref 1 0) (Assets.fromLovelace 2000000 + token.amount 5),
    payment sale (ref 2 0) (Assets.fromLovelace 1500000 + token.amount 2),
    orderOutput (reducedDatum sale 4000000 2) 8000000, wallet 17000000 0]
  mint := -beacons sale
  extraSignatories := []
  validityRange := always
  redeemers := [(.spend (ref 1 0), toData OrderRedeemer.takeOrder),
    (.spend (ref 2 0), toData (OrderRedeemer.takeOrderPartial 4000000)),
    (.mint deployment.policyId, toData BeaconRedeemer.burnBeacons)]
  datums := []

theorem batch_valid : LedgerValid deployment batch := by
  decide

theorem batch_onlyOrders : OnlyOrders deployment batch := by
  constructor
  · intro input hinput hsits
    simp only [batch, List.mem_cons, List.not_mem_nil, or_false] at hinput
    rcases hinput with rfl | rfl | rfl
    · exact ⟨sale, names sale, sale_isOrder⟩
    · exact ⟨sale, names sale, sale_isOrder⟩
    · cases hsits
  · intro input hinput hsits
    simp only [batch, List.mem_cons, List.not_mem_nil, or_false] at hinput
    rcases hinput with rfl | rfl | rfl
    · cases hsits
    · cases hsits
    · decide

end Sample

/-- One of the two order beacons is burnt, and the other one goes on. -/
theorem batch_burns_closed_sample :
    Assets.quantityOf Sample.batch.mint Sample.deployment.policyId orderBeaconName =
      -((Sample.batch.inputs.countP fun input =>
        isClosed Sample.batch Sample.deployment.orderScriptHash input &&
          hasBeacon Sample.sha2_256 input.output orderBeaconName : ℕ) : ℤ) ∧
    (beaconBearingOutputs Sample.batch Sample.deployment.policyId).length = 1 :=
  have h := batch_burns_closed Sample.batch_valid Sample.batch_onlyOrders
    ⟨_, List.mem_cons_self, rfl⟩
  ⟨h.2.1 orderBeaconName, h.1.length_eq.symm.trans (by decide)⟩

/-!
## Creation

Minting needs one output with beacons and no more.  An input with beacons would be an
order, which keeps its beacons in an output of its own or burns them, and neither leaves
room for what is minted.
-/

/-- The hash does not collide among the names of any one order the transaction
creates. -/
def CollisionFree (d : Deployment) (tx : Transaction) : Prop :=
  ∀ output ∈ tx.outputs, ∀ datum : OrderDatum, output.datum = .inlineDatum (toData datum) →
    Set.InjOn d.sha2_256 (beaconPreimages datum.offer datum.ask)

/-- Ledger key hashes are 28 bytes. -/
def KeyHashes28 (tx : Transaction) : Prop :=
  ∀ output ∈ tx.outputs, ∀ key,
    output.address.stakeCredential = some (.inline (.verificationKey key)) → key.length = 28

/-- The order a mint was accepted for is an output of the transaction. -/
theorem MintAccepted.mem {output : Output} {datum : OrderDatum} {owner : VerificationKeyHash}
    {names : List AssetName} (h : MintAccepted d.sha2_256 d.orderScriptHash d.policyId tx output
      datum owner names) : output ∈ tx.outputs := by
  have hmem : output ∈ beaconBearingOutputs tx d.policyId := by
    rw [h.only]
    exact List.mem_singleton_self _
  exact (mem_beaconBearingOutputs.mp hmem).1

/-- A creation brings no beacons in: the new order holds all that is minted. -/
theorem MintAccepted.inputs_empty {output : Output} {datum : OrderDatum}
    {owner : VerificationKeyHash} {names : List AssetName}
    (h : MintAccepted d.sha2_256 d.orderScriptHash d.policyId tx output datum owner names)
    (hbalanced : Balanced tx) :
    ∀ input ∈ tx.inputs, Assets.tokens input.output.value d.policyId = 0 := by
  have hbalance := hbalanced.tokens d.policyId_ne_ada
  rw [← sum_beaconBearingOutputs, h.only, List.map_singleton, List.sum_singleton, h.minted,
    h.order.tokens_eq d.policyId_ne_ada, add_eq_right] at hbalance
  intro input hinput
  exact eq_zero_of_sum_map_le_zero
    (fun input hinput => (hbalanced.inputs_nonneg input hinput).tokens d.policyId)
    hbalance.le hinput

/-- A creation yields a well-formed order with five different beacons. -/
theorem MintAccepted.isOrder {output : Output} {datum : OrderDatum} {owner : VerificationKeyHash}
    {names : List AssetName}
    (h : MintAccepted d.sha2_256 d.orderScriptHash d.policyId tx output datum owner names)
    (hhash : CollisionFree d tx) (hkeys : KeyHashes28 tx) : IsOrder d output datum names :=
  ⟨⟨owner, h.order⟩, beaconNames_nodup d.sha2_256 d.sha2_256_length
    (hhash output h.mem datum h.order.inline) (hkeys output h.mem owner h.order.stake)
    h.order.names_eq⟩

theorem beaconNames_length {sha2_256 : Bytes → Bytes} {offer ask : AssetClass}
    {owner : VerificationKeyHash} {names : List AssetName}
    (h : beaconNames sha2_256 offer ask owner = some names) : names.length = 5 := by
  simp only [beaconNames, Option.bind_eq_bind, Option.bind_eq_some_iff, Option.pure_def,
    Option.some.injEq] at h
  obtain ⟨pair, -, rfl⟩ := h
  rfl

/-- **Creation is fresh and isolated.**  As soon as one beacon is minted, no
input holds any, exactly five different ones are minted, once each, and they all
go to one new well-formed order that carries these names.  In particular no order
is spent along with it. -/
theorem creation_isolated (hvalid : LedgerValid d tx) (hhash : CollisionFree d tx)
    (hkeys : KeyHashes28 tx) {t : AssetName}
    (hminted : 0 < Assets.quantityOf tx.mint d.policyId t) :
    (∀ input ∈ tx.inputs, Assets.tokens input.output.value d.policyId = 0) ∧
    (∀ input ∈ tx.inputs, ∀ datum owner names, ¬ WellFormedOrder d.sha2_256 d.orderScriptHash
      d.policyId input.output datum owner names) ∧
    ∃ output datum names, beaconBearingOutputs tx d.policyId = [output] ∧
      IsOrder d output datum names ∧ names.length = 5 ∧
      ∀ name, Assets.quantityOf tx.mint d.policyId name = if name ∈ names then 1 else 0 := by
  rcases hvalid.minted with ⟨output, datum, owner, names, hacc⟩ | hburnt
  · have hempty := hacc.inputs_empty hvalid.toBalanced
    have horder := hacc.isOrder hhash hkeys
    refine ⟨hempty, ?_, output, datum, names, hacc.only, horder,
      beaconNames_length hacc.order.names_eq, fun name => ?_⟩
    · intro input hinput datum' owner' names' hwf
      exact hwf.tokens_ne_zero d.policyId_ne_ada (hempty input hinput)
    · have hcount : Assets.tokens tx.mint d.policyId name = names.count name := by
        rw [hacc.minted, tokens_oneOfEach_apply]
      rw [Assets.quantityOf, show tx.mint d.policyId = Assets.tokens tx.mint d.policyId from rfl,
        hcount, horder.2.count]
      split <;> rfl
  · exact absurd (hburnt t) (not_le.mpr hminted)

namespace Sample

theorem sale_injOn : Set.InjOn deployment.sha2_256 (beaconPreimages sale.offer sale.ask) := by
  have hpair : pairBeaconPreimage sale.offer sale.ask =
      some (0 :: 0 :: 29 :: assetId token) := by decide
  simp only [Set.InjOn, beaconPreimages, hpair, Set.mem_union, Set.mem_ofPred_eq,
    Set.mem_insert_iff, Set.mem_singleton_iff, Option.some.injEq]
  rintro x (rfl | rfl | rfl) y (rfl | rfl | rfl)
  all_goals decide

theorem creation_valid : LedgerValid deployment (creation sale 12000000) := by
  decide

theorem creation_collisionFree : CollisionFree deployment (creation sale 12000000) := by
  intro output houtput datum hdatum
  obtain rfl : output = orderOutput sale 12000000 := List.mem_singleton.mp houtput
  obtain rfl : sale = datum := toData_injective (Datum.inlineDatum.inj hdatum)
  exact sale_injOn

theorem creation_keyHashes28 : KeyHashes28 (creation sale 12000000) := by
  intro output houtput key hkey
  obtain rfl : output = orderOutput sale 12000000 := List.mem_singleton.mp houtput
  cases hkey
  rfl

end Sample

theorem creation_isolated_sample :
    ∃ output datum names,
      beaconBearingOutputs (Sample.creation Sample.sale 12000000) Sample.deployment.policyId =
        [output] ∧ IsOrder Sample.deployment output datum names ∧ names.length = 5 := by
  obtain ⟨-, -, output, datum, names, honly, horder, hlength, -⟩ :=
    creation_isolated Sample.creation_valid Sample.creation_collisionFree
      Sample.creation_keyHashes28 (t := orderBeaconName) (by decide)
  exact ⟨output, datum, names, honly, horder, hlength⟩

end BeaconDex
