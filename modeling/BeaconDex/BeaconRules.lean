import BeaconDex.OrderRules

/-!
# Beacon minting policy

`contracts/lib/p2p_dex/beacon_rules.ak` and `contracts/validators/beacon.ak`.
The policy is what enforces order creation: a spending validator does not run
when a UTxO is created.

`WellFormedOrder` is the invariant of the whole protocol.  It is what the policy
checks of a new order (`mintBeaconsOk_eq_some_true`), and it survives a partial
fill (`WellFormedOrder.continuation`).

## What a beacon proves

Anyone can lock anything at the order script, with any datum.  A UTxO is an order
because it holds the beacons, which can be minted only together with a well-formed order
output, one for each transaction.  What keeps them where they are afterwards is a matter
of the spending rules and not of the policy, which sees burns and mints only.
-/

namespace BeaconDex

variable (sha2_256 : Bytes → Bytes)

/-!
## The rules

The helpers of the source first, in its order: each `expect` is a function that is
`none` where the script aborts.
-/

/-- The exact five-beacon value for a datum, one of each. -/
def beaconSet (policyId : PolicyId) (datum : OrderDatum) (ownerKeyHash : VerificationKeyHash) :
    Option Value := do
  let pair ← pairBeaconName sha2_256 datum.offer datum.ask
  return Assets.zero
    |> (Assets.add · policyId orderBeaconName 1)
    |> (Assets.add · policyId pair 1)
    |> (Assets.add · policyId (offerBeaconName sha2_256 datum.offer) 1)
    |> (Assets.add · policyId (askBeaconName sha2_256 datum.ask) 1)
    |> (Assets.add · policyId (ownerBeaconName ownerKeyHash) 1)

/-- `expect VerificationKey(hash) = credential`. -/
def expectKey : Credential → Option VerificationKeyHash
  | .verificationKey hash => some hash
  | .script _ => none

/-- `expect` of the address shape of an order: a script payment credential with
an inline staking credential. -/
def expectOrderAddress (address : Address) : Option (ScriptHash × Credential) :=
  match address.paymentCredential, address.stakeCredential with
  | .script paymentHash, some (.inline stakeCredential) => some (paymentHash, stakeCredential)
  | _, _ => none

/-- `expect InlineDatum(raw) = datum`. -/
def expectInline : Datum → Option Data
  | .inlineDatum raw => some raw
  | _ => none

/-- `expect [x] = xs`. -/
def expectSingleton {α : Type} : List α → Option α
  | [x] => some x
  | _ => none

/-- The value a new order must have: deposit lovelace, the offer, the beacons. -/
def expectedOrderValue (datum : OrderDatum) (lovelaceInOrder : ℤ) (expectedBeacons : Value) :
    Value :=
  if isAda datum.offer then
    Assets.merge (Assets.fromLovelace lovelaceInOrder) expectedBeacons
  else
    Assets.merge
      (Assets.add (Assets.fromLovelace lovelaceInOrder)
        datum.offer.policyId datum.offer.assetName datum.offerAmount)
      expectedBeacons

/-- `MintBeacons`: order creation. -/
def mintBeaconsOk (orderScriptHash : ScriptHash) (policyId : PolicyId) (self : Transaction) :
    Option Bool := do
  let orderOutput ← expectSingleton (self.outputs.filter (bearsBeacons policyId))
  let (paymentHash, stakeCredential) ← expectOrderAddress orderOutput.address
  let rawDatum ← expectInline orderOutput.datum
  let datum : OrderDatum ← ofData rawDatum
  let ownerKeyHash ← expectKey datum.owner
  let paymentAddressIsKey := (expectKey datum.paymentAddress.paymentCredential).isSome
  let lovelaceInOrder := Assets.lovelaceOf orderOutput.value
  let expectedBeacons ← beaconSet sha2_256 policyId datum ownerKeyHash
  let expectedValue := expectedOrderValue datum lovelaceInOrder expectedBeacons
  return decide (paymentHash = orderScriptHash) &&
    decide (stakeCredential = datum.owner) &&
    decide (datum.version = 1) &&
    decide (datum.beaconPolicyId = policyId) &&
    paymentAddressIsKey &&
    decide (datum.offer ≠ datum.ask) &&
    decide (datum.offerAmount > 0) &&
    decide (datum.askAmount > 0) &&
    decide (datum.offer.policyId ≠ policyId) &&
    decide (datum.ask.policyId ≠ policyId) &&
    (!isAda datum.offer || decide (lovelaceInOrder ≥ datum.offerAmount)) &&
    decide (orderOutput.value = expectedValue) &&
    decide (Assets.tokens self.mint policyId = Assets.tokens expectedBeacons policyId)

/-- `BurnBeacons`: burn-only, otherwise unconstrained. -/
def burnBeaconsOk (policyId : PolicyId) (self : Transaction) : Bool :=
  let minted := Assets.tokens self.mint policyId
  !Assets.isEmpty minted && Assets.allPairs minted (fun quantity => quantity < 0)

/-- The beacon policy (`validators/beacon.ak`, purpose `mint`). -/
def beaconMint (orderScriptHash : ScriptHash) (redeemer : BeaconRedeemer) (policyId : PolicyId)
    (self : Transaction) : Option Bool :=
  match redeemer with
  | .mintBeacons => mintBeaconsOk sha2_256 orderScriptHash policyId self
  | .burnBeacons => some (burnBeaconsOk policyId self)

/-!
## One of each

A set of beacons is a value with one token of each name.  The names of an order are
distinct for orders of the protocol, but nothing here needs it: a name that occurs twice
counts twice, on both sides of every balance.
-/

/-- One token of every listed name. -/
def oneOfEach (policyId : PolicyId) (names : List AssetName) : Value :=
  (names.map fun name => Assets.fromAsset policyId name 1).sum

/-- The beacons of an order are one each of the names its datum and its owner give. -/
theorem beaconSet_eq_some {policyId : PolicyId} {datum : OrderDatum}
    {ownerKeyHash : VerificationKeyHash} {beacons : Value} :
    beaconSet sha2_256 policyId datum ownerKeyHash = some beacons ↔
      ∃ names, beaconNames sha2_256 datum.offer datum.ask ownerKeyHash = some names ∧
        beacons = oneOfEach policyId names := by
  simp only [beaconSet, beaconNames, Option.bind_eq_bind, Option.bind_eq_some_iff, Option.pure_def,
    Option.some.injEq]
  constructor
  · rintro ⟨pair, hpair, rfl⟩
    refine ⟨_, ⟨pair, hpair, rfl⟩, ?_⟩
    simp [oneOfEach, Assets.add, Assets.zero, add_assoc]
  · rintro ⟨_, ⟨pair, hpair, rfl⟩, rfl⟩
    refine ⟨pair, hpair, ?_⟩
    simp [oneOfEach, Assets.add, Assets.zero, add_assoc]

theorem oneOfEach_cons (policyId : PolicyId) (name : AssetName) (names : List AssetName) :
    oneOfEach policyId (name :: names) =
      Assets.fromAsset policyId name 1 + oneOfEach policyId names :=
  rfl

/-- They hold tokens of no other policy. -/
theorem tokens_oneOfEach_of_ne {policyId p : PolicyId} (h : p ≠ policyId)
    (names : List AssetName) : Assets.tokens (oneOfEach policyId names) p = 0 := by
  induction names with
  | nil => rfl
  | cons name names ih =>
      rw [oneOfEach_cons, Assets.tokens_add, ih, Assets.tokens_fromAsset_of_ne h, add_zero]

theorem oneOfEach_append (policyId : PolicyId) (names names' : List AssetName) :
    oneOfEach policyId (names ++ names') =
      oneOfEach policyId names + oneOfEach policyId names' := by
  rw [oneOfEach, List.map_append, List.sum_append]
  rfl

/-- The quantity of a name is the number of times it is listed. -/
theorem tokens_oneOfEach_apply (policyId : PolicyId) (names : List AssetName) (t : AssetName) :
    Assets.tokens (oneOfEach policyId names) policyId t = names.count t := by
  induction names with
  | nil => rfl
  | cons name names ih =>
      rw [oneOfEach_cons, Assets.tokens_add, DFinsupp.add_apply, ih, Assets.tokens_fromAsset_self,
        List.count_cons]
      by_cases h : name = t
      · subst h; simp [add_comm]
      · simp [h, DFinsupp.single_eq_of_ne (Ne.symm h)]

/-!
## Well-formed orders

What the policy checks of a new output, as a record with the five names in it.  The
spending rules keep it for continuations, and everything about live orders is derived
from it.
-/

/-- The offered asset inside an order; an ADA offer sits in the lovelace. -/
def offerValue (datum : OrderDatum) : Value :=
  if isAda datum.offer then 0 else datum.offer.amount datum.offerAmount

/-- **A well-formed order of `policyId`**: `output` sits at the order validator
with its owner's key inline, carries `datum`, and holds lovelace, the offer and
one of each of the five `names`, nothing else. -/
structure WellFormedOrder (orderScriptHash : ScriptHash) (policyId : PolicyId) (output : Output)
    (datum : OrderDatum) (ownerKeyHash : VerificationKeyHash) (names : List AssetName) : Prop where
  payment : output.address.paymentCredential = .script orderScriptHash
  stake : output.address.stakeCredential = some (.inline (.verificationKey ownerKeyHash))
  inline : output.datum = .inlineDatum (toData datum)
  owner : datum.owner = .verificationKey ownerKeyHash
  version : datum.version = 1
  policy : datum.beaconPolicyId = policyId
  offerAmount_pos : 0 < datum.offerAmount
  askAmount_pos : 0 < datum.askAmount
  offer_policy : datum.offer.policyId ≠ policyId
  ask_policy : datum.ask.policyId ≠ policyId
  offer_covered : isAda datum.offer = true → datum.offerAmount ≤ Assets.lovelaceOf output.value
  names_eq : beaconNames sha2_256 datum.offer datum.ask ownerKeyHash = some names
  value : output.value =
    Assets.fromLovelace (Assets.lovelaceOf output.value) + offerValue datum +
      oneOfEach policyId names

/-- The value of a continuation is that of its order less the amount that was taken. -/
theorem continuation_value {own out : Output} {datum : OrderDatum} {takeAmount required : ℤ}
    (h : IsContinuation own datum takeAmount required out) :
    out.value = own.value + datum.offer.amount (-takeAmount) :=
  h.value

/-- A partial fill leaves the deposit alone. -/
theorem IsContinuation.depositOf_eq {own out : Output} {datum : OrderDatum}
    {takeAmount required : ℤ} (h : IsContinuation own datum takeAmount required out) :
    depositOf (reducedDatum datum takeAmount required) out.value = depositOf datum own.value := by
  unfold depositOf
  rw [continuation_value h, Assets.lovelaceOf_add, AssetClass.lovelaceOf_amount]
  cases hada : isAda datum.offer with
  | true =>
      simp only [reducedDatum, hada, if_true]
      ring
  | false => simp [reducedDatum, hada]

namespace WellFormedOrder

variable {sha2_256} {orderScriptHash : ScriptHash} {policyId : PolicyId} {output : Output}
variable {datum : OrderDatum} {ownerKeyHash : VerificationKeyHash} {names : List AssetName}

/-- A well-formed order sits at the order script. -/
theorem sits (h : WellFormedOrder sha2_256 orderScriptHash policyId output datum ownerKeyHash
    names) : sitsAt orderScriptHash output = true :=
  sitsAt_eq_true.mpr h.payment

/-- The beacons are all an order holds under its policy. -/
theorem tokens_eq (h : WellFormedOrder sha2_256 orderScriptHash policyId output datum ownerKeyHash
    names) (hada : policyId ≠ Assets.adaPolicyId) :
    Assets.tokens output.value policyId = Assets.tokens (oneOfEach policyId names) policyId := by
  have hoffer : Assets.tokens (offerValue datum) policyId = 0 := by
    unfold offerValue
    split
    · rfl
    · exact Assets.tokens_fromAsset_of_ne h.offer_policy.symm _ _
  rw [h.value, Assets.tokens_add, Assets.tokens_add, hoffer, Assets.fromLovelace,
    Assets.tokens_fromAsset_of_ne hada, zero_add, zero_add]

/-- Every order has the beacon that all orders have. -/
theorem orderBeaconName_mem (h : WellFormedOrder sha2_256 orderScriptHash policyId output datum
    ownerKeyHash names) : orderBeaconName ∈ names := by
  have hnames := h.names_eq
  simp only [beaconNames, Option.bind_eq_bind, Option.bind_eq_some_iff, Option.pure_def,
    Option.some.injEq] at hnames
  obtain ⟨pair, -, rfl⟩ := hnames
  exact List.mem_cons_self

/-- Every order holds the order beacon. -/
theorem orderBeacon_pos (h : WellFormedOrder sha2_256 orderScriptHash policyId output datum
    ownerKeyHash names) (hada : policyId ≠ Assets.adaPolicyId) :
    0 < Assets.tokens output.value policyId orderBeaconName := by
  have hcount := List.count_pos_iff.mpr h.orderBeaconName_mem
  rw [h.tokens_eq hada, tokens_oneOfEach_apply]
  omega

/-- An order is never beacon-less. -/
theorem tokens_ne_zero (h : WellFormedOrder sha2_256 orderScriptHash policyId output datum
    ownerKeyHash names) (hada : policyId ≠ Assets.adaPolicyId) :
    Assets.tokens output.value policyId ≠ 0 := by
  intro hzero
  have hpos := h.orderBeacon_pos hada
  rw [hzero] at hpos
  exact lt_irrefl _ hpos

/-- An order holds its deposit, what it still offers, and its beacons. -/
theorem value_eq_deposit (h : WellFormedOrder sha2_256 orderScriptHash policyId output datum
    ownerKeyHash names) :
    output.value = Assets.fromLovelace (depositOf datum output.value) +
      datum.offer.amount datum.offerAmount + oneOfEach policyId names := by
  conv_lhs => rw [h.value]
  unfold depositOf offerValue
  cases hada : isAda datum.offer with
  | true =>
      rw [if_pos rfl, if_pos rfl, AssetClass.amount_of_isAda hada, ← Assets.fromLovelace_add,
        sub_add_cancel, add_zero]
  | false => rw [if_neg (by simp), if_neg (by simp)]

/-- An order holds what it offers. -/
theorem offerAmount_le_held (h : WellFormedOrder sha2_256 orderScriptHash policyId output datum
    ownerKeyHash names) : datum.offerAmount ≤ held datum.offer output.value := by
  have hbeacons : held datum.offer (oneOfEach policyId names) = 0 :=
    congrArg (fun tokens : Tokens => tokens datum.offer.assetName)
      (tokens_oneOfEach_of_ne h.offer_policy names)
  rw [h.value_eq_deposit, held_add, held_add, held_fromLovelace, held_amount, if_pos rfl, hbeacons,
    depositOf]
  cases hada : isAda datum.offer with
  | true =>
      have hcovered := h.offer_covered hada
      simp only [if_true]
      omega
  | false => simp

/-- **A partial fill leaves a well-formed order behind**, with the same owner
and the same names. -/
theorem continuation (h : WellFormedOrder sha2_256 orderScriptHash policyId output datum
    ownerKeyHash names) {takeAmount required : ℤ} {out : Output}
    (hlt : takeAmount < datum.offerAmount) (hreq : required < datum.askAmount)
    (hcont : IsContinuation output datum takeAmount required out) :
    WellFormedOrder sha2_256 orderScriptHash policyId out (reducedDatum datum takeAmount required)
      ownerKeyHash names := by
  refine ⟨by rw [hcont.address, h.payment], by rw [hcont.address, h.stake], hcont.datum, h.owner,
    h.version, h.policy, sub_pos.mpr hlt, sub_pos.mpr hreq, h.offer_policy, h.ask_policy, ?_,
    h.names_eq, ?_⟩
  · intro hada
    have hcov := h.offer_covered hada
    have hada' : isAda datum.offer = true := hada
    rw [continuation_value hcont, Assets.lovelaceOf_add, AssetClass.lovelaceOf_amount, if_pos hada']
    simp only [reducedDatum]
    omega
  · rw [continuation_value hcont, Assets.lovelaceOf_add, AssetClass.lovelaceOf_amount]
    conv_lhs => rw [h.value]
    cases hada : isAda datum.offer with
    | true =>
        rw [AssetClass.amount_of_isAda hada, if_pos rfl, Assets.fromLovelace_add]
        simp only [offerValue, reducedDatum, hada, if_true]
        abel
    | false =>
        simp only [offerValue, reducedDatum, hada, Bool.false_eq_true, if_false, add_zero]
        rw [sub_eq_add_neg, AssetClass.amount_add]
        abel

end WellFormedOrder

/-- **What an approved `MintBeacons` says**, beyond the new order being well formed: its
output is the only one with beacons, it is paid at a key, its two assets differ, and
nothing is minted but the names of this one order. -/
structure MintAccepted (orderScriptHash : ScriptHash) (policyId : PolicyId) (tx : Transaction)
    (output : Output) (datum : OrderDatum) (ownerKeyHash : VerificationKeyHash)
    (names : List AssetName) : Prop where
  only : beaconBearingOutputs tx policyId = [output]
  order : WellFormedOrder sha2_256 orderScriptHash policyId output datum ownerKeyHash names
  paymentIsKey : ∃ key, datum.paymentAddress.paymentCredential = .verificationKey key
  distinct : datum.offer ≠ datum.ask
  minted : Assets.tokens tx.mint policyId = Assets.tokens (oneOfEach policyId names) policyId

theorem expectKey_eq_some {c : Credential} {hash : VerificationKeyHash} :
    expectKey c = some hash ↔ c = .verificationKey hash := by
  cases c <;> simp [expectKey]

/-- An order address has a script for its payment and an inline credential for its
staking; a pointer fails the check, as does no staking part. -/
theorem expectOrderAddress_eq_some {a : Address} {hash : ScriptHash} {stake : Credential} :
    expectOrderAddress a = some (hash, stake) ↔
      a.paymentCredential = .script hash ∧ a.stakeCredential = some (.inline stake) := by
  rcases a with ⟨_ | _, _ | _ | _⟩ <;> simp [expectOrderAddress]

theorem expectInline_eq_some {d : Datum} {raw : Data} :
    expectInline d = some raw ↔ d = .inlineDatum raw := by
  cases d <;> simp [expectInline]

theorem expectSingleton_eq_some {α : Type} {xs : List α} {x : α} :
    expectSingleton xs = some x ↔ xs = [x] := by
  rcases xs with _ | ⟨a, _ | ⟨b, xs⟩⟩ <;> simp [expectSingleton]

theorem expectedOrderValue_eq (datum : OrderDatum) (lovelace : ℤ) (beacons : Value) :
    expectedOrderValue datum lovelace beacons =
      Assets.fromLovelace lovelace + offerValue datum + beacons := by
  unfold expectedOrderValue offerValue
  split <;> simp [Assets.merge, Assets.add, AssetClass.amount]

/-- The minting branch accepts exactly what `MintAccepted` says. -/
theorem mintBeaconsOk_eq_some_true {orderScriptHash : ScriptHash} {policyId : PolicyId}
    {self : Transaction} :
    mintBeaconsOk sha2_256 orderScriptHash policyId self = some true ↔
      ∃ output datum ownerKeyHash names,
        MintAccepted sha2_256 orderScriptHash policyId self output datum ownerKeyHash names := by
  unfold mintBeaconsOk
  simp only [Option.bind_eq_bind, Option.bind_eq_some_iff, expectSingleton_eq_some, Prod.exists,
    expectOrderAddress_eq_some, expectInline_eq_some, IsData.ofData_eq_some, expectKey_eq_some,
    beaconSet_eq_some, Option.pure_def, Option.some.injEq, Bool.and_eq_true, decide_eq_true_eq,
    Option.isSome_iff_exists, Bool.or_eq_true, Bool.not_eq_true', expectedOrderValue_eq]
  constructor
  · rintro ⟨output, honly, hash, stake, ⟨hpay, hstake⟩, raw, hinline, datum, rfl, owner, howner,
      beacons, ⟨names, hnames, rfl⟩, h⟩
    obtain ⟨⟨⟨⟨⟨⟨⟨⟨⟨⟨⟨⟨rfl, rfl⟩, hver⟩, hpol⟩, hkey⟩, hne⟩, hoff⟩, hask⟩, hoffp⟩, haskp⟩, hcov⟩,
      hval⟩, hmint⟩ := h
    refine ⟨output, datum, owner, names, honly, ⟨hpay, ?_, hinline, howner, hver, hpol, hoff, hask,
      hoffp, haskp, ?_, hnames, hval⟩, hkey, hne, hmint⟩
    · rw [hstake, howner]
    · intro hada
      exact hcov.resolve_left (by simp [hada])
  · rintro ⟨output, datum, owner, names, h⟩
    refine ⟨output, h.only, orderScriptHash, .verificationKey owner, ⟨h.order.payment,
      h.order.stake⟩, toData datum, h.order.inline, datum, rfl, owner, h.order.owner, _,
      ⟨names, h.order.names_eq, rfl⟩, ?_⟩
    refine ⟨⟨⟨⟨⟨⟨⟨⟨⟨⟨⟨⟨rfl, h.order.owner.symm⟩, h.order.version⟩, h.order.policy⟩, h.paymentIsKey⟩,
      h.distinct⟩, h.order.offerAmount_pos⟩, h.order.askAmount_pos⟩, h.order.offer_policy⟩,
      h.order.ask_policy⟩, ?_⟩, h.order.value⟩, h.minted⟩
    cases hada : isAda datum.offer with
    | false => exact Or.inl rfl
    | true => exact Or.inr (h.order.offer_covered hada)

/-- An approved burn lowers every quantity it touches. -/
theorem burnBeaconsOk_le_zero {policyId : PolicyId} {self : Transaction}
    (h : burnBeaconsOk policyId self = true) : Assets.tokens self.mint policyId ≤ 0 := by
  simp only [burnBeaconsOk, Bool.and_eq_true, Assets.allPairs, decide_eq_true_eq] at h
  intro t
  by_cases ht : t ∈ (Assets.tokens self.mint policyId).support
  · exact (h.2 t ht).le
  · simp only [DFinsupp.mem_support_iff, not_not] at ht
    exact ht.le

end BeaconDex
