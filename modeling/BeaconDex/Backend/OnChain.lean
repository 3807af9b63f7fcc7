import BeaconDex.Backend.TxBuilder
import BeaconDex.Ledger
import Mathlib.Data.List.Find

/-!
# Drafts on the chain

The backend deals in text: units, addresses, Mesh data.  This file says what
each of it is on the chain, and that the backend's two codecs of an order datum
are the validators' own (`decodeNode_toData`, `Documented.data_fields`).

What Mesh makes of an address, of Mesh data and of a slot is a `ChainReading`;
what the libraries document about it is `Documented`.

## Text that is not the asset it looks like

A unit is a policy id followed by a name, without a mark between them.  Only for a
policy id of 28 bytes can the two be told apart, so that the translations are inverse to
each other on such assets and on ADA (`Nameable`), which are all the assets there can be
on a ledger.  The datum of an order may name others, and the results that meet such
datums say so.

## Why the libraries are hypotheses

Mesh and its serialiser are not in this repository.  The model takes them as functions,
and `Documented` collects what is relied on: that an address is read back as its
credentials, that data is written as it is built, and that a datum is attached as it is
given.
-/

namespace BeaconDex.Backend

open Library

/-!
## Assets

The texts of an asset, and the assets of a text.
-/

/-- An asset of the ledger, as the backend writes it. -/
def assetHex (a : AssetClass) : AssetClassHex := ⟨hexOf a.policyId, hexOf a.assetName⟩

/-- An asset a unit can name: policy ids are hashes. -/
def Nameable (a : AssetClass) : Prop := BeaconDex.isAda a = true ∨ a.policyId.length = 28

/-- ADA, as the contracts write it. -/
def adaAsset : AssetClass := ⟨Assets.adaPolicyId, Assets.adaAssetName⟩

/-- The asset a unit names. -/
def assetOf (unit : Str) : AssetClass :=
  if unit = lovelaceUnit then adaAsset
  else ⟨bytesOfHex (unit.take 56), bytesOfHex (unit.drop 56)⟩

/-- A unit the backend meets: either unit of lovelace, or a policy id and a
name. -/
def IsUnit (unit : Str) : Prop :=
  unit = [] ∨ ∃ asset, Nameable asset ∧ unit = unitOf (assetHex asset)

/-- Assets of the ledger that the backend writes alike are the same: hex loses nothing. -/
theorem assetHex_injective {a b : AssetClass} (h : assetHex a = assetHex b) : a = b := by
  obtain ⟨hpolicy, hname⟩ := AssetClassHex.mk.inj h
  cases a
  cases b
  exact congrArg₂ AssetClass.mk (hexOf_injective hpolicy) (hexOf_injective hname)

/-- The backend's test for ADA, on what it writes, is the contracts' test on the asset
itself. -/
theorem isAda_assetHex (a : AssetClass) : isAda (assetHex a) = BeaconDex.isAda a := by
  rw [Bool.eq_iff_iff, isAda_eq_true]
  simp [isAda, assetHex, Assets.adaPolicyId, Assets.adaAssetName]

/-- ADA has one spelling for the contracts, which is the empty policy with the empty name. -/
theorem isAda_eq_true_iff {a : AssetClass} : BeaconDex.isAda a = true ↔ a = adaAsset := by
  rw [isAda_eq_true]
  cases a
  simp [adaAsset]

/-- Where an asset is ADA, being ADA is being that asset. -/
theorem isAda_eq_true_iff_eq {a b : AssetClass} (hb : BeaconDex.isAda b = true) :
    BeaconDex.isAda a = true ↔ a = b := by
  rw [isAda_eq_true_iff, isAda_eq_true_iff.mp hb]

/-- A unit of a policy id of 28 bytes and a name is read as that policy id and that name,
however long the name is. -/
theorem assetOf_token {policyId : PolicyId} (h : policyId.length = 28) (name : AssetName) :
    assetOf (hexOf policyId ++ hexOf name) = ⟨policyId, name⟩ := by
  have hlen : (hexOf policyId).length = 56 := by rw [length_hexOf, h]
  have hne : hexOf policyId ++ hexOf name ≠ lovelaceUnit := by
    intro heq
    have hlength := congrArg List.length heq
    rw [List.length_append, hlen, show lovelaceUnit.length = 8 from rfl] at hlength
    omega
  rw [assetOf, if_neg hne, ← hlen, List.take_left, List.drop_left, bytesOfHex_hexOf,
    bytesOfHex_hexOf]

theorem unitOf_eq_lovelaceUnit {a : AssetClass} (h : BeaconDex.isAda a = true) :
    unitOf (assetHex a) = lovelaceUnit := by
  rw [unitOf, isAda_assetHex, h, if_pos rfl]

theorem unitOf_token {a : AssetClass} (h : BeaconDex.isAda a = false) :
    unitOf (assetHex a) = hexOf a.policyId ++ hexOf a.assetName := by
  rw [unitOf, isAda_assetHex, h, if_neg (by simp)]
  rfl

/-- A unit names its asset. -/
theorem assetOf_unitOf {a : AssetClass} (h : Nameable a) : assetOf (unitOf (assetHex a)) = a := by
  cases hada : BeaconDex.isAda a with
  | true =>
      rw [unitOf_eq_lovelaceUnit hada, assetOf, if_pos rfl]
      exact (isAda_eq_true_iff.mp hada).symm
  | false =>
      rw [unitOf_token hada, assetOf_token (h.resolve_left (by simp [hada]))]

theorem assetOf_nil : assetOf [] = adaAsset := by decide

theorem nameable_ada : Nameable adaAsset := Or.inl rfl

/-- Assets that a unit can name have the same unit only if they are the same.  That is
false of all others: a policy id of another length runs into its name. -/
theorem unitOf_inj {a b : AssetClass} (ha : Nameable a) (hb : Nameable b) :
    unitOf (assetHex a) = unitOf (assetHex b) ↔ a = b := by
  constructor
  · intro h
    rw [← assetOf_unitOf ha, h, assetOf_unitOf hb]
  · rintro rfl
    rfl

/-- An asset id names its asset. -/
theorem toApiAssetId_inj {a b : AssetClass} (ha : Nameable a) (hb : Nameable b) :
    toApiAssetId (assetHex a) = toApiAssetId (assetHex b) ↔ a = b := by
  have hlong : ∀ c : AssetClass, c.policyId.length = 28 →
      "lovelace".toList ≠ hexOf c.policyId ++ '.' :: hexOf c.assetName := by
    intro c hc heq
    have hlen := congrArg List.length heq
    rw [List.length_append, length_hexOf, hc, show "lovelace".toList.length = 8 from rfl] at hlen
    omega
  refine ⟨fun h => ?_, fun h => h ▸ rfl⟩
  rw [toApiAssetId, toApiAssetId, isAda_assetHex, isAda_assetHex] at h
  cases hada : BeaconDex.isAda a <;> cases hadb : BeaconDex.isAda b <;>
    simp only [hada, hadb, if_true, if_false, Bool.false_eq_true] at h
  · have hlena := ha.resolve_left (by simp [hada])
    have hlenb := hb.resolve_left (by simp [hadb])
    obtain ⟨hpolicy, hname⟩ := List.append_inj h (by
      show (hexOf a.policyId).length = (hexOf b.policyId).length
      rw [length_hexOf, length_hexOf, hlena, hlenb])
    have hname' : hexOf a.assetName = hexOf b.assetName := (List.cons.inj hname).2
    exact assetHex_injective (congrArg₂ AssetClassHex.mk hpolicy hname')
  · exact absurd h.symm (hlong a (ha.resolve_left (by simp [hada])))
  · exact absurd h (hlong b (hb.resolve_left (by simp [hadb])))
  · exact AssetClass.eq_of_isAda hada hadb

theorem unitOf_ne_nil {a : AssetClass} (h : Nameable a) : unitOf (assetHex a) ≠ [] := by
  intro hnil
  have hada : a = adaAsset := by rw [← assetOf_unitOf h, hnil, assetOf_nil]
  rw [unitOf_eq_lovelaceUnit (isAda_eq_true_iff.mpr hada)] at hnil
  cases hnil

theorem unitOf_eq_lovelaceUnit_iff {a : AssetClass} (h : Nameable a) :
    unitOf (assetHex a) = lovelaceUnit ↔ BeaconDex.isAda a = true := by
  rw [← unitOf_eq_lovelaceUnit (a := adaAsset) rfl, unitOf_inj h nameable_ada, isAda_eq_true_iff]

/-- A unit, with lovelace under one spelling, is that of its asset. -/
theorem IsUnit.eq_unitOf {unit : Str} (h : IsUnit unit) :
    Nameable (assetOf unit) ∧
      (if unit = [] then lovelaceUnit else unit) = unitOf (assetHex (assetOf unit)) := by
  rcases h with rfl | ⟨asset, hasset, rfl⟩
  · rw [assetOf_nil, if_pos rfl, unitOf_eq_lovelaceUnit rfl]
    exact ⟨nameable_ada, rfl⟩
  · rw [assetOf_unitOf hasset, if_neg (unitOf_ne_nil hasset)]
    exact ⟨hasset, rfl⟩

/-- The units a provider reports: the empty one, and the units of assets that can be
named. -/
theorem isUnit_iff {unit : Str} :
    IsUnit unit ↔
      unit = [] ∨ Nameable (assetOf unit) ∧ unit = unitOf (assetHex (assetOf unit)) := by
  constructor
  · intro h
    by_cases hnil : unit = []
    · exact Or.inl hnil
    · have hunit := h.eq_unitOf
      rw [if_neg hnil] at hunit
      exact Or.inr hunit
  · exact Or.imp_right fun h => ⟨assetOf unit, h.1, h.2⟩

instance (a : AssetClass) : Decidable (Nameable a) :=
  inferInstanceAs (Decidable (_ ∨ _))

instance (unit : Str) : Decidable (IsUnit unit) :=
  decidable_of_iff _ isUnit_iff.symm

/-- An entry is found under the unit of an asset exactly if it names the
asset. -/
theorem isOfferEntry_iff {a : Asset} {asset : AssetClass} (ha : IsUnit a.unit)
    (h : Nameable asset) :
    isOfferEntry (unitOf (assetHex asset)) a = true ↔ assetOf a.unit = asset := by
  simp only [isOfferEntry, Bool.or_eq_true, Bool.and_eq_true, decide_eq_true_eq,
    unitOf_eq_lovelaceUnit_iff h]
  rcases ha with hnil | ⟨named, hnamed, hunit⟩
  · rw [hnil, assetOf_nil, isAda_eq_true_iff]
    simp [unitOf_ne_nil h |>.symm, eq_comm]
  · rw [hunit, assetOf_unitOf hnamed, unitOf_inj hnamed h]
    simp [unitOf_ne_nil hnamed]

/-!
## Amounts

An amount is a list of entries, and the value it stands for is their sum.
-/

/-- An entry of an amount, as a value. -/
def Asset.value (a : Asset) : Value := (assetOf a.unit).amount a.quantity

/-- What an amount holds. -/
def valueOf (amount : List Asset) : Value := (amount.map Asset.value).sum

@[simp] theorem valueOf_nil : valueOf [] = 0 := rfl

@[simp] theorem valueOf_cons (a : Asset) (amount : List Asset) :
    valueOf (a :: amount) = a.value + valueOf amount := rfl

theorem valueOf_append (amount amount' : List Asset) :
    valueOf (amount ++ amount') = valueOf amount + valueOf amount' := by
  rw [valueOf, List.map_append, List.sum_append]
  rfl

theorem value_unitOf {asset : AssetClass} (h : Nameable asset) (q : ℤ) :
    Asset.value ⟨unitOf (assetHex asset), q⟩ = asset.amount q := by
  rw [Asset.value, assetOf_unitOf h]

theorem value_lovelace (q : ℤ) : Asset.value ⟨lovelaceUnit, q⟩ = Assets.fromLovelace q := by
  rw [Asset.value, assetOf, if_pos rfl]
  rfl

/-- `amount` is a report of `value`: one entry for each asset it holds, each with a unit
that a provider writes, and with a positive quantity. -/
structure Represents (amount : List Asset) (value : Value) : Prop where
  value_eq : value = valueOf amount
  units : ∀ a ∈ amount, IsUnit a.unit
  distinct : (amount.map fun a => assetOf a.unit).Nodup
  positive : ∀ a ∈ amount, 0 < a.quantity

instance (amount : List Asset) (value : Value) : Decidable (Represents amount value) :=
  decidable_of_iff (value = valueOf amount ∧ (∀ a ∈ amount, IsUnit a.unit) ∧
      (amount.map fun a => assetOf a.unit).Nodup ∧ ∀ a ∈ amount, 0 < a.quantity)
    ⟨fun ⟨h₁, h₂, h₃, h₄⟩ => ⟨h₁, h₂, h₃, h₄⟩, fun ⟨h₁, h₂, h₃, h₄⟩ => ⟨h₁, h₂, h₃, h₄⟩⟩

/-- What a value that was read from an amount holds of an asset is the sum of the entries
that are read as it, so that an amount may list an asset more than once. -/
theorem held_valueOf (amount : List Asset) (asset : AssetClass) :
    held asset (valueOf amount) =
      ((amount.filter fun a => assetOf a.unit = asset).map Asset.quantity).sum := by
  induction amount with
  | nil => rfl
  | cons a amount ih =>
      rw [valueOf_cons, held_add, ih, Asset.value, held_amount]
      by_cases ha : assetOf a.unit = asset
      · rw [List.filter_cons_of_pos (by simpa using ha), if_pos ha.symm, List.map_cons,
          List.sum_cons]
      · rw [List.filter_cons_of_neg (by simpa using ha), if_neg fun h => ha h.symm, zero_add]

/-- Lowering the one entry of an asset lowers the amount by as much. -/
theorem valueOf_map_lowered {amount : List Asset} {asset : AssetClass} (q : ℤ)
    (hnodup : (amount.map fun a => assetOf a.unit).Nodup)
    (hmem : asset ∈ amount.map fun a => assetOf a.unit) :
    valueOf (amount.map fun a =>
      if assetOf a.unit = asset then { a with quantity := a.quantity - q } else a) =
      valueOf amount + asset.amount (-q) := by
  induction amount with
  | nil => cases hmem
  | cons a amount ih =>
      rw [List.map_cons, List.nodup_cons] at hnodup
      rw [List.map_cons, valueOf_cons, valueOf_cons]
      by_cases ha : assetOf a.unit = asset
      · -- the other entries are of other assets and stay
        have hrest : (amount.map fun b =>
            if assetOf b.unit = asset then { b with quantity := b.quantity - q } else b) =
            amount := by
          conv_rhs => rw [← List.map_id amount]
          refine List.map_congr_left fun b hb => if_neg ?_
          intro hasset
          exact hnodup.1 (List.mem_map.mpr ⟨b, hb, hasset.trans ha.symm⟩)
        rw [hrest, if_pos ha, Asset.value, Asset.value, sub_eq_add_neg, AssetClass.amount_add, ha]
        abel
      · rw [if_neg ha, ih hnodup.2 ((List.mem_cons.mp hmem).resolve_left fun h => ha h.symm)]
        abel

namespace Represents

variable {amount : List Asset} {value : Value}

/-- Where an amount represents a value, each of its entries says exactly how much of its
asset is there. -/
theorem held_of_mem (h : Represents amount value) {a : Asset} (ha : a ∈ amount) :
    held (assetOf a.unit) value = a.quantity := by
  have hsingle : amount.filter (fun b => assetOf b.unit = assetOf a.unit) = [a] :=
    filter_key_eq_singleton h.distinct ha fun b _ => decide_eq_true_iff
  rw [h.value_eq, held_valueOf, hsingle, List.map_singleton, List.sum_singleton]

/-- And nothing that is there is left out of it. -/
theorem mem_of_held_pos (h : Represents amount value) {asset : AssetClass}
    (hheld : 0 < held asset value) : asset ∈ amount.map fun a => assetOf a.unit := by
  by_contra hnot
  have hnone : amount.filter (fun a => assetOf a.unit = asset) = [] := by
    rw [List.filter_eq_nil_iff]
    intro a ha hasset
    exact hnot (List.mem_map.mpr ⟨a, ha, of_decide_eq_true hasset⟩)
  rw [h.value_eq, held_valueOf, hnone] at hheld
  exact lt_irrefl _ hheld

/-- What is held has a unit. -/
theorem nameable_of_held_pos (h : Represents amount value) {asset : AssetClass}
    (hheld : 0 < held asset value) : Nameable asset := by
  obtain ⟨a, ha, rfl⟩ := List.mem_map.mp (h.mem_of_held_pos hheld)
  exact (h.units a ha).eq_unitOf.1

/-- The entry found for an asset is what the value holds of it. -/
theorem held_eq_find? (h : Represents amount value) {asset : AssetClass} {p : Asset → Bool}
    (hp : ∀ a ∈ amount, p a = true ↔ assetOf a.unit = asset) :
    ((amount.find? p).map Asset.quantity).getD 0 = held asset value := by
  cases hfind : amount.find? p with
  | none =>
      have hnone : amount.filter (fun a => assetOf a.unit = asset) = [] := by
        rw [List.filter_eq_nil_iff]
        intro a ha hasset
        rw [List.find?_eq_none] at hfind
        exact hfind a ha ((hp a ha).mpr (of_decide_eq_true hasset))
      rw [h.value_eq, held_valueOf, hnone]
      rfl
  | some a =>
      have ha := List.mem_of_find?_eq_some hfind
      have hasset := (hp a ha).mp (List.find?_some hfind)
      rw [← hasset, h.held_of_mem ha]
      rfl

/-- The lovelace the backend reads from an amount is the lovelace of the value. -/
theorem lovelaceOf_eq (h : Represents amount value) :
    lovelaceOf amount = Assets.lovelaceOf value := by
  have hada : BeaconDex.isAda adaAsset = true := rfl
  rw [← held_of_isAda hada, lovelaceOf]
  refine h.held_eq_find? ?_
  intro a ha
  rw [← isOfferEntry_iff (h.units a ha) nameable_ada, unitOf_eq_lovelaceUnit rfl]
  simp [isOfferEntry]

/-- Taking part of one asset out of an amount that holds more of it. -/
theorem valueOf_continuationAmount (h : Represents amount value) {offer : AssetClass}
    (hoffer : Nameable offer) {takeAmount : ℤ} (hpos : 0 < takeAmount)
    (hlt : takeAmount < held offer value) :
    valueOf (continuationAmount (unitOf (assetHex offer)) takeAmount amount) =
      value + offer.amount (-takeAmount) := by
  have hmap : (amount.map fun a =>
      if isOfferEntry (unitOf (assetHex offer)) a then
        { a with quantity := a.quantity - takeAmount } else a) =
      amount.map fun a =>
        if assetOf a.unit = offer then { a with quantity := a.quantity - takeAmount } else a := by
    apply List.map_congr_left
    intro a ha
    simp only [isOfferEntry_iff (h.units a ha) hoffer]
  -- no entry is emptied: the one of the offer holds more than is taken
  have hkept : ∀ b ∈ amount.map (fun a =>
      if assetOf a.unit = offer then { a with quantity := a.quantity - takeAmount } else a),
      decide (b.quantity > 0) = true := by
    intro b hb
    obtain ⟨a, ha, rfl⟩ := List.mem_map.mp hb
    have hpositive := h.positive a ha
    rw [decide_eq_true_eq]
    split
    · next hasset =>
      rw [← hasset, h.held_of_mem ha] at hlt
      simp only
      omega
    · exact hpositive
  rw [continuationAmount, hmap, List.filter_eq_self.mpr hkept,
    valueOf_map_lowered _ h.distinct (h.mem_of_held_pos (hpos.trans hlt)), ← h.value_eq]

end Represents

/-!
## Order datums

The two trees of the backend, the decoder's and Mesh's, against the data of the
contracts.
-/

mutual

/-- A datum as `deserializeDatum` presents it. -/
def nodeOf : Data → Node
  | .constr alternative fields => .constr alternative (nodesOf fields)
  | .int n => .int n
  | .bytes b => .bytes (hexOf b)
  | .map _ => .other
  | .list _ => .other

/-- The same for a list of them. -/
def nodesOf : List Data → List Node
  | [] => []
  | data :: rest => nodeOf data :: nodesOf rest

end

/-- An address of keys alone. -/
def addressOfKeys (key : VerificationKeyHash) (stake : Option VerificationKeyHash) : Address :=
  ⟨.verificationKey key, stake.map fun hash => .inline (.verificationKey hash)⟩

/-- The staking part as the decoder reads it: absent, or an inline key. -/
def stakeKey? : Option StakeCredential → Option (Option VerificationKeyHash)
  | none => some none
  | some (.inline (.verificationKey hash)) => some (some hash)
  | some (.inline (.script _)) => none
  | some (.pointer _ _ _) => none

/-- A readable staking part is that of an address of keys. -/
theorem addressOfKeys_of_stakeKey? {address : Address} {key : VerificationKeyHash}
    {stake : Option VerificationKeyHash} (hkey : address.paymentCredential = .verificationKey key)
    (hstake : stakeKey? address.stakeCredential = some stake) :
    addressOfKeys key stake = address := by
  obtain ⟨payment, part⟩ := address
  obtain rfl : payment = .verificationKey key := hkey
  obtain _ | ⟨_ | _⟩ | _ := part <;> cases hstake <;> rfl

/-- What is decoded of a datum between keys. -/
def fieldsOf (datum : OrderDatum) (owner paymentKey : VerificationKeyHash)
    (paymentStake : Option VerificationKeyHash) : OrderDatumFields where
  version := toNumber datum.version
  beaconPolicyId := hexOf datum.beaconPolicyId
  ownerKeyHash := hexOf owner
  paymentPubKeyHash := hexOf paymentKey
  paymentStakeKeyHash := paymentStake.map hexOf
  offer := assetHex datum.offer
  offerAmount := datum.offerAmount
  ask := assetHex datum.ask
  askAmount := datum.askAmount
  expiration := datum.expiration.map toNumber
  allowPartialFill := datum.allowPartialFill

section

variable {datum : OrderDatum} {owner paymentKey : VerificationKeyHash}

/-- Hex is lower case already. -/
theorem fieldsOf_lowered (datum : OrderDatum) (owner paymentKey : VerificationKeyHash)
    (paymentStake : Option VerificationKeyHash) : fieldsOf datum owner paymentKey paymentStake =
    { version := toNumber datum.version
      beaconPolicyId := toLowerCase (hexOf datum.beaconPolicyId)
      ownerKeyHash := toLowerCase (hexOf owner)
      paymentPubKeyHash := toLowerCase (hexOf paymentKey)
      paymentStakeKeyHash := paymentStake.map fun hash => toLowerCase (hexOf hash)
      offer := ⟨toLowerCase (hexOf datum.offer.policyId), toLowerCase (hexOf datum.offer.assetName)⟩
      offerAmount := datum.offerAmount
      ask := ⟨toLowerCase (hexOf datum.ask.policyId), toLowerCase (hexOf datum.ask.assetName)⟩
      askAmount := datum.askAmount
      expiration := datum.expiration.map toNumber
      allowPartialFill := datum.allowPartialFill } := by
  simp only [fieldsOf, toLowerCase_hexOf, assetHex]

/-- **Reading any datum of a key owner who is paid at a key.** -/
theorem decodeNode_orderDatum (howner : datum.owner = .verificationKey owner)
    (hpayment : datum.paymentAddress.paymentCredential = .verificationKey paymentKey) :
    decodeNode (some (nodeOf (toData datum))) =
      (stakeKey? datum.paymentAddress.stakeCredential).bind fun stake =>
        checkDatum (fieldsOf datum owner paymentKey stake) := by
  simp only [fieldsOf_lowered]
  obtain ⟨_, _, _, ⟨_, stake⟩, _, _, _, _, expiration, allow⟩ := datum
  obtain rfl := howner
  obtain rfl := hpayment
  obtain _ | ⟨_ | _⟩ | _ := stake <;> cases expiration <;> cases allow <;> rfl

/-- What the datum check lets through: fields of the first version with positive amounts,
unchanged. -/
theorem checkDatum_eq_some {fields fields' : OrderDatumFields} :
    checkDatum fields = some fields' ↔
      fields = fields' ∧ fields.version = .finite 1 ∧ 0 < fields.offerAmount ∧
        0 < fields.askAmount := by
  unfold checkDatum
  split
  · next hversion => simp [hversion]
  · next hversion =>
    split
    · next hamounts =>
      refine ⟨fun h => (by cases h), fun h => ?_⟩
      omega
    · next hamounts =>
      rw [not_not] at hversion
      rw [Option.some.injEq]
      exact ⟨fun h => ⟨h, hversion, by omega⟩, And.left⟩

/-- **What is decoded of a datum of a key owner**, and when. -/
theorem decodeNode_eq_some (howner : datum.owner = .verificationKey owner)
    {fields : OrderDatumFields} :
    decodeNode (some (nodeOf (toData datum))) = some fields ↔
      ∃ paymentKey paymentStake,
        datum.paymentAddress.paymentCredential = .verificationKey paymentKey ∧
        stakeKey? datum.paymentAddress.stakeCredential = some paymentStake ∧
        checkDatum (fieldsOf datum owner paymentKey paymentStake) = some fields := by
  cases hpayment : datum.paymentAddress.paymentCredential with
  | verificationKey paymentKey =>
      rw [decodeNode_orderDatum howner hpayment, Option.bind_eq_some_iff]
      constructor
      · rintro ⟨paymentStake, hstake, hcheck⟩
        exact ⟨paymentKey, paymentStake, rfl, hstake, hcheck⟩
      · rintro ⟨key, paymentStake, hkey, hstake, hcheck⟩
        obtain rfl := Credential.verificationKey.inj hkey
        exact ⟨paymentStake, hstake, hcheck⟩
  | script hash =>
      refine ⟨fun h => ?_, fun ⟨key, paymentStake, hkey, h⟩ => (by cases hkey)⟩
      -- a script is no key
      obtain ⟨_, _, _, ⟨_, stake⟩, _, _, _, _, expiration, allow⟩ := datum
      obtain rfl := howner
      obtain rfl := hpayment
      cases h

end

/-- How Mesh serialises its data. -/
structure SerialisesData (data : MeshData → Data) : Prop where
  con : ∀ alternative fields,
    data (.con alternative fields) = .constr alternative (fields.map data)
  text : ∀ b : Bytes, data (.text (hexOf b)) = .bytes b
  num : ∀ n : ℤ, data (.num (.finite n)) = .int n
  bigint : ∀ n : ℤ, data (.bigint n) = .int n

/-- **Writing what was read** gives the datum back, with the numbers rounded. -/
theorem SerialisesData.data_fieldsOf {data : MeshData → Data} (h : SerialisesData data)
    (datum : OrderDatum) (owner paymentKey : VerificationKeyHash)
    (paymentStake : Option VerificationKeyHash) {version : ℤ} {expiration : Option ℤ}
    (hversion : toNumber datum.version = .finite version)
    (hexpiration : datum.expiration.map toNumber = expiration.map .finite) :
    data (encodeOrderDatum (fieldsOf datum owner paymentKey paymentStake)) = toData
      { datum with
        version := version
        owner := .verificationKey owner
        paymentAddress := addressOfKeys paymentKey paymentStake
        expiration := expiration } := by
  obtain ⟨_, _, _, _, _, _, _, _, deadline, allow⟩ := datum
  simp only at hversion hexpiration
  cases paymentStake <;> cases expiration <;> cases allow <;>
    simp [encodeOrderDatum, fieldsOf, credentialKey, keyAddress, assetClass, assetHex, h.con,
      h.text, h.num, h.bigint, hversion, hexpiration] <;> rfl

/-- **The terms of an order the backend can write and read back**: everyone in it
is a key, its assets have units, and its expiration is a number. -/
structure KeyOrder where
  policyId : PolicyId
  owner : VerificationKeyHash
  paymentKey : VerificationKeyHash
  paymentStake : Option VerificationKeyHash
  offer : AssetClass
  offerAmount : ℤ
  ask : AssetClass
  askAmount : ℤ
  expiration : Option ℤ
  allowPartialFill : Bool
  offer_nameable : Nameable offer
  ask_nameable : Nameable ask
  offerAmount_pos : 0 < offerAmount
  askAmount_pos : 0 < askAmount
  expiration_exact : ∀ t, expiration = some t → toNumber t = .finite t

namespace KeyOrder

variable (k : KeyOrder)

/-- The order's datum on the chain. -/
def datum : OrderDatum where
  version := 1
  beaconPolicyId := k.policyId
  owner := .verificationKey k.owner
  paymentAddress := addressOfKeys k.paymentKey k.paymentStake
  offer := k.offer
  offerAmount := k.offerAmount
  ask := k.ask
  askAmount := k.askAmount
  expiration := k.expiration
  allowPartialFill := k.allowPartialFill

/-- The same in the backend. -/
def fields : OrderDatumFields where
  version := .finite 1
  beaconPolicyId := hexOf k.policyId
  ownerKeyHash := hexOf k.owner
  paymentPubKeyHash := hexOf k.paymentKey
  paymentStakeKeyHash := k.paymentStake.map hexOf
  offer := assetHex k.offer
  offerAmount := k.offerAmount
  ask := assetHex k.ask
  askAmount := k.askAmount
  expiration := k.expiration.map .finite
  allowPartialFill := k.allowPartialFill

/-- The terms left by a partial fill. -/
def reduced (takeAmount required : ℤ) (hlt : takeAmount < k.offerAmount)
    (hreq : required < k.askAmount) : KeyOrder :=
  { k with
    offerAmount := k.offerAmount - takeAmount
    askAmount := k.askAmount - required
    offerAmount_pos := sub_pos.mpr hlt
    askAmount_pos := sub_pos.mpr hreq }

variable {k}

theorem toNumber_one : toNumber 1 = .finite 1 := by decide

theorem stakeKey?_addressOfKeys (key : VerificationKeyHash) (stake : Option VerificationKeyHash) :
    stakeKey? (addressOfKeys key stake).stakeCredential = some stake := by
  cases stake <;> rfl

theorem map_toNumber_expiration : k.expiration.map toNumber = k.expiration.map .finite := by
  cases ht : k.expiration with
  | none => rfl
  | some t => exact congrArg some (k.expiration_exact t ht)

/-- The fields the backend reads from the datum the builder writes for an order are those
it was asked to write. -/
theorem fieldsOf_datum : fieldsOf k.datum k.owner k.paymentKey k.paymentStake = k.fields := by
  simp only [fieldsOf, datum, fields, toNumber_one, map_toNumber_expiration]

/-- **Reading an order back.** -/
theorem decodeNode_toData : decodeNode (some (nodeOf (toData k.datum))) = some k.fields := by
  have hpos := k.offerAmount_pos
  have hpos' := k.askAmount_pos
  have hstake : stakeKey? k.datum.paymentAddress.stakeCredential = some k.paymentStake :=
    stakeKey?_addressOfKeys _ _
  rw [decodeNode_orderDatum rfl rfl, hstake, Option.bind_some, fieldsOf_datum, checkDatum,
    if_neg (by simp [fields]), if_neg (by simp [fields]; omega)]

end KeyOrder

/-!
## What the chain makes of a draft

The reading of outputs, addresses and data, and what the documentation says of it.
-/

/-- The chain's side of Mesh: what an address text stands for, how Mesh data is
encoded, when a slot begins. -/
structure ChainReading where
  address : Str → Address
  data : MeshData → Data
  slotTime : ℤ → ℤ

/-- **What the libraries document**, about the scripts of `d`: the hash is the policy's,
addresses are written and read by their credentials, data is serialised as it is built,
and the slot of a time does not begin after it.  Each of these is a sentence of the
documentation, and none says anything of orders. -/
structure Documented (d : Deployment) (mesh : Mesh) (scripts : ProtocolScripts)
    (reading : ChainReading) : Prop where
  sha256 : mesh.sha256 = d.sha2_256
  orderValidatorHash : scripts.orderValidatorHash = hexOf d.orderScriptHash
  beaconPolicyId : scripts.beaconPolicyId = hexOf d.policyId
  /-- Key hashes are reported in hex; an absent one is empty. -/
  deserializeAddress : ∀ text parts, mesh.deserializeAddress text = some parts →
    (∃ key : Bytes, parts.pubKeyHash = hexOf key) ∧
      ∃ key : Bytes, parts.stakeCredentialHash = hexOf key
  /-- The address of a script, under the hash of its code. -/
  serializePlutusScript : ∀ (owner : VerificationKeyHash) (text : Str),
    mesh.serializePlutusScript scripts.orderValidatorCbor (hexOf owner) = some text →
      reading.address text = ⟨.script d.orderScriptHash, some (.inline (.verificationKey owner))⟩
  serializeKeyAddress : ∀ (key : VerificationKeyHash) (stake : Option VerificationKeyHash)
    (text : Str), mesh.serializeKeyAddress (hexOf key) (stake.map hexOf) = some text →
      reading.address text = addressOfKeys key stake
  con : ∀ alternative fields,
    reading.data (.con alternative fields) = .constr alternative (fields.map reading.data)
  text : ∀ b : Bytes, reading.data (.text (hexOf b)) = .bytes b
  num : ∀ n : ℤ, reading.data (.num (.finite n)) = .int n
  bigint : ∀ n : ℤ, reading.data (.bigint n) = .int n
  /-- The enclosing slot does not begin after the time. -/
  slot : ∀ t : ℤ, ∃ slot, mesh.unixTimeToEnclosingSlot (.finite t) = .finite slot ∧
    reading.slotTime slot ≤ t

/-- An output as the chain has it. -/
def ChainReading.output (reading : ChainReading) (draft : DraftOutput) : Output where
  address := reading.address draft.address
  value := valueOf draft.amount
  datum := .inlineDatum (reading.data draft.inlineDatum)
  referenceScript := none

/-- The reference of an output on the chain. -/
def reference (ref : OutRef) : OutputReference := ⟨bytesOfHex ref.txHash, ref.outputIndex⟩

/-- `u` is a report of the output `out`: the same address, the same value, and for a datum
that is inline its CBOR, which reads as this datum. -/
structure Reports (mesh : Mesh) (reading : ChainReading) (u : UTxO) (out : Output) : Prop where
  address : reading.address u.address = out.address
  amount : Represents u.amount out.value
  datum : ∀ raw, out.datum = .inlineDatum raw →
    ∃ cbor, u.plutusData = some cbor ∧ mesh.deserializeDatum cbor = some (nodeOf raw)

namespace Documented

variable {d : Deployment} {mesh : Mesh} {scripts : ProtocolScripts} {reading : ChainReading}

theorem data_paymentTag (h : Documented d mesh scripts reading) (txId : Bytes) (index : ℕ) :
    reading.data (encodePaymentTag (hexOf txId) index) =
      toData (PaymentTag.mk ⟨txId, index⟩) := by
  simp [encodePaymentTag, h.con, h.text, h.num]
  rfl

/-- Serialisers that follow their documentation satisfy what the codec's theorems ask of
them. -/
theorem serialisesData (h : Documented d mesh scripts reading) : SerialisesData reading.data :=
  ⟨h.con, h.text, h.num, h.bigint⟩

/-- **Writing an order.** -/
theorem data_fields (h : Documented d mesh scripts reading) (k : KeyOrder) :
    reading.data (encodeOrderDatum k.fields) = toData k.datum := by
  rw [← KeyOrder.fieldsOf_datum, h.serialisesData.data_fieldsOf k.datum _ _ _
    KeyOrder.toNumber_one KeyOrder.map_toNumber_expiration]
  rfl

end Documented

end BeaconDex.Backend
