import BeaconDex.Backend.BuilderRefinement

/-!
# The codec on every order

`decodeOrderDatum` and `encodeOrderDatum` of `backend/src/protocol/datum.ts` against all
the datums the minting policy accepts, and against each other.

## From the chain and back

The minting policy pins most of a datum: the version, the owner, the key the seller is
paid at, the amounts' signs.  It leaves the staking part of the payment address and the
expiration free, and those are the two places where the decoder is narrower than the
chain: it reads key credentials only, and it reads the expiration as a JavaScript number.
`codec_exact` says for every order created what comes of it.  An order with a script or a
pointer for its staking part is not decoded.  Any other is, and is written again as
`rounded`: the order with its expiration rounded to the nearest number.  Where
no number is near, the expiration is read as an infinite one, and this is nothing Mesh can
write.  `codec_narrows` shows one order for each of the two places.

## From fields and back

The backend also writes datums of its own.  `decode_encode` is the round trip of the
fields it starts from, for all that are `Proper`.
-/

namespace BeaconDex.Backend

theorem isSome_stakeKey?_iff {stake : Option StakeCredential} : (stakeKey? stake).isSome ↔
    stake = none ∨ ∃ key, stake = some (.inline (.verificationKey key)) := by
  obtain _ | ⟨_ | _⟩ | _ := stake <;> simp [stakeKey?]

/-!
## Infinite numbers

A number of the runtime may be infinite, or not whole, and the serialiser refuses it.
The encoder is therefore a partial function on fields, whose result is the data that is
written or nothing.
-/

/-- `Number.isFinite`. -/
def JsNumber.isFinite : JsNumber → Bool
  | .finite _ => true
  | .infinite _ => false

mutual

/-- Every number in it is an integer. -/
def MeshData.isIntegral : MeshData → Bool
  | .con _ fields => areIntegral fields
  | .text _ => true
  | .num n => n.isFinite
  | .bigint _ => true

def areIntegral : List MeshData → Bool
  | [] => true
  | field :: fields => field.isIntegral && areIntegral fields

end

/-- **Serialising.**  Mesh makes bigints of the numbers it is given, and an infinite
number is none: there it throws.  All else it writes as `data`. -/
def serialise? (data : MeshData → Data) (m : MeshData) : Option Data :=
  if m.isIntegral then some (data m) else none

/-- Only the version and the expiration of an order are numbers. -/
theorem isIntegral_encodeOrderDatum (d : OrderDatumFields) :
    (encodeOrderDatum d).isIntegral = (d.version.isFinite && d.expiration.all JsNumber.isFinite) := by
  obtain ⟨version, _, _, _, stake, _, _, _, _, expiration, allow⟩ := d
  cases stake <;> cases expiration <;> cases allow <;>
    simp [encodeOrderDatum, credentialKey, keyAddress, assetClass, MeshData.isIntegral, areIntegral]

/-- The order with its expiration rounded to a JavaScript number; none if that number is
infinite. -/
def rounded (datum : OrderDatum) : Option OrderDatum :=
  match datum.expiration with
  | none => some datum
  | some t =>
      match toNumber t with
      | .finite n => some { datum with expiration := some n }
      | .infinite _ => none

/-- Rounding succeeds exactly where what is read can be written. -/
theorem rounded_cases (datum : OrderDatum) :
    (∃ expiration, datum.expiration.map toNumber = expiration.map .finite ∧
      rounded datum = some { datum with expiration }) ∨
    (datum.expiration.map toNumber).all JsNumber.isFinite = false ∧ rounded datum = none := by
  obtain ⟨_, _, _, _, _, _, _, _, _ | t, _⟩ := datum
  · exact .inl ⟨none, rfl, rfl⟩
  · cases hnumber : toNumber t with
    | finite n =>
        refine .inl ⟨some n, congrArg some hnumber, ?_⟩
        simp only [rounded, hnumber]
    | infinite negative =>
        refine .inr ⟨?_, ?_⟩
        · rw [Option.map_some, hnumber]
          rfl
        · simp only [rounded, hnumber]

/-- It keeps exactly the orders whose expiration is a number. -/
theorem rounded_eq_self {datum : OrderDatum} :
    rounded datum = some datum ↔ ∀ t, datum.expiration = some t → toNumber t = .finite t := by
  unfold rounded
  cases hexpiration : datum.expiration with
  | none => simp
  | some t =>
      cases hnumber : toNumber t with
      | infinite negative => simp [hnumber]
      | finite n =>
          simp only [Option.some.injEq, forall_eq', hnumber, JsNumber.finite.injEq]
          constructor
          · intro h
            have hsame := congrArg OrderDatum.expiration h
            rw [hexpiration] at hsame
            exact Option.some.inj hsame
          · rintro rfl
            rw [← hexpiration]

/-- **Writing again what was read**: the order itself, with its expiration rounded. -/
theorem SerialisesData.serialise?_fieldsOf {data : MeshData → Data} (h : SerialisesData data)
    {datum : OrderDatum} {owner paymentKey : VerificationKeyHash}
    {paymentStake : Option VerificationKeyHash} (hversion : datum.version = 1)
    (howner : datum.owner = .verificationKey owner)
    (haddress : datum.paymentAddress = addressOfKeys paymentKey paymentStake) :
    serialise? data (encodeOrderDatum (fieldsOf datum owner paymentKey paymentStake)) =
      (rounded datum).map toData := by
  have hnumber : toNumber datum.version = .finite 1 := by
    rw [hversion]
    decide
  have hintegral :
      (encodeOrderDatum (fieldsOf datum owner paymentKey paymentStake)).isIntegral =
        (datum.expiration.map toNumber).all JsNumber.isFinite := by
    rw [isIntegral_encodeOrderDatum, fieldsOf, hnumber]
    rfl
  rw [serialise?, hintegral]
  obtain ⟨expiration, hexpiration, hrounded⟩ | ⟨hinfinite, hrounded⟩ := rounded_cases datum
  · have hfinite : (datum.expiration.map toNumber).all JsNumber.isFinite = true := by
      rw [hexpiration]
      cases expiration <;> rfl
    rw [if_pos hfinite, hrounded, Option.map_some,
      h.data_fieldsOf datum owner paymentKey paymentStake hnumber hexpiration, ← howner, ← haddress,
      ← hversion]
  · rw [hinfinite, hrounded]
    rfl

/-- **Created orders and the codec.**  An order of an accepted creation is decoded
exactly when the staking part of its payment address is absent or an inline key.
What is decoded is written again as the order with its expiration rounded, and not at all
where that is infinite; so it is written as the order's own datum exactly when the
expiration, if it has one, is a number. -/
theorem codec_exact {sha2_256 : Bytes → Bytes} {orderScriptHash : ScriptHash}
    {policyId : PolicyId} {self : Transaction} {output : Output} {datum : OrderDatum} {mesh : Mesh}
    {data : MeshData → Data} {cbor : Str}
    (hmint : mintBeaconsOk sha2_256 orderScriptHash policyId self = some true)
    (houtput : output ∈ beaconBearingOutputs self policyId)
    (hinline : output.datum = .inlineDatum (toData datum))
    (hcbor : mesh.deserializeDatum cbor = some (nodeOf (toData datum)))
    (hdata : SerialisesData data) :
    ((decodeOrderDatum mesh cbor).isSome ↔ datum.paymentAddress.stakeCredential = none ∨
      ∃ key, datum.paymentAddress.stakeCredential = some (.inline (.verificationKey key))) ∧
    ∀ fields, decodeOrderDatum mesh cbor = some fields →
      serialise? data (encodeOrderDatum fields) = (rounded datum).map toData ∧
      (serialise? data (encodeOrderDatum fields) = some (toData datum) ↔
        ∀ t, datum.expiration = some t → toNumber t = .finite t) := by
  obtain ⟨output', datum', owner, names, haccepted⟩ := (mintBeaconsOk_eq_some_true _).mp hmint
  rw [haccepted.only, List.mem_singleton] at houtput
  subst houtput
  obtain rfl : datum' = datum :=
    toData_injective (Datum.inlineDatum.inj (haccepted.order.inline.symm.trans hinline))
  have horder := haccepted.order
  obtain ⟨key, hkey⟩ := haccepted.paymentIsKey
  have hversion : toNumber datum'.version = .finite 1 := by
    rw [horder.version]
    decide
  have hcheck : ∀ stake, checkDatum (fieldsOf datum' owner key stake) =
      some (fieldsOf datum' owner key stake) := by
    intro stake
    have hoffer := horder.offerAmount_pos
    have hask := horder.askAmount_pos
    rw [checkDatum, if_neg (by simp [fieldsOf, hversion]), if_neg (by simp [fieldsOf]; omega)]
  have hdecode : decodeOrderDatum mesh cbor =
      (stakeKey? datum'.paymentAddress.stakeCredential).map (fieldsOf datum' owner key) := by
    rw [decodeOrderDatum, hcbor, decodeNode_orderDatum horder.owner hkey]
    simp only [hcheck, Option.map_eq_bind, Function.comp_def]
  refine ⟨?_, ?_⟩
  · rw [hdecode, Option.isSome_map, isSome_stakeKey?_iff]
  · intro fields hfields
    rw [hdecode, Option.map_eq_some_iff] at hfields
    obtain ⟨stake, hstake, rfl⟩ := hfields
    have hwritten := hdata.serialise?_fieldsOf horder.version horder.owner
      (addressOfKeys_of_stakeKey? hkey hstake).symm
    refine ⟨hwritten, ?_⟩
    rw [hwritten, ← rounded_eq_self, ← Option.map_some]
    exact (Option.map_injective toData_injective).eq_iff

namespace SampleCodec

open BeaconDex.Sample

/-- The same sale, paid at an address with a pointer. -/
def pointed : OrderDatum :=
  { sale with paymentAddress := ⟨.verificationKey sellerKey, some (.pointer 1 2 3)⟩ }

/-- The same sale, until a time that no JavaScript number is. -/
def distant : OrderDatum := { sale with expiration := some (2 ^ 53 + 1) }

/-- The same sale, paid at an address with a staking key, until `expiration`. -/
def staked (expiration : ℤ) : OrderDatum :=
  { sale with
    paymentAddress := addressOfKeys sellerKey (some takerKey)
    expiration := some expiration }

/-- Its datum as CBOR; the expiration is given encoded. -/
def stakedCbor (expiration : Bytes) : Str :=
  hexOf ([0xd8, 0x79, 0x9f, 0x01, 0x58, 0x1c] ++ deployment.policyId ++
    [0xd8, 0x79, 0x9f, 0x58, 0x1c] ++ ownerKey ++ [0xff, 0xd8, 0x79, 0x9f, 0xd8, 0x79, 0x9f,
      0x58, 0x1c] ++ sellerKey ++ [0xff, 0xd8, 0x79, 0x9f, 0xd8, 0x79, 0x9f, 0xd8, 0x79, 0x9f,
      0x58, 0x1c] ++ takerKey ++ [0xff, 0xff, 0xff, 0xff, 0xd8, 0x79, 0x9f, 0x40, 0x40, 0xff,
      0x1a, 0x00, 0x98, 0x96, 0x80, 0xd8, 0x79, 0x9f, 0x58, 0x1c] ++ token.policyId ++
    [0x41, 0x54, 0xff, 0x05, 0xd8, 0x79, 0x9f, 0x1b] ++ expiration ++
    [0xff, 0xd8, 0x7a, 0x80, 0xff])

/-- The integer 2⁵³ + 1, in eight bytes. -/
def distantBytes : Bytes := [0x00, 0x20, 0x00, 0x00, 0x00, 0x00, 0x00, 0x01]

/-- The end of the year 2025, in milliseconds and in eight bytes. -/
def newYear : ℤ := 1767225600000

def newYearBytes : Bytes := [0x00, 0x00, 0x01, 0x9b, 0x76, 0xda, 0xa8, 0x00]

/-- The libraries, tabulated at the staked sale as well. -/
def mesh : Mesh :=
  { SampleBatch.mesh with
    deserializeDatum := fun cbor =>
      if cbor = stakedCbor distantBytes then some (nodeOf (toData (staked (2 ^ 53 + 1))))
      else if cbor = stakedCbor newYearBytes then some (nodeOf (toData (staked newYear)))
      else SampleBatch.mesh.deserializeDatum cbor }

end SampleCodec

section

open BeaconDex.Sample (deployment sale creation orderOutput)
open SampleCodec

set_option maxRecDepth 100000 in
/-- The staked sale is decoded, and written again with its expiration rounded. -/
theorem codec_exact_sample :
    ∃ fields, decodeOrderDatum SampleCodec.mesh (stakedCbor distantBytes) = some fields ∧
      serialise? SampleBatch.dataOf (encodeOrderDatum fields) = some (toData (staked (2 ^ 53))) ∧
      serialise? SampleBatch.dataOf (encodeOrderDatum fields) ≠
        some (toData (staked (2 ^ 53 + 1))) := by
  have hmint : mintBeaconsOk deployment.sha2_256 deployment.orderScriptHash deployment.policyId
      (creation (staked (2 ^ 53 + 1)) 12000000) = some true := by decide
  have houtput : orderOutput (staked (2 ^ 53 + 1)) 12000000 ∈
      beaconBearingOutputs (creation (staked (2 ^ 53 + 1)) 12000000) deployment.policyId := by
    rw [mem_beaconBearingOutputs]
    exact ⟨List.mem_cons_self, by decide⟩
  have hcbor : SampleCodec.mesh.deserializeDatum (stakedCbor distantBytes) =
      some (nodeOf (toData (staked (2 ^ 53 + 1)))) := by
    simp only [SampleCodec.mesh, if_true]
  obtain ⟨hdecoded, hwritten⟩ :=
    codec_exact hmint houtput rfl hcbor SampleBatch.documented.serialisesData
  obtain ⟨fields, hfields⟩ := Option.isSome_iff_exists.mp (hdecoded.mpr (.inr ⟨_, rfl⟩))
  obtain ⟨hrounded, hexact⟩ := hwritten fields hfields
  have hnearest : toNumber (2 ^ 53 + 1) = .finite (2 ^ 53) := by decide
  refine ⟨fields, hfields, hrounded.trans ?_, fun h => ?_⟩
  · rw [rounded]
    simp only [staked, hnearest, Option.map_some]
  · have hsame := (hexact.mp h) (2 ^ 53 + 1) rfl
    rw [hnearest] at hsame
    revert hsame
    decide

set_option maxRecDepth 100000 in
/-- **Two orders the codec does not keep**: one is not decoded, and one is encoded
as another. -/
theorem codec_narrows :
    (mintBeaconsOk deployment.sha2_256 deployment.orderScriptHash deployment.policyId
        (creation pointed 12000000) = some true ∧
      ∀ (mesh : Mesh) (cbor : Str),
        mesh.deserializeDatum cbor = some (nodeOf (toData pointed)) →
        decodeOrderDatum mesh cbor = none) ∧
    (mintBeaconsOk deployment.sha2_256 deployment.orderScriptHash deployment.policyId
        (creation distant 12000000) = some true ∧
      ∀ (mesh : Mesh) (cbor : Str) (data : MeshData → Data), SerialisesData data →
        mesh.deserializeDatum cbor = some (nodeOf (toData distant)) →
        ∃ fields, decodeOrderDatum mesh cbor = some fields ∧
          data (encodeOrderDatum fields) ≠ toData distant) := by
  refine ⟨⟨by decide, ?_⟩, by decide, ?_⟩
  · intro mesh cbor hcbor
    rw [decodeOrderDatum, hcbor, decodeNode_orderDatum rfl rfl]
    rfl
  · intro mesh cbor data hdata hcbor
    refine ⟨fieldsOf distant Sample.ownerKey Sample.sellerKey none, ?_, ?_⟩
    · rw [decodeOrderDatum, hcbor, decodeNode_orderDatum rfl rfl]
      rfl
    · have hrounded : distant.expiration.map toNumber = (some (2 ^ 53)).map .finite := by decide
      have hversion : toNumber distant.version = .finite 1 := by decide
      rw [hdata.data_fieldsOf distant _ _ _ hversion hrounded, Ne, toData_inj]
      decide

end

/-!
## Fields and datums

Which fields are those of an order, and the datum they stand for: hex of key hashes,
amounts of any size, and an expiration that the runtime has as it is.
-/

/-- Lower-case hex of whole bytes. -/
def IsHex (text : Str) : Prop := text.all isLowerHex = true ∧ 2 ∣ text.length

instance (text : Str) : Decidable (IsHex text) := inferInstanceAs (Decidable (_ ∧ _))

/-- Text in lower-case hex is written back as it was. -/
theorem IsHex.hexOf_bytesOfHex {text : Str} (h : IsHex text) : hexOf (bytesOfHex text) = text :=
  BeaconDex.Backend.hexOf_bytesOfHex h.1 h.2

/-- The integer a number is, zero for an infinite one. -/
def JsNumber.toInt : JsNumber → ℤ
  | .finite n => n
  | .infinite _ => 0

namespace OrderDatumFields

/-- **Fields of an order**: of the one version, with positive amounts, hex where
hex belongs, and an expiration that a number holds exactly. -/
structure Proper (f : OrderDatumFields) : Prop where
  version : f.version = .finite 1
  offerAmount_pos : 0 < f.offerAmount
  askAmount_pos : 0 < f.askAmount
  beaconPolicyId : IsHex f.beaconPolicyId
  ownerKeyHash : IsHex f.ownerKeyHash
  paymentPubKeyHash : IsHex f.paymentPubKeyHash
  paymentStakeKeyHash : ∀ hash, f.paymentStakeKeyHash = some hash → IsHex hash
  offerPolicyId : IsHex f.offer.policyId
  offerAssetName : IsHex f.offer.assetNameHex
  askPolicyId : IsHex f.ask.policyId
  askAssetName : IsHex f.ask.assetNameHex
  expiration : ∀ t, f.expiration = some t → ∃ n : ℤ, t = .finite n ∧ n.natAbs ≤ 2 ^ 53 - 1

/-- The order the fields describe, on the chain. -/
def datum (f : OrderDatumFields) : OrderDatum where
  version := f.version.toInt
  beaconPolicyId := bytesOfHex f.beaconPolicyId
  owner := .verificationKey (bytesOfHex f.ownerKeyHash)
  paymentAddress :=
    addressOfKeys (bytesOfHex f.paymentPubKeyHash) (f.paymentStakeKeyHash.map bytesOfHex)
  offer := ⟨bytesOfHex f.offer.policyId, bytesOfHex f.offer.assetNameHex⟩
  offerAmount := f.offerAmount
  ask := ⟨bytesOfHex f.ask.policyId, bytesOfHex f.ask.assetNameHex⟩
  askAmount := f.askAmount
  expiration := f.expiration.map JsNumber.toInt
  allowPartialFill := f.allowPartialFill

namespace Proper

variable {f : OrderDatumFields}

theorem toNumber_version (h : f.Proper) : toNumber f.datum.version = .finite 1 := by
  rw [datum, h.version]
  exact KeyOrder.toNumber_one

/-- No expiration is rounded. -/
theorem toNumber_expiration (h : f.Proper) : f.datum.expiration.map toNumber = f.expiration := by
  rw [datum, Option.map_map]
  cases ht : f.expiration with
  | none => rfl
  | some t =>
      obtain ⟨n, rfl, hn⟩ := h.expiration t ht
      have hsmall : n.natAbs < 2 ^ 53 := by omega
      exact congrArg some (toNumber_of_lt hsmall)

/-- The fields are read off the datum they describe. -/
theorem fieldsOf_datum (h : f.Proper) :
    fieldsOf f.datum (bytesOfHex f.ownerKeyHash) (bytesOfHex f.paymentPubKeyHash)
      (f.paymentStakeKeyHash.map bytesOfHex) = f := by
  have hstake : (f.paymentStakeKeyHash.map bytesOfHex).map hexOf = f.paymentStakeKeyHash := by
    cases hs : f.paymentStakeKeyHash with
    | none => rfl
    | some hash => exact congrArg some (h.paymentStakeKeyHash hash hs).hexOf_bytesOfHex
  rw [fieldsOf, h.toNumber_version, h.toNumber_expiration, hstake]
  obtain ⟨_, _, _, _, _, ⟨_, _⟩, _, ⟨_, _⟩, _, _, _⟩ := f
  obtain rfl := h.version
  simp only [datum, assetHex, h.beaconPolicyId.hexOf_bytesOfHex, h.ownerKeyHash.hexOf_bytesOfHex,
    h.paymentPubKeyHash.hexOf_bytesOfHex, h.offerPolicyId.hexOf_bytesOfHex,
    h.offerAssetName.hexOf_bytesOfHex, h.askPolicyId.hexOf_bytesOfHex,
    h.askAssetName.hexOf_bytesOfHex]

/-- The fields are written as the datum they describe. -/
theorem data_encode (h : f.Proper) {data : MeshData → Data} (hdata : SerialisesData data) :
    data (encodeOrderDatum f) = toData f.datum := by
  have hexpiration : f.datum.expiration.map toNumber = f.datum.expiration.map .finite := by
    rw [h.toNumber_expiration, datum, Option.map_map]
    cases ht : f.expiration with
    | none => rfl
    | some t =>
        obtain ⟨n, rfl, -⟩ := h.expiration t ht
        rfl
  have hwritten := hdata.data_fieldsOf f.datum (bytesOfHex f.ownerKeyHash)
    (bytesOfHex f.paymentPubKeyHash) (f.paymentStakeKeyHash.map bytesOfHex) h.toNumber_version
    hexpiration
  rw [h.fieldsOf_datum] at hwritten
  rw [hwritten, datum, h.version]
  rfl

/-- The decoder reads the data of a proper order as its fields. -/
theorem decodeNode_datum (h : f.Proper) : decodeNode (some (nodeOf (toData f.datum))) = some f := by
  rw [decodeNode_orderDatum rfl rfl, datum, KeyOrder.stakeKey?_addressOfKeys, Option.bind_some,
    ← datum, h.fieldsOf_datum, checkDatum_eq_some]
  exact ⟨rfl, h.version, h.offerAmount_pos, h.askAmount_pos⟩

end Proper

end OrderDatumFields

/-- **Decoding undoes encoding.** The fields of an order are written as the order's
on-chain datum, they are read back from it, and no other fields are written the same way.
This is for all fields that are proper, of whatever size their numbers are. -/
theorem decode_encode {mesh : Mesh} {data : MeshData → Data} {cbor : Str} {f : OrderDatumFields}
    (hf : f.Proper) (hdata : SerialisesData data)
    (hcbor : mesh.deserializeDatum cbor = some (nodeOf (data (encodeOrderDatum f)))) :
    decodeOrderDatum mesh cbor = some f ∧ data (encodeOrderDatum f) = toData f.datum ∧
      ∀ g : OrderDatumFields, g.Proper →
        data (encodeOrderDatum g) = data (encodeOrderDatum f) → g = f := by
  have hwritten := hf.data_encode hdata
  refine ⟨?_, hwritten, ?_⟩
  · rw [decodeOrderDatum, hcbor, hwritten, hf.decodeNode_datum]
  · intro g hg hsame
    rw [hwritten, hg.data_encode hdata] at hsame
    have hread := hg.decodeNode_datum
    rw [hsame, hf.decodeNode_datum, Option.some.injEq] at hread
    exact hread.symm

namespace SampleCodec

/-- The fields of the staked sale. -/
def stakedFields : OrderDatumFields :=
  { SampleBatch.terms.fields with
    paymentStakeKeyHash := some (hexOf BeaconDex.Sample.takerKey)
    expiration := some (.finite newYear) }

end SampleCodec

set_option maxRecDepth 100000 in
theorem decode_encode_sample :
    decodeOrderDatum SampleCodec.mesh (SampleCodec.stakedCbor SampleCodec.newYearBytes) =
        some SampleCodec.stakedFields ∧
      SampleBatch.dataOf (encodeOrderDatum SampleCodec.stakedFields) =
        toData (SampleCodec.staked SampleCodec.newYear) := by
  have hproper : SampleCodec.stakedFields.Proper := {
    version := rfl
    offerAmount_pos := by decide
    askAmount_pos := by decide
    beaconPolicyId := by decide
    ownerKeyHash := by decide
    paymentPubKeyHash := by decide
    paymentStakeKeyHash := fun hash hhash => by
      obtain rfl := Option.some.inj hhash
      decide
    offerPolicyId := by decide
    offerAssetName := by decide
    askPolicyId := by decide
    askAssetName := by decide
    expiration := fun t ht => by
      obtain rfl := Option.some.inj ht
      exact ⟨SampleCodec.newYear, rfl, by decide⟩ }
  have hdata : SampleBatch.dataOf (encodeOrderDatum SampleCodec.stakedFields) =
      toData (SampleCodec.staked SampleCodec.newYear) := rfl
  have hcbor : SampleCodec.mesh.deserializeDatum
      (SampleCodec.stakedCbor SampleCodec.newYearBytes) =
        some (nodeOf (SampleBatch.dataOf (encodeOrderDatum SampleCodec.stakedFields))) := by
    have hother : SampleCodec.stakedCbor SampleCodec.newYearBytes ≠
        SampleCodec.stakedCbor SampleCodec.distantBytes := by decide
    rw [hdata]
    simp only [SampleCodec.mesh, if_neg hother, if_true]
  exact ⟨(decode_encode hproper SampleBatch.documented.serialisesData hcbor).1, hdata⟩

end BeaconDex.Backend
