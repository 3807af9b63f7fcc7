import BeaconDex.Backend.Text

/-!
# The protocol, off-chain

`backend/src/protocol/beacons.ts` and `backend/src/protocol/datum.ts`: the
backend's own copy of the beacon names and of the order datum's encoding, on hex
text instead of bytes.

What the backend takes from the Mesh and Node libraries is a field of `Mesh`.
Nothing is assumed of those functions here; a result that needs one of them to
do what it documents says so itself.  A function that throws is partial.

## Two spellings of one datum

The datum is a tree of constructors with numbers and byte strings in it.  The builder
writes the tree that Mesh serialises, the indexer reads the tree that its CBOR library
returns, and the validator reads the bytes.  The two trees have different types in the
source, so they are different types here (`MeshData` and `Node`), and what ties them is
a hypothesis on the libraries.
-/

namespace BeaconDex.Backend

/-!
## Values of the runtime

Numbers that are doubles, and the libraries' functions.
-/

/-- An integral JavaScript number. -/
inductive JsNumber
  | finite (n : ℤ)
  | infinite (negative : Bool)
  deriving DecidableEq

/-- The magnitude of the nearest double, ties to even. -/
def roundDouble (m : ℕ) : ℕ :=
  if m < 2 ^ 53 then m
  else
    let ulp := 2 ^ (m.log2 - 52)
    let kept := m / ulp
    let lost := m % ulp
    (if ulp < 2 * lost ∨ 2 * lost = ulp ∧ kept % 2 = 1 then kept + 1 else kept) * ulp

/-- `Number(n)` on a bigint. -/
def toNumber (n : ℤ) : JsNumber :=
  let m := roundDouble n.natAbs
  if m.log2 < 1024 then .finite (n.sign * m) else .infinite (n < 0)

/-- Below 2⁵³ every integer is a double. -/
theorem roundDouble_of_lt {m : ℕ} (h : m < 2 ^ 53) : roundDouble m = m := if_pos h

theorem toNumber_of_lt {n : ℤ} (h : n.natAbs < 2 ^ 53) : toNumber n = .finite n := by
  have hlog : n.natAbs.log2 < 53 := by
    rcases Nat.eq_zero_or_pos n.natAbs with hzero | hpos
    · rw [hzero]
      decide
    · exact (Nat.log2_lt hpos.ne').mpr h
  have hfinite : n.natAbs.log2 < 1024 := by omega
  simp only [toNumber, roundDouble_of_lt h, if_pos hfinite, Int.sign_mul_natAbs]

/-- `a <= b`. -/
def JsNumber.le : JsNumber → JsNumber → Bool
  | .finite m, .finite n => m ≤ n
  | .finite _, .infinite negative => !negative
  | .infinite negative, .finite _ => negative
  | .infinite negative, .infinite negative' => negative || !negative'

/-- `Math.min` of at least one number. -/
def minimum (first : JsNumber) (rest : List JsNumber) : JsNumber :=
  rest.foldl (fun least n => if least.le n then least else n) first

/-- A node of a deserialized datum: `constructor` and `fields`, `int`, `bytes`,
or one of the node kinds no order datum has. -/
inductive Node
  | constr (alternative : ℕ) (fields : List Node)
  | int (n : ℤ)
  | bytes (hex : Str)
  | other

/-- A Plutus datum or redeemer as Mesh takes it: a string is a byte string in
hex, a number or a bigint an integer. -/
inductive MeshData
  | con (alternative : ℕ) (fields : List MeshData)
  | text (hex : Str)
  | num (n : JsNumber)
  | bigint (n : ℤ)

/-- What `deserializeAddress` finds in an address; a part the address lacks is
the empty string. -/
structure DeserializedAddress where
  pubKeyHash : Str
  scriptHash : Str
  stakeCredentialHash : Str
  stakeScriptCredentialHash : Str
  deriving DecidableEq

/-- The library functions the backend calls. -/
structure Mesh where
  sha256 : Bytes → Bytes
  deserializeAddress : Str → Option DeserializedAddress
  deserializeDatum : Str → Option Node
  /-- `serializeAddressObj(pubKeyAddress(key, stake, false), 0)`. -/
  serializeKeyAddress : Str → Option Str → Option Str
  /-- `serializePlutusScript({ code, version: "V3" }, stake, 0, false).address`. -/
  serializePlutusScript : Str → Str → Option Str
  /-- The slot a POSIX time in ms falls into, on preprod. -/
  unixTimeToEnclosingSlot : JsNumber → JsNumber

/-!
## Beacon names

The names, computed over hex.
-/

/-- An asset by the hex of its policy id and its name, both empty for ADA. -/
structure AssetClassHex where
  policyId : Str
  assetNameHex : Str
  deriving DecidableEq

/-- ADA has neither a policy nor a name. -/
def ADA : AssetClassHex := ⟨[], []⟩

/-- The hex of `"order"`. -/
def ORDER_BEACON_NAME_HEX : Str := "6f72646572".toList

/-- The one test for ADA that the codecs and the builder share. -/
def isAda (a : AssetClassHex) : Bool := a.policyId = [] && a.assetNameHex = []

/-- The bytes of an asset's policy id and name, side by side. -/
def assetId (a : AssetClassHex) : Bytes := bytesOfHex (a.policyId ++ a.assetNameHex)

/-- `Buffer.from([id.length])` keeps the low byte of the length. -/
def lengthPrefixed (id : Bytes) : Bytes := Fin.ofNat 256 id.length :: id

section Names

variable (mesh : Mesh)

/-- A hash, in the hex in which beacon names are written. -/
def sha256Hex (b : Bytes) : Str := hexOf (mesh.sha256 b)

/-- Undirected: the same name whichever side is offered. -/
def pairBeaconName (a b : AssetClassHex) : Str :=
  let ia := assetId a
  let ib := assetId b
  let (lo, hi) := if ia ≤ ib then (ia, ib) else (ib, ia)
  sha256Hex mesh ((0x00 : Byte) :: (lengthPrefixed lo ++ lengthPrefixed hi))

/-- The prefix `01` keeps the names of offers apart from those of pairs and asks. -/
def offerBeaconName (offer : AssetClassHex) : Str :=
  sha256Hex mesh ((0x01 : Byte) :: assetId offer)

/-- The same with the prefix `02`. -/
def askBeaconName (ask : AssetClassHex) : Str :=
  sha256Hex mesh ((0x02 : Byte) :: assetId ask)

/-- The owner's staking key hash, verbatim. -/
def ownerBeaconName (ownerKeyHashHex : Str) : Str := toLowerCase ownerKeyHashHex

/-- The five names an order's beacons have, by what each of them marks. -/
structure BeaconNames where
  order : Str
  pair : Str
  offer : Str
  ask : Str
  owner : Str
  deriving DecidableEq

/-- `Object.values`, in declaration order. -/
def BeaconNames.values (names : BeaconNames) : List Str :=
  [names.order, names.pair, names.offer, names.ask, names.owner]

/-- **The names of an order's beacons**, computed from its assets and its owner as the
minting policy computes them. -/
def deriveBeaconNames (offer ask : AssetClassHex) (ownerKeyHashHex : Str) : BeaconNames where
  order := ORDER_BEACON_NAME_HEX
  pair := pairBeaconName mesh offer ask
  offer := offerBeaconName mesh offer
  ask := askBeaconName mesh ask
  owner := ownerBeaconName ownerKeyHashHex

end Names

/-!
## Asset and pair ids

The ids that the API and the cache use.
-/

/-- `policyHex.assetNameHex`, or `lovelace`. -/
def toApiAssetId (a : AssetClassHex) : Str :=
  if isAda a then "lovelace".toList else a.policyId ++ '.' :: a.assetNameHex

/-- `fromApiAssetId`; parts after a second dot are ignored. -/
def fromApiAssetId (id : Str) : Option AssetClassHex :=
  if id = "lovelace".toList then some ADA
  else
    let (policyId, assetNameHex) := match id.splitOn '.' with
      | policyId :: assetNameHex :: _ => (policyId, assetNameHex)
      | policyId :: [] => (policyId, [])
      | [] => ([], [])
    if policyId.length = 56 ∧ policyId.all isLowerHex = true ∧ assetNameHex.all isLowerHex = true ∧
        assetNameHex.length ≤ 64 then
      some ⟨policyId, assetNameHex⟩
    else none

/-- The canonical pair id: the two asset ids in order, joined by `_`. -/
def toPairId (a b : AssetClassHex) : Str :=
  let x := toApiAssetId a
  let y := toApiAssetId b
  if y < x then y ++ '_' :: x else x ++ '_' :: y

/-!
## The order datum

Its encoding and decoding, its redeemers, and the price of a part.
-/

/-- An order's datum as the backend reads and writes it: hashes and names in hex, and the
two JavaScript numbers among its integers, the version and the expiration. -/
structure OrderDatumFields where
  version : JsNumber
  beaconPolicyId : Str
  /-- Key hash of the owner's staking key. -/
  ownerKeyHash : Str
  paymentPubKeyHash : Str
  paymentStakeKeyHash : Option Str
  offer : AssetClassHex
  offerAmount : ℤ
  ask : AssetClassHex
  askAmount : ℤ
  /-- POSIX ms. -/
  expiration : Option JsNumber
  allowPartialFill : Bool
  deriving DecidableEq

/-- A verification key credential; the backend writes no other. -/
def credentialKey (hash : Str) : MeshData := .con 0 [.text hash]

/-- An address of two keys, the second one optional and inline. -/
def keyAddress (pubKeyHash : Str) (stakeKeyHash : Option Str) : MeshData :=
  let stake := match stakeKeyHash with
    | none => MeshData.con 1 []
    | some hash => .con 0 [.con 0 [credentialKey hash]]
  .con 0 [credentialKey pubKeyHash, stake]

/-- A policy id and a name. -/
def assetClass (a : AssetClassHex) : MeshData := .con 0 [.text a.policyId, .text a.assetNameHex]

/-- **The datum of an order**, field by field in the order of the on-chain type.  `True`
is the second constructor there. -/
def encodeOrderDatum (d : OrderDatumFields) : MeshData :=
  .con 0
    [.num d.version, .text d.beaconPolicyId, credentialKey d.ownerKeyHash,
      keyAddress d.paymentPubKeyHash d.paymentStakeKeyHash, assetClass d.offer,
      .bigint d.offerAmount, assetClass d.ask, .bigint d.askAmount,
      (match d.expiration with
        | none => .con 1 []
        | some t => .con 0 [.num t]),
      if d.allowPartialFill then .con 1 [] else .con 0 []]

/-- The datum of a payment output: the order it settles. -/
def encodePaymentTag (orderTxHash : Str) (outputIndex : ℕ) : MeshData :=
  .con 0 [.con 0 [.text orderTxHash, .num (.finite outputIndex)]]

/-- `CancelOrder`, the first constructor of the order redeemer. -/
def CANCEL_REDEEMER : MeshData := .con 0 []

/-- `TakeOrder`, the second one. -/
def TAKE_REDEEMER : MeshData := .con 1 []

/-- `MintBeacons`, the first constructor of the beacon redeemer. -/
def MINT_BEACONS_REDEEMER : MeshData := .con 0 []

/-- `BurnBeacons`, the second one. -/
def BURN_BEACONS_REDEEMER : MeshData := .con 1 []

/-- `TakeOrderPartial`, the third constructor, with the amount that is taken. -/
def takePartialRedeemer (takeAmount : ℤ) : MeshData := .con 2 [.bigint takeAmount]

/-- The ask owed for a partial fill, rounded up; bigint division truncates. -/
def requiredPayment (take ask offer : ℤ) : Option ℤ :=
  if take ≤ 0 ∨ ask ≤ 0 ∨ offer ≤ 0 then none
  else some ((take * ask + offer - 1).tdiv offer)

/-- The largest partial take that `spend` of the ask pays for, zero without
one. -/
def maxTakeForSpend (spend ask offer : ℤ) : ℤ :=
  if spend ≤ 0 ∨ ask ≤ 0 ∨ offer ≤ 0 then 0
  else
    let take := (spend * offer).tdiv ask
    let askCap := ((ask - 1) * offer).tdiv ask
    let take := if take > askCap then askCap else take
    let take := if take > offer - 1 then offer - 1 else take
    if take > 0 then take else 0

/-! ## Decoding

A missing field is `undefined`, which no reader accepts. -/

/-- The fields of a node of the expected constructor. -/
def constr (node : Option Node) (expected : ℕ) : Option (List Node) :=
  match node with
  | some (.constr alternative fields) => if alternative = expected then some fields else none
  | _ => none

/-- The constructor of a node. -/
def constrAlt (node : Option Node) : Option ℕ :=
  match node with
  | some (.constr alternative _) => some alternative
  | _ => none

/-- An integer node; the backend keeps it as a bigint. -/
def asInt (node : Option Node) : Option ℤ :=
  match node with
  | some (.int n) => some n
  | _ => none

/-- A byte string, in lower-case hex. -/
def asBytes (node : Option Node) : Option Str :=
  match node with
  | some (.bytes hex) => some (toLowerCase hex)
  | _ => none

/-- Fields after the second one are not looked at. -/
def decodeAssetClass (node : Option Node) : Option AssetClassHex := do
  let fields ← constr node 0
  return ⟨← asBytes fields[0]?, ← asBytes fields[1]?⟩

/-- The staking part of the payment address: absent, or an inline key. -/
def decodeStakeOption (stakeOpt : Option Node) : Option (Option Str) := do
  if (← constrAlt stakeOpt) = 0 then
    let some' ← constr stakeOpt 0
    let inline ← constr some'[0]? 0
    let stakeFields ← constr inline[0]? 0
    return some (← asBytes stakeFields[0]?)
  else return none

/-- Well-formedness of a decoded datum. -/
def checkDatum (d : OrderDatumFields) : Option OrderDatumFields :=
  if d.version ≠ .finite 1 then none
  else if d.offerAmount ≤ 0 ∨ d.askAmount ≤ 0 then none
  else some d

/-- Decode and validate the root node of an inline datum. -/
def decodeNode (root : Option Node) : Option OrderDatumFields := do
  let f ← constr root 0
  guard (f.length = 10)
  let version := toNumber (← asInt f[0]?)
  let beaconPolicyId ← asBytes f[1]?
  let ownerFields ← constr f[2]? 0
  let ownerKeyHash ← asBytes ownerFields[0]?
  let paymentAddress ← constr f[3]? 0
  let payFields ← constr paymentAddress[0]? 0
  let paymentPubKeyHash ← asBytes payFields[0]?
  let paymentStakeKeyHash ← decodeStakeOption paymentAddress[1]?
  let offer ← decodeAssetClass f[4]?
  let offerAmount ← asInt f[5]?
  let ask ← decodeAssetClass f[6]?
  let askAmount ← asInt f[7]?
  let expiration ←
    if (← constrAlt f[8]?) = 0 then do
      let fields ← constr f[8]? 0
      pure (some (toNumber (← asInt fields[0]?)))
    else pure none
  let allowPartialFill := (← constrAlt f[9]?) = 1
  checkDatum
    { version, beaconPolicyId, ownerKeyHash, paymentPubKeyHash, paymentStakeKeyHash, offer,
      offerAmount, ask, askAmount, expiration, allowPartialFill }

/-- Decode an inline datum given as CBOR hex. -/
def decodeOrderDatum (mesh : Mesh) (inlineDatumCborHex : Str) : Option OrderDatumFields :=
  decodeNode (mesh.deserializeDatum inlineDatumCborHex)

end BeaconDex.Backend
