import BeaconDex.Backend.ChainProvider
import BeaconDex.Library.Attempt
import Mathlib.Data.List.Sort

/-!
# The transaction builder

`backend/src/services/tx-builder.ts`: what `TxBuilder` hands to Mesh for a new
order and for a batch of takes.

A build ends in a `TxDraft`: the instructions given to the Mesh builder, in the
order they are given.  Coin selection, fees, change and serialization come after
that, in Mesh.  The summary the backend shows beside the transaction is no part
of it.

## Errors are part of the result

A request can fail at many places: the wallet has no UTxO or no collateral, an order id
does not parse, the UTxO is gone, its datum does not decode, the order has expired, the
taker asks for a part of an order that is sold whole.  Each has its own class or text in
the source, which the handlers turn into different answers, so each keeps its class and
its text here, and the checks stand in the order in which the source makes them.

## One leg, one function

The route for one order and the route for many share the code that drafts a leg, and the
model keeps this shape: `buildLeg` is either of two branches, for a whole order and for
a part, and `buildTakeOrder` is a batch of one.
-/

namespace BeaconDex.Backend

open Library

/-! ## Errors -/

/-- The codes of `BuildError`, from which the route takes its status. -/
inductive BuildErrorCode
  | invalidRequest
  | orderNotFound
  | orderExpired
  | notAnOrder
  | providerUnavailable
  | insufficientFunds
  deriving DecidableEq

/-- What a build throws. -/
inductive Thrown
  | buildError (code : BuildErrorCode) (message : Str)
  /-- A failed provider call, passed on. -/
  | provider (failure : Failure)
  /-- Any other error of a codec or a library. -/
  | exception
  deriving DecidableEq

/-- An error the caller can mend: the request, or the wallet it names, is not usable. -/
def invalidRequest (message : String) : Thrown := .buildError .invalidRequest message.toList

/-- A provider call whose failure is passed on. -/
def call {α : Type} : Except Failure α → Except Thrown α
  | .ok a => .ok a
  | .error failure => .error (.provider failure)

@[simp] theorem call_eq_ok {α : Type} {answer : Except Failure α} {a : α} :
    call answer = .ok a ↔ answer = .ok a := by
  cases answer <;> simp [call]

/-!
## Drafts

What Mesh is told, as data.
-/

/-- A script, by its CBOR or by the output that holds it. -/
inductive ScriptSource
  | inline (cbor : Str)
  | reference (ref : OutRef)
  deriving DecidableEq

/-- A script input with its redeemer. -/
structure DraftSpend where
  input : OutRef
  amount : List Asset
  address : Str
  redeemer : MeshData
  script : ScriptSource

/-- An output with its inline datum. -/
structure DraftOutput where
  address : Str
  amount : List Asset
  inlineDatum : MeshData

/-- One beacon name, minted or burned under the beacon policy. -/
structure DraftMint where
  quantity : ℤ
  policyId : Str
  name : Str
  script : Str
  redeemer : MeshData

/-- The wallet's part: where the change goes, what may be selected, and the
collateral. -/
structure WalletDraft where
  changeAddress : Str
  selectFrom : List UTxO
  collateral : UTxO
  deriving DecidableEq

/-- **What a build leaves to Mesh**: everything it has told the transaction builder before
`complete`, which selects the inputs that are missing, adds the change and balances. -/
structure TxDraft where
  spends : List DraftSpend
  mints : List DraftMint
  outputs : List DraftOutput
  requiredSigners : List Str
  /-- The slot from which on the transaction is invalid. -/
  invalidHereafter : Option JsNumber
  wallet : WalletDraft

/-! ## Parameters -/

/-- The two parameterised scripts, by their CBOR and by their hashes. -/
structure ProtocolScripts where
  orderValidatorCbor : Str
  orderValidatorHash : Str
  beaconPolicyCbor : Str
  beaconPolicyId : Str

/-- The order address of an owner. -/
def ProtocolScripts.orderAddressFor (scripts : ProtocolScripts) (mesh : Mesh)
    (ownerStakeKeyHash : Str) : Option Str :=
  mesh.serializePlutusScript scripts.orderValidatorCbor ownerStakeKeyHash

/-- The options of the constructor, as far as a build reads them. -/
structure BuilderOptions where
  depositLovelace : ℤ
  referenceScript : Option OutRef
  maxOrdersPerTx : Option ℕ

/-- The batch cap. -/
def BuilderOptions.maxOrders (opts : BuilderOptions) : ℕ := opts.maxOrdersPerTx.getD 8

/-- The wallet of a request: its change address, its outputs, and the collateral it has
set aside. -/
structure WalletContext where
  changeAddress : Str
  utxos : List UTxO
  collateral : Option UTxO

/-- The parameters of `buildCreateOrder`.  Assets are ids, amounts raw. -/
structure CreateOrderParams where
  wallet : WalletContext
  paymentAddress : Option Str
  offerAsset : Str
  offerAmount : ℤ
  askAsset : Str
  askAmount : ℤ
  /-- POSIX ms. -/
  expiration : Option JsNumber
  allowPartialFill : Option Bool

/-- One order of a take, whole or in part. -/
structure TakeLeg where
  orderId : Str
  /-- The part of the offer to take; all of it without one. -/
  takeAmount : Option ℤ
  deriving DecidableEq

/-- The parameters of `buildTakeManyOrders`. -/
structure TakeManyOrdersParams where
  wallet : WalletContext
  orders : List TakeLeg

/-! ## Amounts -/

/-- Mesh's unit of ADA. -/
def lovelaceUnit : Str := "lovelace".toList

/-- The unit Mesh lists an asset under: policy id and name side by side. -/
def unitOf (a : AssetClassHex) : Str :=
  if isAda a then lovelaceUnit else a.policyId ++ a.assetNameHex

/-- The first lovelace entry, under either of its two units. -/
def lovelaceOf (amount : List Asset) : ℤ :=
  ((amount.find? fun a => a.unit = lovelaceUnit ∨ a.unit = []).map Asset.quantity).getD 0

/-- What the first entry under a unit says; nothing, where there is none. -/
def quantityOf (amount : List Asset) (unit : Str) : ℤ :=
  ((amount.find? fun a => a.unit = unit).map Asset.quantity).getD 0

/-- `m.set(key, (m.get(key) ?? 0) + n)` on an insertion-ordered map. -/
def addAt (key : Str) (n : ℤ) : List (Str × ℤ) → List (Str × ℤ)
  | [] => [(key, n)]
  | (k, m) :: rest => if k = key then (k, m + n) :: rest else (k, m) :: addAt key n rest

/-- How often each name is listed. -/
def countNames (names : List Str) : List (Str × ℤ) :=
  names.foldl (fun counts name => addAt name 1 counts) []

/-! ## Shared parts of a build -/

section Builder

variable (mesh : Mesh) (scripts : ProtocolScripts) (opts : BuilderOptions) (p : ChainProvider)
variable (now : ℤ)

/-- An address that Mesh cannot read is an error that names the field. -/
def parseAddress (addr : Str) (what : String) : Except Thrown DeserializedAddress :=
  orThrow (invalidRequest (what ++ " is not a valid address")) (mesh.deserializeAddress addr)

/-- **Is the wallet usable?** It has outputs, a collateral is set aside, and something is
left besides it. -/
def attachCommon (wallet : WalletContext) : Except Thrown WalletDraft := do
  throwIf (wallet.utxos = []) (invalidRequest "wallet has no UTxOs")
  let collateral ← orThrow
    (invalidRequest <| "no collateral UTxO available — your wallet needs a pure-ADA UTxO " ++
      "(>= ~5 ADA, no other tokens) set aside as collateral for script transactions")
    wallet.collateral
  -- the collateral may not be spent as an input too
  let spendable := wallet.utxos.filter fun u => u.input ≠ collateral.input
  throwIf (spendable = [])
    (invalidRequest "wallet has no spendable UTxOs besides the collateral UTxO")
  return ⟨wallet.changeAddress, spendable, collateral⟩

/-- One instruction per name, all under the beacon policy; `sign` is one to mint
and minus one to burn. -/
def mintBeacons (names : List Str) (sign : ℤ) : List DraftMint :=
  let redeemer := if sign = 1 then MINT_BEACONS_REDEEMER else BURN_BEACONS_REDEEMER
  (countNames names).map fun (name, count) =>
    ⟨sign * count, scripts.beaconPolicyId, name, scripts.beaconPolicyCbor, redeemer⟩

/-! ## Creating an order -/

/-- Deposit lovelace, the offer, one of each beacon. -/
def orderAmount (offer : AssetClassHex) (offerAmount : ℤ) (names : List Str) : List Asset :=
  ⟨lovelaceUnit, if isAda offer then offerAmount + opts.depositLovelace
    else opts.depositLovelace⟩ ::
  (if isAda offer then [] else [⟨unitOf offer, offerAmount⟩]) ++
  names.map fun name => ⟨scripts.beaconPolicyId ++ name, 1⟩

/-- The checks run in the order of the source: the two ids and that they differ, the
amounts, the beacon policy, the expiration, the two addresses.  The order is a single
output with the five beacons. -/
def buildCreateOrder (params : CreateOrderParams) : Except Thrown TxDraft := do
  let offer ← orThrow .exception (fromApiAssetId params.offerAsset)
  let ask ← orThrow .exception (fromApiAssetId params.askAsset)
  throwIf (params.offerAsset = params.askAsset) (invalidRequest "offer and ask must differ")
  throwIf (params.offerAmount ≤ 0 ∨ params.askAmount ≤ 0)
    (invalidRequest "amounts must be positive")
  throwIf (offer.policyId = scripts.beaconPolicyId ∨ ask.policyId = scripts.beaconPolicyId)
    (invalidRequest "cannot trade beacon tokens")
  throwIf (params.expiration.any fun t => t.le (.finite now))
    (invalidRequest "expiration is in the past")
  let change ← parseAddress mesh params.wallet.changeAddress "change address"
  throwIf (change.stakeCredentialHash = [])
    (invalidRequest <| "wallet change address has no staking credential — the MVP identifies " ++
      "owners by staking key")
  throwIf (change.stakeScriptCredentialHash ≠ [])
    (invalidRequest "script staking credentials are not supported in the MVP")
  let ownerKeyHash := change.stakeCredentialHash
  let pay ← parseAddress mesh (params.paymentAddress.getD params.wallet.changeAddress)
    "payment address"
  throwIf (pay.pubKeyHash = [])
    (invalidRequest "payment address must be a key (not script) address in the MVP")
  let names := (deriveBeaconNames mesh offer ask ownerKeyHash).values
  let orderAddress ← orThrow .exception (scripts.orderAddressFor mesh ownerKeyHash)
  let datum : OrderDatumFields :=
    { version := .finite 1
      beaconPolicyId := scripts.beaconPolicyId
      ownerKeyHash := ownerKeyHash
      paymentPubKeyHash := pay.pubKeyHash
      paymentStakeKeyHash :=
        if pay.stakeCredentialHash = [] then none else some pay.stakeCredentialHash
      offer := offer
      offerAmount := params.offerAmount
      ask := ask
      askAmount := params.askAmount
      expiration := params.expiration
      allowPartialFill := params.allowPartialFill.getD false }
  let wallet ← attachCommon params.wallet
  return {
    spends := []
    mints := mintBeacons scripts names 1
    outputs := [⟨orderAddress, orderAmount scripts opts offer params.offerAmount names,
      encodeOrderDatum datum⟩]
    requiredSigners := []
    invalidHereafter := none
    wallet := wallet }

/-!
## Resolving an order

From an id to an order: the id is parsed, the output fetched, the datum decoded, and the
beacons it should hold are looked for.
-/

/-- `/^([0-9a-f]{64})#([0-9]+)$/`, the index read as a number. -/
def matchOrderId (orderId : Str) : Option (Str × JsNumber) :=
  match orderId.drop 64 with
  | '#' :: digit :: digits =>
      if (orderId.take 64).length = 64 ∧ (orderId.take 64).all isLowerHex = true ∧
          (digit :: digits).all Char.isDigit = true then
        some (orderId.take 64, toNumber (Nat.ofDigitChars 10 (digit :: digits) 0))
      else none
  | _ => none

/-- The output a matched id names; there is none at an infinite index. -/
def outRefAt : Str × JsNumber → Option OutRef
  | (txHash, .finite index) => some ⟨txHash, index.toNat⟩
  | (_, .infinite _) => none

/-- An order as it was found on the chain, with the beacon names its datum calls for. -/
structure ResolvedOrder where
  ref : OutRef
  utxo : UTxO
  datum : OrderDatumFields
  beaconNames : List Str
  deposit : ℤ
  deriving DecidableEq

/-- What is in the output beside the offer; an offer of ADA is part of the lovelace. -/
def depositOf (datum : OrderDatumFields) (amount : List Asset) : ℤ :=
  if isAda datum.offer then lovelaceOf amount - datum.offerAmount else lovelaceOf amount

/-- Whether each beacon is there exactly once. -/
def holdsBeacons (amount : List Asset) (names : List Str) : Bool :=
  names.all fun name => quantityOf amount (scripts.beaconPolicyId ++ name) = 1

/-- The order behind an id, fetched and checked again at build time: the policy its datum
names, and one of each beacon. -/
def resolveOrder (orderId : Str) : Except Thrown ResolvedOrder := do
  let target ← orThrow (invalidRequest "bad orderId format") (matchOrderId orderId)
  let notFound := Thrown.buildError .orderNotFound
    "order UTxO not found on-chain (already taken or cancelled?)".toList
  let ref ← orThrow notFound (outRefAt target)
  let found ← call (p.getUtxo ref)
  -- the cache is not consulted: everything below is read off the chain
  let utxo ← orThrow notFound found
  let plutusData ← orThrow (.buildError .notAnOrder "UTxO has no inline datum".toList)
    (utxo.plutusData.filter fun cbor => cbor ≠ [])
  let datum ← orThrow .exception (decodeOrderDatum mesh plutusData)
  throwIf (datum.beaconPolicyId ≠ scripts.beaconPolicyId)
    (.buildError .notAnOrder "UTxO is not a protocol order".toList)
  let names := (deriveBeaconNames mesh datum.offer datum.ask datum.ownerKeyHash).values
  throwIf (holdsBeacons scripts utxo.amount names = false)
    (.buildError .notAnOrder "UTxO is missing protocol beacons".toList)
  return ⟨ref, utxo, datum, names, depositOf datum utxo.amount⟩

/-- The order as an input, with the validator from the reference script where there is
one. -/
def spendOrder (order : ResolvedOrder) (redeemer : MeshData) : DraftSpend where
  input := order.ref
  amount := order.utxo.amount
  address := order.utxo.address
  redeemer := redeemer
  script := match opts.referenceScript with
    | some ref => .reference ref
    | none => .inline scripts.orderValidatorCbor

/-! ## Cancelling -/

/-- The order is spent under its owner's signature and its beacons are burned.  No output
is asked for: what it held goes to the change. -/
def buildCancelOrder (wallet : WalletContext) (orderId : Str) : Except Thrown TxDraft := do
  let order ← resolveOrder mesh scripts p orderId
  let wallet ← attachCommon wallet
  return {
    spends := [spendOrder scripts opts order CANCEL_REDEEMER]
    mints := mintBeacons scripts order.beaconNames (-1)
    outputs := []
    requiredSigners := [order.datum.ownerKeyHash]
    invalidHereafter := none
    wallet := wallet }

/-!
## Taking

A leg gives a redeemer, one or two outputs, and names to burn where the order is taken
whole.
-/

/-- A resolved order with what its leg asks for. -/
structure ResolvedLeg extends ResolvedOrder where
  orderId : Str
  takeAmount : Option ℤ
  deriving DecidableEq

/-- What one leg adds to the transaction. -/
structure LegDraft where
  spend : DraftSpend
  outputs : List DraftOutput
  burnNames : List Str

/-- The comparator of the legs: by transaction id, then by index. -/
def inInputOrder (a b : ResolvedLeg) : Prop :=
  a.ref.txHash < b.ref.txHash ∨
    a.ref.txHash = b.ref.txHash ∧ a.ref.outputIndex ≤ b.ref.outputIndex

instance : DecidableRel inInputOrder := fun _ _ =>
  inferInstanceAs (Decidable (_ ∨ _ ∧ _))

/-- Close to the least lovelace an output with a payment tag has to hold. -/
def PARTIAL_PAYMENT_LOVELACE : ℤ := 1400000

/-- The ask and the deposit. -/
def fullPayment (datum : OrderDatumFields) (deposit : ℤ) : List Asset :=
  if unitOf datum.ask = lovelaceUnit then [⟨lovelaceUnit, datum.askAmount + deposit⟩]
  else [⟨lovelaceUnit, deposit⟩, ⟨unitOf datum.ask, datum.askAmount⟩]

/-- What is owed of the ask, topped up to the smallest output. -/
def partialPayment (datum : OrderDatumFields) (required : ℤ) : List Asset :=
  if unitOf datum.ask = lovelaceUnit then
    [⟨lovelaceUnit, if required > PARTIAL_PAYMENT_LOVELACE then required
      else PARTIAL_PAYMENT_LOVELACE⟩]
  else [⟨lovelaceUnit, PARTIAL_PAYMENT_LOVELACE⟩, ⟨unitOf datum.ask, required⟩]

/-- Is this the entry of the offered asset? ADA has two units. -/
def isOfferEntry (offerUnit : Str) (a : Asset) : Bool :=
  a.unit = offerUnit || (offerUnit = lovelaceUnit && a.unit = [])

/-- The consumed amount minus the taken offer, without emptied entries. -/
def continuationAmount (offerUnit : Str) (takeAmount : ℤ) (amount : List Asset) : List Asset :=
  (amount.map fun a =>
    if isOfferEntry offerUnit a then { a with quantity := a.quantity - takeAmount } else a).filter
    fun a => a.quantity > 0

/-- The datum with both amounts reduced by what is taken and what is paid for it. -/
def continuationDatum (datum : OrderDatumFields) (takeAmount required : ℤ) : OrderDatumFields :=
  { datum with
    offerAmount := datum.offerAmount - takeAmount
    askAmount := datum.askAmount - required }

/-- The seller's address, for either kind of leg. -/
def paymentAddress (leg : ResolvedLeg) : Except Thrown Str :=
  orThrow .exception
    (mesh.serializeKeyAddress leg.datum.paymentPubKeyHash leg.datum.paymentStakeKeyHash)

/-- The seller's payment, tagged with the order it settles. -/
def paymentOutput (leg : ResolvedLeg) (paymentAddress : Str) (amount : List Asset) :
    DraftOutput where
  address := paymentAddress
  amount := amount
  inlineDatum := encodePaymentTag leg.ref.txHash leg.ref.outputIndex

/-- The rest of the order, locked where the order was. -/
def continuationOutput (leg : ResolvedLeg) (takeAmount required : ℤ) : DraftOutput where
  address := leg.utxo.address
  amount := continuationAmount (unitOf leg.datum.offer) takeAmount leg.utxo.amount
  inlineDatum := encodeOrderDatum (continuationDatum leg.datum takeAmount required)

/-- A full fill: the tagged payment, the beacons burned. -/
def buildFullLeg (leg : ResolvedLeg) : Except Thrown LegDraft := do
  let paymentAddress ← paymentAddress mesh leg
  return {
    spend := spendOrder scripts opts leg.toResolvedOrder TAKE_REDEEMER
    outputs := [paymentOutput leg paymentAddress (fullPayment leg.datum leg.deposit)]
    burnNames := leg.beaconNames }

/-- A partial fill: the tagged payment, the rest locked again. -/
def buildPartialLeg (leg : ResolvedLeg) (takeAmount : ℤ) : Except Thrown LegDraft := do
  let paymentAddress ← paymentAddress mesh leg
  throwIf (leg.datum.allowPartialFill = false)
    (.buildError .invalidRequest ("order ".toList ++ leg.orderId ++
      " does not allow partial fills — take it fully instead".toList))
  throwIf (takeAmount ≤ 0) (invalidRequest "takeAmount must be positive")
  throwIf (takeAmount ≥ leg.datum.offerAmount)
    (.buildError .invalidRequest ("takeAmount ".toList ++ showInt takeAmount ++
      " is the whole order (".toList ++ showInt leg.datum.offerAmount ++
      ") — omit takeAmount to take it fully (that also returns the seller's deposit)".toList))
  let required ← orThrow .exception
    (requiredPayment takeAmount leg.datum.askAmount leg.datum.offerAmount)
  throwIf (required ≥ leg.datum.askAmount)
    (.buildError .invalidRequest ("takeAmount ".toList ++ showInt takeAmount ++
      " would exhaust the order's ask (".toList ++ showInt required ++ " of ".toList ++
      showInt leg.datum.askAmount ++ ") — take the order fully instead".toList))
  return {
    spend := spendOrder scripts opts leg.toResolvedOrder (takePartialRedeemer takeAmount)
    outputs := [paymentOutput leg paymentAddress (partialPayment leg.datum required),
      continuationOutput leg takeAmount required]
    burnNames := [] }

/-- Whole without an amount to take, in part with one. -/
def buildLeg (leg : ResolvedLeg) : Except Thrown LegDraft :=
  match leg.takeAmount with
  | none => buildFullLeg mesh scripts opts leg
  | some takeAmount => buildPartialLeg mesh scripts opts leg takeAmount

/-- The order of a leg, with what is asked of it. -/
def resolveLeg (leg : TakeLeg) : Except Thrown ResolvedLeg := do
  let order ← resolveOrder mesh scripts p leg.orderId
  return { order with orderId := leg.orderId, takeAmount := leg.takeAmount }

/-- An order whose expiration has come can only be cancelled. -/
def checkExpiry (leg : ResolvedLeg) : Except Thrown Unit :=
  throwIf (leg.datum.expiration.any fun t => t.le (.finite now))
    (.buildError .orderExpired ("order ".toList ++ leg.orderId ++
      " has expired — it can only be cancelled by its owner".toList))

/-- The earliest expiration, as a slot. -/
def validityBound (legs : List ResolvedLeg) : Option JsNumber :=
  match legs.filterMap fun leg => leg.datum.expiration with
  | [] => none
  | first :: rest => some (mesh.unixTimeToEnclosingSlot (minimum first rest))

/-- `TakeManyOrders`: all legs in one transaction, in the order of the inputs. -/
def buildTakeManyOrders (params : TakeManyOrdersParams) : Except Thrown TxDraft := do
  throwIf (params.orders = []) (invalidRequest "no orders given")
  throwIf (¬(params.orders.map TakeLeg.orderId).Nodup) (invalidRequest "duplicate order ids")
  throwIf (params.orders.length > opts.maxOrders)
    (.buildError .invalidRequest ("at most ".toList ++ decimal opts.maxOrders ++
      " orders fit in one transaction — split the route into batches".toList))
  let unsorted ← params.orders.mapM (resolveLeg mesh scripts p)
  let legs := unsorted.insertionSort inInputOrder
  legs.forM (checkExpiry now)
  -- continuations come out in the order of the inputs they belong to
  let drafts ← legs.mapM (buildLeg mesh scripts opts)
  let wallet ← attachCommon params.wallet
  return {
    spends := drafts.map LegDraft.spend
    mints := mintBeacons scripts (drafts.flatMap LegDraft.burnNames) (-1)
    outputs := drafts.flatMap LegDraft.outputs
    requiredSigners := []
    invalidHereafter := validityBound mesh legs
    wallet := wallet }

end Builder

/-!
## Totals

Sums over the lists that are kept by key, for the summary and for the burns.
-/

section Totals

variable {M : Type*} [AddCommMonoid M] {f : Str → ℤ → M}

/-- Adding at a key raises the total by what is added. -/
theorem sum_addAt (hf : ∀ key m n, f key (m + n) = f key m + f key n) (key : Str) (n : ℤ)
    (m : List (Str × ℤ)) :
    ((addAt key n m).map fun entry => f entry.1 entry.2).sum =
      (m.map fun entry => f entry.1 entry.2).sum + f key n := by
  induction m with
  | nil => simp [addAt]
  | cons entry m ih =>
      rw [addAt]
      split
      · next hkey =>
        subst hkey
        simp only [List.map_cons, List.sum_cons, hf]
        abel
      · simp only [List.map_cons, List.sum_cons, ih, add_assoc]

/-- Counting names keeps what they add up to. -/
theorem sum_countNames (hf : ∀ key m n, f key (m + n) = f key m + f key n) (names : List Str) :
    ((countNames names).map fun entry => f entry.1 entry.2).sum =
      (names.map fun name => f name 1).sum := by
  suffices ∀ counts, ((names.foldl (fun counts name => addAt name 1 counts) counts).map
      fun entry => f entry.1 entry.2).sum =
      (counts.map fun entry => f entry.1 entry.2).sum + (names.map fun name => f name 1).sum from
    (this []).trans (by simp)
  induction names with
  | nil => simp
  | cons name names ih =>
      intro counts
      rw [List.foldl_cons, ih, sum_addAt hf, List.map_cons, List.sum_cons, add_assoc]

/-- What is recorded under `key`. -/
def valueAt (key : Str) (m : List (Str × ℤ)) : ℤ :=
  (m.map fun entry => if entry.1 = key then entry.2 else 0).sum

/-- Adding at a key changes the entry under this key only. -/
theorem valueAt_addAt (key key' : Str) (n : ℤ) (m : List (Str × ℤ)) :
    valueAt key (addAt key' n m) = valueAt key m + if key' = key then n else 0 := by
  refine sum_addAt (f := fun k n => if k = key then n else 0) ?_ key' n m
  intro k m n
  split <;> simp

/-- The keys stay distinct. -/
theorem addAt_keys (key : Str) (n : ℤ) (m : List (Str × ℤ)) :
    (addAt key n m).map Prod.fst =
      if key ∈ m.map Prod.fst then m.map Prod.fst else m.map Prod.fst ++ [key] := by
  induction m with
  | nil => simp [addAt]
  | cons entry m ih =>
      rw [addAt]
      by_cases hkey : entry.1 = key
      · rw [if_pos hkey, if_pos (by simp [hkey])]
        rfl
      · have hmem : key ∈ (entry :: m).map Prod.fst ↔ key ∈ m.map Prod.fst := by
          simp [Ne.symm hkey]
        rw [if_neg hkey, List.map_cons, ih]
        simp only [hmem]
        split <;> rfl

/-- No key is listed twice. -/
theorem addAt_nodup (key : Str) (n : ℤ) {m : List (Str × ℤ)} (h : (m.map Prod.fst).Nodup) :
    ((addAt key n m).map Prod.fst).Nodup := by
  rw [addAt_keys]
  split
  · exact h
  · next hfresh => exact h.append (List.nodup_singleton _) (by simpa using hfresh)

/-- A key that does not occur has no value. -/
theorem valueAt_of_notMem {key : Str} {m : List (Str × ℤ)} (h : key ∉ m.map Prod.fst) :
    valueAt key m = 0 := by
  apply List.sum_eq_zero
  intro n hn
  obtain ⟨entry, hentry, rfl⟩ := List.mem_map.mp hn
  rw [if_neg]
  rintro rfl
  exact h (List.mem_map_of_mem hentry)

/-- With distinct keys an entry holds what is recorded under its key. -/
theorem valueAt_of_mem {key : Str} {n : ℤ} {m : List (Str × ℤ)} (h : (m.map Prod.fst).Nodup)
    (hmem : (key, n) ∈ m) : valueAt key m = n := by
  induction m with
  | nil => cases hmem
  | cons entry m ih =>
      obtain ⟨hfresh, hm⟩ := List.nodup_cons.mp h
      rw [valueAt, List.map_cons, List.sum_cons]
      rcases List.mem_cons.mp hmem with rfl | hmem
      · rw [if_pos rfl, add_eq_left]
        exact valueAt_of_notMem hfresh
      · rw [if_neg, zero_add]
        · exact ih hm hmem
        · rintro rfl
          exact hfresh (List.mem_map.mpr ⟨(entry.1, n), hmem, rfl⟩)

theorem valueAt_perm (key : Str) {m m' : List (Str × ℤ)} (h : m.Perm m') :
    valueAt key m = valueAt key m' :=
  (h.map _).sum_eq

/-- Dropping zero entries changes no value. -/
theorem valueAt_filter_ne_zero (key : Str) (m : List (Str × ℤ)) :
    valueAt key (m.filter fun entry => entry.2 ≠ 0) = valueAt key m := by
  induction m with
  | nil => rfl
  | cons entry m ih =>
      by_cases hzero : entry.2 = 0
      · rw [List.filter_cons_of_neg (by simpa using hzero), ih, valueAt, valueAt, List.map_cons,
          List.sum_cons, hzero, ite_self, zero_add]
      · rw [List.filter_cons_of_pos (by simpa using hzero), valueAt, List.map_cons, List.sum_cons]
        exact congrArg _ ih

/-- Values follow their keys when these are renamed apart. -/
theorem valueAt_map {f : Str → Str} {key : Str} {m : List (Str × ℤ)}
    (h : ∀ key' ∈ m.map Prod.fst, f key' = f key → key' = key) :
    valueAt (f key) (m.map fun entry => (f entry.1, entry.2)) = valueAt key m := by
  rw [valueAt, List.map_map, valueAt]
  congr 1
  apply List.map_congr_left
  intro entry hentry
  have hiff : f entry.1 = f key ↔ entry.1 = key :=
    ⟨h _ (List.mem_map_of_mem hentry), congrArg f⟩
  simp only [Function.comp_apply, hiff]

theorem mem_of_valueAt_ne_zero {key : Str} {m : List (Str × ℤ)} (h : (m.map Prod.fst).Nodup)
    (hne : valueAt key m ≠ 0) : (key, valueAt key m) ∈ m := by
  have hkey : key ∈ m.map Prod.fst := by
    by_contra hfresh
    exact hne (valueAt_of_notMem hfresh)
  obtain ⟨⟨k, n⟩, hmem, rfl⟩ := List.mem_map.mp hkey
  rwa [valueAt_of_mem h hmem]

end Totals

/-- The least of finite numbers is finite. -/
theorem minimum_finite (first : ℤ) (rest : List ℤ) :
    ∃ least, minimum (.finite first) (rest.map .finite) = .finite least ∧ least ≤ first ∧
      ∀ t ∈ rest, least ≤ t := by
  induction rest generalizing first with
  | nil => exact ⟨first, rfl, le_rfl, by simp⟩
  | cons t rest ih =>
      have hstep : minimum (.finite first) ((t :: rest).map .finite) =
          minimum (.finite (min first t)) (rest.map .finite) := by
        simp only [minimum, List.map_cons, List.foldl_cons, JsNumber.le, decide_eq_true_eq, min_def]
        split <;> rfl
      obtain ⟨least, hleast, hfirst, hrest⟩ := ih (min first t)
      refine ⟨least, hstep.trans hleast, hfirst.trans (min_le_left _ _), ?_⟩
      intro u hu
      rcases List.mem_cons.mp hu with rfl | hu
      · exact hfirst.trans (min_le_right _ _)
      · exact hrest u hu

/-!
## What a build says

A build that succeeds is inverted once, into the facts that its checks have established;
what follows uses these records.
-/

section Specs

variable {mesh : Mesh} {scripts : ProtocolScripts} {opts : BuilderOptions} {p : ChainProvider}
variable {now : ℤ}

/-- The output an order id names. -/
def orderTarget (orderId : Str) : Option OutRef := (matchOrderId orderId).bind outRefAt

theorem txHash_of_orderTarget {orderId : Str} {ref : OutRef}
    (h : orderTarget orderId = some ref) :
    ref.txHash.length = 64 ∧ ref.txHash.all isLowerHex = true := by
  obtain ⟨⟨txHash, index⟩, hmatch, href⟩ := Option.bind_eq_some_iff.mp h
  have htx : ref.txHash = txHash := by
    cases index with
    | finite n => rw [← Option.some.inj href]
    | infinite negative => cases href
  unfold matchOrderId at hmatch
  split at hmatch
  · rw [Option.ite_none_right_eq_some, Option.some.injEq, Prod.mk.injEq] at hmatch
    obtain ⟨⟨hlen, hhex, -⟩, rfl, -⟩ := hmatch
    rw [htx]
    exact ⟨hlen, hhex⟩
  · cases hmatch

/-- **What a resolved order is**: the UTxO its id names, with the datum and the
beacons the chain shows. -/
structure Resolved (mesh : Mesh) (scripts : ProtocolScripts) (p : ChainProvider) (orderId : Str)
    (order : ResolvedOrder) : Prop where
  target : orderTarget orderId = some order.ref
  fetched : p.getUtxo order.ref = .ok (some order.utxo)
  datum : ∃ cbor, order.utxo.plutusData = some cbor ∧
    decodeOrderDatum mesh cbor = some order.datum
  policy : order.datum.beaconPolicyId = scripts.beaconPolicyId
  beaconNames : order.beaconNames =
    (deriveBeaconNames mesh order.datum.offer order.datum.ask order.datum.ownerKeyHash).values
  beacons : holdsBeacons scripts order.utxo.amount order.beaconNames = true
  deposit : order.deposit = depositOf order.datum order.utxo.amount

/-- An order that is resolved is what `Resolved` says: live, at the script, with a datum
that decodes. -/
theorem resolveOrder_eq_ok {orderId : Str} {order : ResolvedOrder}
    (h : resolveOrder mesh scripts p orderId = .ok order) :
    Resolved mesh scripts p orderId order := by
  simp only [resolveOrder, bind, bind_eq_ok, orThrow_eq_ok, throwIf_eq_ok, call_eq_ok, pure,
    Except.pure, Except.ok.injEq, not_not, Bool.not_eq_false, Option.filter_eq_some_iff] at h
  obtain ⟨target, htarget, ref, href, _, hfetched, utxo, rfl, cbor, ⟨hcbor, -⟩, datum, hdatum, -,
    hpolicy, -, hbeacons, rfl⟩ := h
  exact ⟨Option.bind_eq_some_iff.mpr ⟨target, htarget, href⟩, hfetched, ⟨cbor, hcbor, hdatum⟩,
    hpolicy, rfl, hbeacons, rfl⟩

theorem resolveLeg_eq_ok {leg : TakeLeg} {resolved : ResolvedLeg}
    (h : resolveLeg mesh scripts p leg = .ok resolved) :
    Resolved mesh scripts p leg.orderId resolved.toResolvedOrder ∧
      resolved.takeAmount = leg.takeAmount := by
  simp only [resolveLeg, bind, bind_eq_ok, pure, Except.pure, Except.ok.injEq] at h
  obtain ⟨order, horder, rfl⟩ := h
  exact ⟨resolveOrder_eq_ok horder, rfl⟩

/-- **What an accepted batch is**: distinct ids, at most as many as are allowed, each
resolved to a live order that has not expired; and a draft that is put together from the
drafts of its legs, in the order in which the ledger will sort the inputs. -/
structure Batch (mesh : Mesh) (scripts : ProtocolScripts) (opts : BuilderOptions)
    (p : ChainProvider) (now : ℤ) (params : TakeManyOrdersParams) (unsorted : List ResolvedLeg)
    (drafts : List LegDraft) (draft : TxDraft) : Prop where
  nonempty : params.orders ≠ []
  ids_nodup : (params.orders.map TakeLeg.orderId).Nodup
  capped : params.orders.length ≤ opts.maxOrders
  resolved : List.Forall₂ (fun leg resolved => resolveLeg mesh scripts p leg = .ok resolved)
    params.orders unsorted
  unexpired : ∀ leg ∈ unsorted.insertionSort inInputOrder, checkExpiry now leg = .ok ()
  built : List.Forall₂ (fun leg draft => buildLeg mesh scripts opts leg = .ok draft)
    (unsorted.insertionSort inInputOrder) drafts
  spends : draft.spends = drafts.map LegDraft.spend
  mints : draft.mints = mintBeacons scripts (drafts.flatMap LegDraft.burnNames) (-1)
  outputs : draft.outputs = drafts.flatMap LegDraft.outputs
  bound : draft.invalidHereafter = validityBound mesh (unsorted.insertionSort inInputOrder)

/-- A batch that is answered has passed all checks, and its draft is put together from the
drafts of its legs in the order of the inputs. -/
theorem buildTakeManyOrders_eq_ok {params : TakeManyOrdersParams} {draft : TxDraft}
    (h : buildTakeManyOrders mesh scripts opts p now params = .ok draft) :
    ∃ unsorted drafts, Batch mesh scripts opts p now params unsorted drafts draft := by
  simp only [buildTakeManyOrders, bind, bind_eq_ok, throwIf_eq_ok, mapM_eq_ok, forM_eq_ok, pure,
    Except.pure, Except.ok.injEq, not_not, not_lt, gt_iff_lt] at h
  obtain ⟨-, hne, -, hnodup, -, hcap, unsorted, hresolved, -, hexpiry, drafts, hbuilt, wallet, -,
    rfl⟩ := h
  exact ⟨unsorted, drafts, hne, hnodup, hcap, hresolved, hexpiry, hbuilt, rfl, rfl, rfl, rfl⟩

end Specs

end BeaconDex.Backend
