import BeaconDex.Backend.PairIdentity
import BeaconDex.Backend.RankAgreement

/-!
# Created orders, from the request to the cache

An order's payment address is taken apart and put together three times: the
builder has the hashes Mesh reports of the requested text, the datum has
credentials, and the indexer writes a text again.  `buildCreateOrder` reads the
two key hashes of an address and turns script payment parts away; a staking part
that is no key has no place in what it keeps.

What the builder asks for always passes the minting policy, on the terms requested
(`created_minted`).  It is paid where the request says exactly when the staking part
of that address is absent or an inline key (`createsAsRequested_iff`).

## What gets lost on the way

The address in a request is a text of any kind the ledger knows.  What reaches the datum
are two key hashes, and a staking part that is a script or a pointer is not among them,
so that the order is paid at another address than the one requested.  The request is not
turned away for it.  Which requests are served as they are meant is the condition of
`createsAsRequested_iff`, in terms of the address alone.
-/

namespace BeaconDex.Backend

open Library

/-! ## The response -/

/-- The summary of a creation; its sentences are left out. -/
structure CreateSummary where
  offered : Str × ℤ
  requested : Str × ℤ
  depositLovelace : ℤ
  minted : List Str
  orderAddress : Str
  paymentAddress : Str
  expiration : Option JsNumber

/-- The address to be paid at: the wallet's own without another. -/
def CreateOrderParams.payTo (params : CreateOrderParams) : Str :=
  params.paymentAddress.getD params.wallet.changeAddress

section

variable (mesh : Mesh) (scripts : ProtocolScripts) (opts : BuilderOptions) (now : ℤ)

/-- The whole response of `buildCreateOrder`. -/
def respondCreateOrder (params : CreateOrderParams) :
    Except Thrown (TxDraft × CreateSummary) := do
  let draft ← buildCreateOrder mesh scripts opts now params
  let offer ← orThrow .exception (fromApiAssetId params.offerAsset)
  let ask ← orThrow .exception (fromApiAssetId params.askAsset)
  let change ← parseAddress mesh params.wallet.changeAddress "change address"
  let orderAddress ← orThrow .exception (scripts.orderAddressFor mesh change.stakeCredentialHash)
  return (draft, {
    offered := (params.offerAsset, params.offerAmount)
    requested := (params.askAsset, params.askAmount)
    depositLovelace := opts.depositLovelace
    minted := (deriveBeaconNames mesh offer ask change.stakeCredentialHash).values
    orderAddress
    paymentAddress := params.payTo
    expiration := params.expiration })

end

/-! ## Asset ids of a request -/

theorem hexDigit_ne_dot : ∀ n < 16, hexDigit n ≠ '.' := by decide

theorem isLowerHex_hexDigit : ∀ n < 16, isLowerHex (hexDigit n) = true := by decide

theorem dot_notMem_hexOf (b : Bytes) : '.' ∉ hexOf b := by
  intro hmem
  obtain ⟨n, hn, hc⟩ := mem_hexOf hmem
  exact hexDigit_ne_dot n hn hc.symm

theorem all_isLowerHex_hexOf (b : Bytes) : (hexOf b).all isLowerHex = true := by
  rw [List.all_eq_true]
  intro c hc
  obtain ⟨n, hn, rfl⟩ := mem_hexOf hc
  exact isLowerHex_hexDigit n hn

/-- **An asset id is read back**, for every asset the ledger knows. -/
theorem fromApiAssetId_toApiAssetId {a : AssetClass} (h : Native a) :
    fromApiAssetId (toApiAssetId (assetHex a)) = some (assetHex a) := by
  cases hada : BeaconDex.isAda a with
  | true =>
      obtain rfl := isAda_eq_true_iff.mp hada
      rfl
  | false =>
      obtain ⟨hpolicy, hname⟩ := h.resolve_left (by simp [hada])
      have hid : toApiAssetId (assetHex a) = hexOf a.policyId ++ '.' :: hexOf a.assetName := by
        rw [toApiAssetId, isAda_assetHex, hada, if_neg (by simp)]
        rfl
      have hne : hexOf a.policyId ++ '.' :: hexOf a.assetName ≠ "lovelace".toList := by
        intro heq
        have hdot : '.' ∈ "lovelace".toList := by
          rw [← heq]
          exact List.mem_append_right _ List.mem_cons_self
        exact absurd hdot (by decide)
      have hsplit : (hexOf a.policyId ++ '.' :: hexOf a.assetName).splitOn '.' =
          [hexOf a.policyId, hexOf a.assetName] := by
        rw [List.splitOn_append_cons_self, List.splitOn_eq_singleton (dot_notMem_hexOf _),
          List.splitOn_eq_singleton (dot_notMem_hexOf _)]
        rfl
      rw [hid, fromApiAssetId, if_neg hne, hsplit]
      refine if_pos ⟨?_, all_isLowerHex_hexOf _, all_isLowerHex_hexOf _, ?_⟩
      · rw [length_hexOf, hpolicy]
      · rw [length_hexOf]
        omega

/-!
## Addresses as Mesh reports them

An address is reported as three hashes, of which the absent ones are empty.  What kind
of credential a hash is of is not reported.
-/

/-- The key hash and the script hash of a credential, one of them empty. -/
def hashesOf : Credential → Str × Str
  | .verificationKey hash => (hexOf hash, [])
  | .script hash => ([], hexOf hash)

/-- The hashes of both parts of an address, empty where there is none. -/
def partsOf (address : Address) : DeserializedAddress :=
  let payment := hashesOf address.paymentCredential
  let stake := match address.stakeCredential with
    | some (.inline credential) => hashesOf credential
    | _ => ([], [])
  ⟨payment.1, payment.2, stake.1, stake.2⟩

/-- **What Mesh documents of the addresses it can parse**: it reports their parts, a
staking key has 28 bytes, and what it reports of an address paid at a key it can
write again. -/
structure ReadsAddresses (mesh : Mesh) (reading : ChainReading) : Prop where
  parts : ∀ text parts, mesh.deserializeAddress text = some parts →
    parts = partsOf (reading.address text)
  stakeKey_length : ∀ text parts key, mesh.deserializeAddress text = some parts →
    (reading.address text).stakeCredential = some (.inline (.verificationKey key)) →
      key.length = 28
  serializes : ∀ text parts, mesh.deserializeAddress text = some parts → parts.pubKeyHash ≠ [] →
    (mesh.serializeKeyAddress parts.pubKeyHash
      (if parts.stakeCredentialHash = [] then none else some parts.stakeCredentialHash)).isSome

/-- The staking part is absent, or an inline key. -/
def KeyStaked (address : Address) : Prop :=
  address.stakeCredential = none ∨
    ∃ key, address.stakeCredential = some (.inline (.verificationKey key))

/-- An address that was made of key hashes has a key, or nothing, for its staking part. -/
theorem keyStaked_addressOfKeys (key : VerificationKeyHash) (stake : Option VerificationKeyHash) :
    KeyStaked (addressOfKeys key stake) := by
  cases stake with
  | none => exact .inl rfl
  | some stake => exact .inr ⟨stake, rfl⟩

/-- Such an address is put together again from the key hashes reported of it. -/
theorem addressOfKeys_of_partsOf {address : Address} {key : VerificationKeyHash}
    {stake : Option VerificationKeyHash} (hstaked : KeyStaked address)
    (hlength : ∀ key, address.stakeCredential = some (.inline (.verificationKey key)) →
      key.length = 28)
    (hne : (partsOf address).pubKeyHash ≠ []) (hkey : (partsOf address).pubKeyHash = hexOf key)
    (hstake : stake.map hexOf = if (partsOf address).stakeCredentialHash = [] then none
      else some (partsOf address).stakeCredentialHash) :
    addressOfKeys key stake = address := by
  obtain ⟨payment, part⟩ := address
  cases payment with
  | script hash => exact absurd rfl hne
  | verificationKey key' =>
      obtain rfl : key' = key := hexOf_injective hkey
      obtain rfl | ⟨stakeKey, rfl⟩ : part = none ∨
          ∃ stakeKey, part = some (.inline (.verificationKey stakeKey)) := hstaked
      · rw [Option.map_eq_none_iff.mp hstake]
        rfl
      · have hhash : hexOf stakeKey ≠ [] := by
          intro hnil
          have hzero := congrArg List.length hnil
          rw [length_hexOf, hlength stakeKey rfl] at hzero
          cases hzero
        have hsome : stake.map hexOf = some (hexOf stakeKey) := hstake.trans (if_neg hhash)
        obtain ⟨key, rfl, hhex⟩ := Option.map_eq_some_iff.mp hsome
        rw [hexOf_injective hhex]
        rfl

/-!
## What was asked for

The request's terms, as they should be found in the datum and in the row.
-/

/-- The terms of a datum are those of the request. -/
structure Requested (params : CreateOrderParams) (offer ask : AssetClass) (datum : OrderDatum) :
    Prop where
  offer : datum.offer = offer
  offerAmount : datum.offerAmount = params.offerAmount
  ask : datum.ask = ask
  askAmount : datum.askAmount = params.askAmount
  expiration : params.expiration = datum.expiration.map .finite
  allowPartialFill : datum.allowPartialFill = params.allowPartialFill.getD false

/-- A cached row reports the terms of the request, the deposit, and the address to be
paid at. -/
structure ReportedAs (reading : ChainReading) (opts : BuilderOptions) (params : CreateOrderParams)
    (offer ask : AssetClass) (row : Order) : Prop where
  offered : AssetClassHex.mk row.offeredPolicyId row.offeredAssetName = assetHex offer
  offeredAmount : row.offeredAmount = params.offerAmount
  requested : AssetClassHex.mk row.requestedPolicyId row.requestedAssetName = assetHex ask
  requestedAmount : row.requestedAmount = params.askAmount
  deposit : row.depositLovelace = opts.depositLovelace
  expiration : row.expiration = params.expiration
  allowPartialFill : row.allowPartialFill = params.allowPartialFill.getD false
  paymentAddress : reading.address row.paymentAddress = reading.address params.payTo

/-- **The draft creates what was asked for**: one output with a datum on the terms of
the request, in whatever transaction is assembled from it one the minting policy
accepts. -/
structure Creates (d : Deployment) (reading : ChainReading) (params : CreateOrderParams)
    (offer ask : AssetClass) (draft : TxDraft) (o : DraftOutput) (datum : OrderDatum) : Prop where
  outputs : draft.outputs = [o]
  encodes : reading.data o.inlineDatum = toData datum
  terms : Requested params offer ask datum
  minted : ∀ utxo tx, Assembles d reading utxo draft tx →
    mintBeaconsOk d.sha2_256 d.orderScriptHash d.policyId tx = some true

/-- **…and it is paid where it was asked**: the datum has the address the summary
shows, and so has the row of every report of the output. -/
structure CreatesAsRequested (d : Deployment) (mesh : Mesh) (reading : ChainReading)
    (opts : BuilderOptions) (indexer : IndexerOptions) (params : CreateOrderParams)
    (offer ask : AssetClass) (draft : TxDraft) (summary : CreateSummary) (o : DraftOutput)
    (datum : OrderDatum) : Prop extends Creates d reading params offer ask draft o datum where
  shown : summary.paymentAddress = params.payTo
  paidAt : datum.paymentAddress = reading.address params.payTo
  reported : ∀ text u, Shows mesh reading text u (reading.output o) →
    (mesh.deserializeAddress u.address).isSome →
      ∃ row, validateAndMap mesh indexer u = some row ∧
        ReportedAs reading opts params offer ask row

/-!
## The pieces agree

The builder's output with the policy's checks, the datum with the request, and the row
with both.
-/

section

variable {d : Deployment} {mesh : Mesh} {scripts : ProtocolScripts} {reading : ChainReading}
variable {opts : BuilderOptions} {indexer : IndexerOptions} {params : CreateOrderParams}
variable {draft : TxDraft} {o : DraftOutput} {k : KeyOrder} {names : List AssetName}
variable {pay : DeserializedAddress}

/-- The order is the one output with beacons, and they are all that is minted. -/
theorem CreatedTerms.mintBeaconsOk_eq (h : Documented d mesh scripts reading)
    (hterms : CreatedTerms d mesh scripts reading opts params draft o k names pay)
    (hdistinct : k.offer ≠ k.ask) {utxo : Utxo} {tx : Transaction}
    (hassembles : Assembles d reading utxo draft tx) :
    mintBeaconsOk d.sha2_256 d.orderScriptHash d.policyId tx = some true := by
  obtain ⟨change, houtputs, hchange⟩ := hassembles.outputs
  rw [hterms.outputs, List.map_singleton, List.singleton_append] at houtputs
  have hbears : bearsBeacons d.policyId (reading.output o) = true :=
    bearsBeacons_eq_true.mpr (hterms.wellFormed.tokens_ne_zero d.policyId_ne_ada)
  have hplain : change.filter (bearsBeacons d.policyId) = [] := by
    rw [List.filter_eq_nil_iff]
    intro out hout hbears
    exact bearsBeacons_eq_true.mp hbears (hchange out hout).1
  refine (mintBeaconsOk_eq_some_true _).mpr ⟨reading.output o, k.datum, k.owner, names, ?_⟩
  exact {
    only := by
      rw [beaconBearingOutputs, houtputs, List.filter_cons_of_pos hbears, hplain]
    order := hterms.wellFormed
    paymentIsKey := ⟨k.paymentKey, rfl⟩
    distinct := hdistinct
    minted := by
      rw [hassembles.mint, hterms.mints, mintOf_mintBeacons h, one_zsmul] }

/-- **The datum is paid at the requested address** exactly when that has no other
staking part than a key. -/
theorem CreatedTerms.paymentAddress_eq_iff (hreads : ReadsAddresses mesh reading)
    (hterms : CreatedTerms d mesh scripts reading opts params draft o k names pay) :
    k.datum.paymentAddress = reading.address params.payTo ↔
      KeyStaked (reading.address params.payTo) := by
  constructor
  · intro h
    rw [← h]
    exact keyStaked_addressOfKeys _ _
  · intro hstaked
    have hpay : pay = partsOf (reading.address params.payTo) :=
      hreads.parts _ _ hterms.deserialized
    have hne := hterms.paymentKey_ne
    have hkey := hterms.paymentKey
    have hstake := hterms.paymentStake
    rw [hpay] at hne hkey hstake
    exact addressOfKeys_of_partsOf hstaked
      (fun key => hreads.stakeKey_length _ _ key hterms.deserialized) hne hkey hstake

/-- **Every report of an order is accepted**, on the order's terms, if its seller can
be paid. -/
theorem exists_row_of_wellFormed (h : Documented d mesh scripts reading)
    (hreads : ReadsAddresses mesh reading) (hfollows : Follows d indexer)
    (hinj : Set.InjOn d.sha2_256 (beaconPreimages k.offer k.ask)) {out : Output}
    (hwf : WellFormedOrder d.sha2_256 d.orderScriptHash d.policyId out k.datum k.owner names)
    (hseller : (paymentAddressBech32 mesh k.fields).isSome)
    {text : Address → Str} {u : UTxO} (hu : Shows mesh reading text u out)
    (hparses : (mesh.deserializeAddress u.address).isSome) :
    ∃ row, validateAndMap mesh indexer u = some row ∧ MappedRow mesh u k.fields row := by
  -- the address is the owner's order address
  obtain ⟨addr, haddr⟩ := Option.isSome_iff_exists.mp hparses
  have haddress : reading.address u.address =
      ⟨.script d.orderScriptHash, some (.inline (.verificationKey k.owner))⟩ := by
    rw [hu.address, ← hwf.payment, ← hwf.stake]
  have hparts := hreads.parts _ _ haddr
  rw [haddress] at hparts
  have howner := hreads.stakeKey_length _ _ k.owner haddr (by rw [haddress])
  -- the datum reads back
  obtain ⟨cbor, hcbor, hnode⟩ := hu.datum _ hwf.inline
  have hdecode : decodeOrderDatum mesh cbor = some k.fields := by
    rw [decodeOrderDatum, hnode, KeyOrder.decodeNode_toData]
  have hne : cbor ≠ [] := by
    rintro rfl
    exact hu.datum_ne hcbor
  have hpolicy : k.fields.beaconPolicyId = indexer.beaconPolicyId := by
    rw [hfollows.beaconPolicyId, ← show k.policyId = d.policyId from hwf.policy]
    rfl
  -- each beacon is there once
  have hnodup := beaconNames_nodup d.sha2_256 d.sha2_256_length hinj howner hwf.names_eq
  have hbeacons : ∀ name ∈ (deriveBeaconNames mesh k.fields.offer k.fields.ask
      k.fields.ownerKeyHash).values, qty u.amount (indexer.beaconPolicyId ++ name) = 1 := by
    intro name hname
    rw [show (deriveBeaconNames mesh k.fields.offer k.fields.ask k.fields.ownerKeyHash).values =
      names.map hexOf from deriveBeaconNames_values h.sha256 hwf.names_eq] at hname
    obtain ⟨name, hmem, rfl⟩ := List.mem_map.mp hname
    rw [qty_beaconUnit hfollows hu, hwf.tokens_eq d.policyId_ne_ada, tokens_oneOfEach_apply,
      List.count_eq_one_of_mem hnodup hmem]
    rfl
  have hdeposit := isSome_verifiedDeposit hwf hu k.paymentKey k.paymentStake
  rw [KeyOrder.fieldsOf_datum] at hdeposit
  obtain ⟨row, hrow⟩ := Option.isSome_iff_exists.mp (isSome_validateAndMap.mpr ⟨addr, cbor,
    k.fields, haddr, by rw [hparts, hfollows.orderValidatorHash]; rfl, hcbor, hne, hdecode, hpolicy,
    by rw [hparts]; rfl, hbeacons, hdeposit, hseller⟩)
  exact ⟨row, hrow, mappedRow_of_validateAndMap hrow hcbor hdecode⟩

/-- …of a created one in particular: what Mesh could parse it can write. -/
theorem CreatedTerms.exists_row (h : Documented d mesh scripts reading)
    (hreads : ReadsAddresses mesh reading) (hfollows : Follows d indexer)
    (hinj : Set.InjOn d.sha2_256 (beaconPreimages k.offer k.ask))
    (hterms : CreatedTerms d mesh scripts reading opts params draft o k names pay)
    {text : Address → Str} {u : UTxO} (hu : Shows mesh reading text u (reading.output o))
    (hparses : (mesh.deserializeAddress u.address).isSome) :
    ∃ row, validateAndMap mesh indexer u = some row ∧ MappedRow mesh u k.fields row := by
  refine exists_row_of_wellFormed h hreads hfollows hinj hterms.wellFormed ?_ hu hparses
  have hserializes := hreads.serializes _ _ hterms.deserialized hterms.paymentKey_ne
  rwa [← hterms.paymentStake, hterms.paymentKey] at hserializes

/-- The row of a report, where the datum is paid at the requested address. -/
theorem CreatedTerms.reportedAs (h : Documented d mesh scripts reading)
    (hterms : CreatedTerms d mesh scripts reading opts params draft o k names pay)
    (hpaid : k.datum.paymentAddress = reading.address params.payTo) {text : Address → Str}
    {u : UTxO} (hu : Shows mesh reading text u (reading.output o)) {row : Order}
    (hrow : MappedRow mesh u k.fields row) :
    ReportedAs reading opts params k.offer k.ask row where
  offered := hrow.offered
  offeredAmount := hrow.offeredAmount.trans hterms.offerAmount
  requested := hrow.requested
  requestedAmount := hrow.requestedAmount.trans hterms.askAmount
  deposit := by
    have hlovelace :
        qty u.amount "lovelace".toList = Assets.lovelaceOf (reading.output o).value := by
      rw [← held_of_isAda (show BeaconDex.isAda adaAsset = true from rfl),
        ← qty_unitOf hu.amount hu.unit_ne nameable_ada, unitOf_eq_lovelaceUnit rfl]
      rfl
    have hdeposit := hrow.deposit
    have hoffer : isAda k.fields.offer = BeaconDex.isAda k.offer := isAda_assetHex k.offer
    have hamount : k.fields.offerAmount = k.offerAmount := rfl
    simp only [verifiedDeposit, hlovelace, hterms.lovelace, hoffer, hamount] at hdeposit
    cases hada : BeaconDex.isAda k.offer with
    | true =>
        simp only [hada, if_true, Option.ite_none_left_eq_some, Option.some.injEq] at hdeposit
        omega
    | false =>
        simp only [hada, Bool.false_eq_true, if_false, Option.ite_none_left_eq_some,
          Option.some.injEq] at hdeposit
        exact hdeposit.2.symm
  expiration := hrow.expiration.trans hterms.expiration.symm
  allowPartialFill := hrow.allowPartialFill.trans hterms.allowPartialFill
  paymentAddress := by
    rw [← hpaid]
    exact h.serializeKeyAddress k.paymentKey k.paymentStake _ hrow.paymentAddress

end

/-!
## Creations

Requests for assets of the ledger, and what is made of them.
-/

section

variable {d : Deployment} {mesh : Mesh} {scripts : ProtocolScripts} {reading : ChainReading}
variable {opts : BuilderOptions} {indexer : IndexerOptions} {now : ℤ} {params : CreateOrderParams}
variable {offer ask : AssetClass} {draft : TxDraft} {summary : CreateSummary}

/-- **A request of the interface**: its asset ids are those of two assets, and its
expiration is a number that JavaScript has. -/
structure RequestFor (offer ask : AssetClass) (params : CreateOrderParams) : Prop where
  offer_native : Native offer
  ask_native : Native ask
  offerAsset : params.offerAsset = toApiAssetId (assetHex offer)
  askAsset : params.askAsset = toApiAssetId (assetHex ask)
  expiration_exact : ∀ t, params.expiration = some t → ∃ n, t = .finite n ∧ toNumber n = .finite n

/-- A request for assets of the ledger is one the creation results are about. -/
theorem RequestFor.proper (hrequest : RequestFor offer ask params) : params.Proper where
  offer_bytes a ha := by
    rw [hrequest.offerAsset, fromApiAssetId_toApiAssetId hrequest.offer_native] at ha
    obtain rfl := Option.some.inj ha
    exact ⟨_, length_hexOf _⟩
  ask_bytes a ha := by
    rw [hrequest.askAsset, fromApiAssetId_toApiAssetId hrequest.ask_native] at ha
    obtain rfl := Option.some.inj ha
    exact ⟨_, length_hexOf _⟩
  expiration_exact := hrequest.expiration_exact

/-- What an accepted request creates. -/
theorem RequestFor.exists_createdTerms (hrequest : RequestFor offer ask params)
    (h : Documented d mesh scripts reading) (hdeposit : 0 ≤ opts.depositLovelace)
    (hbuild : respondCreateOrder mesh scripts opts now params = .ok (draft, summary)) :
    ∃ o k names pay, CreatedTerms d mesh scripts reading opts params draft o k names pay ∧
      k.offer = offer ∧ k.ask = ask ∧ offer ≠ ask ∧ summary.paymentAddress = params.payTo := by
  simp only [respondCreateOrder, bind, bind_eq_ok, pure, Except.pure, Except.ok.injEq,
    Prod.mk.injEq] at hbuild
  obtain ⟨_, hbuild, offerHex, -, askHex, -, change, -, address, -, rfl, rfl⟩ := hbuild
  obtain ⟨o, k, names, pay, hterms⟩ := Backend.exists_createdTerms h hdeposit hrequest.proper hbuild
  have hoffer := hterms.offer
  rw [hrequest.offerAsset, fromApiAssetId_toApiAssetId hrequest.offer_native] at hoffer
  have hask := hterms.ask
  rw [hrequest.askAsset, fromApiAssetId_toApiAssetId hrequest.ask_native] at hask
  refine ⟨o, k, names, pay, hterms, (assetHex_injective (Option.some.inj hoffer)).symm,
    (assetHex_injective (Option.some.inj hask)).symm, ?_, rfl⟩
  rintro rfl
  exact hterms.distinct (hrequest.offerAsset.trans hrequest.askAsset.symm)

theorem CreatedTerms.creates {o : DraftOutput} {k : KeyOrder} {names : List AssetName}
    {pay : DeserializedAddress} (h : Documented d mesh scripts reading)
    (hterms : CreatedTerms d mesh scripts reading opts params draft o k names pay)
    (hdistinct : k.offer ≠ k.ask) : Creates d reading params k.offer k.ask draft o k.datum where
  outputs := hterms.outputs
  encodes := by rw [hterms.inlineDatum, h.data_fields]
  terms := ⟨rfl, hterms.offerAmount, rfl, hterms.askAmount, hterms.expiration,
    hterms.allowPartialFill⟩
  minted _ _ hassembles := hterms.mintBeaconsOk_eq h hdistinct hassembles

/-- **Whatever the address, the terms are the requested ones** and the minting policy
accepts. -/
theorem created_minted (h : Documented d mesh scripts reading) (hdeposit : 0 ≤ opts.depositLovelace)
    (hrequest : RequestFor offer ask params)
    (hbuild : respondCreateOrder mesh scripts opts now params = .ok (draft, summary)) :
    ∃ o datum, Creates d reading params offer ask draft o datum := by
  obtain ⟨o, k, names, pay, hterms, rfl, rfl, hdistinct, -⟩ :=
    hrequest.exists_createdTerms h hdeposit hbuild
  exact ⟨o, k.datum, hterms.creates h hdistinct⟩

/-- An address that a creation is paid at has no other staking part than a key. -/
theorem keyStaked_of_createsAsRequested (h : Documented d mesh scripts reading)
    (hreads : ReadsAddresses mesh reading) (hdeposit : 0 ≤ opts.depositLovelace)
    (hrequest : RequestFor offer ask params)
    (hbuild : respondCreateOrder mesh scripts opts now params = .ok (draft, summary))
    {o : DraftOutput} {datum : OrderDatum}
    (has : CreatesAsRequested d mesh reading opts indexer params offer ask draft summary o datum) :
    KeyStaked (reading.address params.payTo) := by
  obtain ⟨o', k, names, pay, hterms, rfl, rfl, hdistinct, -⟩ :=
    hrequest.exists_createdTerms h hdeposit hbuild
  have hcreates := hterms.creates h hdistinct
  -- there is one output, and one datum in it
  obtain rfl : o' = o := List.singleton_inj.mp (hcreates.outputs.symm.trans has.outputs)
  obtain rfl : k.datum = datum := toData_injective (hcreates.encodes.symm.trans has.encodes)
  exact (hterms.paymentAddress_eq_iff hreads).mp has.paidAt

/-- **Creation does what was asked** exactly when the staking part of the address to be
paid at is absent or an inline key.  The amounts, the assets, the owner and the policy's
approval are as requested in any case; the address the datum says, and the row that the
indexer reports, are so under this condition only. -/
theorem createsAsRequested_iff (h : Documented d mesh scripts reading)
    (hreads : ReadsAddresses mesh reading) (hfollows : Follows d indexer)
    (hdeposit : 0 ≤ opts.depositLovelace) (hrequest : RequestFor offer ask params)
    (hinj : Set.InjOn d.sha2_256 (beaconPreimages offer ask))
    (hbuild : respondCreateOrder mesh scripts opts now params = .ok (draft, summary)) :
    (∃ o datum, CreatesAsRequested d mesh reading opts indexer params offer ask draft summary o
      datum) ↔ KeyStaked (reading.address params.payTo) := by
  constructor
  · rintro ⟨o, datum, has⟩
    exact keyStaked_of_createsAsRequested h hreads hdeposit hrequest hbuild has
  · intro hstaked
    obtain ⟨o, k, names, pay, hterms, rfl, rfl, hdistinct, hshown⟩ :=
      hrequest.exists_createdTerms h hdeposit hbuild
    have hpaid := (hterms.paymentAddress_eq_iff hreads).mpr hstaked
    refine ⟨o, k.datum, hterms.creates h hdistinct, hshown, hpaid, ?_⟩
    intro text u hu hparses
    obtain ⟨row, hrow, hmapped⟩ := hterms.exists_row h hreads hfollows hinj hu hparses
    exact ⟨row, hrow, hterms.reportedAs h hpaid hu hmapped⟩

end

/-! The sale of the samples, paid at the seller's wallet, and at an address with a
script for its staking part. -/

namespace SampleCreation

open BeaconDex.Sample (deployment ownerKey sellerKey token)
open SampleBatch (scripts sellerWallet)
open SampleChain (orderAddress sellerAddress)

def scriptStaked : Str :=
  SampleChain.bech32 ((0x20 : Byte) :: sellerKey ++ deployment.orderScriptHash) "9yvus7"

def mesh : Mesh :=
  { SampleBatch.mesh with
    deserializeAddress := fun address =>
      if address = scriptStaked then
        some ⟨hexOf sellerKey, [], [], hexOf deployment.orderScriptHash⟩
      else SampleBatch.mesh.deserializeAddress address
    serializeKeyAddress := fun key stake =>
      if key = hexOf sellerKey ∧ stake = some (hexOf ownerKey) then some sellerWallet
      else SampleBatch.mesh.serializeKeyAddress key stake }

def reading : ChainReading :=
  { SampleBatch.reading with
    address := fun text =>
      if text = scriptStaked then
        ⟨.verificationKey sellerKey, some (.inline (.script deployment.orderScriptHash))⟩
      else if text = sellerWallet then addressOfKeys sellerKey (some ownerKey)
      else SampleBatch.reading.address text }

theorem reading_orderAddress : reading.address orderAddress =
    ⟨.script deployment.orderScriptHash, some (.inline (.verificationKey ownerKey))⟩ := by decide

theorem reading_sellerAddress : reading.address sellerAddress = addressOfKeys sellerKey none := by
  decide

theorem reading_sellerWallet :
    reading.address sellerWallet = addressOfKeys sellerKey (some ownerKey) := by decide

theorem reading_scriptStaked : reading.address scriptStaked =
    ⟨.verificationKey sellerKey, some (.inline (.script deployment.orderScriptHash))⟩ := by decide

theorem documented : Documented deployment mesh scripts reading where
  sha256 := rfl
  orderValidatorHash := rfl
  beaconPolicyId := rfl
  deserializeAddress text parts h := by
    simp only [mesh] at h
    split_ifs at h
    · cases h
      exact ⟨⟨sellerKey, rfl⟩, [], rfl⟩
    · exact SampleBatch.documented.deserializeAddress text parts h
  serializePlutusScript owner text h := by
    simp only [mesh, SampleBatch.mesh, SampleChain.mesh, Option.ite_none_right_eq_some,
      Option.some.injEq] at h
    obtain ⟨howner, rfl⟩ := h
    rw [hexOf_injective howner, reading_orderAddress]
  serializeKeyAddress key stake text h := by
    simp only [mesh, SampleBatch.mesh, SampleChain.mesh] at h
    split_ifs at h with hstaked hplain
    · obtain rfl := Option.some.inj h
      obtain ⟨owner, hstake, howner⟩ := Option.map_eq_some_iff.mp hstaked.2
      rw [hexOf_injective hstaked.1, hstake, hexOf_injective howner, reading_sellerWallet]
    · obtain rfl := Option.some.inj h
      rw [hexOf_injective hplain.1, Option.map_eq_none_iff.mp hplain.2, reading_sellerAddress]
  con := SampleBatch.documented.con
  text := SampleBatch.documented.text
  num := SampleBatch.documented.num
  bigint := SampleBatch.documented.bigint
  slot := SampleBatch.documented.slot

/-- The addresses of the samples, each with its parts. -/
theorem mem_addresses {text : Str} {parts : DeserializedAddress}
    (h : mesh.deserializeAddress text = some parts) :
    text ∈ [scriptStaked, sellerWallet, sellerAddress, orderAddress] := by
  simp only [mesh, SampleBatch.mesh, SampleChain.mesh] at h
  simp only [List.mem_cons, List.not_mem_nil, or_false]
  split_ifs at h with h₁ h₂ h₃ h₄
  · exact .inl h₁
  · exact .inr (.inl h₂)
  · exact .inr (.inr (.inl h₃))
  · exact .inr (.inr (.inr h₄))

set_option maxRecDepth 100000 in
theorem readsAddresses : ReadsAddresses mesh reading where
  parts text parts h := by
    have hparts : ∀ text ∈ [scriptStaked, sellerWallet, sellerAddress, orderAddress],
        mesh.deserializeAddress text = some (partsOf (reading.address text)) := by decide
    exact Option.some.inj (h.symm.trans (hparts text (mem_addresses h)))
  stakeKey_length text parts key h hkey := by
    have hmem := mem_addresses h
    simp only [List.mem_cons, List.not_mem_nil, or_false] at hmem
    obtain rfl | rfl | rfl | rfl := hmem
    · rw [reading_scriptStaked] at hkey
      cases hkey
    · rw [reading_sellerWallet] at hkey
      cases hkey
      rfl
    · rw [reading_sellerAddress] at hkey
      cases hkey
    · rw [reading_orderAddress] at hkey
      cases hkey
      rfl
  serializes text parts h hne := by
    have hwritten : ∀ text ∈ [scriptStaked, sellerWallet, sellerAddress, orderAddress],
        (mesh.deserializeAddress text).all fun parts => parts.pubKeyHash = [] ||
          (mesh.serializeKeyAddress parts.pubKeyHash (if parts.stakeCredentialHash = [] then none
            else some parts.stakeCredentialHash)).isSome := by decide
    have hone := hwritten text (mem_addresses h)
    rw [h, Option.all_some, Bool.or_eq_true, decide_eq_true_eq] at hone
    exact hone.resolve_left hne

def creationPaidAt (paymentAddress : Option Str) : CreateOrderParams :=
  { SampleBatch.creation with paymentAddress }

theorem requestFor (paymentAddress : Option Str) :
    RequestFor adaAsset token (creationPaidAt paymentAddress) where
  offer_native := .inl rfl
  ask_native := .inr (by decide)
  offerAsset := rfl
  askAsset := rfl
  expiration_exact t ht := by cases ht

set_option maxRecDepth 100000 in
theorem responds : ∀ paymentAddress ∈ [none, some scriptStaked],
    ∃ draft summary, respondCreateOrder mesh scripts SampleBatch.opts SampleBatch.now
      (creationPaidAt paymentAddress) = .ok (draft, summary) := by
  have hok : ∀ paymentAddress ∈ [none, some scriptStaked],
      (respondCreateOrder mesh scripts SampleBatch.opts SampleBatch.now
        (creationPaidAt paymentAddress)).isOk := by decide
  intro paymentAddress hmem
  have hresponse := hok paymentAddress hmem
  cases heq : respondCreateOrder mesh scripts SampleBatch.opts SampleBatch.now
      (creationPaidAt paymentAddress) with
  | error e =>
      rw [heq] at hresponse
      cases hresponse
  | ok response => exact ⟨response.1, response.2, rfl⟩

end SampleCreation

section

open SampleCreation BeaconDex.Sample

/-- A creation paid at the wallet it comes from. -/
theorem createsAsRequested_iff_sample : ∃ draft summary,
    respondCreateOrder mesh SampleBatch.scripts SampleBatch.opts SampleBatch.now
        (creationPaidAt none) = .ok (draft, summary) ∧
      ∃ o datum, CreatesAsRequested deployment mesh reading SampleBatch.opts SampleChain.opts
        (creationPaidAt none) adaAsset token draft summary o datum := by
  obtain ⟨draft, summary, hbuild⟩ := responds none (by simp)
  have hstaked : KeyStaked (reading.address (creationPaidAt none).payTo) := by
    rw [show reading.address (creationPaidAt none).payTo = _ from reading_sellerWallet]
    exact .inr ⟨ownerKey, rfl⟩
  exact ⟨draft, summary, hbuild, (createsAsRequested_iff documented readsAddresses ⟨rfl, rfl⟩
    (by decide) (requestFor none) sale_injOn hbuild).mpr hstaked⟩

/-- **A staking script gets lost.**  The request is accepted, and the order is not
paid at the address the summary shows. -/
theorem staking_script_lost :
    Documented deployment mesh SampleBatch.scripts reading ∧ ReadsAddresses mesh reading ∧
      RequestFor adaAsset token (creationPaidAt (some scriptStaked)) ∧
      ∃ draft summary, respondCreateOrder mesh SampleBatch.scripts SampleBatch.opts SampleBatch.now
          (creationPaidAt (some scriptStaked)) = .ok (draft, summary) ∧
        ¬∃ o datum, CreatesAsRequested deployment mesh reading SampleBatch.opts SampleChain.opts
          (creationPaidAt (some scriptStaked)) adaAsset token draft summary o datum := by
  obtain ⟨draft, summary, hbuild⟩ := responds (some scriptStaked) (by simp)
  refine ⟨documented, readsAddresses, requestFor _, draft, summary, hbuild, ?_⟩
  rintro ⟨o, datum, has⟩
  have hstaked := keyStaked_of_createsAsRequested documented readsAddresses (by decide)
    (requestFor _) hbuild has
  rw [show reading.address (creationPaidAt (some scriptStaked)).payTo = _ from
    reading_scriptStaked] at hstaked
  obtain hnone | ⟨key, hkey⟩ := hstaked
  · cases hnone
  · cases hkey

end

end BeaconDex.Backend
