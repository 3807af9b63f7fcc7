import BeaconDex.Backend.OnChain
import BeaconDex.BeaconFlow

/-!
# Orders the builder creates

The output `buildCreateOrder` asks for is a well-formed order of the deployment
(`exists_keyOrder_of_created`), and a partial fill leaves one behind again
(`BuilderOrder.exists_keyOrder`).  On the way: the two derivations of the beacon
names agree (`deriveBeaconNames_values`).

## Which requests are meant

The builder turns script payment addresses away and derives the beacon names with the
hash of its library.  For a request it answers, the datum it encodes has keys for its
owner and its payment address (`KeyOrder`), and its names are those the policy computes,
as long as the two hash functions are the same.  Nothing is asked of the amounts that
the builder does not check itself.
-/

namespace BeaconDex.Backend

open Library

variable {d : Deployment} {mesh : Mesh} {scripts : ProtocolScripts} {reading : ChainReading}

/-! ## Assets of a request -/

/-- An asset id with a name of whole bytes names an asset. -/
theorem exists_asset_of_apiAssetId {id : Str} {a : AssetClassHex}
    (h : fromApiAssetId id = some a) (hbytes : 2 ∣ a.assetNameHex.length) :
    ∃ asset, a = assetHex asset ∧ Nameable asset ∧ (BeaconDex.assetId asset).length < 256 := by
  unfold fromApiAssetId at h
  split at h
  · obtain rfl := Option.some.inj h
    exact ⟨adaAsset, rfl, nameable_ada, by decide⟩
  · simp only [Option.ite_none_right_eq_some, Option.some.injEq] at h
    obtain ⟨⟨hlen, hpolicy, hname, hnameLen⟩, ha⟩ := h
    have hp := congrArg AssetClassHex.policyId ha
    have hn := congrArg AssetClassHex.assetNameHex ha
    simp only at hp hn
    rw [hp] at hlen hpolicy
    rw [hn] at hname hnameLen
    have hpolicyHex := hexOf_bytesOfHex hpolicy (by rw [hlen]; decide)
    have hnameHex := hexOf_bytesOfHex hname hbytes
    have hpolicyLen := length_hexOf (bytesOfHex a.policyId)
    have hnameLen' := length_hexOf (bytesOfHex a.assetNameHex)
    rw [hpolicyHex] at hpolicyLen
    rw [hnameHex] at hnameLen'
    refine ⟨⟨bytesOfHex a.policyId, bytesOfHex a.assetNameHex⟩, ?_, Or.inr ?_, ?_⟩
    · rw [assetHex, hpolicyHex, hnameHex]
    · show (bytesOfHex a.policyId).length = 28
      omega
    · rw [BeaconDex.assetId, List.length_append]
      show (bytesOfHex a.policyId).length + (bytesOfHex a.assetNameHex).length < 256
      omega

/-!
## Beacon names

The two derivations, on hex and on bytes, step by step.
-/

/-- The asset ids that are hashed are the same bytes on both sides. -/
theorem assetId_assetHex (a : AssetClass) : assetId (assetHex a) = BeaconDex.assetId a := by
  rw [assetId, assetHex, ← hexOf_append, bytesOfHex_hexOf]
  rfl

theorem lengthPrefixed_eq_some {id prefixed : Bytes} :
    BeaconDex.lengthPrefixed id = some prefixed ↔
      id.length < 256 ∧ prefixed = lengthPrefixed id := by
  unfold BeaconDex.lengthPrefixed push
  split
  · next hlt =>
    have hbyte : (⟨id.length, hlt⟩ : Byte) = Fin.ofNat 256 id.length :=
      Fin.ext (Nat.mod_eq_of_lt hlt).symm
    rw [Option.some.injEq, hbyte, eq_comm]
    exact (and_iff_right hlt).symm
  · next hge => simp [hge]

/-- Two ids can be prefixed with their lengths where these fit into a byte. -/
theorem concatPrefixed_eq_some {lo hi body : Bytes} :
    concatPrefixed lo hi = some body ↔
      (lo.length < 256 ∧ hi.length < 256) ∧ body = lengthPrefixed lo ++ lengthPrefixed hi := by
  simp only [concatPrefixed, Option.bind_eq_bind, Option.bind_eq_some_iff, Option.pure_def,
    Option.some.injEq, lengthPrefixed_eq_some]
  constructor
  · rintro ⟨_, ⟨hlo, rfl⟩, _, ⟨hhi, rfl⟩, rfl⟩
    exact ⟨⟨hlo, hhi⟩, rfl⟩
  · rintro ⟨⟨hlo, hhi⟩, rfl⟩
    exact ⟨_, ⟨hlo, rfl⟩, _, ⟨hhi, rfl⟩, rfl⟩

/-- The two preimages of the pair beacon agree: on equal ids the order does not
matter. -/
theorem pairBeaconPreimage_eq_some {a b : AssetClass} {preimage : Bytes} :
    pairBeaconPreimage a b = some preimage ↔
      ((BeaconDex.assetId a).length < 256 ∧ (BeaconDex.assetId b).length < 256) ∧
        preimage = (0x00 : Byte) ::
          if BeaconDex.assetId a ≤ BeaconDex.assetId b then
            lengthPrefixed (BeaconDex.assetId a) ++ lengthPrefixed (BeaconDex.assetId b)
          else lengthPrefixed (BeaconDex.assetId b) ++ lengthPrefixed (BeaconDex.assetId a) := by
  have hpush : ∀ body : Bytes,
      push body 0x00 = some preimage ↔ preimage = (0x00 : Byte) :: body := by
    intro body
    rw [push, dif_pos (by decide), Option.some.injEq, eq_comm]
    rfl
  have hbind : ∀ lo hi : Bytes, (concatPrefixed lo hi).bind (fun body => push body 0x00) =
      some preimage ↔ (lo.length < 256 ∧ hi.length < 256) ∧
        preimage = (0x00 : Byte) :: (lengthPrefixed lo ++ lengthPrefixed hi) := by
    intro lo hi
    simp only [Option.bind_eq_some_iff, concatPrefixed_eq_some, hpush]
    constructor
    · rintro ⟨_, ⟨hlen, rfl⟩, h⟩
      exact ⟨hlen, h⟩
    · rintro ⟨hlen, h⟩
      exact ⟨_, ⟨hlen, rfl⟩, h⟩
  simp only [pairBeaconPreimage]
  -- the chain compares strictly, the backend does not: they part on equal ids only
  rcases lt_trichotomy (BeaconDex.assetId a) (BeaconDex.assetId b) with hlt | heq | hgt
  · rw [if_pos hlt, if_pos hlt.le, hbind]
  · rw [heq, if_neg (lt_irrefl _), if_pos le_rfl, hbind]
  · rw [if_neg hgt.not_gt, if_neg hgt.not_ge, hbind, and_comm (a := _ < 256)]

/-- **The off-chain names are the on-chain ones.** -/
theorem deriveBeaconNames_values (hsha : mesh.sha256 = d.sha2_256) {offer ask : AssetClass}
    {owner : VerificationKeyHash} {names : List AssetName}
    (h : beaconNames d.sha2_256 offer ask owner = some names) :
    (deriveBeaconNames mesh (assetHex offer) (assetHex ask) (hexOf owner)).values =
      names.map hexOf := by
  simp only [beaconNames, BeaconDex.pairBeaconName, Option.bind_eq_bind, Option.bind_eq_some_iff,
    Option.map_eq_some_iff, pairBeaconPreimage_eq_some, Option.pure_def, Option.some.injEq] at h
  obtain ⟨_, ⟨_, ⟨-, rfl⟩, rfl⟩, rfl⟩ := h
  have hpair : pairBeaconName mesh (assetHex offer) (assetHex ask) =
      hexOf (d.sha2_256 ((0x00 : Byte) ::
        if BeaconDex.assetId offer ≤ BeaconDex.assetId ask then
          lengthPrefixed (BeaconDex.assetId offer) ++ lengthPrefixed (BeaconDex.assetId ask)
        else lengthPrefixed (BeaconDex.assetId ask) ++
          lengthPrefixed (BeaconDex.assetId offer))) := by
    simp only [pairBeaconName, sha256Hex, hsha, assetId_assetHex]
    split <;> rfl
  have horder : ORDER_BEACON_NAME_HEX = hexOf orderBeaconName := by decide
  simp only [BeaconNames.values, deriveBeaconNames, hpair, offerBeaconName, askBeaconName,
    sha256Hex, hsha, assetId_assetHex, ownerBeaconName, toLowerCase_hexOf, horder, List.map_cons,
    List.map_nil]
  rfl

/-- Assets with ids of fewer than 256 bytes have beacon names. -/
theorem exists_beaconNames {offer ask : AssetClass} (owner : VerificationKeyHash)
    (hoffer : (BeaconDex.assetId offer).length < 256)
    (hask : (BeaconDex.assetId ask).length < 256) :
    ∃ names, beaconNames d.sha2_256 offer ask owner = some names := by
  obtain ⟨preimage, hpreimage⟩ : ∃ preimage, pairBeaconPreimage offer ask = some preimage :=
    ⟨_, pairBeaconPreimage_eq_some.mpr ⟨⟨hoffer, hask⟩, rfl⟩⟩
  rw [beaconNames, BeaconDex.pairBeaconName, hpreimage]
  exact ⟨_, rfl⟩

/-!
## The new order

The output of the draft, as the ledger reads it, with the terms of the request.
-/

theorem lovelaceOf_oneOfEach (d : Deployment) (names : List AssetName) :
    Assets.lovelaceOf (oneOfEach d.policyId names) = 0 :=
  congrArg (fun tokens : Tokens => tokens Assets.adaAssetName)
    (tokens_oneOfEach_of_ne d.policyId_ne_ada.symm names)

theorem lovelaceOf_offerValue (datum : OrderDatum) : Assets.lovelaceOf (offerValue datum) = 0 := by
  unfold offerValue
  split
  · rfl
  · next hada => rw [AssetClass.lovelaceOf_amount, if_neg hada]

/-- The beacons of a draft, as a value, are one each of the names. -/
theorem valueOf_beacons (d : Deployment) (names : List AssetName) :
    valueOf ((names.map hexOf).map fun name => ⟨hexOf d.policyId ++ name, 1⟩) =
      oneOfEach d.policyId names := by
  induction names with
  | nil => rfl
  | cons name names ih =>
      rw [List.map_cons, List.map_cons, valueOf_cons, ih, Asset.value,
        assetOf_token d.policyId_length]
      rfl

/-- What is asked for as an order holds: the deposit, the offer, the beacons. -/
theorem valueOf_orderAmount (h : Documented d mesh scripts reading) (opts : BuilderOptions)
    (k : KeyOrder) (names : List AssetName) :
    valueOf (orderAmount scripts opts (assetHex k.offer) k.offerAmount (names.map hexOf)) =
      Assets.fromLovelace
        (if BeaconDex.isAda k.offer then k.offerAmount + opts.depositLovelace
          else opts.depositLovelace) +
      offerValue k.datum + oneOfEach d.policyId names := by
  rw [orderAmount, h.beaconPolicyId, List.cons_append, valueOf_cons, valueOf_append,
    valueOf_beacons, value_lovelace, isAda_assetHex, offerValue, add_assoc]
  show _ = _ + ((if BeaconDex.isAda k.offer then 0 else k.offer.amount k.offerAmount) + _)
  cases BeaconDex.isAda k.offer with
  | true => rfl
  | false =>
      simp only [Bool.false_eq_true, if_false, valueOf_cons, valueOf_nil,
        value_unitOf k.offer_nameable, add_zero]

/-- The lovelace in a new order is its deposit, and the offer where that is ADA. -/
theorem lovelaceOf_orderAmount (h : Documented d mesh scripts reading) (opts : BuilderOptions)
    (k : KeyOrder) (names : List AssetName) :
    Assets.lovelaceOf
      (valueOf (orderAmount scripts opts (assetHex k.offer) k.offerAmount (names.map hexOf))) =
      if BeaconDex.isAda k.offer then k.offerAmount + opts.depositLovelace
        else opts.depositLovelace := by
  rw [valueOf_orderAmount h, Assets.lovelaceOf_add, Assets.lovelaceOf_add, lovelaceOf_oneOfEach,
    lovelaceOf_offerValue, Assets.lovelaceOf_fromLovelace, add_zero, add_zero]

/-- An output at the owner's order address, with the datum and the amount of an
order, is that order. -/
theorem wellFormed_output (h : Documented d mesh scripts reading) {opts : BuilderOptions}
    (hdeposit : 0 ≤ opts.depositLovelace) {k : KeyOrder} (hpolicy : k.policyId = d.policyId)
    (hofferPolicy : k.offer.policyId ≠ d.policyId) (haskPolicy : k.ask.policyId ≠ d.policyId)
    {names : List AssetName}
    (hnames : beaconNames d.sha2_256 k.offer k.ask k.owner = some names) {address : Str}
    (haddress : scripts.orderAddressFor mesh (hexOf k.owner) = some address) :
    WellFormedOrder d.sha2_256 d.orderScriptHash d.policyId
      (reading.output ⟨address,
        orderAmount scripts opts (assetHex k.offer) k.offerAmount (names.map hexOf),
        encodeOrderDatum k.fields⟩)
      k.datum k.owner names := by
  have hlovelace := lovelaceOf_orderAmount h opts k names
  have hread := h.serializePlutusScript k.owner address haddress
  exact {
    payment := congrArg Address.paymentCredential hread
    stake := congrArg Address.stakeCredential hread
    inline := congrArg Datum.inlineDatum (h.data_fields k)
    owner := rfl
    version := rfl
    policy := hpolicy
    offerAmount_pos := k.offerAmount_pos
    askAmount_pos := k.askAmount_pos
    offer_policy := hofferPolicy
    ask_policy := haskPolicy
    offer_covered := fun hada => by
      change BeaconDex.isAda k.offer = true at hada
      show k.offerAmount ≤ Assets.lovelaceOf (valueOf _)
      rw [hlovelace, if_pos hada]
      omega
    names_eq := hnames
    value := by
      show valueOf _ = Assets.fromLovelace (Assets.lovelaceOf (valueOf _)) + _ + _
      rw [hlovelace]
      exact valueOf_orderAmount h opts k names }

/-- What a request of the interface can hold: asset names of whole bytes and a
number that JavaScript has. -/
structure CreateOrderParams.Proper (params : CreateOrderParams) : Prop where
  offer_bytes : ∀ a, fromApiAssetId params.offerAsset = some a → 2 ∣ a.assetNameHex.length
  ask_bytes : ∀ a, fromApiAssetId params.askAsset = some a → 2 ∣ a.assetNameHex.length
  expiration_exact : ∀ t, params.expiration = some t → ∃ n, t = .finite n ∧ toNumber n = .finite n

theorem CreateOrderParams.Proper.exists_expiration {params : CreateOrderParams}
    (h : params.Proper) : ∃ expiration : Option ℤ,
      params.expiration = expiration.map .finite ∧
        ∀ t, expiration = some t → toNumber t = .finite t := by
  cases hparams : params.expiration with
  | none => exact ⟨none, rfl, by simp⟩
  | some t =>
      obtain ⟨n, rfl, hn⟩ := h.expiration_exact t hparams
      refine ⟨some n, rfl, ?_⟩
      intro t ht
      cases ht
      exact hn

/-- **What a creation asks for**: one output, with the terms of the request and
paid at what was deserialized of the payment address, and its beacons. -/
structure CreatedTerms (d : Deployment) (mesh : Mesh) (scripts : ProtocolScripts)
    (reading : ChainReading) (opts : BuilderOptions) (params : CreateOrderParams) (draft : TxDraft)
    (o : DraftOutput) (k : KeyOrder) (names : List AssetName) (pay : DeserializedAddress) :
    Prop where
  outputs : draft.outputs = [o]
  mints : draft.mints = mintBeacons scripts (names.map hexOf) 1
  inlineDatum : o.inlineDatum = encodeOrderDatum k.fields
  wellFormed : WellFormedOrder d.sha2_256 d.orderScriptHash d.policyId (reading.output o) k.datum
    k.owner names
  lovelace : Assets.lovelaceOf (reading.output o).value =
    if BeaconDex.isAda k.offer then k.offerAmount + opts.depositLovelace else opts.depositLovelace
  offer : fromApiAssetId params.offerAsset = some (assetHex k.offer)
  ask : fromApiAssetId params.askAsset = some (assetHex k.ask)
  distinct : params.offerAsset ≠ params.askAsset
  offerAmount : k.offerAmount = params.offerAmount
  askAmount : k.askAmount = params.askAmount
  expiration : params.expiration = k.expiration.map .finite
  allowPartialFill : k.allowPartialFill = params.allowPartialFill.getD false
  deserialized : mesh.deserializeAddress
      (params.paymentAddress.getD params.wallet.changeAddress) = some pay
  paymentKey_ne : pay.pubKeyHash ≠ []
  paymentKey : pay.pubKeyHash = hexOf k.paymentKey
  paymentStake : k.paymentStake.map hexOf =
    if pay.stakeCredentialHash = [] then none else some pay.stakeCredentialHash

/-- Every draft that is answered to a proper request is on terms that can be read off the
request. -/
theorem exists_createdTerms (h : Documented d mesh scripts reading) {opts : BuilderOptions}
    (hdeposit : 0 ≤ opts.depositLovelace) {now : ℤ} {params : CreateOrderParams}
    (hproper : params.Proper) {draft : TxDraft}
    (hbuild : buildCreateOrder mesh scripts opts now params = .ok draft) :
    ∃ o k names pay, CreatedTerms d mesh scripts reading opts params draft o k names pay := by
  simp only [buildCreateOrder, parseAddress, bind, bind_eq_ok, orThrow_eq_ok, throwIf_eq_ok, pure,
    Except.pure, Except.ok.injEq, not_or, not_le] at hbuild
  obtain ⟨offer, hoffer, ask, hask, -, hdistinct, -, ⟨hofferPos, haskPos⟩, -,
    ⟨hofferPolicy, haskPolicy⟩, -, -, change, hchange, -, -, -, -, pay, hpay, -, hpayKey, address,
    haddress, wallet, -, rfl⟩ := hbuild
  obtain ⟨offer, rfl, hofferName, hofferLen⟩ :=
    exists_asset_of_apiAssetId hoffer (hproper.offer_bytes _ hoffer)
  obtain ⟨ask, rfl, haskName, haskLen⟩ :=
    exists_asset_of_apiAssetId hask (hproper.ask_bytes _ hask)
  obtain ⟨-, owner, howner⟩ := h.deserializeAddress _ _ hchange
  obtain ⟨⟨key, hkey⟩, stake, hstake⟩ := h.deserializeAddress _ _ hpay
  obtain ⟨expiration, hexpiration, hexact⟩ := hproper.exists_expiration
  obtain ⟨names, hnames⟩ := exists_beaconNames (d := d) owner hofferLen haskLen
  have hpolicy : ∀ a : AssetClass, (assetHex a).policyId ≠ scripts.beaconPolicyId →
      a.policyId ≠ d.policyId := fun a ha heq =>
    ha (by rw [h.beaconPolicyId, ← heq]; rfl)
  let k : KeyOrder :=
    { policyId := d.policyId
      owner := owner
      paymentKey := key
      paymentStake := if stake = [] then none else some stake
      offer := offer
      offerAmount := params.offerAmount
      ask := ask
      askAmount := params.askAmount
      expiration := expiration
      allowPartialFill := params.allowPartialFill.getD false
      offer_nameable := hofferName
      ask_nameable := haskName
      offerAmount_pos := hofferPos
      askAmount_pos := haskPos
      expiration_exact := hexact }
  have hstakeField : (if pay.stakeCredentialHash = [] then none else some pay.stakeCredentialHash) =
      (if stake = [] then none else some stake).map hexOf := by
    rw [hstake]
    cases stake <;> rfl
  rw [howner] at haddress
  have hvalues := deriveBeaconNames_values h.sha256 hnames
  rw [← howner] at hvalues
  refine ⟨⟨address, orderAmount scripts opts (assetHex offer) params.offerAmount (names.map hexOf),
    encodeOrderDatum k.fields⟩, k, names, pay, ?_⟩
  exact {
    outputs := by
      rw [hvalues, howner, hkey, hstakeField, hexpiration, h.beaconPolicyId]
      rfl
    mints := by rw [hvalues]
    inlineDatum := rfl
    wellFormed := wellFormed_output h hdeposit (k := k) rfl (hpolicy _ hofferPolicy)
      (hpolicy _ haskPolicy) hnames haddress
    lovelace := lovelaceOf_orderAmount h opts k names
    offer := hoffer
    ask := hask
    distinct := hdistinct
    offerAmount := rfl
    askAmount := rfl
    expiration := hexpiration
    allowPartialFill := rfl
    deserialized := hpay
    paymentKey_ne := hpayKey
    paymentKey := hkey
    paymentStake := hstakeField.symm }

/-- **A created order is well formed.** -/
theorem exists_keyOrder_of_created (h : Documented d mesh scripts reading) {opts : BuilderOptions}
    (hdeposit : 0 ≤ opts.depositLovelace) {now : ℤ} {params : CreateOrderParams}
    (hproper : params.Proper) {draft : TxDraft}
    (hbuild : buildCreateOrder mesh scripts opts now params = .ok draft) {o : DraftOutput}
    (ho : o ∈ draft.outputs) :
    ∃ k names, WellFormedOrder d.sha2_256 d.orderScriptHash d.policyId (reading.output o)
      (KeyOrder.datum k) k.owner names := by
  obtain ⟨o', k, names, pay, hterms⟩ := exists_createdTerms h hdeposit hproper hbuild
  rw [hterms.outputs, List.mem_singleton] at ho
  subst ho
  exact ⟨k, names, hterms.wellFormed⟩

/-!
## Orders of the builder

What the builder makes, and what fills leave of it.
-/

/-- **An output the builder's users can meet as an order**: created by
`buildCreateOrder`, with any options and at any time, or the continuation of one
that an accepted partial take left. -/
inductive BuilderOrder (d : Deployment) (mesh : Mesh) (scripts : ProtocolScripts)
    (reading : ChainReading) : Output → Prop
  | created {opts : BuilderOptions} {now : ℤ} {params : CreateOrderParams} {draft : TxDraft}
      {o : DraftOutput} (deposit : 0 ≤ opts.depositLovelace) (proper : params.Proper)
      (built : buildCreateOrder mesh scripts opts now params = .ok draft)
      (output : o ∈ draft.outputs) : BuilderOrder d mesh scripts reading (reading.output o)
  | continued {tx : Transaction} {input : Input} {out : Output}
      (order : BuilderOrder d mesh scripts reading input.output)
      (continuation : ContinuationOf tx input out) : BuilderOrder d mesh scripts reading out

/-- Whatever its history, such an order is well formed, and the backend can read
its terms. -/
theorem BuilderOrder.exists_keyOrder (h : Documented d mesh scripts reading) {out : Output}
    (horder : BuilderOrder d mesh scripts reading out) :
    ∃ k names, WellFormedOrder d.sha2_256 d.orderScriptHash d.policyId out (KeyOrder.datum k)
      k.owner names := by
  induction horder with
  | created deposit proper built output =>
      exact exists_keyOrder_of_created h deposit proper built output
  | @continued tx input out order continuation ih =>
      obtain ⟨k, names, hwf⟩ := ih
      obtain ⟨datum, takeAmount, required, hdatum, -, -, -, hlt, hreq, hcont⟩ := continuation
      obtain rfl := eq_of_orderDatum hwf.inline hdatum
      exact ⟨k.reduced takeAmount required hlt hreq, names, hwf.continuation hlt hreq hcont⟩

end BeaconDex.Backend
