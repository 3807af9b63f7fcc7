import BeaconDex.Backend.AssetIdentity
import BeaconDex.Backend.CacheSoundness
import BeaconDex.Backend.CreateAgreement
import BeaconDex.Backend.Revalidation
import BeaconDex.Confinement
import BeaconDex.OrderTraces

/-!
# From the ledger to the order book

What a taker reads in `GET /pairs/:pair/orderbook` of an order that has been
filled any number of times.  The ledger's side is the lineage of the order, from
its creation through any transactions; the backend's side is the cache, after any
passes and repairs; between them stand a report of the order's current output and
`validateAndMap`.

`exists_row_of_live` is the step in the middle: the report of a live order is accepted,
and its row has what the fills have left.  `book_shows_order` is the whole way.

## The pieces of the way

On the ledger the order is at its tip, on terms that the invariant of its lineage
gives.  A report says of the tip what a provider would.  Validation accepts the report
and makes a row, the pass writes the row, later passes keep it for as long as the tip is
live, and the route lists it under its pair.  Each piece is a result elsewhere; what is
done here is to see that the conclusion of one is the premise of the next.
-/

namespace BeaconDex.Backend

open Library

/-- **What a row says of an order** on the terms `k`, created in `origin`, after `fills`:
its two assets under their pair, the two amounts that are left, and all else as it was
when the order was created. -/
structure ShowsRemainder (reading : ChainReading) (k : KeyOrder) (origin : Output)
    (fills : List Fill) (row : Order) : Prop where
  offered : AssetClassHex.mk row.offeredPolicyId row.offeredAssetName = assetHex k.offer
  requested : AssetClassHex.mk row.requestedPolicyId row.requestedAssetName = assetHex k.ask
  offeredAmount : row.offeredAmount = k.offerAmount - totalTaken fills
  requestedAmount : row.requestedAmount = k.askAmount - totalRequired fills
  deposit : row.depositLovelace = BeaconDex.depositOf k.datum origin.value
  owner : row.ownerStakeCredential = hexOf k.owner
  paymentAddress : reading.address row.paymentAddress = addressOfKeys k.paymentKey k.paymentStake
  expiration : row.expiration = k.expiration.map .finite
  allowPartialFill : row.allowPartialFill = k.allowPartialFill
  pairId : row.pairId = toPairId (assetHex k.offer) (assetHex k.ask)

section

variable {d : Deployment} {mesh : Mesh} {scripts : ProtocolScripts} {reading : ChainReading}
variable {opts : IndexerOptions} {k : KeyOrder} {origin : Output} {names : List AssetName}
variable {utxo utxo' : Utxo} {text : Address → Str} {u : UTxO}

/-- The terms of a live order: its own, with what is left. -/
def KeyOrder.left (k : KeyOrder) (offerAmount askAmount : ℤ) (hoffer : 0 < offerAmount)
    (hask : 0 < askAmount) : KeyOrder :=
  { k with
    offerAmount := offerAmount
    askAmount := askAmount
    offerAmount_pos := hoffer
    askAmount_pos := hask }

/-- The deposit, as the indexer finds it. -/
theorem deposit_of_verifiedDeposit {out : Output} {deposit : ℤ}
    (hu : Shows mesh reading text u out)
    (h : verifiedDeposit k.fields u.amount = some deposit) :
    deposit = BeaconDex.depositOf k.datum out.value := by
  obtain ⟨-, rfl⟩ := verifiedDeposit_eq_some.mp h
  have hlovelace : qty u.amount lovelaceUnit = Assets.lovelaceOf out.value :=
    qty_unitOf hu.amount hu.unit_ne nameable_ada
  have hada : isAda k.fields.offer = BeaconDex.isAda k.datum.offer := isAda_assetHex k.offer
  rw [hlovelace, BeaconDex.depositOf, hada]
  rfl

/-- **What the indexer can know of a deployment and of the seller of `k`**: Mesh
reads addresses back, hashes do not collide on the order's assets, and the seller
has an address. -/
structure Readable (d : Deployment) (mesh : Mesh) (scripts : ProtocolScripts)
    (reading : ChainReading) (opts : IndexerOptions) (k : KeyOrder) : Prop where
  documented : Documented d mesh scripts reading
  addresses : ReadsAddresses mesh reading
  follows : Follows d opts
  hashes : Set.InjOn d.sha2_256 (beaconPreimages k.offer k.ask)
  seller : (paymentAddressBech32 mesh k.fields).isSome

/-- **A report of a live order is accepted, and its row is what the fills left.** -/
theorem exists_row_of_live (hreadable : Readable d mesh scripts reading opts k)
    {owner : VerificationKeyHash} {lineage : BeaconDex.Lineage} {out : Output} {datum : OrderDatum}
    (horder : WellFormedOrder d.sha2_256 d.orderScriptHash d.policyId origin k.datum owner names)
    (htip : TipInvariant d origin k.datum owner names lineage out datum)
    (hu : Shows mesh reading text u out) (hparses : (mesh.deserializeAddress u.address).isSome) :
    ∃ row, validateAndMap mesh opts u = some row ∧
      ShowsRemainder reading k origin lineage.fills row := by
  have hlive := htip.liveOrder ⟨horder.offerAmount_pos, horder.askAmount_pos⟩
  obtain rfl : owner = k.owner := (Credential.verificationKey.inj horder.owner).symm
  -- the datum at the tip is that of the terms left
  let left := k.left datum.offerAmount datum.askAmount hlive.offer_pos hlive.ask_pos
  have hdatum : datum = left.datum := htip.datum_eq
  have hwf : WellFormedOrder d.sha2_256 d.orderScriptHash d.policyId out left.datum left.owner
      names := hdatum ▸ htip.order
  obtain ⟨row, hrow, hmapped⟩ := exists_row_of_wellFormed hreadable.documented hreadable.addresses
    hreadable.follows (k := left) hreadable.hashes hwf hreadable.seller hu hparses
  refine ⟨row, hrow, hmapped.offered, hmapped.requested, ?_, ?_, ?_, hmapped.owner, ?_,
    hmapped.expiration, hmapped.allowPartialFill, hmapped.pairId⟩
  · rw [hmapped.offeredAmount]
    exact hlive.offer_eq
  · have hask := hlive.ask_eq
    rw [hmapped.requestedAmount]
    show datum.askAmount = k.datum.askAmount - _
    omega
  · rw [deposit_of_verifiedDeposit hu hmapped.deposit, ← hdatum]
    exact htip.deposit
  · exact hreadable.documented.serializeKeyAddress _ _ _ hmapped.paymentAddress

/-- The same of the row in the cache. -/
theorem ShowsRemainder.of_bare {fills : List Fill} {row : Order}
    (h : ShowsRemainder reading k origin fills row.bare) :
    ShowsRemainder reading k origin fills row :=
  ⟨h.offered, h.requested, h.offeredAmount, h.requestedAmount, h.deposit, h.owner,
    h.paymentAddress, h.expiration, h.allowPartialFill, h.pairId⟩

/-- An asset with a unit has the id its row is read with. -/
theorem cachedAssetId_assetHex {a : AssetClass} (h : Nameable a) :
    cachedAssetId (assetHex a) = toApiAssetId (assetHex a) := by
  refine (cachedAssetId_eq_iff _).mpr fun hpolicy => ?_
  obtain hada | hlength := h
  · rw [isAda_eq_true_iff.mp hada]
    rfl
  · have hzero := congrArg List.length hpolicy
    rw [assetHex, length_hexOf, hlength] at hzero
    cases hzero

/-- A row with units for its assets is read back with their ids. -/
theorem ShowsRemainder.offeredAssetId_eq {fills : List Fill} {row : Order}
    (h : ShowsRemainder reading k origin fills row) :
    offeredAssetId row = toApiAssetId (assetHex k.offer) := by
  rw [← cachedAssetId_assetHex k.offer_nameable, ← h.offered]
  rfl

theorem ShowsRemainder.requestedAssetId_eq {fills : List Fill} {row : Order}
    (h : ShowsRemainder reading k origin fills row) :
    requestedAssetId row = toApiAssetId (assetHex k.ask) := by
  rw [← cachedAssetId_assetHex k.ask_nameable, ← h.requested]
  rfl

variable {p : ChainProvider} {c : ChainState} {history : History} {repo : OrdersRepo} {pass : Pass}
variable {now : JsNumber} {book : Orderbook}

/-- The chain state `c` has the output at `ref`, if the UTxO set has it. -/
def Mirrors (mesh : Mesh) (reading : ChainReading) (text : Address → Str) (c : ChainState)
    (utxo : Utxo) (ref : OutRef) : Prop :=
  ∀ out, utxo (reference ref) = some out → ∃ u, c.liveUtxo ref = some u ∧
    Shows mesh reading text u out ∧ (mesh.deserializeAddress u.address).isSome

/-- **A live, accepted order is in the book after a pass**, as it was mapped. -/
theorem exists_cached_row (hsound : CacheSound mesh opts history repo)
    (hobserves : Observes opts history p c) (hp : Faithful p c)
    (hlists : ListsAll p c (orderBeaconUnit opts)) {ref : OutRef} {row : Order}
    (hlive : c.liveUtxo ref = some u) (hrow : validateAndMap mesh opts u = some row)
    (hsettled : repo.IsOpen (orderIdOf ref) ∨ Confirmed opts c ref)
    (hsync : doSync mesh opts p repo = .ok pass) :
    ∃ cached, pass.repo.getOrder (orderIdOf ref) = some cached ∧ cached.status = .opened ∧
      cached.bare = row := by
  obtain ⟨hspender, hutxo⟩ := ChainState.liveUtxo_eq_some.mp hlive
  have hinput := ChainState.input_of_utxoAt hutxo
  obtain ⟨-, hholds⟩ := validateAndMap_eq_some hrow
  have hholds' : u.holds (orderBeaconUnit opts) := hholds
  have hlisted : Listed mesh opts p ref :=
    ⟨u, hlists ref u hlive hholds', Option.isSome_of_eq_some hrow, hinput⟩
  have hopen : pass.repo.IsOpen (orderIdOf ref) :=
    (isOpen_doSync hp hsync hspender).mpr (.inl ⟨hlisted, hsettled⟩)
  obtain ⟨cached, hcached, hstatus⟩ := OrdersRepo.statusOf_eq_some.mp hopen
  have hpass : CacheSound mesh opts history pass.repo := by
    rw [← Attempt.state_of_eq_ok hsync]
    exact (CacheSound.upkeep hobserves).doSync hsound
  obtain ⟨u', hu', hrow'⟩ := hpass.rows _ _ hcached
  have href : cached.ref = ref := by
    apply orderIdOf_injective
    rw [← cached.orderId_eq_ref, OrdersRepo.orderId_of_getOrder hcached]
  rw [href] at hu'
  obtain rfl := hu'.unique ⟨c, hobserves.chain, hutxo⟩
  exact ⟨cached, hcached, hstatus, (Option.some.inj (hrow.symm.trans hrow')).symm⟩

/-- The side of a row in the book of its pair. -/
theorem mem_side_of_orderbook {offer ask : AssetClass} {row : Order} {id : Str}
    (hbook : orderbook repo now (toPairId (assetHex offer) (assetHex ask)) = .ok book)
    (hrow : repo.getOrder id = some row) (hstatus : row.status = .opened)
    (hpair : row.pairId = toPairId (assetHex offer) (assetHex ask))
    (hoffered : offeredAssetId row = toApiAssetId (assetHex offer))
    (hexpired : isOrderExpired row now = false) :
    (toApiAssetId (assetHex offer) < toApiAssetId (assetHex ask) → row ∈ book.bids) ∧
      (toApiAssetId (assetHex ask) < toApiAssetId (assetHex offer) → row ∈ book.asks) := by
  have hmem : row ∈ (repo.listByPair (toPairId (assetHex offer) (assetHex ask))).filter
      fun o => !isOrderExpired o now := by
    refine List.mem_filter.mpr ⟨List.mem_filter.mpr ⟨(KeyedList.find?_eq_some.mp hrow).1, ?_⟩, ?_⟩
    · simp [hpair, hstatus]
    · rw [hexpired]
      rfl
  unfold orderbook at hbook
  constructor
  · intro hlt
    rw [baseOf_toPairId hlt] at hbook
    obtain rfl := Except.ok.inj hbook
    exact List.mem_filter.mpr ⟨hmem, decide_eq_true hoffered⟩
  · intro hlt
    have hswap : toPairId (assetHex offer) (assetHex ask) =
        toPairId (assetHex ask) (assetHex offer) := (toPairId_eq_iff _ _ _ _).mpr Sym2.eq_swap
    rw [hswap, baseOf_toPairId hlt] at hbook
    obtain rfl := Except.ok.inj hbook
    refine List.mem_filter.mpr ⟨hswap ▸ hmem, ?_⟩
    rw [hoffered]
    exact decide_eq_true hlt.ne'

section

variable {utxo₀ : Utxo} {txId : Bytes} {tx : Transaction} {i : ℕ}
variable {submitted : List (Bytes × Transaction)} {lineage : BeaconDex.Lineage} {ref : OutRef}
variable {observed : List (ChainProvider × ChainState)}

/-- **What the cache has of an order** that is live after some transactions. -/
theorem exists_row_of_order (hreadable : Readable d mesh scripts reading opts k)
    (hcreate : Step d utxo₀ (txId, tx) utxo)
    (hmint : mintBeaconsOk d.sha2_256 d.orderScriptHash d.policyId tx = some true)
    (hout : tx.outputs[i]? = some origin) (hbears : bearsBeacons d.policyId origin = true)
    (hdatum : origin.datum = .inlineDatum (toData k.datum))
    (hrun : Run (Step d) utxo submitted utxo')
    (hlineage : submitted.foldl (follow d.orderScriptHash) ⟨some ⟨txId, i⟩, []⟩ = lineage)
    (htip : lineage.tip = some (reference ref))
    (hmaintained : Run (Maintains mesh opts history) .empty observed repo)
    (hmirrors : Mirrors mesh reading text c utxo' ref) (hobserves : Observes opts history p c)
    (hp : Faithful p c) (hlists : ListsAll p c (orderBeaconUnit opts))
    (hsync : doSync mesh opts p repo = .ok pass)
    (hsettled : repo.IsOpen (orderIdOf ref) ∨ Confirmed opts c ref) :
    ∃ row, pass.repo.getOrder (orderIdOf ref) = some row ∧ row.status = .opened ∧
      ShowsRemainder reading k origin lineage.fills row := by
  obtain ⟨original, owner, names, horder, hlive, -⟩ :=
    order_of_creation hcreate hmint hout hbears
  obtain rfl : original = k.datum :=
    toData_injective (Datum.inlineDatum.inj (horder.inline.symm.trans hdatum))
  -- the ledger
  obtain ⟨stage, -, hstands⟩ := Stands.of_run hlive horder hrun
  rw [hlineage] at hstands
  obtain ⟨output, datum, hunspent, hinvariant, -⟩ := hstands.live _ htip
  -- the report
  obtain ⟨u, hu, hshows, hparses⟩ := hmirrors output hunspent
  obtain ⟨row, hrow, hremainder⟩ := exists_row_of_live hreadable horder hinvariant hshows hparses
  -- the cache
  have hsound : CacheSound mesh opts history repo := CacheSound.empty.run hmaintained
  obtain ⟨cached, hcached, hstatus, rfl⟩ :=
    exists_cached_row hsound hobserves hp hlists hu hrow hsettled hsync
  exact ⟨cached, hcached, hstatus, hremainder.of_bare⟩

end

/-- **What the order book shows of an order.**  Create an order, let any
transactions follow, and let the cache have gone through any passes and repairs.
After a pass that sees the whole of a chain state that has the live order, confirmed
or already on the book, the book of its pair has one row for it, on the side of what
it offers, until it expires; and the row shows exactly what the fills have left. -/
theorem book_shows_order {utxo₀ : Utxo} {txId : Bytes} {tx : Transaction} {i : ℕ}
    {submitted : List (Bytes × Transaction)} {lineage : BeaconDex.Lineage} {ref : OutRef}
    {observed : List (ChainProvider × ChainState)}
    (hreadable : Readable d mesh scripts reading opts k)
    (hcreate : Step d utxo₀ (txId, tx) utxo)
    (hmint : mintBeaconsOk d.sha2_256 d.orderScriptHash d.policyId tx = some true)
    (hout : tx.outputs[i]? = some origin) (hbears : bearsBeacons d.policyId origin = true)
    (hdatum : origin.datum = .inlineDatum (toData k.datum))
    (hrun : Run (Step d) utxo submitted utxo')
    (hlineage : submitted.foldl (follow d.orderScriptHash) ⟨some ⟨txId, i⟩, []⟩ = lineage)
    (htip : lineage.tip = some (reference ref))
    (hmaintained : Run (Maintains mesh opts history) .empty observed repo)
    (hmirrors : Mirrors mesh reading text c utxo' ref) (hobserves : Observes opts history p c)
    (hp : Faithful p c) (hlists : ListsAll p c (orderBeaconUnit opts))
    (hsync : doSync mesh opts p repo = .ok pass)
    (hsettled : repo.IsOpen (orderIdOf ref) ∨ Confirmed opts c ref)
    (hbook : orderbook pass.repo now (toPairId (assetHex k.offer) (assetHex k.ask)) = .ok book) :
    ∃ row, pass.repo.getOrder (orderIdOf ref) = some row ∧ row.status = .opened ∧
      ShowsRemainder reading k origin lineage.fills row ∧
      (isOrderExpired row now = false →
        (toApiAssetId (assetHex k.offer) < toApiAssetId (assetHex k.ask) → row ∈ book.bids) ∧
        (toApiAssetId (assetHex k.ask) < toApiAssetId (assetHex k.offer) → row ∈ book.asks)) := by
  obtain ⟨row, hrow, hstatus, hremainder⟩ := exists_row_of_order hreadable hcreate hmint hout hbears
    hdatum hrun hlineage htip hmaintained hmirrors hobserves hp hlists hsync hsettled
  refine ⟨row, hrow, hstatus, hremainder, fun hexpired => ?_⟩
  exact mem_side_of_orderbook hbook hrow hstatus hremainder.pairId hremainder.offeredAssetId_eq
    hexpired

end

/-! The sale of the samples, from its creation to the book, and its remainder after four of
the ten ADA have been taken. -/

namespace SampleLive

open SampleChain (txId orderUtxo opts exact text)
open SampleCreation (mesh reading)

/-- The chain a hundred blocks after the creation of the sale. -/
def chain : ChainState where
  tip := ⟨4000, 200⟩
  txs := ⟨[SampleChain.origin 1], by decide⟩
  hash_text := by decide
  inputs_nodup := by decide
  redeemers_nodup := by decide

/-- `Sample.salePart`, as the chain has it. -/
def part : ChainTx where
  hash := txId 2
  height := 250
  inputs := [⟨txId 0, 2⟩, ⟨txId 1, 0⟩]
  outputs :=
    [⟨SampleChain.sellerAddress,
        [⟨lovelaceUnit, 1500000⟩, ⟨unitOf (assetHex Sample.token), 2⟩], none⟩,
      SampleChain.orderOutput 8000000 (SampleChain.datumCbor [0x00, 0x5b, 0x8d, 0x80] [0x03]),
      ⟨SampleChain.takerAddress,
        [⟨lovelaceUnit, 7500000⟩, ⟨unitOf (assetHex Sample.token), 5⟩], none⟩]
  redeemers := [⟨1, opts.orderValidatorHash, 2⟩]

/-- A hundred blocks later. -/
def chainAfter : ChainState where
  tip := ⟨6000, 300⟩
  txs := ⟨[SampleChain.origin 1, part], by decide⟩
  hash_text := by decide
  inputs_nodup := by decide
  redeemers_nodup := by decide

def saleRef : OutRef := ⟨txId 1, 0⟩

def restRef : OutRef := ⟨txId 2, 1⟩

def saleUtxo : UTxO :=
  orderUtxo saleRef 12000000 (SampleChain.datumCbor [0x00, 0x98, 0x96, 0x80] [0x05])

def restUtxo : UTxO :=
  orderUtxo restRef 8000000 (SampleChain.datumCbor [0x00, 0x5b, 0x8d, 0x80] [0x03])

set_option maxRecDepth 100000 in
def chainHistory : History where
  chains := {c | c = chain ∨ c = chainAfter}
  content := by
    have hsame : ∀ tx ∈ chainAfter.txs.entries, ∀ tx' ∈ chainAfter.txs.entries,
        tx.hash = tx'.hash → tx = tx' := by decide
    have hmem : ∀ c, c = chain ∨ c = chainAfter →
        ∀ tx ∈ c.txs.entries, tx ∈ chainAfter.txs.entries := by
      rintro c (rfl | rfl)
      · decide
      · exact fun tx htx => htx
    exact fun c hc c' hc' tx htx tx' htx' => hsame tx (hmem c hc tx htx) tx' (hmem c' hc' tx' htx')

theorem readable :
    Readable Sample.deployment mesh SampleBatch.scripts reading opts SampleBatch.terms where
  documented := SampleCreation.documented
  addresses := SampleCreation.readsAddresses
  follows := ⟨rfl, rfl⟩
  hashes := Sample.sale_injOn
  seller := by decide

theorem shows_sale :
    Shows mesh reading text saleUtxo (Sample.orderOutput Sample.sale 12000000) where
  address := SampleCreation.reading_orderAddress
  amount := (SampleChain.shows_sale saleRef).amount
  datum := (SampleChain.shows_sale saleRef).datum
  text_eq := rfl
  datum_ne := (SampleChain.shows_sale saleRef).datum_ne
  unit_ne := (SampleChain.shows_sale saleRef).unit_ne

theorem shows_rest : Shows mesh reading text restUtxo
    (Sample.orderOutput (reducedDatum Sample.sale 4000000 2) 8000000) where
  address := SampleCreation.reading_orderAddress
  amount := (SampleChain.shows_rest restRef).amount
  datum := (SampleChain.shows_rest restRef).datum
  text_eq := rfl
  datum_ne := (SampleChain.shows_rest restRef).datum_ne
  unit_ne := (SampleChain.shows_rest restRef).unit_ne

set_option maxRecDepth 100000 in
theorem mirrors : Mirrors mesh reading text chain Sample.created saleRef := by
  intro out hout
  obtain rfl : Sample.orderOutput Sample.sale 12000000 = out := Option.some.inj hout
  exact ⟨saleUtxo, by decide, shows_sale, by decide⟩

set_option maxRecDepth 100000 in
theorem mirrors_after : Mirrors mesh reading text chainAfter Sample.partSold restRef := by
  intro out hout
  obtain rfl : Sample.orderOutput (reducedDatum Sample.sale 4000000 2) 8000000 = out :=
    Option.some.inj hout
  exact ⟨restUtxo, by decide, shows_rest, by decide⟩

theorem observes {c : ChainState} (hc : c ∈ chainHistory.chains) :
    Observes opts chainHistory (exact c) c where
  chain := hc
  truthful := ChainState.provider_faithful.truthful
  listed u hu := ⟨c, hc, (ChainState.liveUtxo_eq_some.mp (ChainState.provider_exact.1 u hu)).2⟩

/-- The cache after a pass that has seen the sale. -/
def repo : OrdersRepo := (doSync mesh opts (exact chain) .empty).state.repo

theorem maintained : Run (Maintains mesh opts chainHistory) .empty [(exact chain, chain)] repo :=
  .single (.pass (observes (.inl rfl)))

/-- What the four ADA leave of the sale is the tip of its lineage. -/
theorem tip_after : ([((Sample.ref 2 0).transactionId, Sample.salePart)].foldl
    (follow Sample.deployment.orderScriptHash)
    ⟨some ⟨(Sample.ref 1 0).transactionId, (0 : ℕ)⟩, []⟩).tip = some (reference restRef) := by
  decide

/-- The page of the pair. -/
def pair : Str := toPairId (assetHex adaAsset) (assetHex Sample.token)

theorem token_lt : toApiAssetId (assetHex Sample.token) < toApiAssetId (assetHex adaAsset) := by
  decide

theorem exists_book (repo : OrdersRepo) (now : JsNumber) :
    ∃ book, orderbook repo now pair = .ok book := by
  have hswap : pair = toPairId (assetHex Sample.token) (assetHex adaAsset) :=
    (toPairId_eq_iff _ _ _ _).mpr Sym2.eq_swap
  rw [orderbook, hswap, baseOf_toPairId token_lt]
  exact ⟨_, rfl⟩

end SampleLive

open SampleLive in
/-- The cache has seen the sale; after the pass that follows the take, the book shows six
ADA for three tokens. -/
theorem book_shows_order_sample : ∃ pass book row,
    doSync SampleCreation.mesh SampleChain.opts (SampleChain.exact chainAfter) repo = .ok pass ∧
    orderbook pass.repo (.finite SampleBatch.now) pair = .ok book ∧ row ∈ book.asks ∧
    row.orderId = orderIdOf restRef ∧ row.offeredAmount = 6000000 ∧ row.requestedAmount = 3 := by
  obtain ⟨pass, hsync⟩ : ∃ pass, doSync SampleCreation.mesh SampleChain.opts
      (SampleChain.exact chainAfter) repo = .ok pass := ChainState.provider_completes _
  obtain ⟨book, hbook⟩ := exists_book pass.repo (.finite SampleBatch.now)
  have hdatum : (Sample.orderOutput Sample.sale 12000000).datum =
      .inlineDatum (toData SampleBatch.terms.datum) := rfl
  have hconfirmed : Confirmed SampleChain.opts chainAfter restRef := ⟨51, by decide, by decide⟩
  obtain ⟨row, hget, -, hrow, hside⟩ := book_shows_order readable Sample.step_creation (by decide)
    rfl (by decide) hdatum (.single Sample.step_salePart) rfl tip_after maintained mirrors_after
    (observes (.inr rfl)) ChainState.provider_faithful ChainState.provider_exact.2 hsync
    (.inr hconfirmed) hbook
  have hexpired : isOrderExpired row (.finite SampleBatch.now) = false := by
    rw [isOrderExpired, hrow.expiration]
    rfl
  exact ⟨pass, book, row, hsync, hbook, (hside hexpired).2 token_lt,
    OrdersRepo.orderId_of_getOrder hget, hrow.offeredAmount, hrow.requestedAmount⟩

end BeaconDex.Backend
