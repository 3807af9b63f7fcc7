import BeaconDex.Backend.PairIdentity
import BeaconDex.Backend.SmartFill

/-!
# The asset a cached row names

A row keeps an asset as its policy id and its name.  Three readers turn these
back into an asset id: the two planners and the order book route, each with its
own copy of `offeredAssetId`, which asks of ADA only that the policy id is empty.
The indexer, the builder and the validator ask that the name is empty too.
`oneIdentity_iff` says for which accepted orders the readers and the indexer
agree, and `orderbook_sides` what the route's book holds then.

## A token without a policy

An asset with an empty policy id and a name is no asset the ledger knows, but a datum
can ask for it.  The order is accepted: nothing on the chain holds an ask to be an
asset.  It can never be filled, and what remains to be said is under which name it is
listed until then.
-/

namespace BeaconDex.Backend

/-! ## The order book route -/

/-- The open orders of a pair: the bids offer its first asset, the asks its
second. -/
structure Orderbook where
  pairId : Str
  bids : List Order
  asks : List Order
  syncedToSlot : ℕ

/-- The first asset id of a pair id, which has two of them, in order. -/
def baseOf (pair : Str) : Option Str :=
  match pair.splitOn '_' with
  | [base, quote] => if base < quote then some base else none
  | _ => none

/-- `GET /pairs/:pair/orderbook` at the time `now`, with the text of its 400.  The
route's `offeredId` is `offeredAssetId`, written once more. -/
def orderbook (repo : OrdersRepo) (now : JsNumber) (pair : Str) : Except Str Orderbook :=
  match baseOf pair with
  | none => .error "pair must be two sorted asset ids joined by '_'".toList
  | some base =>
      let orders := (repo.listByPair pair).filter fun o => !isOrderExpired o now
      .ok {
        pairId := pair
        bids := orders.filter fun o => offeredAssetId o = base
        asks := orders.filter fun o => offeredAssetId o ≠ base
        syncedToSlot := repo.cursor }

/-- The book holds every unexpired open order of the pair on one side. -/
theorem orderbook_perm {repo : OrdersRepo} {now : JsNumber} {pair : Str} {book : Orderbook}
    (h : orderbook repo now pair = .ok book) :
    (book.bids ++ book.asks).Perm
      ((repo.listByPair pair).filter fun o => !isOrderExpired o now) := by
  unfold orderbook at h
  split at h
  · cases h
  · next base _ =>
    obtain rfl := Except.ok.inj h
    simpa only [ne_eq, decide_not] using List.filter_append_perm (fun o => offeredAssetId o = base)
      ((repo.listByPair pair).filter fun o => !isOrderExpired o now)

/-- The base of a pair is its first asset, if the separator is in neither. -/
theorem baseOf_toPairId {a b : AssetClass}
    (hlt : toApiAssetId (assetHex a) < toApiAssetId (assetHex b)) :
    baseOf (toPairId (assetHex a) (assetHex b)) = some (toApiAssetId (assetHex a)) := by
  rw [toPairId, if_neg hlt.asymm, baseOf,
    List.splitOn_append_cons_self, List.splitOn_eq_singleton (separator_notMem_toApiAssetId a),
    List.splitOn_eq_singleton (separator_notMem_toApiAssetId b)]
  exact if_pos hlt

/-- **The sides of the book.**  Where every row of the pair names its assets by
their ids, a bid converts the second asset into the first, and an ask the first
into the second. -/
theorem orderbook_sides {repo : OrdersRepo} {now : JsNumber} {a b : AssetClass} {book : Orderbook}
    (hlt : toApiAssetId (assetHex a) < toApiAssetId (assetHex b))
    (h : orderbook repo now (toPairId (assetHex a) (assetHex b)) = .ok book)
    (hrows : ∀ o ∈ repo.listByPair (toPairId (assetHex a) (assetHex b)), ∃ offer ask : AssetClass,
      offeredAssetId o = toApiAssetId (assetHex offer) ∧
        requestedAssetId o = toApiAssetId (assetHex ask) ∧
        o.pairId = toPairId (assetHex offer) (assetHex ask)) :
    (∀ o ∈ book.bids, offeredAssetId o = toApiAssetId (assetHex a) ∧
      requestedAssetId o = toApiAssetId (assetHex b)) ∧
    ∀ o ∈ book.asks, offeredAssetId o = toApiAssetId (assetHex b) ∧
      requestedAssetId o = toApiAssetId (assetHex a) := by
  rw [orderbook, baseOf_toPairId hlt] at h
  obtain rfl := Except.ok.inj h
  have hids : ∀ o ∈ repo.listByPair (toPairId (assetHex a) (assetHex b)),
      s(offeredAssetId o, requestedAssetId o) =
        s(toApiAssetId (assetHex a), toApiAssetId (assetHex b)) := by
    intro o ho
    obtain ⟨offer, ask, hoffer, hask, hpair⟩ := hrows o ho
    have hsame : o.pairId = toPairId (assetHex a) (assetHex b) :=
      (of_decide_eq_true (List.mem_filter.mp ho).2).1
    rw [hoffer, hask]
    exact (toPairId_eq_iff offer ask a b).mp (hpair.symm.trans hsame)
  constructor
  · intro o ho
    obtain ⟨ho, hbase⟩ := List.mem_filter.mp ho
    have hbase : offeredAssetId o = toApiAssetId (assetHex a) := by simpa using hbase
    rcases Sym2.eq_iff.mp (hids o (List.mem_of_mem_filter ho)) with hid | hid
    · exact hid
    · exact absurd (hbase.symm.trans hid.1) hlt.ne
  · intro o ho
    obtain ⟨ho, hbase⟩ := List.mem_filter.mp ho
    have hbase : offeredAssetId o ≠ toApiAssetId (assetHex a) := by simpa using hbase
    rcases Sym2.eq_iff.mp (hids o (List.mem_of_mem_filter ho)) with hid | hid
    · exact absurd hid.1 hbase
    · exact hid

/-! ## Asset ids -/

/-- ADA as the planners recognise it is ADA as the indexer does: an asset without
a policy id has no name either. -/
def PlainAda (a : AssetClassHex) : Prop := a.policyId = [] → a.assetNameHex = []

instance (a : AssetClassHex) : Decidable (PlainAda a) := inferInstanceAs (Decidable (_ → _))

/-- The asset id the readers of a row put together. -/
def cachedAssetId (a : AssetClassHex) : Str :=
  if a.policyId = [] then "lovelace".toList else a.policyId ++ '.' :: a.assetNameHex

theorem MappedRow.offeredAssetId_eq {mesh : Mesh} {utxo : UTxO} {datum : OrderDatumFields}
    {row : Order} (h : MappedRow mesh utxo datum row) :
    offeredAssetId row = cachedAssetId datum.offer := by
  rw [← h.offered]
  rfl

theorem MappedRow.requestedAssetId_eq {mesh : Mesh} {utxo : UTxO} {datum : OrderDatumFields}
    {row : Order} (h : MappedRow mesh utxo datum row) :
    requestedAssetId row = cachedAssetId datum.ask := by
  rw [← h.requested]
  rfl

/-- The readers of a row agree with the indexer on an asset exactly if it is not an empty
policy id with a name. -/
theorem cachedAssetId_eq_iff (a : AssetClassHex) :
    cachedAssetId a = toApiAssetId a ↔ PlainAda a := by
  obtain ⟨policyId, assetNameHex⟩ := a
  unfold cachedAssetId toApiAssetId isAda PlainAda
  by_cases hpolicy : policyId = []
  · -- `lovelace` on one side; on the other a text that begins with a dot, if there is a name
    by_cases hname : assetNameHex = [] <;> simp [hpolicy, hname]
  · simp [hpolicy]

/-- They call everything ADA that has no policy id. -/
theorem cachedAssetId_eq_lovelace {a : AssetClassHex} :
    cachedAssetId a = "lovelace".toList ↔ a.policyId = [] := by
  unfold cachedAssetId
  split
  · next hpolicy => simp [hpolicy]
  · next hpolicy =>
    refine iff_of_false ?_ hpolicy
    intro h
    have hdot : '.' ∈ "lovelace".toList := by
      rw [← h]
      exact List.mem_append_right _ List.mem_cons_self
    exact absurd hdot (by decide)

/-- **One identity**: the ids read off a row are those of the datum's assets, its
pair id is made of them, and a side is read as lovelace only if the validator
treats it as ADA. -/
structure OneIdentity (row : Order) (datum : OrderDatumFields) : Prop where
  offered : offeredAssetId row = toApiAssetId datum.offer
  requested : requestedAssetId row = toApiAssetId datum.ask
  pairId : pairIdOf (offeredAssetId row) (requestedAssetId row) = row.pairId
  offered_ada : ∀ a, datum.offer = assetHex a → offeredAssetId row = "lovelace".toList →
    BeaconDex.isAda a = true
  requested_ada : ∀ a, datum.ask = assetHex a → requestedAssetId row = "lovelace".toList →
    BeaconDex.isAda a = true

theorem isAda_of_cachedAssetId {a : AssetClass} (hplain : PlainAda (assetHex a))
    (h : cachedAssetId (assetHex a) = "lovelace".toList) : BeaconDex.isAda a = true := by
  have hpolicy := cachedAssetId_eq_lovelace.mp h
  rw [← isAda_assetHex, isAda, hpolicy, hplain hpolicy]
  rfl

/-- **When the backend agrees on the assets of an accepted order**: exactly when neither
side is a name without a policy id.  Such an asset is lovelace for the readers of its row,
and a token for the indexer that has filed it under its pair. -/
theorem oneIdentity_iff {mesh : Mesh} {opts : IndexerOptions} {utxo : UTxO} {row : Order}
    {cbor : Str} {datum : OrderDatumFields} (h : validateAndMap mesh opts utxo = some row)
    (hcbor : utxo.plutusData = some cbor) (hdatum : decodeOrderDatum mesh cbor = some datum) :
    OneIdentity row datum ↔ PlainAda datum.offer ∧ PlainAda datum.ask := by
  have hrow := mappedRow_of_validateAndMap h hcbor hdatum
  have hoffered := hrow.offeredAssetId_eq
  have hrequested := hrow.requestedAssetId_eq
  constructor
  · intro hone
    exact ⟨(cachedAssetId_eq_iff _).mp (hoffered.symm.trans hone.offered),
      (cachedAssetId_eq_iff _).mp (hrequested.symm.trans hone.requested)⟩
  · rintro ⟨hoffer, hask⟩
    have hoffer' := (cachedAssetId_eq_iff _).mpr hoffer
    have hask' := (cachedAssetId_eq_iff _).mpr hask
    refine ⟨hoffered.trans hoffer', hrequested.trans hask', ?_, ?_, ?_⟩
    · rw [hoffered, hrequested, hoffer', hask', hrow.pairId]
      rfl
    · intro a ha hlovelace
      rw [ha] at hoffer
      exact isAda_of_cachedAssetId hoffer (by rw [← ha, ← hoffered, hlovelace])
    · intro a ha hlovelace
      rw [ha] at hask
      exact isAda_of_cachedAssetId hask (by rw [← ha, ← hrequested, hlovelace])

/-! An order for the token's bytes, all of them as a name. -/

namespace SampleNameless

open BeaconDex.Sample

def nameless : AssetClass := ⟨[], token.policyId ++ token.assetName⟩

def phantom : OrderDatum := order BeaconDex.Sample.ada 10000000 nameless 5

def phantomCbor : Str :=
  hexOf ([0xd8, 0x79, 0x9f, 0x01, 0x58, 0x1c] ++ deployment.policyId ++
    [0xd8, 0x79, 0x9f, 0x58, 0x1c] ++ ownerKey ++ [0xff, 0xd8, 0x79, 0x9f, 0xd8, 0x79, 0x9f,
      0x58, 0x1c] ++ sellerKey ++ [0xff, 0xd8, 0x7a, 0x80, 0xff, 0xd8, 0x79, 0x9f, 0x40, 0x40, 0xff,
      0x1a, 0x00, 0x98, 0x96, 0x80, 0xd8, 0x79, 0x9f, 0x40, 0x58, 0x1d] ++ nameless.assetName ++
    [0xff, 0x05, 0xd8, 0x7a, 0x80, 0xd8, 0x7a, 0x80, 0xff])

def fields : OrderDatumFields := fieldsOf phantom ownerKey sellerKey none

def mesh : Mesh :=
  { SampleChain.mesh with
    deserializeDatum := fun cbor =>
      if cbor = phantomCbor then some (nodeOf (toData phantom))
      else SampleChain.mesh.deserializeDatum cbor }

def utxoOf (cbor : Str) : UTxO :=
  let output := SampleChain.orderOutput 12000000 cbor
  ⟨SampleChain.orderRef, output.address, output.amount, output.plutusData⟩

def saleUtxo : UTxO := utxoOf (SampleChain.datumCbor [0x00, 0x98, 0x96, 0x80] [0x05])

def phantomUtxo : UTxO := utxoOf phantomCbor

end SampleNameless

section

open SampleNameless

set_option maxRecDepth 100000 in
theorem oneIdentity_iff_sample : ∃ row datum,
    validateAndMap mesh SampleChain.opts saleUtxo = some row ∧
      decodeOrderDatum mesh (SampleChain.datumCbor [0x00, 0x98, 0x96, 0x80] [0x05]) = some datum ∧
      (OneIdentity row datum ↔ PlainAda datum.offer ∧ PlainAda datum.ask) := by
  have haccepted : (validateAndMap mesh SampleChain.opts saleUtxo).isSome := by decide
  have hdecoded : (decodeOrderDatum mesh
      (SampleChain.datumCbor [0x00, 0x98, 0x96, 0x80] [0x05])).isSome := by decide
  obtain ⟨row, hrow⟩ := Option.isSome_iff_exists.mp haccepted
  obtain ⟨datum, hdatum⟩ := Option.isSome_iff_exists.mp hdecoded
  exact ⟨row, datum, hrow, hdatum, oneIdentity_iff hrow rfl hdatum⟩

set_option maxRecDepth 100000 in
/-- **An order for a name without a policy id.**  The minting policy accepts its
creation and the indexer its output.  The planners read it as asking for lovelace,
which its datum does not, and put it in another market than its row is in. -/
theorem name_read_as_lovelace :
    mintBeaconsOk BeaconDex.Sample.sha2_256 BeaconDex.Sample.deployment.orderScriptHash
        BeaconDex.Sample.deployment.policyId (BeaconDex.Sample.creation phantom 12000000) =
          some true ∧
      BeaconDex.isAda phantom.ask = false ∧
      ∃ row datum, validateAndMap mesh SampleChain.opts phantomUtxo = some row ∧
        decodeOrderDatum mesh phantomCbor = some datum ∧ datum.ask = assetHex phantom.ask ∧
        requestedAssetId row = "lovelace".toList ∧
        pairIdOf (offeredAssetId row) (requestedAssetId row) ≠ row.pairId ∧
        ¬OneIdentity row datum := by
  have haccepted : (validateAndMap mesh SampleChain.opts phantomUtxo).isSome := by decide
  have hdatum : decodeOrderDatum mesh phantomCbor = some fields := by decide
  obtain ⟨row, hrow⟩ := Option.isSome_iff_exists.mp haccepted
  have hmapped := mappedRow_of_validateAndMap hrow rfl hdatum
  have hrequested := hmapped.requestedAssetId_eq
  refine ⟨by decide, by decide, row, fields, hrow, hdatum, rfl, hrequested, ?_, ?_⟩
  · rw [hmapped.offeredAssetId_eq, hrequested, hmapped.pairId]
    decide
  · intro hone
    rw [OneIdentity.requested hone] at hrequested
    exact absurd hrequested (by decide)

end

end BeaconDex.Backend
