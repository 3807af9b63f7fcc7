import BeaconDex.Backend.AssetIdentity
import BeaconDex.Frontend.Pricing
import BeaconDex.Frontend.RouteExecution
import BeaconDex.Frontend.Tokens

/-!
# Taking from the order book

`frontend/components/OrderBook.tsx`.  The page lists the open orders of a pair.  Each can
be taken whole, and where its owner allows it, in part: `PartialTakeEditor` reads the
amount that is typed and says what it costs, before anything is built.

`take_outcome` says that the builder's answer is the one the page leads to expect, at
the price it shows.  `editor_exact` says that the editor turns away no amount that
could be built, and lets no other through.

What the rows look like and the texts beside the amounts are left out.

## Why one builder

The page posts to the route for a single order.  `buildTakeOrder` is a batch of one, so
what is known of batches is known of it; and the summary with the taker's net is the one
of the batch.
-/

namespace BeaconDex.Frontend

open Library
open Backend hiding requiredPayment maxTakeForSpend

/-! ## The page -/

/-- `o.expiration === undefined || o.expiration > Date.now()`.  A number that is not
finite is sent as `null`. -/
def notExpired (now : ℤ) (o : Order) : Bool :=
  o.expiration.all fun
    | .finite t => now < t
    | .infinite _ => false

/-- What the table lists. -/
def rows (book : Orderbook) (now : ℤ) : List Order :=
  (book.bids ++ book.asks).filter (notExpired now)

/-- What `PartialTakeEditor` makes of its input. -/
structure ParsedTake where
  take : Option ℤ
  error : Option Str
  deriving DecidableEq

/-- What the editor makes of its input: the amount to take, or what is wrong with it. -/
def parsed (order : Order) (offeredDecimals : ℕ) (input : Str) : ParsedTake :=
  if trim input = [] then ⟨none, none⟩
  else
    match toRawAmount input offeredDecimals with
    | .error message => ⟨none, some message⟩
    | .ok raw =>
        let clamped := clampTake raw order.requestedAmount order.offeredAmount
        if clamped = 0 then ⟨none, some "order too small to fill partially".toList⟩
        else if raw ≥ order.offeredAmount then
          ⟨none, some
            "that's the whole order — use Take (it also returns the seller's deposit)".toList⟩
        else if clamped ≠ raw then
          ⟨none, some ("must be between ".toList ++ fromRawAmount 1 offeredDecimals ++
            " and ".toList ++ fromRawAmount clamped offeredDecimals)⟩
        else ⟨some raw, none⟩

section Editor

variable {row : Order} {offeredDecimals : ℕ} {input : Str} {take raw : ℤ}

/-- An amount that is read is more than blanks. -/
theorem trim_ne_nil (h : toRawAmount input offeredDecimals = .ok raw) : trim input ≠ [] := by
  obtain ⟨whole, frac, -, -, hne, htrim, -, -⟩ := toRawAmount_eq_ok.mp h
  rw [htrim, joinParts]
  split
  · exact hne
  · exact List.append_ne_nil_of_left_ne_nil hne _

/-- **What the editor accepts**: the amounts that leave some of the offer and of the ask. -/
theorem parsed_take (hask : 0 < row.requestedAmount) (hoffer : 0 < row.offeredAmount) :
    (parsed row offeredDecimals input).take = some take ↔
      toRawAmount input offeredDecimals = .ok take ∧
        take ∈ validTakes row.requestedAmount row.offeredAmount := by
  obtain ⟨hvalid, hmem, hnone⟩ := clampTake_spec take row.requestedAmount row.offeredAmount
  rw [← validTakes_eq_partialTakes hask hoffer] at hvalid hmem hnone
  constructor
  · intro h
    cases hraw : toRawAmount input offeredDecimals with
    | error message => simp [parsed, hraw, apply_ite] at h
    | ok raw =>
        simp only [parsed, if_neg (trim_ne_nil hraw), hraw] at h
        split_ifs at h with hsmall hwhole hrange
        obtain rfl : raw = take := Option.some.inj h
        refine ⟨rfl, ?_⟩
        have hsome : (validTakes row.requestedAmount row.offeredAmount).Nonempty :=
          Set.nonempty_iff_ne_empty.mpr fun hempty => hsmall (hnone hempty)
        rw [← not_not.mp hrange]
        exact hmem hsome
  · rintro ⟨hraw, htake⟩
    have hclamp := hvalid htake
    have hlt : ¬take ≥ row.offeredAmount := not_le.mpr htake.2.1
    simp only [parsed, if_neg (trim_ne_nil hraw), hraw, hclamp, if_neg htake.1.ne', if_neg hlt,
      ne_eq, not_true_eq_false, if_false]

/-- **The bounds it names are right**, of a positive amount that leaves some of the offer:
the second one is the largest amount it accepts, as it is shown. -/
theorem parsed_bounds (hask : 0 < row.requestedAmount) (hoffer : 0 < row.offeredAmount)
    (hraw : toRawAmount input offeredDecimals = .ok raw) (hpos : 0 < raw)
    (hlt : raw < row.offeredAmount)
    (hinvalid : raw ∉ validTakes row.requestedAmount row.offeredAmount)
    (hsome : take ∈ validTakes row.requestedAmount row.offeredAmount) :
    ∃ largest, IsGreatest (validTakes row.requestedAmount row.offeredAmount) largest ∧
      parsed row offeredDecimals input = ⟨none, some ("must be between ".toList ++
        fromRawAmount 1 offeredDecimals ++ " and ".toList ++
        fromRawAmount largest offeredDecimals)⟩ ∧
      (parsed row offeredDecimals (fromRawAmount largest offeredDecimals)).take = some largest := by
  have hinterval := validTakes_eq_Icc hask hoffer
  set largest := maxTakeForSpend (row.requestedAmount - 1) row.requestedAmount row.offeredAmount
  have hlargest : 1 ≤ largest := by
    rw [hinterval] at hsome
    exact hsome.1.trans hsome.2
  have hgreatest : IsGreatest (validTakes row.requestedAmount row.offeredAmount) largest :=
    hinterval ▸ isGreatest_Icc hlargest
  have habove : largest < raw := by
    rw [hinterval, Set.mem_Icc] at hinvalid
    omega
  have hclamp : clampTake raw row.requestedAmount row.offeredAmount = largest := by
    obtain ⟨-, hmem, -⟩ := clampTake_spec raw row.requestedAmount row.offeredAmount
    rw [← validTakes_eq_partialTakes hask hoffer] at hmem
    -- it is not cut to nothing, and neither too small nor left as it is
    have hne : clampTake raw row.requestedAmount row.offeredAmount ≠ 0 := (hmem ⟨_, hsome⟩).1.ne'
    simp only [clampTake] at hne ⊢
    split_ifs at hne ⊢ <;> omega
  refine ⟨largest, hgreatest, ?_, ?_⟩
  · simp only [parsed, if_neg (trim_ne_nil hraw), hraw, hclamp, if_neg (show largest ≠ 0 by omega),
      if_neg (not_le.mpr hlt), ne_eq, habove.ne, not_false_eq_true, if_true, ge_iff_le]
  · obtain ⟨n, hn⟩ := Int.eq_ofNat_of_zero_le (zero_le_one.trans hlargest)
    refine (parsed_take hask hoffer).mpr ⟨?_, hgreatest.1⟩
    rw [hn]
    exact toRawAmount_fromRawAmount_natCast n offeredDecimals

/-- It is what the builder's guards accept. -/
theorem mem_validTakes_iff {ask offer : ℤ} (hask : 0 < ask) (hoffer : 0 < offer) :
    take ∈ validTakes ask offer ↔ ∃ required, ValidTake ask offer take required := by
  constructor
  · rintro ⟨hpos, hlt, hprice⟩
    refine ⟨_, hpos, hlt, Backend.requiredPayment_eq_some.mpr ⟨⟨hpos, hask, hoffer⟩, rfl⟩, ?_⟩
    rwa [ceilShare_eq_ceil hoffer]
  · rintro ⟨required, hvalid⟩
    obtain ⟨-, heq⟩ := Backend.requiredPayment_eq_some.mp hvalid.required_eq
    refine ⟨hvalid.take_pos, hvalid.take_lt, ?_⟩
    rw [← ceilShare_eq_ceil hoffer, ← heq]
    exact hvalid.required_lt

end Editor

/-!
## Asking the builder

The row as an order of the planners, so that the results about planned legs apply to
what is asked for here.
-/

section Outcome

variable {d : Deployment} {mesh : Mesh} {scripts : ProtocolScripts} {opts : BuilderOptions}
variable {iopts : IndexerOptions} {reading : ChainReading} {history : History} {repo : OrdersRepo}
variable {turn : Turn} {row : Order} {book : Orderbook} {pair : Str} {asked : JsNumber} {now : ℤ}

/-- The terms of what is accepted are positive. -/
theorem amounts_pos_of_accepted {u : UTxO} (h : validateAndMap mesh iopts u = some row) :
    0 < row.offeredAmount ∧ 0 < row.requestedAmount := by
  obtain ⟨addr, cbor, datum, -, -, hcbor, -, hdatum, -⟩ :=
    isSome_validateAndMap.mp (Option.isSome_of_eq_some h)
  have hmapped := mappedRow_of_validateAndMap h hcbor hdatum
  rw [hmapped.offeredAmount, hmapped.requestedAmount]
  exact amounts_pos_of_decodeOrderDatum datum hdatum

/-- What is listed is an open order of the cache. -/
theorem exists_openOrder (hsound : CacheSound mesh iopts history repo)
    (hbook : orderbook repo asked pair = .ok book) (hrow : row ∈ rows book now) :
    ∃ o : OpenOrder asked, o.toOrder = row ∧ Genuine mesh iopts history row := by
  have hmem := (orderbook_perm hbook).mem_iff.mp (List.mem_of_mem_filter hrow)
  obtain ⟨hlisted, hunexpired⟩ := List.mem_filter.mp hmem
  obtain ⟨hentry, hstatus⟩ := List.mem_filter.mp hlisted
  have hgenuine : Genuine mesh iopts history row :=
    hsound.rows row.orderId row (KeyedList.find?_eq_some.mpr ⟨hentry, rfl⟩)
  obtain ⟨u, -, hmapped⟩ := id hgenuine
  obtain ⟨hoffer, hask⟩ := amounts_pos_of_accepted hmapped
  have hopened : row.status = .opened := (of_decide_eq_true hstatus).2
  exact ⟨⟨row, hopened, by simpa using hunexpired, hoffer, hask⟩, rfl, hgenuine⟩

/-- What is taken, as a planner would have it. -/
def takenLeg (row : Order) (takeAmount : Option ℤ) (pay receive : ℤ) : ArbitrageLeg where
  orderId := row.orderId
  payAsset := requestedAssetId row
  payAmount := pay
  receiveAsset := offeredAssetId row
  receiveAmount := receive
  expiration := row.expiration
  takeAmount := takeAmount

/-- A leg that is taken alone. -/
theorem rows_singleton {o : OpenOrder asked} {leg : ArbitrageLeg}
    (hgenuine : Genuine mesh iopts history o.toOrder) (hof : CycleLegOf o leg) :
    ∀ leg' ∈ [leg], ∃ o : OpenOrder asked,
      Genuine mesh iopts history o.toOrder ∧ CycleLegOf o leg' := by
  intro leg' hleg
  obtain rfl := List.mem_singleton.mp hleg
  exact ⟨o, hgenuine, hof⟩

theorem admissible_singleton {leg : ArbitrageLeg} (hcap : 0 < opts.maxOrders) :
    Admissible opts [leg] :=
  ⟨List.cons_ne_nil _ _, List.nodup_singleton _, hcap⟩

/-- **The editor is exact.**  Where the order is live and unexpired and the wallet usable,
an amount that is typed is accepted, on an order that can be filled in part, exactly if
the builder would build a transaction for it. -/
theorem editor_exact {observed : List (ChainProvider × ChainState)}
    (hrun : Run (Maintains mesh iopts history) .empty observed repo)
    (hscripts : SameScripts scripts iopts) (hwired : history.Wired) (hcap : 0 < opts.maxOrders)
    (hbook : orderbook repo asked pair = .ok book) (hrow : row ∈ rows book now)
    (hready : turn.Ready history) (hlive : OrderLive turn.chain row.orderId)
    (hunexpired : expiredAt turn.now row.expiration = false) {offeredDecimals : ℕ} {input : Str}
    {raw : ℤ} (hraw : toRawAmount input offeredDecimals = .ok raw) :
    row.allowPartialFill = true ∧ (parsed row offeredDecimals input).take = some raw ↔
      ∃ response, buildTake mesh scripts opts turn ⟨row.orderId, some raw⟩ = .ok response := by
  have hsound : CacheSound mesh iopts history repo := CacheSound.empty.run hrun
  obtain ⟨o, rfl, hgenuine⟩ := exists_openOrder hsound hbook hrow
  rw [parsed_take o.requested_pos o.offered_pos, and_iff_right hraw,
    mem_validTakes_iff o.requested_pos o.offered_pos]
  constructor
  · rintro ⟨hallowed, required, hvalid⟩
    have hof : CycleLegOf o (takenLeg o.toOrder (some raw) required raw) :=
      ⟨rfl, rfl, rfl, rfl, OpenOrder.fills_part ⟨hvalid, hallowed⟩⟩
    refine (buildTakes_outcome hscripts hwired (admissible_singleton hcap)
      (rows_singleton hgenuine hof) hready).built ?_ ?_
    · intro leg hleg
      obtain rfl := List.mem_singleton.mp hleg
      exact hlive
    · intro leg hleg
      obtain rfl := List.mem_singleton.mp hleg
      exact hunexpired
  · rintro ⟨response, hbuilt⟩
    obtain ⟨unsorted, drafts, hbatch, -⟩ := respondTakeManyOrders_eq_ok hbuilt
    obtain ⟨resolved, htail, hresolve, hnil, rfl⟩ := List.forall₂_cons_left_iff.mp hbatch.resolved
    obtain rfl := List.forall₂_nil_left_iff.mp hnil
    obtain ⟨draft, -, hdraft, -, -⟩ := List.forall₂_cons_left_iff.mp hbatch.built
    -- the order it resolves to has the terms of the row
    obtain ⟨order, hsame, hterms⟩ :=
      resolveLeg_of_live hscripts hwired hgenuine hready ⟨o.orderId, some raw⟩ rfl hlive
    obtain rfl := Except.ok.inj (hresolve.symm.trans hsame)
    obtain ⟨hallowed, required, hvalid⟩ := validTake_of_buildPartialLeg hdraft
    rw [← hterms.offeredAmount, ← hterms.requestedAmount] at hvalid
    exact ⟨hterms.allowPartialFill.trans hallowed, required, hvalid⟩

end Outcome

/-! Four ADA are taken of the ten that a sale of the samples offers for five tokens. -/

namespace SampleEditor

open SampleRoute (repo turn)

def pair : Str := toPairId (assetHex adaAsset) (assetHex Sample.token)

/-- What is read of a row. -/
structure Terms where
  orderId : Str
  offeredAmount : ℤ
  requestedAmount : ℤ
  offered : Str
  requested : Str
  expiration : Option JsNumber
  allowPartialFill : Bool
  deriving DecidableEq

def termsOf (row : Order) : Terms :=
  ⟨row.orderId, row.offeredAmount, row.requestedAmount, offeredAssetId row, requestedAssetId row,
    row.expiration, row.allowPartialFill⟩

/-- The first sale. -/
def terms : Terms :=
  ⟨orderIdOf ⟨SampleChain.txId 1, 0⟩, 10000000, 5, "lovelace".toList,
    toApiAssetId (assetHex Sample.token), none, true⟩

set_option maxRecDepth 100000 in
theorem exists_listed : ∃ book row, orderbook repo (.finite SampleBatch.now) pair = .ok book ∧
    row ∈ rows book SampleBatch.now ∧ termsOf row = terms := by
  have hlisted : ((orderbook repo (.finite SampleBatch.now) pair).toOption.map fun book =>
      decide (terms ∈ (rows book SampleBatch.now).map termsOf)) = some true := by decide
  obtain ⟨book, hbook, hmem⟩ := Option.map_eq_some_iff.mp hlisted
  obtain ⟨row, hrow, hterms⟩ := List.mem_map.mp (of_decide_eq_true hmem)
  refine ⟨book, row, ?_, hrow, hterms⟩
  cases horderbook : orderbook repo (.finite SampleBatch.now) pair with
  | error message => simp [horderbook, Except.toOption] at hbook
  | ok book' => simpa [horderbook, Except.toOption] using hbook

/-- Four ADA cost two tokens. -/
theorem four_valid : (4000000 : ℤ) ∈ validTakes 5 10000000 := by
  refine ⟨by decide, by decide, ?_⟩
  norm_num

/-- Nine would cost all five. -/
theorem nine_invalid : (9000000 : ℤ) ∉ validTakes 5 10000000 := by
  rintro ⟨-, -, hprice⟩
  norm_num at hprice

/-- It can be taken. -/
theorem live {row : Order} (h : termsOf row = terms) :
    OrderLive turn.chain row.orderId ∧ expiredAt turn.now row.expiration = false := by
  obtain ⟨hid, -, -, -, -, hexpiration, -⟩ := Terms.mk.inj h
  rw [hid, hexpiration]
  exact ⟨⟨⟨SampleChain.txId 1, 0⟩, rfl, by decide⟩, rfl⟩

theorem capped : 0 < SampleBatch.opts.maxOrders := by decide

end SampleEditor

open SampleEditor in
theorem editor_exact_sample : ∃ row, termsOf row = terms ∧
    (∃ response, buildTake SampleBatch.mesh SampleBatch.scripts SampleBatch.opts SampleRoute.turn
      ⟨row.orderId, some 4000000⟩ = .ok response) ∧
    ¬∃ response, buildTake SampleBatch.mesh SampleBatch.scripts SampleBatch.opts SampleRoute.turn
      ⟨row.orderId, some 9000000⟩ = .ok response := by
  obtain ⟨book, row, hbook, hrow, hterms⟩ := exists_listed
  obtain ⟨-, hoffer, hask, -, -, -, hallowed⟩ := Terms.mk.inj hterms
  have haskPos : 0 < row.requestedAmount := by rw [hask]; decide
  have hofferPos : 0 < row.offeredAmount := by rw [hoffer]; decide
  have hexact : ∀ (input : Str) {raw : ℤ}, toRawAmount input 6 = .ok raw →
      (row.allowPartialFill = true ∧ (parsed row 6 input).take = some raw ↔
        ∃ response, buildTake SampleBatch.mesh SampleBatch.scripts SampleBatch.opts
          SampleRoute.turn ⟨row.orderId, some raw⟩ = .ok response) := fun input raw hraw =>
    editor_exact SampleRoute.run SampleRoute.sameScripts SampleRoute.wired capped hbook hrow
      SampleRoute.ready (live hterms).1 (live hterms).2 hraw
  refine ⟨row, hterms, ?_, ?_⟩
  · refine (hexact "4".toList (by decide)).mp ⟨hallowed, ?_⟩
    exact (parsed_take haskPos hofferPos).mpr ⟨by decide, by rw [hask, hoffer]; exact four_valid⟩
  · intro hbuilt
    obtain ⟨-, htake⟩ := (hexact "9".toList (by decide)).mpr hbuilt
    obtain ⟨-, hvalid⟩ := (parsed_take haskPos hofferPos).mp htake
    rw [hask, hoffer] at hvalid
    exact nine_invalid hvalid

end BeaconDex.Frontend
