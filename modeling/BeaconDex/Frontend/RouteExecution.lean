import BeaconDex.Backend.RankAgreement
import BeaconDex.Backend.TakeOutcome

/-!
# A route is executed

`planSmartFill` plans on the cache, `TradePanel` cuts the route into batches, and the
builder resolves each batch against the chain as it is when its turn comes.
`batch_outcome` says what becomes of each batch: it is built if its orders are still
live and unexpired, and fails with the error that makes the panel plan again if one is
gone.  `route_nets` says that the nets the user is shown add up to what the route
promised, as far as it was executed.

Batches are built one after the other, each against a chain state of its own, by the
clock and with the wallet of its own turn.

## Cutting a route

A batch is a run of consecutive legs.  Whatever holds of a route leg by leg holds of its
batches, and sums over the batches are sums over the route (`flatten_chunk`), so the
size of a batch plays no part beyond the limit the builder has on it.
-/

namespace BeaconDex.Frontend

open Library Backend

/-!
## Batches

Runs of consecutive legs, each as long as a transaction allows.
-/

/-- `for (let i = 0; i < legs.length; i += size) groups.push(legs.slice(i, i + size))` -/
def chunk (legs : List SmartFillLeg) (size : ℕ+) : List (List SmartFillLeg) :=
  (List.range ((legs.length + size - 1) / size)).map fun turn =>
    (legs.drop (turn * size)).take size

/-- A leg of a route, with what it pays and receives. -/
def cycleLegOf (params : SmartFillParams) (leg : SmartFillLeg) : ArbitrageLeg where
  orderId := leg.orderId
  payAsset := params.spendAsset
  payAmount := leg.spend
  receiveAsset := params.receiveAsset
  receiveAmount := leg.receive
  expiration := leg.expiration
  takeAmount := leg.takeAmount

/-- The body of `api.buildTakeManyOrders` for a batch. -/
def batchRequest (batch : List SmartFillLeg) : List TakeLeg :=
  batch.map fun leg => ⟨leg.orderId, leg.takeAmount⟩

/-- The request for a batch, as the request for legs of a cycle: the two routes share one
builder. -/
theorem batchRequest_eq (params : SmartFillParams) (batch : List SmartFillLeg) :
    batchRequest batch = (batch.map (cycleLegOf params)).map requestOf := by
  rw [List.map_map]
  rfl

section Batches

variable {legs batch : List SmartFillLeg} {size : ℕ+}

/-- The first batches are the first legs. -/
theorem flatten_chunks (legs : List SmartFillLeg) (size : ℕ+) (turns : ℕ) :
    ((List.range turns).map fun turn => (legs.drop (turn * size)).take size).flatten =
      legs.take (turns * size) := by
  induction turns with
  | zero => simp
  | succ turns ih =>
      rw [List.range_succ, List.map_append, List.flatten_append, ih, List.map_singleton,
        List.flatten_singleton, Nat.add_mul, Nat.one_mul, List.take_add]

/-- Every leg is in a batch, and in its place. -/
theorem flatten_chunk (legs : List SmartFillLeg) (size : ℕ+) :
    (chunk legs size).flatten = legs := by
  rw [chunk, flatten_chunks, List.take_of_length_le]
  -- the turns are rounded up
  have hsize := size.pos
  have := Nat.div_add_mod (legs.length + size - 1) size
  have := Nat.mod_lt (legs.length + size - 1) hsize
  rw [Nat.mul_comm]
  omega

/-- A route that has a leg has a batch. -/
theorem chunk_ne_nil (h : legs ≠ []) : chunk legs size ≠ [] := by
  intro hnil
  rw [← flatten_chunk legs size, hnil] at h
  exact h rfl

/-- A batch keeps the legs of its route in their order. -/
theorem batch_sublist (h : batch ∈ chunk legs size) : batch.Sublist legs := by
  obtain ⟨turn, -, rfl⟩ := List.mem_map.mp h
  exact (List.take_sublist _ _).trans (List.drop_sublist _ _)

/-- A batch is neither empty nor longer than it may be. -/
theorem length_batch (h : batch ∈ chunk legs size) : batch ≠ [] ∧ batch.length ≤ size := by
  obtain ⟨turn, hturn, rfl⟩ := List.mem_map.mp h
  refine ⟨?_, List.length_take_le _ _⟩
  have hsize := size.pos
  have hlt : turn * size < legs.length := by
    have hturn := List.mem_range.mp hturn
    have := (Nat.lt_div_iff_mul_lt hsize).mp hturn
    omega
  intro hnil
  have := congrArg List.length hnil
  rw [List.length_take, List.length_drop, List.length_nil] at this
  omega

end Batches

/-!
## Routes off the cache

A route is planned on rows that are genuine, so each of its batches is a list of planned
legs.
-/

/-- `GET /smart-fill`: a route over the open orders of the pair. -/
def smartFill (repo : OrdersRepo) (params : SmartFillParams) : SmartFillRoute :=
  planSmartFill (repo.listByPair (pairIdOf params.spendAsset params.receiveAsset)) params

/-- A route records the legs of `filled`: eligible orders of the book, no two of one id,
each with its leg, and only the last leg partial. -/
structure RouteFills (params : SmartFillParams) (orders : List Order) (route : SmartFillRoute)
    (filled : List (OpenOrder params.nowPosixMs)) : Prop where
  legs : List.Forall₂ LegOf filled route.legs
  nodup : (filled.map fun o => o.orderId).Nodup
  eligible : ∀ o ∈ filled, o ∈ Backend.eligible params orders
  totalSpend : route.totalSpend = (route.legs.map SmartFillLeg.spend).sum
  totalReceive : route.totalReceive = (route.legs.map SmartFillLeg.receive).sum
  lastPartial : AllWhole route.legs.dropLast

/-- Every route that is planned on rows with distinct ids fills distinct orders of the
book, one for each of its legs. -/
theorem exists_routeFills {params : SmartFillParams} {orders : List Order}
    (hids : (orders.map Order.orderId).Nodup) (hlimit : 0 < params.limit) :
    ∃ filled, RouteFills params orders (planSmartFill orders params) filled := by
  have hrecorded : ∀ filled : List (OpenOrder params.nowPosixMs),
      Records filled (selectLegs params (candidatesOf params orders)).1 →
      filled ⊆ candidatesOf params orders → (filled.map fun o => o.orderId).Nodup →
      AllWhole (planSmartFill orders params).legs.dropLast →
      RouteFills params orders (planSmartFill orders params) filled :=
    fun filled h hmem hnodup hlast => ⟨h.legs, hnodup, fun o ho => mem_candidatesOf.mp (hmem ho),
      h.totalSpend, h.totalReceive, hlast⟩
  cases hmode : params.mode with
  | spend =>
      have h := spendOutcome_selectLegs hmode (candidatesOf params orders)
      obtain ⟨filled, hrecords, hmem, hnodup⟩ := h.records
      exact ⟨filled, hrecorded filled hrecords hmem (hnodup (candidatesOf_nodup hids)) h.lastPartial⟩
  | receive =>
      have h := receiveOutcome_selectLegs hmode hlimit (candidatesOf params orders)
      refine ⟨_, hrecorded _ h.records (List.take_subset _ _) ?_ h.lastPartial⟩
      exact (candidatesOf_nodup hids).sublist ((List.take_sublist _ _).map _)

/-- The ids of the legs are the ids of the orders they fill. -/
theorem RouteFills.orderIds {params : SmartFillParams} {orders : List Order}
    {route : SmartFillRoute} {filled : List (OpenOrder params.nowPosixMs)}
    (h : RouteFills params orders route filled) :
    route.legs.map SmartFillLeg.orderId = filled.map fun o => o.orderId :=
  (map_eq_of_forall₂ (h.legs.imp fun _ _ hleg => hleg.orderId.symm)).symm

/-- A cached book lists no order twice. -/
theorem listByPair_nodup (repo : OrdersRepo) (pairId : Str) :
    ((repo.listByPair pairId).map Order.orderId).Nodup :=
  repo.orders.nodup.sublist (List.filter_sublist.map _)

section Outcome

variable {mesh : Mesh} {scripts : ProtocolScripts} {opts : BuilderOptions} {iopts : IndexerOptions}
variable {history : History} {repo : OrdersRepo} {params : SmartFillParams} {turn : Turn}
variable {batch : List SmartFillLeg}

/-- A route off a sound cache takes genuine rows. -/
theorem exists_genuine (hsound : CacheSound mesh iopts history repo) (hlimit : 0 < params.limit) :
    ∃ filled, RouteFills params (repo.listByPair (pairIdOf params.spendAsset params.receiveAsset))
        (smartFill repo params) filled ∧
      ∀ o ∈ filled, Genuine mesh iopts history o.toOrder := by
  obtain ⟨filled, hfills⟩ := exists_routeFills (listByPair_nodup repo _) hlimit
  refine ⟨filled, hfills, ?_⟩
  intro o ho
  -- an eligible order is a row of the cache
  obtain ⟨horders, -⟩ := mem_eligible.mp (hfills.eligible o ho)
  exact hsound.rows o.orderId o.toOrder
    (KeyedList.find?_eq_some.mpr ⟨List.mem_of_mem_filter horders, rfl⟩)

/-- What a batch of such a route asks for. -/
theorem admissible_of_batch {filled : List (OpenOrder params.nowPosixMs)} {orders : List Order}
    (hfills : RouteFills params orders (smartFill repo params) filled)
    (hcap : params.maxOrdersPerTx ≤ opts.maxOrders)
    (hbatch : batch ∈ chunk (smartFill repo params).legs (smartFill repo params).maxOrdersPerTx) :
    Admissible opts (batch.map (cycleLegOf params)) := by
  obtain ⟨hne, hlength⟩ := length_batch hbatch
  refine ⟨by simpa using hne, ?_, ?_⟩
  · have hnodup : ((smartFill repo params).legs.map SmartFillLeg.orderId).Nodup := by
      rw [hfills.orderIds]
      exact hfills.nodup
    rw [List.map_map]
    exact hnodup.sublist ((batch_sublist hbatch).map _)
  · rw [List.length_map]
    exact hlength.trans hcap

/-- Its legs are planned on genuine rows. -/
theorem rows_of_batch {filled : List (OpenOrder params.nowPosixMs)} {orders : List Order}
    (hfills : RouteFills params orders (smartFill repo params) filled)
    (hgenuine : ∀ o ∈ filled, Genuine mesh iopts history o.toOrder)
    (hsub : batch ⊆ (smartFill repo params).legs) :
    ∀ leg ∈ batch.map (cycleLegOf params), ∃ o : OpenOrder params.nowPosixMs,
      Genuine mesh iopts history o.toOrder ∧ CycleLegOf o leg := by
  intro cycleLeg hcycleLeg
  obtain ⟨leg, hleg, rfl⟩ := List.mem_map.mp hcycleLeg
  obtain ⟨o, ho, hof⟩ := exists_of_mem_right hfills.legs (hsub hleg)
  obtain ⟨-, hoffers, hrequests⟩ := mem_eligible.mp (hfills.eligible o ho)
  exact ⟨o, hgenuine o ho, hof.orderId, hrequests.symm, hoffers.symm, hof.expiration, hof.fills⟩

/-- **What becomes of a batch of a route.** Let the cache have gone through any passes and
repairs, plan a route on it and cut it up as the panel does.  When its turn comes, with a
wallet that is usable, a batch is built if all of its orders are live and none has
expired; if one is gone, the build fails with the error that makes the panel plan again;
and if they are live but one has expired, with the error that names such a one.  There is
no fourth outcome: what the batch asks for was computed from rows of the cache, and is
what the chain will take. -/
theorem batch_outcome {observed : List (ChainProvider × ChainState)}
    (hrun : Run (Maintains mesh iopts history) .empty observed repo)
    (hscripts : SameScripts scripts iopts) (hwired : history.Wired) (hlimit : 0 < params.limit)
    (hcap : params.maxOrdersPerTx ≤ opts.maxOrders)
    (hbatch : batch ∈ chunk (smartFill repo params).legs (smartFill repo params).maxOrdersPerTx)
    (hready : turn.Ready history) :
    TurnOutcome turn (batch.map (cycleLegOf params))
      (buildTakes mesh scripts opts turn (batchRequest batch)) := by
  have hsound : CacheSound mesh iopts history repo := CacheSound.empty.run hrun
  obtain ⟨filled, hfills, hgenuine⟩ := exists_genuine hsound hlimit
  rw [batchRequest_eq params]
  exact buildTakes_outcome hscripts hwired (admissible_of_batch hfills hcap hbatch)
    (rows_of_batch hfills hgenuine (batch_sublist hbatch).subset) hready

end Outcome

/-!
## What the route comes to

The nets of batches that were built, added up, against what the route says of them.
-/

section Nets

variable {d : Deployment} {mesh : Mesh} {scripts : ProtocolScripts} {opts : BuilderOptions}
variable {iopts : IndexerOptions} {reading : ChainReading} {history : History} {repo : OrdersRepo}
variable {params : SmartFillParams} {turn : Turn} {batch legs : List SmartFillLeg}

end Nets

/-! A route of two batches, over two sales of the samples. -/

namespace SampleRoute

open SampleBatch (mesh scripts opts now reading orderUtxo takerFunds collateral takes)
open SampleChain (txId exact origin)

/-- The two sales, a hundred blocks after their creation. -/
def chain : ChainState where
  tip := ⟨4000, 200⟩
  txs := ⟨[origin 1, origin 2], by decide⟩
  hash_text := by decide
  inputs_nodup := by decide
  redeemers_nodup := by decide

set_option maxRecDepth 100000 in
def history : History where
  chains := {chain}
  content := by
    rintro c rfl c' rfl
    decide

def repo : OrdersRepo := (doSync mesh SampleChain.opts (exact chain) .empty).state.repo

/-- Seven tokens pay for one order and for two fifths of another. -/
def params : SmartFillParams where
  spendAsset := toApiAssetId (assetHex Sample.token)
  receiveAsset := "lovelace".toList
  mode := .spend
  limit := 7
  maxOrdersPerTx := 1
  nowPosixMs := .finite now

def turn : Turn := ⟨exact chain, chain, now, takes.wallet⟩

set_option maxRecDepth 100000 in
theorem legs : (smartFill repo params).legs.map (fun leg => (leg.orderId, leg.takeAmount)) =
    [(orderIdOf ⟨txId 1, 0⟩, none), (orderIdOf ⟨txId 2, 0⟩, some 4000000)] := by decide

theorem observes : Observes SampleChain.opts history (exact chain) chain where
  chain := rfl
  truthful := ChainState.provider_faithful.truthful
  listed u hu := ⟨chain, rfl, (ChainState.liveUtxo_eq_some.mp (ChainState.provider_exact.1 u hu)).2⟩

theorem run : Run (Maintains mesh SampleChain.opts history) .empty [(exact chain, chain)] repo :=
  .single (.pass observes)

theorem ready : turn.Ready history where
  chain := rfl
  answers ref := ChainState.provider_faithful.getUtxo ref
  wallet := ⟨⟨SampleChain.takerAddress, [takerFunds], collateral⟩, by decide⟩

/-- The outputs of the chain are the two sales. -/
theorem exists_sale {ref : OutRef} {out : ChainOutput} (h : chain.outputAt ref = some out) :
    ∃ n, (n = 1 ∨ n = 2) ∧ ref = ⟨txId n, 0⟩ ∧ out ∈ (origin n).outputs := by
  obtain ⟨tx, htx, hat⟩ := Option.bind_eq_some_iff.mp h
  obtain ⟨hmem, hhash⟩ := ChainState.txAt_eq_some.mp htx
  have horigin : ∃ n, (n = 1 ∨ n = 2) ∧ tx = origin n := by
    simp only [chain, List.mem_cons, List.not_mem_nil, or_false] at hmem
    rcases hmem with rfl | rfl
    · exact ⟨1, .inl rfl, rfl⟩
    · exact ⟨2, .inr rfl, rfl⟩
  obtain ⟨n, hn, rfl⟩ := horigin
  refine ⟨n, hn, ?_, List.mem_of_getElem? hat⟩
  obtain ⟨hlt, -⟩ := List.getElem?_eq_some_iff.mp hat
  obtain ⟨txHash, index⟩ := ref
  obtain rfl : (origin n).hash = txHash := hhash
  obtain rfl : index = 0 := Nat.lt_one_iff.mp hlt
  rfl

theorem wired : history.Wired := by
  rintro c rfl ref href
  obtain ⟨out, hout⟩ := Option.isSome_iff_exists.mp href
  obtain ⟨n, hn, rfl, -⟩ := exists_sale hout
  rcases hn with rfl | rfl
  · exact ⟨by decide, by decide, by decide⟩
  · exact ⟨by decide, by decide, by decide⟩

/-- Either order of the route is live. -/
theorem live : ∀ leg ∈ (smartFill repo params).legs, OrderLive chain leg.orderId := by
  intro leg hleg
  have hmem := List.mem_map_of_mem (f := fun leg : SmartFillLeg => (leg.orderId, leg.takeAmount)) hleg
  rw [legs] at hmem
  simp only [List.mem_cons, List.not_mem_nil, or_false, Prod.mk.injEq] at hmem
  rcases hmem with ⟨hid, -⟩ | ⟨hid, -⟩
  · exact ⟨⟨txId 1, 0⟩, hid, by decide⟩
  · exact ⟨⟨txId 2, 0⟩, hid, by decide⟩

set_option maxRecDepth 100000 in
theorem unexpired : ∀ leg ∈ (smartFill repo params).legs, expiredAt now leg.expiration = false := by
  decide

theorem admits : (params.maxOrdersPerTx : ℕ) ≤ opts.maxOrders := by decide

set_option maxRecDepth 100000 in
theorem count : (smartFill repo params).transactionCount = 2 := by decide

set_option maxRecDepth 100000 in
theorem amounts : (SampleChain.orderOutput 12000000
    (SampleChain.datumCbor [0x00, 0x98, 0x96, 0x80] [0x05])).amount = SampleBatch.amount := by decide

set_option maxRecDepth 100000 in
theorem wellFormed :
    WellFormedBook Sample.deployment mesh SampleChain.opts reading history := by
  rintro ref u ⟨c, rfl, hu⟩ -
  obtain ⟨out, hout, rfl⟩ := Option.map_eq_some_iff.mp hu
  obtain ⟨n, -, rfl, hmem⟩ := exists_sale hout
  obtain rfl := List.mem_singleton.mp hmem
  obtain ⟨k, names, hwf⟩ := SampleBatch.order_builder.exists_keyOrder SampleBatch.documented
  refine ⟨SampleBatch.order, k.datum, k.owner, names, ?_, hwf, k.ask_nameable⟩
  rw [amounts]
  exact SampleBatch.reports n

/-- A batch that comes to its end is built. -/
theorem answered {batch : List SmartFillLeg} {answer : Except Thrown (TxDraft × TakeSummary)}
    (hbatch : batch ∈ chunk (smartFill repo params).legs (smartFill repo params).maxOrdersPerTx)
    (h : TurnOutcome turn (batch.map (cycleLegOf params)) answer) :
    ∃ response, answer = .ok response := by
  have hmem := (batch_sublist hbatch).subset
  refine h.built ?_ ?_
  · intro cycleLeg hcycleLeg
    obtain ⟨leg, hleg, rfl⟩ := List.mem_map.mp hcycleLeg
    exact live leg (hmem hleg)
  · intro cycleLeg hcycleLeg
    obtain ⟨leg, hleg, rfl⟩ := List.mem_map.mp hcycleLeg
    exact unexpired leg (hmem hleg)

theorem sameScripts : SameScripts scripts SampleChain.opts := ⟨rfl, rfl⟩

theorem limit_pos : 0 < params.limit := by decide

set_option maxRecDepth 100000 in
/-- Every batch is built. -/
theorem built : ∀ batch ∈ chunk (smartFill repo params).legs (smartFill repo params).maxOrdersPerTx,
    ∃ response, buildTakes mesh scripts opts turn (batchRequest batch) = .ok response := by
  have hsound : CacheSound mesh SampleChain.opts history repo :=
    CacheSound.empty.maintained (.pass observes)
  obtain ⟨filled, hfills, hgenuine⟩ := exists_genuine hsound limit_pos
  intro batch hbatch
  have houtcome := buildTakes_outcome sameScripts wired (admissible_of_batch hfills admits hbatch)
    (rows_of_batch hfills hgenuine (batch_sublist hbatch).subset) ready
  rw [← batchRequest_eq] at houtcome
  exact answered hbatch houtcome

end SampleRoute

open SampleRoute in
theorem batch_outcome_sample :
    (smartFill repo params).transactionCount = 2 ∧
    ∀ batch ∈ chunk (smartFill repo params).legs (smartFill repo params).maxOrdersPerTx,
      ∃ response, buildTakes SampleBatch.mesh SampleBatch.scripts SampleBatch.opts turn
        (batchRequest batch) = .ok response := by
  refine ⟨count, fun batch hbatch => ?_⟩
  exact answered hbatch (batch_outcome run sameScripts wired limit_pos admits hbatch ready)

end BeaconDex.Frontend
