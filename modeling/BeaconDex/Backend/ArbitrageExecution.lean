import BeaconDex.Backend.RankAgreement
import BeaconDex.Backend.TakeOutcome

/-!
# An opportunity is executed

`GET /arbitrage` scans the open book of the cache, pair by pair, and the panel sends
the legs of an opportunity as one batch.  `opportunity_outcome` says what the builder
answers: if all orders of the cycle are still there, the whole opportunity, with the
net it was reported with; and otherwise nothing.

## What a scan promises

A scan reads rows and the builder reads outputs, at different times.  Since an output is
what its row says for as long as it lives, the promise that an opportunity makes can be
broken in two ways only: someone else was faster, or an order has expired.  It is then
not executed at all, because its legs are in one transaction, and never at a loss.
-/

namespace BeaconDex.Backend

open Library

/-- The orders `GET /arbitrage` scans. -/
def openBook (repo : OrdersRepo) : List Order := repo.listPairs.flatMap repo.listByPair

/-- `GET /arbitrage`: the open book of the cache is scanned. -/
def scanArbitrage (repo : OrdersRepo) (params : ArbitrageParams) : ArbitrageScan :=
  findArbitrage (openBook repo) params

section

variable {d : Deployment} {mesh : Mesh} {scripts : ProtocolScripts} {opts : BuilderOptions}
variable {iopts : IndexerOptions} {reading : ChainReading} {history : History} {repo : OrdersRepo}
variable {params : ArbitrageParams} {opportunity : ArbitrageOpportunity} {turn : Turn}

end

/-! The crossed pair of the samples, on a chain. -/

namespace SampleCross

open BeaconDex.Sample (deployment ownerKey sellerKey token)
open SampleBatch (scripts opts now reading takerFunds collateral takes)
open SampleChain (txId exact origin orderAddress)

/-- The transaction that has made the bid. -/
def bidTx : ChainTx where
  hash := txId 2
  height := 100
  inputs := [⟨txId 0xf2, 0⟩]
  outputs := [{
    address := orderAddress
    amount := bidAmount
    plutusData := some bidCbor }]
  redeemers := []

def chain : ChainState where
  tip := ⟨4000, 200⟩
  txs := ⟨[origin 1, bidTx], by decide⟩
  hash_text := by decide
  inputs_nodup := by decide
  redeemers_nodup := by decide

set_option maxRecDepth 100000 in
def history : History where
  chains := {chain}
  content := by
    rintro c rfl c' rfl
    decide

def repo : OrdersRepo := (doSync mesh SampleChain.opts (exact chain) .empty).state.repo

def turn : Turn := ⟨exact chain, chain, now, takes.wallet⟩

set_option maxRecDepth 100000 in
theorem sale_amount :
    (SampleChain.orderOutput 12000000 saleCbor).amount = SampleBatch.amount := by decide

/-- The outputs of the chain are the sale and the bid. -/
theorem exists_order {ref : OutRef} {u : UTxO} (h : chain.utxoAt ref = some u) :
    u = SampleBatch.orderUtxo 1 ∨ u = bidUtxo := by
  obtain ⟨out, hout, rfl⟩ := Option.map_eq_some_iff.mp h
  obtain ⟨tx, htx, hat⟩ := Option.bind_eq_some_iff.mp hout
  obtain ⟨hmem, hhash⟩ := ChainState.txAt_eq_some.mp htx
  obtain ⟨txHash, index⟩ := ref
  obtain rfl : tx.hash = txHash := hhash
  simp only [chain, List.mem_cons, List.not_mem_nil, or_false] at hmem
  obtain ⟨hlt, rfl⟩ := List.getElem?_eq_some_iff.mp hat
  rcases hmem with rfl | rfl
  · obtain rfl : index = 0 := Nat.lt_one_iff.mp hlt
    left
    show (⟨⟨txId 1, 0⟩, orderAddress, (SampleChain.orderOutput 12000000 saleCbor).amount,
      some saleCbor⟩ : UTxO) = _
    rw [sale_amount]
    rfl
  · obtain rfl : index = 0 := Nat.lt_one_iff.mp hlt
    exact .inr rfl

theorem wired : history.Wired := by
  rintro c rfl ref href
  obtain ⟨out, hout⟩ := Option.isSome_iff_exists.mp href
  have hu : chain.utxoAt ref = some ⟨ref, out.address, out.amount, out.plutusData⟩ :=
    congrArg (Option.map _) hout
  have href : ref = ⟨txId 1, 0⟩ ∨ ref = ⟨txId 2, 0⟩ :=
    (exists_order hu).imp (congrArg UTxO.input) (congrArg UTxO.input)
  rcases href with rfl | rfl
  · exact ⟨by decide, by decide, by decide⟩
  · exact ⟨by decide, by decide, by decide⟩

theorem wellFormed : WellFormedBook deployment mesh SampleChain.opts reading history := by
  rintro ref u ⟨c, rfl, hu⟩ -
  rcases exists_order hu with rfl | rfl
  · obtain ⟨k, names, hwf⟩ := SampleBatch.order_builder.exists_keyOrder SampleBatch.documented
    exact ⟨SampleBatch.order, k.datum, k.owner, names, sale_reports, hwf, k.ask_nameable⟩
  · exact ⟨bidOutput, bid, ownerKey, bidNames, bid_reports, bid_wellFormed, nameable_ada⟩

theorem observes : Observes SampleChain.opts history (exact chain) chain where
  chain := rfl
  truthful := ChainState.provider_faithful.truthful
  listed u hu := ⟨chain, rfl, (ChainState.liveUtxo_eq_some.mp (ChainState.provider_exact.1 u hu)).2⟩

theorem run : Run (Maintains mesh SampleChain.opts history) .empty [(exact chain, chain)] repo :=
  .single (.pass observes)

theorem ready : turn.Ready history where
  chain := rfl
  answers ref := ChainState.provider_faithful.getUtxo ref
  wallet := ⟨⟨SampleChain.takerAddress, [takerFunds], collateral⟩, by decide⟩

theorem sameScripts : SameScripts scripts SampleChain.opts := ⟨rfl, rfl⟩

theorem capped : 3 ≤ opts.maxOrders := by decide

/-- What is read of an opportunity. -/
def shown (opportunity : ArbitrageOpportunity) : List (Str × ℤ) × ℤ × List (Str × Option JsNumber) :=
  (opportunity.net, opportunity.partialMinAdaLovelace,
    opportunity.legs.map fun leg => (leg.orderId, leg.expiration))

set_option maxRecDepth 100000 in
theorem reported : (scanArbitrage repo params).opportunities.map shown =
    [([("lovelace".toList, 2000000)], 0,
      [(orderIdOf ⟨txId 1, 0⟩, none), (orderIdOf ⟨txId 2, 0⟩, none)])] := by decide

end SampleCross

end BeaconDex.Backend
