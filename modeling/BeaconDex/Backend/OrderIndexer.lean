import BeaconDex.Backend.ChainProvider
import BeaconDex.Backend.OrdersRepo
import BeaconDex.Ledger
import BeaconDex.Library.Attempt
import Mathlib.Data.List.Sort

/-!
# The order indexer

`backend/src/services/order-indexer.ts`: one pass of `OrderIndexer.doSync` over
the order cache.

A pass has two steps.  *Discovery* walks the listing of the OrderBeacon's
holders, re-verifies each output (`validateAndMap`), caches it once it is
confirmed, and recovers the lineage of orders never seen before
(`backfillAncestry`).  *Retirement* walks the ids that are then open and were not
listed, classifies how each was spent (`classifySpend`), and surfaces the
continuation of a partial fill.

A pass can be aborted by a provider call that throws.  What it had written by
then stays written, so both steps are loops of `Attempt`s.

## Answers and exceptions

A provider call answers or throws, and the source catches some of the exceptions and not
others: a failing call inside the classification of a spend makes it `unknown`, one that
lists the beacon holders ends the pass.  The model has an `Except` for each call, and
the places where the source catches are the places where its definitions match on it.
-/

namespace BeaconDex.Backend

open Library

/-- The options of the indexer; `confirmations` is `INDEXER_CONFIRMATIONS`. -/
structure IndexerOptions where
  beaconPolicyId : Str
  orderValidatorHash : Str
  confirmations : ℤ

/-- The unit that every order holds one of, by which holders are listed. -/
def orderBeaconUnit (opts : IndexerOptions) : Str := opts.beaconPolicyId ++ ORDER_BEACON_NAME_HEX

/-- The quantity of the first entry of `unit`, zero without one. -/
def qty (amount : List Asset) (unit : Str) : ℤ :=
  ((amount.find? fun a => a.unit = unit).map Asset.quantity).getD 0

theorem qty_cons_self (a : Asset) (amount : List Asset) : qty (a :: amount) a.unit = a.quantity := by
  simp [qty]

theorem qty_cons_of_ne {a : Asset} {amount : List Asset} {unit : Str} (h : a.unit ≠ unit) :
    qty (a :: amount) unit = qty amount unit := by
  rw [qty, List.find?_cons_of_neg (by simpa using h), qty]

section Indexer

variable (mesh : Mesh) (opts : IndexerOptions) (p : ChainProvider)

/-!
## Verification

What is checked of an output before it is a row: its address by the owner's key, its
beacons by the names of its datum, its offer by what it holds.
-/

/-- The seller's address as it is cached and shown. -/
def paymentAddressBech32 (datum : OrderDatumFields) : Option Str :=
  mesh.serializeKeyAddress datum.paymentPubKeyHash datum.paymentStakeKeyHash

/-- The lovelace of an order beyond what it offers, if it holds its offer. -/
def verifiedDeposit (datum : OrderDatumFields) (amount : List Asset) : Option ℤ :=
  let lovelace := qty amount "lovelace".toList
  if isAda datum.offer then
    if lovelace < datum.offerAmount then none else some (lovelace - datum.offerAmount)
  else if qty amount (datum.offer.policyId ++ datum.offer.assetNameHex) < datum.offerAmount then
    none
  else some lovelace

/-- Full re-verification of a candidate.  Whatever the libraries throw on means
that the output is no protocol order. -/
def validateAndMap (utxo : UTxO) : Option Order := do
  let addr ← mesh.deserializeAddress utxo.address
  guard (addr.scriptHash = opts.orderValidatorHash)
  let plutusData ← utxo.plutusData
  guard (plutusData ≠ [])
  let datum ← decodeOrderDatum mesh plutusData
  guard (datum.beaconPolicyId = opts.beaconPolicyId)
  -- the staking part of an order address names the owner
  guard (addr.stakeCredentialHash = datum.ownerKeyHash)
  let names := deriveBeaconNames mesh datum.offer datum.ask datum.ownerKeyHash
  guard (∀ name ∈ names.values, qty utxo.amount (opts.beaconPolicyId ++ name) = 1)
  let deposit ← verifiedDeposit datum utxo.amount
  let paymentAddress ← paymentAddressBech32 mesh datum
  return {
    orderId := orderIdOf utxo.input
    txHash := utxo.input.txHash
    outputIndex := utxo.input.outputIndex
    status := .opened
    pairId := toPairId datum.offer datum.ask
    contractAddress := utxo.address
    ownerStakeCredential := datum.ownerKeyHash
    paymentAddress
    offeredPolicyId := datum.offer.policyId
    offeredAssetName := datum.offer.assetNameHex
    offeredAmount := datum.offerAmount
    requestedPolicyId := datum.ask.policyId
    requestedAssetName := datum.ask.assetNameHex
    requestedAmount := datum.askAmount
    depositLovelace := deposit
    pairBeacon := names.pair
    offerBeacon := names.offer
    askBeacon := names.ask
    ownerBeacon := names.owner
    expiration := datum.expiration
    version := datum.version
    allowPartialFill := datum.allowPartialFill
    parentOrderId := none
    rootOrderId := none
    createdAtSlot := none
    spentAtSlot := none
    createdTxHash := some utxo.input.txHash
    spentTxHash := none
    orderId_eq := rfl }

variable {mesh opts}

/-- The row of an accepted output is that output's, and the output carries the
OrderBeacon. -/
theorem validateAndMap_eq_some {utxo : UTxO} {order : Order}
    (h : validateAndMap mesh opts utxo = some order) :
    order.ref = utxo.input ∧ utxo.holds (orderBeaconUnit opts) := by
  simp only [validateAndMap, Option.bind_eq_bind, Option.bind_eq_some_iff, Option.guard_eq_some',
    Option.pure_def, Option.some.injEq] at h
  obtain ⟨addr, -, -, -, plutusData, -, -, -, datum, -, -, -, -, -, -, hbeacons, deposit, -,
    paymentAddress, -, rfl⟩ := h
  refine ⟨rfl, ?_⟩
  have hqty : qty utxo.amount (orderBeaconUnit opts) = 1 :=
    hbeacons ORDER_BEACON_NAME_HEX List.mem_cons_self
  unfold qty at hqty
  cases hfind : utxo.amount.find? fun a => a.unit = orderBeaconUnit opts with
  | none => simp [hfind] at hqty
  | some a =>
      rw [hfind, Option.map_some, Option.getD_some] at hqty
      exact ⟨a, List.mem_of_find?_eq_some hfind, by simpa using List.find?_some hfind, by omega⟩

/-- **What is accepted as an order.** -/
theorem isSome_validateAndMap {utxo : UTxO} :
    (validateAndMap mesh opts utxo).isSome ↔ ∃ addr plutusData datum,
      mesh.deserializeAddress utxo.address = some addr ∧
      addr.scriptHash = opts.orderValidatorHash ∧
      utxo.plutusData = some plutusData ∧ plutusData ≠ [] ∧
      decodeOrderDatum mesh plutusData = some datum ∧
      datum.beaconPolicyId = opts.beaconPolicyId ∧
      addr.stakeCredentialHash = datum.ownerKeyHash ∧
      (∀ name ∈ (deriveBeaconNames mesh datum.offer datum.ask datum.ownerKeyHash).values,
        qty utxo.amount (opts.beaconPolicyId ++ name) = 1) ∧
      (verifiedDeposit datum utxo.amount).isSome ∧ (paymentAddressBech32 mesh datum).isSome := by
  simp only [Option.isSome_iff_exists, validateAndMap, Option.bind_eq_bind, Option.bind_eq_some_iff,
    Option.guard_eq_some', Option.pure_def, Option.some.injEq]
  constructor
  · rintro ⟨order, addr, haddr, -, hscript, plutusData, hcbor, -, hne, datum, hdatum, -, hpolicy, -,
      hstake, -, hbeacons, deposit, hdeposit, paymentAddress, hpayment, -⟩
    exact ⟨addr, plutusData, datum, haddr, hscript, hcbor, hne, hdatum, hpolicy, hstake, hbeacons,
      ⟨deposit, hdeposit⟩, ⟨paymentAddress, hpayment⟩⟩
  · rintro ⟨addr, plutusData, datum, haddr, hscript, hcbor, hne, hdatum, hpolicy, hstake, hbeacons,
      ⟨deposit, hdeposit⟩, ⟨paymentAddress, hpayment⟩⟩
    exact ⟨_, addr, haddr, (), hscript, plutusData, hcbor, (), hne, datum, hdatum, (), hpolicy, (),
      hstake, (), hbeacons, deposit, hdeposit, paymentAddress, hpayment, rfl⟩

/-- **The row of an accepted output**: the terms of its datum, with the deposit
and the payment address worked out. -/
structure MappedRow (mesh : Mesh) (utxo : UTxO) (datum : OrderDatumFields) (row : Order) : Prop where
  ref : row.ref = utxo.input
  pairId : row.pairId = toPairId datum.offer datum.ask
  contractAddress : row.contractAddress = utxo.address
  owner : row.ownerStakeCredential = datum.ownerKeyHash
  paymentAddress : paymentAddressBech32 mesh datum = some row.paymentAddress
  offered : AssetClassHex.mk row.offeredPolicyId row.offeredAssetName = datum.offer
  offeredAmount : row.offeredAmount = datum.offerAmount
  requested : AssetClassHex.mk row.requestedPolicyId row.requestedAssetName = datum.ask
  requestedAmount : row.requestedAmount = datum.askAmount
  deposit : verifiedDeposit datum utxo.amount = some row.depositLovelace
  expiration : row.expiration = datum.expiration
  allowPartialFill : row.allowPartialFill = datum.allowPartialFill

theorem mappedRow_of_validateAndMap {utxo : UTxO} {row : Order} {cbor : Str}
    {datum : OrderDatumFields} (h : validateAndMap mesh opts utxo = some row)
    (hcbor : utxo.plutusData = some cbor) (hdatum : decodeOrderDatum mesh cbor = some datum) :
    MappedRow mesh utxo datum row := by
  simp only [validateAndMap, Option.bind_eq_bind, Option.bind_eq_some_iff, Option.guard_eq_some',
    Option.pure_def, Option.some.injEq] at h
  obtain ⟨addr, -, -, -, cbor', hcbor', -, -, datum', hdatum', -, -, -, -, -, -, deposit, hdeposit,
    paymentAddress, hpayment, rfl⟩ := h
  obtain rfl := Option.some.inj (hcbor.symm.trans hcbor')
  obtain rfl := Option.some.inj (hdatum.symm.trans hdatum')
  exact ⟨rfl, rfl, rfl, rfl, hpayment, rfl, rfl, rfl, rfl, hdeposit, rfl, rfl⟩

variable (mesh opts)

/-!
## Rank pairing

The two lists that are paired.
-/

/-- The positions of the inputs partially taken from the order validator, in
input order. -/
def partialInputIdxs (redeemers : List SpendRedeemer) : List ℕ :=
  ((redeemers.filter fun r => r.scriptHash = opts.orderValidatorHash ∧ r.constructor = 2).map
    SpendRedeemer.txIndex).insertionSort (· ≤ ·)

/-- Whether an output carries the OrderBeacon. -/
def bearsOrderBeacon (amount : List Asset) : Bool :=
  amount.any fun a => a.unit = orderBeaconUnit opts && 0 < a.quantity

/-!
## Classification

The status of a spend and the id of the continuation, where there is one.
-/

/-- What is made of a spent order: how it was spent, and by which transaction, if that
could be found out. -/
structure SpendClass where
  status : SpentStatus
  txHash : Option Str
  /-- The continuation, when the spend was a partial fill. -/
  childOrderId : Option Str

/-- The class of a spend by the redeemer's constructor. -/
def classifyRedeemer (spendTx : Str) (consuming : TxUtxos) (redeemers : List SpendRedeemer)
    (inputIdx : ℕ) (entry : SpendRedeemer) : SpendClass :=
  match entry.constructor with
  | 0 => ⟨.cancelled, some spendTx, none⟩
  | 1 => ⟨.taken, some spendTx, none⟩
  | 2 =>
      -- the continuation is the OrderBeacon output at this input's rank
      let rank := (partialInputIdxs opts redeemers).idxOf? inputIdx
      let continuations := consuming.outputs.filter fun o => bearsOrderBeacon opts o.amount
      let child := rank.bind fun rank => continuations[rank]?
      ⟨.partiallyFilled, some spendTx, child.map fun o => orderIdOf ⟨spendTx, o.outputIndex⟩⟩
  | _ => ⟨.unknown, some spendTx, none⟩

/-- `classifySpend` up to its `catch`. -/
def tryClassifySpend (order : Order) : Except Failure SpendClass := do
  let created ← p.getTxUtxos order.txHash
  let out := created.bind fun tx => tx.outputs[order.outputIndex]?
  match out.bind TxOutput.consumedByTx with
  -- no such output, or not spent at all
  | none => return ⟨.unknown, none, none⟩
  | some spendTx =>
      let consuming ← p.getTxUtxos spendTx
      let redeemers ← p.getSpendRedeemers spendTx
      match consuming with
      | none => return ⟨.unknown, some spendTx, none⟩
      | some consuming =>
          match consuming.inputs.idxOf? order.ref with
          | none => return ⟨.unknown, some spendTx, none⟩
          | some inputIdx =>
              match redeemers.find? fun r => r.txIndex = inputIdx with
              | none => return ⟨.unknown, some spendTx, none⟩
              | some entry =>
                  return classifyRedeemer opts spendTx consuming redeemers inputIdx entry

/-- How an order was spent, read off its own redeemer. -/
def classifySpend (order : Order) : SpendClass :=
  match tryClassifySpend opts p order with
  | .ok spend => spend
  | .error _ => ⟨.unknown, none, none⟩

/-!
## Ancestry

The climb, step by step, and the writes after it.
-/

/-- A recovered fill: `spendTx` consumed `parent` and created `child`. -/
structure Link where
  child : Order
  parent : Order
  spendTx : Str

/-- The input a node's creating transaction re-created it from: rank pairing,
backwards. -/
def parentInput (creatingTx : TxUtxos) (idxs : List ℕ) (node : Order) : Option OutRef :=
  let continuations := (creatingTx.outputs.filter fun o => bearsOrderBeacon opts o.amount)
    |>.insertionSort fun a b => a.outputIndex ≤ b.outputIndex
  let rank := continuations.findIdx? fun o => o.outputIndex = node.outputIndex
  rank.bind fun rank => idxs[rank]?.bind fun idx => creatingTx.inputs[idx]?

/-- Where one step of the climb leads. -/
inductive Climbed
  /-- No further: the chain's root. -/
  | root (orderId : Str)
  | parent (order : Order)

/-- One step up from `node`: an already linked node knows its root, a node that
was created rather than continued is the root itself, and so is one whose parent
cannot be established. -/
def climbStep (repo : OrdersRepo) (node : Order) : Except Failure Climbed :=
  match repo.getLineage node.orderId with
  | some existing => return .root existing.rootOrderId
  | none => do
      match ← p.getTxUtxos node.txHash with
      | none => return .root node.orderId
      | some creatingTx =>
          let idxs := partialInputIdxs opts (← p.getSpendRedeemers node.txHash)
          -- nothing was partially taken: the node was created
          if idxs = [] then return .root node.orderId
          else
            match parentInput opts creatingTx idxs node with
            | none => return .root node.orderId
            | some input =>
                let parentUtxo ← p.getTxOutput input
                match parentUtxo.bind (validateAndMap mesh opts) with
                -- a parent that is no order ends the chain
                | none => return .root node.orderId
                | some parent => return .parent parent

/-- Climb from `node` for at most `depth` fills.  The result is the chain with
its root, or no root when the depth ran out. -/
def climb (repo : OrdersRepo) : ℕ → Order → List Link → Except Failure (List Link × Option Str)
  | 0, _, chain => return (chain, none)
  | depth + 1, node, chain => do
      match ← climbStep mesh opts p repo node with
      | .root rootId => return (chain, some rootId)
      | .parent parent => climb repo depth parent (chain ++ [⟨node, parent, node.txHash⟩])

/-- Write one recovered fill: the parent as partially filled, then the link. -/
def writeLink (tipSlot : ℕ) (rootId : Str) (repo : OrdersRepo) (link : Link) : OrdersRepo :=
  ((repo.upsertOpenOrder { link.parent with createdAtSlot := some tipSlot }).markSpent
      link.parent.orderId .partiallyFilled (some link.spendTx) none).setLineage
    link.child.orderId link.parent.orderId rootId

/-- Recover the lineage of a newly cached order, root first.  Best effort:
nothing is written when a call throws or no root is found. -/
def backfillAncestry (repo : OrdersRepo) (order : Order) (tipSlot : ℕ) : OrdersRepo :=
  match climb mesh opts p repo 64 order [] with
  | .ok (chain, some rootId) => chain.reverse.foldl (writeLink tipSlot rootId) repo
  | _ => repo

/-!
## The pass

The two loops, and what is counted.
-/

/-- A pass under way: the cache as it is by now, and what the pass counts. -/
structure Pass where
  repo : OrdersRepo
  /-- The ids listed as orders so far, and those surfaced. -/
  seenOpen : List Str
  openCount : ℕ
  spentCount : ℕ

/-- Discovery of one listed output. -/
def discover (tip : ChainTip) (utxo : UTxO) (pass : Pass) : Attempt Failure Pass :=
  match validateAndMap mesh opts utxo with
  | none => .ok pass
  | some order =>
      -- seen before anything is known about its confirmations
      let pass := { pass with seenOpen := pass.seenOpen.insert order.orderId }
      let cached := pass.repo.getOrder order.orderId
      if cached.map Order.status = some .opened then
        .ok { pass with openCount := pass.openCount + 1 }
      else
        .query pass (p.getTxConfirmations order.txHash tip.height) fun
          | none => .ok pass
          | some confirmations =>
              -- too fresh: left to the next pass
              if confirmations < opts.confirmations then .ok pass
              else
                let order := { order with createdAtSlot := some tip.slot }
                let repo := pass.repo.upsertOpenOrder order
                let repo :=
                  if cached.isNone then backfillAncestry mesh opts p repo order tip.slot else repo
                .ok { pass with repo, openCount := pass.openCount + 1 }

/-- Discovery at one holder's address. -/
def discoverAt (tip : ChainTip) (address : Str) (pass : Pass) : Attempt Failure Pass :=
  .query pass (p.getUtxosByAddress address (orderBeaconUnit opts)) fun utxos =>
    forEach (discover mesh opts p tip) utxos pass

/-- Surface the continuation of a fill just recorded. -/
def surface (tip : ChainTip) (childOrderId : Str) (pass : Pass) : Attempt Failure Pass :=
  if childOrderId ∈ pass.seenOpen then .ok pass
  else
    match parseOrderId childOrderId with
    | none => .ok pass
    | some ref =>
        .query pass (p.getUtxo ref) fun childUtxo =>
          match childUtxo.bind (validateAndMap mesh opts) with
          | none => .ok pass
          | some childOrder =>
              .ok { pass with
                repo := pass.repo.upsertOpenOrder { childOrder with createdAtSlot := some tip.slot }
                seenOpen := pass.seenOpen.insert childOrderId
                openCount := pass.openCount + 1 }

/-- Retirement of one id that was open when the step began. -/
def retire (tip : ChainTip) (orderId : Str) (pass : Pass) : Attempt Failure Pass :=
  if orderId ∈ pass.seenOpen then .ok pass
  else
    match pass.repo.getOrder orderId with
    | none => .ok pass
    | some cached =>
        let spend := classifySpend opts p cached
        -- whatever the class says, `unknown` included, is written
        let pass := { pass with
          repo := pass.repo.markSpent orderId spend.status spend.txHash none
          spentCount := pass.spentCount + 1 }
        match spend.childOrderId with
        | none => .ok pass
        | some childOrderId =>
            let rootOrderId := match pass.repo.getLineage orderId with
              | some parent => parent.rootOrderId
              | none => orderId
            surface mesh opts p tip childOrderId
              { pass with repo := pass.repo.setLineage childOrderId orderId rootOrderId }

/-- Step 1: discover the candidates. -/
def discovery (tip : ChainTip) (repo : OrdersRepo) : Attempt Failure Pass :=
  let pass : Pass := ⟨repo, [], 0, 0⟩
  .query pass (p.getAssetAddresses (orderBeaconUnit opts)) fun holders =>
    forEach (discoverAt mesh opts p tip) holders pass

/-- Step 2: cached-open orders that were not listed are taken for spent. -/
def retirement (tip : ChainTip) (pass : Pass) : Attempt Failure Pass :=
  forEach (retire mesh opts p tip) pass.repo.listOpenOrderIds pass

/-- **One pass of the indexer** over the cache. -/
def doSync (repo : OrdersRepo) : Attempt Failure Pass :=
  .query ⟨repo, [], 0, 0⟩ p.getTip fun tip =>
    ((discovery mesh opts p tip repo).andThen (retirement mesh opts p tip)).andThen fun pass =>
      .ok { pass with repo := pass.repo.setCursor tip.slot }

end Indexer

section Climb

variable {mesh : Mesh} {opts : IndexerOptions} {p : ChainProvider} {repo : OrdersRepo}

/-- What a step up has read where it finds a parent. -/
theorem climbStep_eq_parent {node parent : Order}
    (h : climbStep mesh opts p repo node = .ok (.parent parent)) :
    ∃ creatingTx redeemers input u, p.getTxUtxos node.txHash = .ok (some creatingTx) ∧
      p.getSpendRedeemers node.txHash = .ok redeemers ∧
      parentInput opts creatingTx (partialInputIdxs opts redeemers) node = some input ∧
      p.getTxOutput input = .ok (some u) ∧ validateAndMap mesh opts u = some parent := by
  unfold climbStep at h
  split at h
  · cases h
  obtain ⟨answer, hcreating, h⟩ := bind_eq_ok.mp h
  split at h
  · cases h
  next creatingTx =>
  obtain ⟨redeemers, hredeemers, h⟩ := bind_eq_ok.mp h
  dsimp only at h
  split at h
  · cases h
  split at h
  · cases h
  next input hinput =>
  obtain ⟨parentUtxo, hparent, h⟩ := bind_eq_ok.mp h
  split at h
  · cases h
  next parent' hvalid =>
  obtain rfl : parent' = parent := by simpa [pure, Except.pure] using h
  obtain ⟨u, rfl, hvalid⟩ := Option.bind_eq_some_iff.mp hvalid
  exact ⟨creatingTx, redeemers, input, u, hcreating, hredeemers, hinput, hparent, hvalid⟩

end Climb

/-!
## What a turn writes

The state after a turn, however it ended.
-/

section Turns

variable (mesh : Mesh) (opts : IndexerOptions) (p : ChainProvider) (tip : ChainTip) (pass : Pass)

/-- **Discovery of one output** writes nothing, or it caches the order the output
holds, with its lineage or without. -/
theorem repo_discover (utxo : UTxO) :
    (discover mesh opts p tip utxo pass).state.repo = pass.repo ∨
      ∃ row order, validateAndMap mesh opts utxo = some row ∧
        order = { row with createdAtSlot := some tip.slot } ∧
        ((discover mesh opts p tip utxo pass).state.repo = pass.repo.upsertOpenOrder order ∨
          (discover mesh opts p tip utxo pass).state.repo =
            backfillAncestry mesh opts p (pass.repo.upsertOpenOrder order) order tip.slot) := by
  unfold discover
  split
  · exact .inl rfl
  · next row hvalid =>
      dsimp only
      split
      · exact .inl rfl
      · cases p.getTxConfirmations row.txHash tip.height with
        | error e => exact .inl rfl
        | ok confirmations =>
            simp only [Attempt.query]
            split
            · exact .inl rfl
            · split
              · exact .inl rfl
              · refine .inr ⟨row, _, hvalid, rfl, ?_⟩
                dsimp only [Attempt.state]
                split
                · exact .inr rfl
                · exact .inl rfl

/-- **Surfacing** changes nothing, or it caches the order at the output of the
continuation. -/
theorem state_surface (childOrderId : Str) :
    (surface mesh opts p tip childOrderId pass).state = pass ∨
      ∃ ref utxo childOrder, childOrderId ∉ pass.seenOpen ∧
        parseOrderId childOrderId = some ref ∧ p.getUtxo ref = .ok (some utxo) ∧
        validateAndMap mesh opts utxo = some childOrder ∧
        (surface mesh opts p tip childOrderId pass).state = { pass with
          repo := pass.repo.upsertOpenOrder { childOrder with createdAtSlot := some tip.slot }
          seenOpen := pass.seenOpen.insert childOrderId
          openCount := pass.openCount + 1 } := by
  unfold surface
  split
  · exact .inl rfl
  · next hunseen =>
      split
      · exact .inl rfl
      · next ref href =>
          cases hutxo : p.getUtxo ref with
          | error e => exact .inl rfl
          | ok childUtxo =>
              simp only [Attempt.query]
              split
              · exact .inl rfl
              · next childOrder hsome =>
                  obtain ⟨utxo, rfl, hvalid⟩ := Option.bind_eq_some_iff.mp hsome
                  exact .inr ⟨ref, utxo, childOrder, hunseen, href, hutxo, hvalid, rfl⟩

/-- **Retirement of one id** passes over it, or marks its row as it was spent and
surfaces the continuation of a fill. -/
theorem state_retire (orderId : Str) :
    (orderId ∈ pass.seenOpen ∨ pass.repo.getOrder orderId = none) ∧
        (retire mesh opts p tip orderId pass).state = pass ∨
      ∃ cached marked, orderId ∉ pass.seenOpen ∧ pass.repo.getOrder orderId = some cached ∧
        marked = pass.repo.markSpent orderId (classifySpend opts p cached).status
          (classifySpend opts p cached).txHash none ∧
        ((retire mesh opts p tip orderId pass).state =
            { pass with repo := marked, spentCount := pass.spentCount + 1 } ∨
          ∃ childOrderId rootOrderId,
            (classifySpend opts p cached).childOrderId = some childOrderId ∧
            (retire mesh opts p tip orderId pass).state =
              (surface mesh opts p tip childOrderId { pass with
                repo := marked.setLineage childOrderId orderId rootOrderId
                spentCount := pass.spentCount + 1 }).state) := by
  unfold retire
  split
  · next hseen => exact .inl ⟨.inl hseen, rfl⟩
  · next hunseen =>
      split
      · next hnone => exact .inl ⟨.inr hnone, rfl⟩
      · next cached hcached =>
          refine .inr ⟨cached, _, hunseen, hcached, rfl, ?_⟩
          dsimp only
          split
          · exact .inl rfl
          · next childOrderId hchild => exact .inr ⟨childOrderId, _, hchild, rfl⟩

end Turns

/-!
## A chain to evaluate on

A chain of a few transactions with its texts, on which passes can be run.
-/

namespace SampleChain

open BeaconDex.Sample (deployment ownerKey sellerKey takerKey token sha2_256)

def bech32Charset : Str :=
  ['q', 'p', 'z', 'r', 'y', '9', 'x', '8', 'g', 'f', '2', 't', 'v', 'd', 'w', '0',
    's', '3', 'j', 'n', '5', '4', 'k', 'h', 'c', 'e', '6', 'm', 'u', 'a', '7', 'l']

/-- A testnet address in bech32: the payload in groups of five bits, and its
checksum. -/
def bech32 (payload : Bytes) (checksum : String) : Str :=
  let groups := (8 * payload.length + 4) / 5
  let bits := payload.foldl (fun n byte => 256 * n + byte.val) 0 *
    2 ^ (5 * groups - 8 * payload.length)
  "addr_test1".toList ++
    (List.range groups).map (fun i => bech32Charset.getD (bits / 32 ^ (groups - 1 - i) % 32) 'q') ++
    checksum.toList

def orderAddress : Str := bech32 ((0x10 : Byte) :: deployment.orderScriptHash ++ ownerKey) "l4m5sn"

def sellerAddress : Str := bech32 ((0x60 : Byte) :: sellerKey) "w74k48"

def takerAddress : Str := bech32 ((0x60 : Byte) :: takerKey) "7thun8"

/-- The datum of an order of the deployment that offers ADA for the token, as
CBOR; the amounts are given encoded. -/
def datumCbor (offerAmount askAmount : Bytes) : Str :=
  hexOf ([0xd8, 0x79, 0x9f, 0x01, 0x58, 0x1c] ++ deployment.policyId ++
    [0xd8, 0x79, 0x9f, 0x58, 0x1c] ++ ownerKey ++ [0xff, 0xd8, 0x79, 0x9f, 0xd8, 0x79, 0x9f,
      0x58, 0x1c] ++ sellerKey ++ [0xff, 0xd8, 0x7a, 0x80, 0xff, 0xd8, 0x79, 0x9f, 0x40, 0x40, 0xff,
      0x1a] ++ offerAmount ++ [0xd8, 0x79, 0x9f, 0x58, 0x1c] ++ token.policyId ++
    [0x41, 0x54, 0xff] ++ askAmount ++ [0xd8, 0x7a, 0x80, 0xd8, 0x7a, 0x80, 0xff])

def datumNode (offerAmount askAmount : ℤ) : Node :=
  .constr 0
    [.int 1, .bytes (hexOf deployment.policyId), .constr 0 [.bytes (hexOf ownerKey)],
      .constr 0 [.constr 0 [.bytes (hexOf sellerKey)], .constr 1 []],
      .constr 0 [.bytes [], .bytes []], .int offerAmount,
      .constr 0 [.bytes (hexOf token.policyId), .bytes (hexOf token.assetName)], .int askAmount,
      .constr 1 [], .constr 1 []]

/-- The libraries, tabulated at one order and its continuation. -/
def mesh : Mesh where
  sha256 := sha2_256
  deserializeAddress address :=
    if address = orderAddress then
      some ⟨[], hexOf deployment.orderScriptHash, hexOf ownerKey, []⟩
    else none
  deserializeDatum cbor :=
    if cbor = datumCbor [0x00, 0x98, 0x96, 0x80] [0x05] then some (datumNode 10000000 5)
    else if cbor = datumCbor [0x00, 0x5b, 0x8d, 0x80] [0x03] then some (datumNode 6000000 3)
    else none
  serializeKeyAddress key stake :=
    if key = hexOf sellerKey ∧ stake = none then some sellerAddress else none
  serializePlutusScript _ stake := if stake = hexOf ownerKey then some orderAddress else none
  unixTimeToEnclosingSlot
    | .finite time => .finite ((time - 1655769600000).fdiv 1000 + 86400)
    | .infinite negative => .infinite negative

def opts : IndexerOptions := ⟨hexOf deployment.policyId, hexOf deployment.orderScriptHash, 2⟩

def txId (n : Byte) : Str := hexOf (List.replicate 32 n)

def orderOutput (lovelace : ℤ) (datum : Str) : ChainOutput where
  address := orderAddress
  amount := ⟨"lovelace".toList, lovelace⟩ ::
    (deriveBeaconNames mesh ADA ⟨hexOf token.policyId, hexOf token.assetName⟩
      (hexOf ownerKey)).values.map fun name => ⟨opts.beaconPolicyId ++ name, 1⟩
  plutusData := some datum

/-- Ten ADA for five tokens, with a deposit of two ADA. -/
def creation : ChainTx where
  hash := txId 0xc1
  height := 100
  inputs := [⟨txId 0xf0, 0⟩]
  outputs := [orderOutput 12000000 (datumCbor [0x00, 0x98, 0x96, 0x80] [0x05])]
  redeemers := []

/-- Four of the ten ADA taken for two tokens. -/
def fill : ChainTx where
  hash := txId 0xd2
  height := 200
  inputs := [⟨txId 0xc1, 0⟩, ⟨txId 0xf1, 0⟩]
  outputs :=
    [⟨sellerAddress,
        [⟨"lovelace".toList, 1400000⟩, ⟨hexOf (token.policyId ++ token.assetName), 2⟩], none⟩,
      orderOutput 8000000 (datumCbor [0x00, 0x5b, 0x8d, 0x80] [0x03]),
      ⟨takerAddress, [⟨"lovelace".toList, 5000000⟩], none⟩]
  redeemers := [⟨0, opts.orderValidatorHash, 2⟩]

/-- The chain before the fill, and in the block of the fill. -/
def created : ChainState where
  tip := ⟨4000, 150⟩
  txs := ⟨[creation], by decide⟩
  hash_text := by decide
  inputs_nodup := by decide
  redeemers_nodup := by decide

def filled : ChainState where
  tip := ⟨5000, 200⟩
  txs := ⟨[creation, fill], by decide⟩
  hash_text := by decide
  inputs_nodup := by decide
  redeemers_nodup := by decide

def orderRef : OutRef := ⟨txId 0xc1, 0⟩

def continuationRef : OutRef := ⟨txId 0xd2, 1⟩

/-- The provider that answers completely and faithfully. -/
def exact (c : ChainState) : ChainProvider :=
  c.provider (c.liveUtxos.filter fun u => u.holds (orderBeaconUnit opts))

/-- The cache after a pass over the chain before the fill. -/
def indexed : OrdersRepo := (doSync mesh opts (exact created) .empty).state.repo

end SampleChain

end BeaconDex.Backend
