import BeaconDex.Backend.TxBuilder

/-!
# What a batch of takes says

The summary `buildTakeManyOrders` returns beside the transaction: totals, the
partial fills, and the taker's net by asset, which is added up from the amounts
of the outputs the batch spends and creates.

The sentences of the summary (its description and its warnings) are left out.

## Where the numbers come from

The source adds up amounts of the UTxOs and outputs it has just handed to Mesh, instead
of deriving the net from the terms of the orders.  This makes the summary true of the
transaction whatever the orders say, and leaves it to be shown that it is also what the
terms say (`TakerNet`).
-/

namespace BeaconDex.Backend

open Library

/-- So much of an asset, under its id. -/
structure AssetAmount where
  assetId : Str
  amount : ℤ
  deriving DecidableEq

/-- What the summary calls the transaction. -/
inductive TakeAction
  | takeOrder
  | takeOrderPartial
  | takeManyOrders
  deriving DecidableEq

/-- What the summary says of a partial leg: what it takes and pays, and what it leaves of
the order. -/
structure PartialFillSummary where
  orderId : Str
  takeAmount : ℤ
  paidAsk : ℤ
  remainingOffer : ℤ
  remainingAsk : ℤ
  continuationAddress : Str
  deriving DecidableEq

/-- **The summary of a take**, which the preview shows before anything is signed. -/
structure TakeSummary where
  action : TakeAction
  /-- What is received, when all orders offer the same asset. -/
  offered : Option AssetAmount
  /-- What is paid, when all orders ask for the same asset. -/
  requested : Option AssetAmount
  takerNet : List (Str × ℤ)
  depositLovelace : ℤ
  burned : List Str
  orderIds : List Str
  partialFills : List PartialFillSummary
  /-- The seller's address of a single take. -/
  paymentAddress : Option Str
  expiration : Option JsNumber
  deriving DecidableEq

/-! ## The taker's net -/

section

variable (scripts : ProtocolScripts)

/-- One entry of an amount, beacons apart, with its sign. -/
def addEntry (sign : ℤ) (net : List (Str × ℤ)) (a : Asset) : List (Str × ℤ) :=
  let unit := if a.unit = [] then lovelaceUnit else a.unit
  if scripts.beaconPolicyId.isPrefixOf unit then net else addAt unit (sign * a.quantity) net

/-- All entries of an amount, with one sign. -/
def addNet (amount : List Asset) (sign : ℤ) (net : List (Str × ℤ)) : List (Str × ℤ) :=
  amount.foldl (addEntry scripts sign) net

/-- One leg: what its order releases, minus what its outputs pay or lock. -/
def addLeg (net : List (Str × ℤ)) (leg : ResolvedLeg × LegDraft) : List (Str × ℤ) :=
  leg.2.outputs.foldl (fun net output => addNet scripts output.amount (-1) net)
    (addNet scripts leg.1.utxo.amount 1 net)

/-- The comparator of the lines is negative: lovelace first, then by unit. -/
def lineBefore (a b : Str × ℤ) : Prop :=
  a.1 = lovelaceUnit ∨ b.1 ≠ lovelaceUnit ∧ a.1 < b.1

instance : DecidableRel lineBefore := fun _ _ => inferInstanceAs (Decidable (_ ∨ _ ∧ _))

/-- The asset id of a unit. -/
def assetIdOfUnit (unit : Str) : Str :=
  if unit = lovelaceUnit then "lovelace".toList else unit.take 56 ++ '.' :: unit.drop 56

/-- The lines of the net. -/
def takerNetLines (net : List (Str × ℤ)) : List (Str × ℤ) :=
  ((net.filter fun entry => entry.2 ≠ 0).insertionSort lineBefore).map fun entry =>
    (assetIdOfUnit entry.1, entry.2)

/-- **The net that is shown**: leg by leg what is released and what is paid. -/
def takerNetOf (legs : List ResolvedLeg) (drafts : List LegDraft) : List (Str × ℤ) :=
  takerNetLines ((legs.zip drafts).foldl (addLeg scripts) [])

end

/-! ## The summary -/

/-- What the taker receives for a leg. -/
def receivedOf (leg : ResolvedLeg) : ℤ := leg.takeAmount.getD leg.datum.offerAmount

/-- What the taker pays for it. -/
def paidOf (leg : ResolvedLeg) : Except Thrown ℤ :=
  match leg.takeAmount with
  | none => .ok leg.datum.askAmount
  | some takeAmount =>
      orThrow .exception (requiredPayment takeAmount leg.datum.askAmount leg.datum.offerAmount)

/-- The entry of a partial leg; a full leg has none. -/
def partialFillOf (leg : ResolvedLeg) : Except Thrown (Option PartialFillSummary) :=
  match leg.takeAmount with
  | none => .ok none
  | some takeAmount => do
      let required ← paidOf leg
      return some
        { orderId := leg.orderId
          takeAmount := takeAmount
          paidAsk := required
          remainingOffer := leg.datum.offerAmount - takeAmount
          remainingAsk := leg.datum.askAmount - required
          continuationAddress := leg.utxo.address }

section

variable (mesh : Mesh) (scripts : ProtocolScripts) (opts : BuilderOptions) (p : ChainProvider)
variable (now : ℤ)

/-- The summary of the legs of a batch and of what was drafted for them.  What is stated
of an asset all orders share is left out where they differ. -/
def takeSummary (legs : List ResolvedLeg) (drafts : List LegDraft) : Except Thrown TakeSummary := do
  let partialFills ← legs.mapM partialFillOf
  let partialFills := partialFills.filterMap id
  let paid ← legs.mapM paidOf
  let single := legs.length = 1
  let uniform (asset : ResolvedLeg → AssetClassHex) (amount : ℤ) : Option AssetAmount :=
    legs.head?.bind fun first =>
      if legs.all fun leg => toApiAssetId (asset leg) = toApiAssetId (asset first) then
        some ⟨toApiAssetId (asset first), amount⟩
      else none
  return {
    action :=
      if single then if partialFills.length = 1 then .takeOrderPartial else .takeOrder
      else .takeManyOrders
    offered := uniform (fun leg => leg.datum.offer) (legs.map receivedOf).sum
    requested := uniform (fun leg => leg.datum.ask) paid.sum
    takerNet := takerNetOf scripts legs drafts
    -- deposits are only released by full legs
    depositLovelace :=
      ((legs.filter fun leg => leg.takeAmount = none).map fun leg => leg.deposit).sum
    burned := drafts.flatMap LegDraft.burnNames
    orderIds := legs.map fun leg => leg.orderId
    partialFills := partialFills
    paymentAddress :=
      if single then (drafts.flatMap LegDraft.outputs).head?.map DraftOutput.address else none
    expiration :=
      match legs.filterMap fun leg => leg.datum.expiration with
      | [] => none
      | first :: rest => some (minimum first rest) }

/-- The whole response of `buildTakeManyOrders`: the draft, and the summary of the
legs it was made of. -/
def respondTakeManyOrders (params : TakeManyOrdersParams) :
    Except Thrown (TxDraft × TakeSummary) := do
  let draft ← buildTakeManyOrders mesh scripts opts p now params
  let unsorted ← params.orders.mapM (resolveLeg mesh scripts p)
  let legs := unsorted.insertionSort inInputOrder
  let drafts ← legs.mapM (buildLeg mesh scripts opts)
  return (draft, ← takeSummary scripts legs drafts)

/-- The whole response of `buildTakeOrder`: that of a batch of one. -/
def respondTakeOrder (wallet : WalletContext) (leg : TakeLeg) :
    Except Thrown (TxDraft × TakeSummary) :=
  respondTakeManyOrders mesh scripts opts p now ⟨wallet, [leg]⟩

variable {mesh scripts opts p now}

/-- **What a response says**: the summary is that of the accepted batch. -/
theorem respondTakeManyOrders_eq_ok {params : TakeManyOrdersParams} {draft : TxDraft}
    {summary : TakeSummary}
    (h : respondTakeManyOrders mesh scripts opts p now params = .ok (draft, summary)) :
    ∃ unsorted drafts, Batch mesh scripts opts p now params unsorted drafts draft ∧
      summary.takerNet = takerNetOf scripts (unsorted.insertionSort inInputOrder) drafts := by
  simp only [respondTakeManyOrders, takeSummary, bind, bind_eq_ok, mapM_eq_ok, pure, Except.pure,
    Except.ok.injEq, Prod.mk.injEq] at h
  obtain ⟨_, hdraft, unsorted, hresolved, drafts, hbuilt, _, ⟨_, -, _, -, rfl⟩, rfl, rfl⟩ := h
  obtain ⟨unsorted', drafts', hbatch⟩ := buildTakeManyOrders_eq_ok hdraft
  -- resolving and building the legs again gives the same legs
  obtain rfl : unsorted = unsorted' :=
    Except.ok.inj ((mapM_eq_ok.mpr hresolved).symm.trans (mapM_eq_ok.mpr hbatch.resolved))
  obtain rfl : drafts = drafts' :=
    Except.ok.inj ((mapM_eq_ok.mpr hbuilt).symm.trans (mapM_eq_ok.mpr hbatch.built))
  exact ⟨unsorted, drafts, hbatch, rfl⟩

end

end BeaconDex.Backend
