import BeaconDex.Backend.BuilderRefinement

/-!
# Validating an order twice

`OrderIndexer.validateAndMap` decides what is cached as an order, and
`TxBuilder.resolveOrder` decides again, on the chain's own answer, what a
transaction is built on.  Both re-derive the beacons.  Only the indexer asks where
the output sits and whether it holds what it offers, and it reads the lovelace
under one unit where the builder knows two.  `revalidated_iff` says what of an
output must hold for the two to agree.
-/

namespace BeaconDex.Backend

open Library

/-- Both services run on the same scripts. -/
structure SameScripts (scripts : ProtocolScripts) (opts : IndexerOptions) : Prop where
  beaconPolicyId : opts.beaconPolicyId = scripts.beaconPolicyId
  orderValidatorHash : opts.orderValidatorHash = scripts.orderValidatorHash

/-- **The indexer agrees with a resolved order**: it accepts the output, and it
works out the same deposit, which is one. -/
structure Revalidated (mesh : Mesh) (opts : IndexerOptions) (order : ResolvedOrder) : Prop where
  accepted : ∃ row, validateAndMap mesh opts order.utxo = some row ∧
    row.depositLovelace = order.deposit
  deposit_nonneg : 0 ≤ order.deposit

/-- **What `resolveOrder` takes on trust of an output** with the datum `datum`: its
address is the owner's order address, it holds the offer, lovelace goes by its
first name and is not negative, and the seller's address can be written. -/
structure Trusted (mesh : Mesh) (opts : IndexerOptions) (datum : OrderDatumFields) (u : UTxO) :
    Prop where
  address : ∃ addr, mesh.deserializeAddress u.address = some addr ∧
    addr.scriptHash = opts.orderValidatorHash ∧ addr.stakeCredentialHash = datum.ownerKeyHash
  offer_held : datum.offerAmount ≤ qty u.amount (unitOf datum.offer)
  lovelace_unit : qty u.amount lovelaceUnit = lovelaceOf u.amount
  lovelace_nonneg : isAda datum.offer = false → 0 ≤ lovelaceOf u.amount
  seller : (mesh.serializeKeyAddress datum.paymentPubKeyHash datum.paymentStakeKeyHash).isSome

section

variable {mesh : Mesh} {scripts : ProtocolScripts} {opts : IndexerOptions} {p : ChainProvider}
variable {orderId : Str} {order : ResolvedOrder}

/-- The indexer's deposit, where the offer is held. -/
theorem verifiedDeposit_eq_some {datum : OrderDatumFields} {amount : List Asset} {deposit : ℤ} :
    verifiedDeposit datum amount = some deposit ↔
      datum.offerAmount ≤ qty amount (unitOf datum.offer) ∧
        deposit = if isAda datum.offer then qty amount lovelaceUnit - datum.offerAmount
          else qty amount lovelaceUnit := by
  have hif : ∀ held value : ℤ,
      (if held < datum.offerAmount then none else some value) = some deposit ↔
        datum.offerAmount ≤ held ∧ deposit = value := by
    intro held value
    rw [Option.ite_none_left_eq_some, Option.some.injEq, not_lt, @eq_comm _ value]
  unfold verifiedDeposit unitOf
  cases isAda datum.offer with
  | true => exact hif _ _
  | false => exact hif _ _

theorem plutusData_ne_nil_of_resolveOrder (h : resolveOrder mesh scripts p orderId = .ok order) :
    order.utxo.plutusData ≠ some [] := by
  simp only [resolveOrder, bind, bind_eq_ok, orThrow_eq_ok, throwIf_eq_ok, call_eq_ok, pure,
    Except.pure, Except.ok.injEq, Option.filter_eq_some_iff] at h
  obtain ⟨-, -, -, -, -, -, utxo, -, cbor, ⟨hcbor, hne⟩, -, -, -, -, -, -, rfl⟩ := h
  rw [hcbor]
  rintro heq
  rw [Option.some.inj heq] at hne
  exact of_decide_eq_true hne rfl

/-- **When an order that resolves is one the indexer accepts.** The builder resolves an id
by its beacons and its datum; the indexer, which reads the same output, checks more.  What
is accepted by the one is accepted by the other exactly if it satisfies the checks the
builder does not make (`Trusted`). -/
theorem revalidated_iff (hscripts : SameScripts scripts opts)
    (hresolve : resolveOrder mesh scripts p orderId = .ok order) :
    Revalidated mesh opts order ↔ Trusted mesh opts order.datum order.utxo := by
  have hresolved := resolveOrder_eq_ok hresolve
  obtain ⟨cbor, hcbor, hdatum⟩ := hresolved.datum
  constructor
  · rintro ⟨⟨row, hrow, hdeposit⟩, hnonneg⟩
    have hmapped := mappedRow_of_validateAndMap hrow hcbor hdatum
    obtain ⟨hheld, hvalue⟩ := verifiedDeposit_eq_some.mp hmapped.deposit
    obtain ⟨addr, cbor', datum', haddr, hscript, hcbor', -, hdatum', -, hstake, -, -, hseller⟩ :=
      isSome_validateAndMap.mp (Option.isSome_of_eq_some hrow)
    obtain rfl := Option.some.inj (hcbor.symm.trans hcbor')
    obtain rfl := Option.some.inj (hdatum.symm.trans hdatum')
    rw [hdeposit, hresolved.deposit, depositOf] at hvalue
    rw [hresolved.deposit, depositOf] at hnonneg
    refine ⟨⟨addr, haddr, hscript, hstake⟩, hheld, ?_, ?_, hseller⟩
    · cases hada : isAda order.datum.offer <;> simp only [hada, if_true, if_false,
        Bool.false_eq_true] at hvalue
      · exact hvalue.symm
      · omega
    · intro hada
      rwa [hada, if_neg (by simp)] at hnonneg
  · rintro ⟨⟨addr, haddr, hscript, hstake⟩, hheld, hunit, hpos, hseller⟩
    have haccepted : (validateAndMap mesh opts order.utxo).isSome := by
      refine isSome_validateAndMap.mpr ⟨addr, cbor, order.datum, haddr, hscript, hcbor, ?_, hdatum,
        hresolved.policy.trans hscripts.beaconPolicyId.symm, hstake, ?_,
        Option.isSome_of_eq_some (verifiedDeposit_eq_some.mpr ⟨hheld, rfl⟩), hseller⟩
      · rintro rfl
        exact plutusData_ne_nil_of_resolveOrder hresolve hcbor
      · intro name hname
        have hbeacons := hresolved.beacons
        rw [holdsBeacons, List.all_eq_true, hresolved.beaconNames] at hbeacons
        rw [hscripts.beaconPolicyId]
        exact of_decide_eq_true (hbeacons name hname)
    obtain ⟨row, hrow⟩ := Option.isSome_iff_exists.mp haccepted
    have hmapped := mappedRow_of_validateAndMap hrow hcbor hdatum
    obtain ⟨-, hvalue⟩ := verifiedDeposit_eq_some.mp hmapped.deposit
    refine ⟨⟨row, hrow, ?_⟩, ?_⟩
    · rw [hvalue, hunit, hresolved.deposit, depositOf]
    · rw [hresolved.deposit, depositOf]
      cases hada : isAda order.datum.offer with
      | true =>
          rw [unitOf, hada, if_pos rfl, hunit] at hheld
          simp only [if_true]
          omega
      | false => exact hpos hada

end

/-! An order of the samples, and its datum and tokens in a wallet. -/

namespace SampleStray

open SampleBatch

def indexer : IndexerOptions := SampleChain.opts

/-- The order's value and datum, at the taker's own address. -/
def stray : UTxO := { orderUtxo 1 with address := SampleChain.takerAddress }

def strayProvider : ChainProvider := { provider with getUtxo := fun _ => .ok (some stray) }

def orderId : Str := orderIdOf ⟨SampleChain.txId 1, 0⟩

def resolved : ResolvedOrder := (SampleBatch.resolved 1 none).toResolvedOrder

set_option maxRecDepth 100000 in
theorem resolve_order : resolveOrder mesh scripts provider orderId = .ok resolved := by decide

set_option maxRecDepth 100000 in
theorem resolve_stray :
    resolveOrder mesh scripts strayProvider orderId = .ok { resolved with utxo := stray } := by
  decide

end SampleStray

open SampleStray in
theorem revalidated_iff_sample :
    (Revalidated SampleBatch.mesh indexer resolved ↔
      Trusted SampleBatch.mesh indexer resolved.datum resolved.utxo) ∧
    (Revalidated SampleBatch.mesh indexer { resolved with utxo := stray } ↔
      Trusted SampleBatch.mesh indexer resolved.datum stray) := by
  have hscripts : SameScripts SampleBatch.scripts indexer := ⟨rfl, rfl⟩
  exact ⟨revalidated_iff hscripts resolve_order, revalidated_iff hscripts resolve_stray⟩

open SampleStray in
set_option maxRecDepth 100000 in
/-- **An output in a wallet resolves as an order.**  Its beacons left an order; the
indexer drops it. -/
theorem stray_resolves :
    resolveOrder SampleBatch.mesh SampleBatch.scripts strayProvider orderId =
        .ok { resolved with utxo := stray } ∧
      SameScripts SampleBatch.scripts indexer ∧
      ¬Revalidated SampleBatch.mesh indexer { resolved with utxo := stray } ∧
      (validateAndMap SampleBatch.mesh indexer resolved.utxo).isSome := by
  have hdropped : validateAndMap SampleBatch.mesh indexer stray = none := by decide
  refine ⟨resolve_stray, ⟨rfl, rfl⟩, ?_, by decide⟩
  rintro ⟨⟨row, hrow, -⟩, -⟩
  rw [hdropped] at hrow
  cases hrow

end BeaconDex.Backend
