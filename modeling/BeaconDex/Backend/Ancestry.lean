import BeaconDex.Backend.Continuation
import BeaconDex.Backend.OnChain

/-!
# Recovering a line of fills

`backfillAncestry` on an order whose ancestors were never cached: it climbs from
the order through the chain's history to the order the line began with, and
writes the fills it passed, oldest first.

A line of fills is a `Descent`, built the way the chain builds it: an order that
continues nothing, then one continuation after another.  The climb retraces it
step by step (`climb_of_descent`), for sixty-four steps, and needs the last of them
to see that the first order has no parent.  So a line of up to sixty-three fills is
recovered whole, and of a longer one nothing is written
(`backfillAncestry_of_descent`).

## Up first, then down

A climb asks the chain for one parent after another and writes nothing until it has
reached an order without one; the writes then go from the oldest fill to the newest, all
with the same root.  A failure on the way up leaves the repository as it was.  A parent
that is looked for and not found is taken for the end of a line, as the source does; the
results are therefore about providers that answer.
-/

namespace BeaconDex.Backend

section

variable {mesh : Mesh} {opts : IndexerOptions} {p : ChainProvider} {c : ChainState}
variable {repo : OrdersRepo} {order node : Order} {ancestors : List Order} {tipSlot : ℕ}

/-! ## Lines of fills -/

/-- **`order` continues the first of `ancestors`**, which continues the next, and so
on to an order that continues nothing.  The ancestors are as the indexer reads
them off the chain. -/
inductive Descent (mesh : Mesh) (opts : IndexerOptions) (c : ChainState) :
    List Order → Order → Prop
  | created {root : Order} (h : ∀ parent, ¬Continues opts c parent root.ref) :
      Descent mesh opts c [] root
  | fill {ancestors : List Order} {parent child : Order}
      (line : Descent mesh opts c ancestors parent)
      (row : (c.utxoAt parent.ref).bind (validateAndMap mesh opts) = some parent)
      (next : Continues opts c parent.ref child.ref) :
      Descent mesh opts c (parent :: ancestors) child

/-- The order a line began with. -/
def rootOf (order : Order) (ancestors : List Order) : Order := ancestors.getLastD order

/-- The fills of a line, latest first. -/
def fillsOf : Order → List Order → List Link
  | _, [] => []
  | child, parent :: ancestors => ⟨child, parent, child.txHash⟩ :: fillsOf parent ancestors

@[simp] theorem length_fillsOf (order : Order) (ancestors : List Order) :
    (fillsOf order ancestors).length = ancestors.length := by
  induction ancestors generalizing order with
  | nil => rfl
  | cons parent ancestors ih => rw [fillsOf, List.length_cons, ih, List.length_cons]

/-- The parents of the fills that are written are the ancestors that were climbed, in
their order. -/
theorem parents_fillsOf (order : Order) (ancestors : List Order) :
    (fillsOf order ancestors).map Link.parent = ancestors := by
  induction ancestors generalizing order with
  | nil => rfl
  | cons parent ancestors ih => rw [fillsOf, List.map_cons, ih]

namespace Descent

/-- Every fill of a line is one. -/
theorem continues (h : Descent mesh opts c ancestors order) :
    ∀ l ∈ fillsOf order ancestors,
      Continues opts c l.parent.ref l.child.ref ∧ l.spendTx = l.child.txHash := by
  induction h with
  | created h => exact fun l hl => absurd hl List.not_mem_nil
  | fill line row next ih =>
      intro l hl
      obtain rfl | hl := List.mem_cons.mp hl
      · exact ⟨next, rfl⟩
      · exact ih l hl

/-- Two lines to one order are equally long. -/
theorem length_eq {ancestors' : List Order} {order' : Order}
    (h : Descent mesh opts c ancestors order) (h' : Descent mesh opts c ancestors' order')
    (href : order.ref = order'.ref) : ancestors.length = ancestors'.length := by
  induction h generalizing ancestors' order' with
  | created hroot =>
      cases h' with
      | created => rfl
      | fill line row next => exact absurd (href ▸ next) (hroot _)
  | fill line row next ih =>
      cases h' with
      | created hroot => exact absurd (href ▸ next) (hroot _)
      | fill line' row' next' =>
          rw [← href] at next'
          rw [List.length_cons, List.length_cons, ih line' (next.left_unique next')]

/-- An ancestor has a line of its own, a shorter one. -/
theorem of_mem (h : Descent mesh opts c ancestors order) {ancestor : Order}
    (hmem : ancestor ∈ ancestors) :
    ∃ older, Descent mesh opts c older ancestor ∧ older.length < ancestors.length := by
  induction h with
  | created => exact absurd hmem List.not_mem_nil
  | fill line row next ih =>
      obtain rfl | hmem := List.mem_cons.mp hmem
      · exact ⟨_, line, Nat.lt_succ_self _⟩
      · obtain ⟨older, holder, hlt⟩ := ih hmem
        exact ⟨older, holder, hlt.trans (Nat.lt_succ_self _)⟩

/-- An order is not its own ancestor. -/
theorem orderId_ne (h : Descent mesh opts c ancestors order) {ancestor : Order}
    (hmem : ancestor ∈ ancestors) : order.orderId ≠ ancestor.orderId := by
  intro heq
  rw [Order.orderId_eq_ref, Order.orderId_eq_ref] at heq
  obtain ⟨older, holder, hlt⟩ := h.of_mem hmem
  exact absurd (h.length_eq holder (orderIdOf_injective heq)) hlt.ne'

end Descent

/-!
## The climb

One step asks for the transaction that created an order, for its redeemers, and for the
output at the position that the ranks give.  On a line of fills each step finds the
order before.
-/

/-- With a faithful provider a step up from an unlinked order ends at the order
itself or leads to another. -/
theorem climbStep_of_unlinked (hp : Faithful p c) (hlineage : repo.getLineage node.orderId = none) :
    climbStep mesh opts p repo node = .ok (.root node.orderId) ∨
      ∃ parent, climbStep mesh opts p repo node = .ok (.parent parent) := by
  simp only [climbStep, hlineage, hp.getTxUtxos, hp.getSpendRedeemers, hp.getTxOutput, bind,
    Except.bind]
  split
  · exact .inl rfl
  · split
    · exact .inl rfl
    · split
      · exact .inl rfl
      · split
        · exact .inl rfl
        · exact .inr ⟨_, rfl⟩

/-- **The climb retraces a line**, as far as its depth allows; it knows the root
only with a step to spare. -/
theorem climb_of_descent (hp : Faithful p c) (hlineage : ∀ id, repo.getLineage id = none)
    (h : Descent mesh opts c ancestors node) (depth : ℕ) (chain : List Link) :
    climb mesh opts p repo depth node chain =
      .ok (chain ++ (fillsOf node ancestors).take depth,
        if ancestors.length < depth then some (rootOf node ancestors).orderId else none) := by
  induction h generalizing depth chain with
  | @created root hroot =>
      cases depth with
      | zero => simp [climb, fillsOf, pure, Except.pure]
      | succ depth =>
          have hstep : climbStep mesh opts p repo root = .ok (.root root.orderId) := by
            refine (climbStep_of_unlinked hp (hlineage _)).resolve_right ?_
            rintro ⟨parent, hparent⟩
            exact hroot _ (continues_of_climbStep hp.truthful hparent)
          rw [climb, hstep]
          simp [fillsOf, rootOf, bind, Except.bind, pure, Except.pure]
  | @fill ancestors parent child line row next ih =>
      cases depth with
      | zero => simp [climb, pure, Except.pure]
      | succ depth =>
          have hstep : climbStep mesh opts p repo child = .ok (.parent parent) := by
            rw [climbStep_of_continues hp (hlineage _) next, row]
          rw [climb, hstep]
          refine (ih depth _).trans ?_
          rw [fillsOf, List.take_succ_cons, rootOf, rootOf, List.getLastD_cons]
          simp only [List.append_assoc, List.singleton_append, List.length_cons,
            Nat.add_lt_add_iff_right]

/-!
## What the writes leave

A fill that is written adds the parent's row, closes it, and links the child; none of
this touches what other fills wrote.
-/

/-- Writing a fill changes the lineage of its child only, which then has its parent and
the root of the chain. -/
theorem getLineage_writeLink (rootId : Str) (repo : OrdersRepo) (link : Link) (id : Str) :
    (writeLink tipSlot rootId repo link).getLineage id =
      if id = link.child.orderId then some ⟨link.parent.orderId, rootId⟩
      else repo.getLineage id := by
  rw [writeLink, OrdersRepo.getLineage_setLineage, OrdersRepo.getLineage_markSpent]
  rfl

/-- **A recovered fill** marks the parent as spent by it, and no other row. -/
theorem spendOf_writeLink (rootId : Str) (repo : OrdersRepo) (link : Link) (id : Str) :
    (writeLink tipSlot rootId repo link).spendOf id =
      if id = link.parent.orderId then some (.partiallyFilled, some link.spendTx)
      else repo.spendOf id := by
  rw [writeLink, OrdersRepo.spendOf_setLineage, OrdersRepo.spendOf_markSpent,
    OrdersRepo.spendOf_upsertOpenOrder, OrdersRepo.spendOf_upsertOpenOrder]
  by_cases h : id = link.parent.orderId
  · rw [if_pos h, if_pos h, if_pos rfl]
    rfl
  · rw [if_neg h, if_neg h, if_neg h]

/-!
## Recovery

What is on record after a climb that succeeded, for every order of the line at once, and
what is not after one that was given up.
-/

/-- **The line of fills up to `order` is recorded**: each child is linked to its
parent and to the order the line began with, each parent is marked as spent by the
fill, and the order itself is open. -/
structure Recovered (c : ChainState) (repo : OrdersRepo) (order : Order) (ancestors : List Order) :
    Prop where
  linked : ∀ l ∈ fillsOf order ancestors, repo.getLineage l.child.orderId =
    some ⟨l.parent.orderId, (rootOf order ancestors).orderId⟩
  filled : ∀ l ∈ fillsOf order ancestors, ∃ tx, c.spender l.parent.ref = some tx ∧
    repo.spendOf l.parent.orderId = some (.partiallyFilled, some tx.hash)
  opened : repo.IsOpen order.orderId

/-- What a backfill writes of a line. -/
theorem backfillAncestry_eq (hp : Faithful p c) (hlineage : ∀ id, repo.getLineage id = none)
    (h : Descent mesh opts c ancestors order) :
    backfillAncestry mesh opts p repo order tipSlot =
      if ancestors.length < 64 then
        (fillsOf order ancestors).reverse.foldl
          (writeLink tipSlot (rootOf order ancestors).orderId) repo
      else repo := by
  rw [backfillAncestry, climb_of_descent hp hlineage h]
  by_cases hshort : ancestors.length < 64
  · have htake : (fillsOf order ancestors).take 64 = fillsOf order ancestors := by
      rw [List.take_eq_self_iff, length_fillsOf]
      exact hshort.le
    rw [if_pos hshort, if_pos hshort, htake]
    rfl
  · rw [if_neg hshort, if_neg hshort]

/-- **Cold start.**  With nothing linked yet, a faithful provider and the order
cached as open, a line of one to sixty-three fills is recorded whole; a longer one
is given up, and nothing is written. -/
theorem backfillAncestry_of_descent (hp : Faithful p c)
    (hlineage : ∀ id, repo.getLineage id = none) (hopen : repo.IsOpen order.orderId)
    (h : Descent mesh opts c ancestors order) :
    (ancestors.length < 64 →
      Recovered c (backfillAncestry mesh opts p repo order tipSlot) order ancestors) ∧
    (64 ≤ ancestors.length → backfillAncestry mesh opts p repo order tipSlot = repo) := by
  rw [backfillAncestry_eq hp hlineage h]
  refine ⟨?_, fun hlong => if_neg hlong.not_gt⟩
  intro hshort
  rw [if_pos hshort]
  have hreverse : ∀ l, l ∈ (fillsOf order ancestors).reverse ↔ l ∈ fillsOf order ancestors :=
    fun l => List.mem_reverse
  refine ⟨?_, ?_, ?_⟩
  · intro l hl
    refine Library.read_foldl_write (getLineage_writeLink _) ⟨l, (hreverse l).mpr hl, rfl⟩ ?_
    intro l' hl' heq
    -- a child continues one order only
    obtain ⟨hnext, -⟩ := h.continues l hl
    obtain ⟨hnext', -⟩ := h.continues l' ((hreverse l').mp hl')
    rw [Order.orderId_eq_ref, Order.orderId_eq_ref] at heq
    rw [orderIdOf_injective heq] at hnext'
    rw [l.parent.orderId_eq_ref, l'.parent.orderId_eq_ref, hnext.left_unique hnext']
  · intro l hl
    obtain ⟨⟨tx, idx, hnext⟩, hspend⟩ := h.continues l hl
    refine ⟨tx, hnext.spender, ?_⟩
    refine Library.read_foldl_write (spendOf_writeLink _) ⟨l, (hreverse l).mpr hl, rfl⟩ ?_
    intro l' hl' heq
    -- an order is spent once
    obtain ⟨⟨tx', idx', hnext'⟩, hspend'⟩ := h.continues l' ((hreverse l').mp hl')
    rw [Order.orderId_eq_ref, Order.orderId_eq_ref] at heq
    have hspender := hnext'.spender
    rw [orderIdOf_injective heq, hnext.spender] at hspender
    obtain rfl := Option.some.inj hspender
    rw [hspend', show l'.child.txHash = tx.hash from hnext'.hash]
  · rw [isOpen_writeLinks]
    refine ⟨hopen, ?_⟩
    intro l hl
    apply h.orderId_ne
    rw [← parents_fillsOf order ancestors]
    exact List.mem_map_of_mem ((hreverse l).mp hl)

end

/-! An order filled a token at a time. -/

namespace SampleFills

open SampleChain (opts txId sellerAddress datumCbor orderOutput)
open BeaconDex.Sample (ownerKey sellerKey token)

/-- What is left of the order after `i` fills: a token for each 100,000 lovelace. -/
def remaining (i : ℕ) : OrderDatum :=
  BeaconDex.Sample.order BeaconDex.Sample.ada ((100 - i : ℕ) * 100000) token (100 - i : ℕ)

/-- The order after `i` fills, in CBOR. -/
def cborAfter (i : ℕ) : Str :=
  datumCbor ((List.range 4).map fun k => Fin.ofNat 256 ((100 - i) * 100000 / 256 ^ (3 - k)))
    [0x18, Fin.ofNat 256 (100 - i)]

/-- The fills an order has behind it, by the token amount in its CBOR. -/
def fillsIn (cbor : Str) : ℕ := 100 - ((bytesOfHex cbor).reverse.getD 7 0).val

def mesh : Mesh :=
  { SampleChain.mesh with
    deserializeDatum := fun cbor =>
      if cbor = cborAfter (fillsIn cbor) then some (nodeOf (toData (remaining (fillsIn cbor))))
      else none }

theorem deserializeDatum_cborAfter {i : ℕ} (h : i ≤ 100) :
    mesh.deserializeDatum (cborAfter i) = some (nodeOf (toData (remaining i))) := by
  have hbyte : (bytesOfHex (cborAfter i)).reverse.getD 7 0 = Fin.ofNat 256 (100 - i) := by
    rw [cborAfter, datumCbor, bytesOfHex_hexOf, List.reverse_append, List.reverse_append]
    rfl
  have hfills : fillsIn (cborAfter i) = i := by
    rw [fillsIn, hbyte, Fin.val_ofNat]
    omega
  simp only [mesh, hfills, if_true]

/-- The order after `i` fills, with its deposit of two ADA. -/
def outputAfter (i : ℕ) : ChainOutput :=
  orderOutput (((100 - i : ℕ) * 100000 : ℤ) + 2000000) (cborAfter i)

def refAfter (i : ℕ) : OutRef := ⟨txId (Fin.ofNat 256 (i + 1)), 0⟩

/-- The creation of the order, and after it the fills. -/
def txAfter : ℕ → ChainTx
  | 0 => {
      hash := txId 1
      height := 100
      inputs := [⟨txId 0, 0⟩]
      outputs := [outputAfter 0]
      redeemers := [] }
  | i + 1 => {
      hash := (refAfter (i + 1)).txHash
      height := 101 + i
      inputs := [refAfter i]
      outputs := [outputAfter (i + 1), ⟨sellerAddress, [⟨"lovelace".toList, 1400000⟩,
        ⟨hexOf (token.policyId ++ token.assetName), 1⟩], none⟩]
      redeemers := [⟨0, opts.orderValidatorHash, 2⟩] }

theorem hexDigit_ne_hash : ∀ n < 16, hexDigit n ≠ '#' := by decide

theorem txId_inj {a b : Byte} (h : txId a = txId b) : a = b :=
  (List.replicate_right_inj (by decide)).mp (hexOf_injective h)

theorem txAfter_inputs (i : ℕ) : (txAfter i).inputs = [⟨txId (Fin.ofNat 256 i), 0⟩] := by
  cases i <;> rfl

theorem txAfter_hash (i : ℕ) : (txAfter i).hash = txId (Fin.ofNat 256 (i + 1)) := by
  cases i <;> rfl

theorem ofNat_inj_on {i j : ℕ} (hi : i < 256) (hj : j < 256)
    (h : Fin.ofNat 256 i = Fin.ofNat 256 j) : i = j := by
  have hval := congrArg Fin.val h
  rwa [Fin.val_ofNat, Fin.val_ofNat, Nat.mod_eq_of_lt hi, Nat.mod_eq_of_lt hj] at hval

/-- The chain after `n` fills. -/
def chainAfter (n : ℕ) (h : n < 100) : ChainState where
  tip := ⟨5000, 101 + n⟩
  txs := ⟨(List.range (n + 1)).map txAfter, by
    rw [List.map_map]
    refine List.Nodup.map_on ?_ List.nodup_range
    intro i hi j hj heq
    rw [List.mem_range] at hi hj
    simp only [Function.comp_apply, txAfter_hash] at heq
    exact Nat.succ.inj (ofNat_inj_on (by omega) (by omega) (txId_inj heq))⟩
  hash_text := by
    intro tx htx
    obtain ⟨i, -, rfl⟩ := List.mem_map.mp htx
    rw [txAfter_hash, txId]
    intro hmem
    obtain ⟨n, hn, hc⟩ := mem_hexOf hmem
    exact hexDigit_ne_hash n hn hc.symm
  inputs_nodup := by
    rw [List.flatMap_map]
    simp only [txAfter_inputs]
    rw [show (fun i => [OutRef.mk (txId (Fin.ofNat 256 i)) 0]) = pure ∘ fun i =>
      OutRef.mk (txId (Fin.ofNat 256 i)) 0 from rfl, List.flatMap_pure_eq_map]
    refine List.Nodup.map_on ?_ List.nodup_range
    intro i hi j hj heq
    rw [List.mem_range] at hi hj
    exact ofNat_inj_on (by omega) (by omega) (txId_inj (OutRef.mk.inj heq).1)
  redeemers_nodup := by
    intro tx htx
    obtain ⟨i, -, rfl⟩ := List.mem_map.mp htx
    cases i with
    | zero => exact List.nodup_nil
    | succ i => exact List.nodup_singleton _

section

variable {n : ℕ} {h : n < 100} {i : ℕ}

theorem txAfter_mem (hi : i ≤ n) : txAfter i ∈ (chainAfter n h).txs.entries :=
  List.mem_map.mpr ⟨i, List.mem_range.mpr (Nat.lt_succ_of_le hi), rfl⟩

theorem txAt_refAfter (hi : i ≤ n) : (chainAfter n h).txAt (refAfter i).txHash = some (txAfter i) :=
  ChainState.txAt_eq_some.mpr ⟨txAfter_mem hi, txAfter_hash i⟩

theorem outputAt_refAfter (hi : i ≤ n) :
    (chainAfter n h).outputAt (refAfter i) = some (outputAfter i) := by
  rw [ChainState.outputAt, txAt_refAfter hi]
  cases i <;> rfl

/-- The first transaction fills nothing. -/
theorem created (parent : OutRef) : ¬Continues opts (chainAfter n h) parent (refAfter 0) := by
  rintro ⟨tx, idx, hcontinued⟩
  have hfirst : (chainAfter n h).txAt (refAfter 0).txHash = some tx :=
    ChainState.txAt_eq_some.mpr
      ⟨(ChainState.spender_eq_some.mp hcontinued.spender).1, hcontinued.hash.symm⟩
  rw [txAt_refAfter (Nat.zero_le n)] at hfirst
  obtain rfl := Option.some.inj hfirst
  obtain ⟨rank, hrank, -⟩ := hcontinued.pinned
  cases hrank

theorem continues (hi : i < n) :
    Continues opts (chainAfter n h) (refAfter i) (refAfter (i + 1)) := by
  refine ⟨txAfter (i + 1), 0, ?_, ?_, rfl, ?_, 0, ?_, ?_⟩
  · rw [outputAt_refAfter hi.le]
    rfl
  · exact ChainState.spender_eq_some.mpr ⟨txAfter_mem hi, List.mem_singleton_self _⟩
  · exact Library.idxOf?_of_nodup (List.nodup_singleton _) rfl
  · rfl
  · rfl

theorem qty_orderOutput (lovelace : ℤ) (cbor name : Str) :
    qty (orderOutput lovelace cbor).amount (opts.beaconPolicyId ++ name) =
      qty (orderOutput 0 []).amount (opts.beaconPolicyId ++ name) := by
  have hne : "lovelace".toList ≠ opts.beaconPolicyId ++ name := fun heq =>
    absurd (List.cons.inj heq).1 (by decide)
  rw [orderOutput, orderOutput, qty_cons_of_ne hne, qty_cons_of_ne hne]

set_option maxRecDepth 100000 in
theorem accepted (hi : i ≤ n) : ∃ row, row.ref = refAfter i ∧
    ((chainAfter n h).utxoAt row.ref).bind (validateAndMap mesh opts) = some row := by
  have hutxo : (chainAfter n h).utxoAt (refAfter i) =
      some ⟨refAfter i, (outputAfter i).address, (outputAfter i).amount, some (cborAfter i)⟩ := by
    rw [ChainState.utxoAt, outputAt_refAfter hi]
    rfl
  have haddress : mesh.deserializeAddress SampleChain.orderAddress =
      some ⟨[], opts.orderValidatorHash, hexOf ownerKey, []⟩ := by decide
  have hdatum : decodeOrderDatum mesh (cborAfter i) =
      some (fieldsOf (remaining i) ownerKey sellerKey none) := by
    have hstake : stakeKey? (remaining i).paymentAddress.stakeCredential = some none := rfl
    rw [decodeOrderDatum, deserializeDatum_cborAfter (by omega), decodeNode_orderDatum rfl rfl,
      hstake, Option.bind_some]
    refine checkDatum_eq_some.mpr ⟨rfl, KeyOrder.toNumber_one, ?_, ?_⟩
    · show (0 : ℤ) < (100 - i : ℕ) * 100000
      omega
    · show (0 : ℤ) < (100 - i : ℕ)
      omega
  have hheld : ∀ name ∈ (deriveBeaconNames mesh (assetHex adaAsset) (assetHex token)
      (hexOf ownerKey)).values, qty (orderOutput 0 []).amount (opts.beaconPolicyId ++ name) = 1 := by
    decide
  have hbeacons : ∀ name ∈ (deriveBeaconNames mesh (assetHex adaAsset) (assetHex token)
      (hexOf ownerKey)).values, qty (outputAfter i).amount (opts.beaconPolicyId ++ name) = 1 := by
    intro name hname
    rw [outputAfter, qty_orderOutput, hheld name hname]
  have hdeposit : (verifiedDeposit (fieldsOf (remaining i) ownerKey sellerKey none)
      (outputAfter i).amount).isSome := by
    have hlovelace : qty (outputAfter i).amount "lovelace".toList =
        (100 - i : ℕ) * 100000 + 2000000 := qty_cons_self _ _
    have hoffer : (fieldsOf (remaining i) ownerKey sellerKey none).offerAmount =
        (100 - i : ℕ) * 100000 := rfl
    have hada : isAda (fieldsOf (remaining i) ownerKey sellerKey none).offer = true := rfl
    simp only [verifiedDeposit, hada, if_true, hlovelace, hoffer]
    rw [if_neg (by omega)]
    rfl
  have hseller : (mesh.serializeKeyAddress (hexOf sellerKey) none).isSome := by decide
  have haccepted : (validateAndMap mesh opts ⟨refAfter i, (outputAfter i).address,
      (outputAfter i).amount, some (cborAfter i)⟩).isSome :=
    isSome_validateAndMap.mpr ⟨_, _, _, haddress, rfl, rfl, List.cons_ne_nil _ _, hdatum, rfl, rfl,
      hbeacons, hdeposit, hseller⟩
  obtain ⟨row, hrow⟩ := Option.isSome_iff_exists.mp haccepted
  have href : row.ref = refAfter i := (validateAndMap_eq_some hrow).1
  refine ⟨row, href, ?_⟩
  rw [href, hutxo, Option.bind_some, hrow]

/-- The order after `n` fills has them all behind it. -/
theorem exists_descent (hi : i ≤ n) : ∃ ancestors order, order.ref = refAfter i ∧
    ancestors.length = i ∧ Descent mesh opts (chainAfter n h) ancestors order ∧
    ((chainAfter n h).utxoAt order.ref).bind (validateAndMap mesh opts) = some order := by
  induction i with
  | zero =>
      obtain ⟨root, href, hrow⟩ := accepted (h := h) hi
      exact ⟨[], root, href, rfl, .created (fun parent => href ▸ created parent), hrow⟩
  | succ i ih =>
      obtain ⟨ancestors, parent, href, hlen, hline, hrow⟩ := ih (Nat.le_of_succ_le hi)
      obtain ⟨child, href', hrow'⟩ := accepted (h := h) hi
      refine ⟨parent :: ancestors, child, href', congrArg Nat.succ hlen, .fill hline hrow ?_, hrow'⟩
      rw [href, href']
      exact continues hi

end

end SampleFills

section

open SampleFills

theorem lineage_cached (order : Order) (id : Str) :
    (OrdersRepo.empty.upsertOpenOrder order).getLineage id = none := rfl

theorem opened_cached (order : Order) :
    (OrdersRepo.empty.upsertOpenOrder order).IsOpen order.orderId :=
  OrdersRepo.isOpen_upsertOpenOrder.mpr (.inl rfl)

theorem backfillAncestry_of_descent_sample : ∃ ancestors order, ancestors.length = 63 ∧
    Recovered (chainAfter 63 (by decide)) (backfillAncestry mesh SampleChain.opts
      ((chainAfter 63 (by decide)).provider []) (OrdersRepo.empty.upsertOpenOrder order) order 5000)
      order ancestors := by
  obtain ⟨ancestors, order, -, hlen, hline, -⟩ :=
    exists_descent (h := show 63 < 100 by decide) (le_refl 63)
  refine ⟨ancestors, order, hlen, ?_⟩
  exact (backfillAncestry_of_descent ChainState.provider_faithful (lineage_cached order)
    (opened_cached order) hline).1 (hlen.trans_lt (by decide))

/-- **Sixty-four fills are too many.**  The order is accepted, its line is on the
chain and the provider answers everything; its lineage is not recorded. -/
theorem backfillAncestry_gives_up : ∃ ancestors order, ancestors.length = 64 ∧
    Descent mesh SampleChain.opts (chainAfter 64 (by decide)) ancestors order ∧
    ((chainAfter 64 (by decide)).utxoAt order.ref).bind (validateAndMap mesh SampleChain.opts) =
      some order ∧
    Faithful ((chainAfter 64 (by decide)).provider []) (chainAfter 64 (by decide)) ∧
    (OrdersRepo.empty.upsertOpenOrder order).IsOpen order.orderId ∧
    ¬Recovered (chainAfter 64 (by decide)) (backfillAncestry mesh SampleChain.opts
      ((chainAfter 64 (by decide)).provider []) (OrdersRepo.empty.upsertOpenOrder order) order 5000)
      order ancestors := by
  obtain ⟨ancestors, order, -, hlen, hline, hrow⟩ :=
    exists_descent (h := show 64 < 100 by decide) (le_refl 64)
  refine ⟨ancestors, order, hlen, hline, hrow, ChainState.provider_faithful,
    opened_cached order, ?_⟩
  rw [backfillAncestry_eq ChainState.provider_faithful (lineage_cached order) hline,
    if_neg hlen.ge.not_gt]
  intro hrecovered
  cases ancestors with
  | nil => cases hlen
  | cons parent ancestors =>
      have hlinked := hrecovered.linked _ List.mem_cons_self
      rw [lineage_cached] at hlinked
      cases hlinked

end

end BeaconDex.Backend
