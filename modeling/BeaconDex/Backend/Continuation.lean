import BeaconDex.Backend.OrderIndexer
import BeaconDex.Library.RankPairing
import Mathlib.Logic.Relation

/-!
# Continuations on chain

Which output continues which order is a fact about the chain (`Continues`): the
order's spender lists it among the partially taken inputs, and the continuation
is the OrderBeacon output of the same rank.  The relation is a matching
(`Continues.right_unique`, `Continues.left_unique`).

The indexer computes it twice, forwards when it classifies a spend
(`classifySpend_childOrderId`) and backwards when it climbs to a parent
(`continues_of_parentInput`).

## Ranks on both sides of a fill

The redeemer of a partial take does not name its continuation, and the outputs of a
transaction do not say what they continue.  The validator pairs them by rank, and so
must a reader of the chain.  `Library.RankPairing` says that a pairing by rank of two
lists without repetition is one to one, which is all that the two directions of the
indexer have in common.
-/

namespace BeaconDex.Backend

open Library

variable {mesh : Mesh} {opts : IndexerOptions} {p : ChainProvider} {c : ChainState}

/-- The positions of the outputs that carry the OrderBeacon. -/
def continuationIdxs (opts : IndexerOptions) (tx : ChainTx) : List ℕ :=
  (tx.outputs.zipIdx.filter fun out => bearsOrderBeacon opts out.1.amount).map Prod.snd

/-- **`child` is the continuation of `parent`**: the transaction `tx` spends the parent as
its input `idx`, and creates the child as the output that is paired with this input by
rank. -/
structure ContinuedBy (opts : IndexerOptions) (c : ChainState) (parent child : OutRef)
    (tx : ChainTx) (idx : ℕ) : Prop where
  created : (c.outputAt parent).isSome
  spender : c.spender parent = some tx
  hash : child.txHash = tx.hash
  inputIdx : tx.inputs.idxOf? parent = some idx
  pinned : Pinned (partialInputIdxs opts tx.redeemers) (continuationIdxs opts tx) idx
    child.outputIndex

/-- `child` is the output that goes on with the order at `parent`. -/
def Continues (opts : IndexerOptions) (c : ChainState) (parent child : OutRef) : Prop :=
  ∃ tx idx, ContinuedBy opts c parent child tx idx

/-!
## Positions

The two lists that are paired: positions of inputs by their redeemers, positions of
outputs by their beacons.
-/

variable (opts) in
/-- The continuations of a transaction are listed in the order of its outputs. -/
theorem continuationIdxs_pairwise (tx : ChainTx) : (continuationIdxs opts tx).Pairwise (· < ·) := by
  have hsub : (continuationIdxs opts tx).Sublist (tx.outputs.zipIdx.map Prod.snd) :=
    List.filter_sublist.map _
  rw [List.zipIdx_map_snd] at hsub
  exact List.Pairwise.sublist hsub (List.pairwise_lt_range' ..)

theorem continuationIdxs_nodup (tx : ChainTx) : (continuationIdxs opts tx).Nodup :=
  (continuationIdxs_pairwise opts tx).imp Nat.ne_of_lt

variable (opts c) in
/-- The positions as the indexer finds them in a reported transaction. -/
theorem map_outputIndex_filter (tx : ChainTx) (hash : Str) :
    ((tx.outputs.mapIdx (c.report hash)).filter fun o => bearsOrderBeacon opts o.amount).map
      TxOutput.outputIndex = continuationIdxs opts tx := by
  rw [List.mapIdx_eq_zipIdx_map, List.filter_map, List.map_map]
  rfl

/-- The inputs that are counted as partial takes: those with a redeemer of the third
constructor for the order script. -/
theorem mem_partialInputIdxs {redeemers : List SpendRedeemer} {idx : ℕ} :
    idx ∈ partialInputIdxs opts redeemers ↔
      ∃ r ∈ redeemers, r.scriptHash = opts.orderValidatorHash ∧ r.constructor = 2 ∧
        r.txIndex = idx := by
  simp only [partialInputIdxs, List.mem_insertionSort, List.mem_map, List.mem_filter,
    decide_eq_true_eq]
  exact ⟨fun ⟨r, ⟨hmem, hr⟩, hidx⟩ => ⟨r, hmem, hr.1, hr.2, hidx⟩,
    fun ⟨r, hmem, hhash, hcon, hidx⟩ => ⟨r, ⟨hmem, hhash, hcon⟩, hidx⟩⟩

theorem partialInputIdxs_nodup {redeemers : List SpendRedeemer}
    (h : (redeemers.map SpendRedeemer.txIndex).Nodup) :
    (partialInputIdxs opts redeemers).Nodup :=
  (List.perm_insertionSort _ _).nodup_iff.mpr (h.sublist (List.filter_sublist.map _))

/-!
## A matching

An order has one continuation, and an order continues one.
-/

namespace Continues

variable {parent parent' child child' : OutRef}

theorem spent (h : Continues opts c parent child) : c.spender parent ≠ none := by
  obtain ⟨tx, idx, h⟩ := h
  rw [h.spender]
  exact Option.some_ne_none tx

/-- An order has one continuation. -/
theorem right_unique (h : Continues opts c parent child) (h' : Continues opts c parent child') :
    child = child' := by
  obtain ⟨tx, idx, h⟩ := h
  obtain ⟨tx', idx', h'⟩ := h'
  obtain rfl := Option.some.inj (h.spender.symm.trans h'.spender)
  obtain rfl := Option.some.inj (h.inputIdx.symm.trans h'.inputIdx)
  have hindex := h.pinned.right_unique h'.pinned
  cases child
  cases child'
  exact congrArg₂ OutRef.mk (h.hash.trans h'.hash.symm) hindex

/-- An output continues one order. -/
theorem left_unique (h : Continues opts c parent child) (h' : Continues opts c parent' child) :
    parent = parent' := by
  obtain ⟨tx, idx, h⟩ := h
  obtain ⟨tx', idx', h'⟩ := h'
  obtain rfl : tx = tx' := List.inj_on_of_nodup_map c.txs.nodup
    (ChainState.spender_eq_some.mp h.spender).1 (ChainState.spender_eq_some.mp h'.spender).1
    (h.hash.symm.trans h'.hash)
  obtain rfl := h.pinned.left_unique (continuationIdxs_nodup tx) h'.pinned
  exact idxOf?_inj h.inputIdx h'.inputIdx

end Continues

/-- `parent` is reached from `child` by undoing fills, at least one. -/
def Ancestor (opts : IndexerOptions) (c : ChainState) (parent child : OutRef) : Prop :=
  Relation.TransGen (Continues opts c) parent child

/-- An ancestor of an output is spent. -/
theorem Ancestor.spent {parent child : OutRef} (h : Ancestor opts c parent child) :
    c.spender parent ≠ none := by
  obtain ⟨x, hx, -⟩ := Relation.TransGen.head'_iff.mp h
  exact hx.spent

/-- A chain of fills that ends unspent passes through the continuation of its
first order. -/
theorem Ancestor.eq_of_continues {parent child last : OutRef} (h : Ancestor opts c parent last)
    (hnext : Continues opts c parent child) (hlive : c.spender child = none) : last = child := by
  obtain ⟨x, hx, hrest⟩ := Relation.TransGen.head'_iff.mp h
  obtain rfl := hx.right_unique hnext
  obtain heq | hfurther := Relation.reflTransGen_iff_eq_or_transGen.mp hrest
  · exact heq
  · exact absurd hlive (Ancestor.spent hfurther)

/-!
## Forwards

From a spent order: its spender, the redeemer at its position, and the output of the
same rank.
-/

/-- A redeemer is found at its position. -/
theorem find?_txIndex {redeemers : List SpendRedeemer}
    (hnodup : (redeemers.map SpendRedeemer.txIndex).Nodup) {r : SpendRedeemer}
    (hr : r ∈ redeemers) : (redeemers.find? fun r' => r'.txIndex = r.txIndex) = some r := by
  cases hfind : redeemers.find? fun r' => r'.txIndex = r.txIndex with
  | none =>
      rw [List.find?_eq_none] at hfind
      exact absurd (decide_eq_true rfl) (hfind r hr)
  | some r' =>
      have hindex : r'.txIndex = r.txIndex := by simpa using List.find?_some hfind
      rw [List.inj_on_of_nodup_map hnodup (List.mem_of_find?_eq_some hfind) hr hindex]

variable (opts) in
/-- The redeemer found at a partially taken position is the partial one. -/
theorem find?_redeemer {redeemers : List SpendRedeemer}
    (hnodup : (redeemers.map SpendRedeemer.txIndex).Nodup) {idx : ℕ}
    (h : idx ∈ partialInputIdxs opts redeemers) :
    ∃ r, (redeemers.find? fun r => r.txIndex = idx) = some r ∧ r.constructor = 2 := by
  obtain ⟨r, hmem, -, hcon, rfl⟩ := mem_partialInputIdxs.mp h
  exact ⟨r, find?_txIndex hnodup hmem, hcon⟩

/-- A spend is classified with a continuation exactly when its own redeemer is
a partial take and its rank has an OrderBeacon output. -/
theorem classifyRedeemer_childOrderId {tx : ChainTx}
    (hnodup : (tx.redeemers.map SpendRedeemer.txIndex).Nodup) {idx : ℕ} {entry : SpendRedeemer}
    (hentry : (tx.redeemers.find? fun r => r.txIndex = idx) = some entry) {id : Str} :
    (classifyRedeemer opts tx.hash ⟨tx.inputs, tx.outputs.mapIdx (c.report tx.hash)⟩ tx.redeemers
      idx entry).childOrderId = some id ↔
      ∃ k, Pinned (partialInputIdxs opts tx.redeemers) (continuationIdxs opts tx) idx k ∧
        id = orderIdOf ⟨tx.hash, k⟩ := by
  by_cases hcon : entry.constructor = 2
  · simp only [classifyRedeemer, hcon, Option.map_eq_some_iff, Option.bind_eq_some_iff]
    constructor
    · rintro ⟨out, ⟨rank, hrank, hout⟩, rfl⟩
      refine ⟨out.outputIndex, ⟨rank, hrank, ?_⟩, rfl⟩
      rw [← map_outputIndex_filter opts c tx tx.hash, List.getElem?_map, hout, Option.map_some]
    · rintro ⟨k, ⟨rank, hrank, hk⟩, rfl⟩
      rw [← map_outputIndex_filter opts c tx tx.hash, List.getElem?_map,
        Option.map_eq_some_iff] at hk
      obtain ⟨out, hout, rfl⟩ := hk
      exact ⟨out, ⟨rank, hrank, hout⟩, rfl⟩
  · have hnone : (classifyRedeemer opts tx.hash ⟨tx.inputs, tx.outputs.mapIdx (c.report tx.hash)⟩
        tx.redeemers idx entry).childOrderId = none := by
      unfold classifyRedeemer
      split
      · rfl
      · rfl
      · exact absurd ‹_› hcon
      · rfl
    rw [hnone]
    refine ⟨fun h => (by cases h), ?_⟩
    rintro ⟨k, ⟨rank, hrank, -⟩, -⟩
    -- a rank means a partial redeemer at this position, which is the one found
    have hmem : idx ∈ partialInputIdxs opts tx.redeemers :=
      List.isSome_idxOf?.mp (Option.isSome_of_eq_some hrank)
    obtain ⟨r, hr, hrcon⟩ := find?_redeemer opts hnodup hmem
    obtain rfl := Option.some.inj (hentry.symm.trans hr)
    exact absurd hrcon hcon

/-- An order that is not spent, or was never created, has no class. -/
theorem classifySpend_of_unspent (hp : Faithful p c) {order : Order}
    (h : (c.outputAt order.ref).isSome = false ∨ c.spender order.ref = none) :
    classifySpend opts p order = ⟨.unknown, none, none⟩ := by
  have hnone : ((c.txUtxos order.txHash).bind fun tx => tx.outputs[order.outputIndex]?).bind
      TxOutput.consumedByTx = none := by
    refine (ChainState.consumedByTx_txUtxos (c := c) order.ref).trans ?_
    obtain h | h := h <;> simp [h]
  simp only [classifySpend, tryClassifySpend, hp.getTxUtxos, bind, Except.bind, hnone]
  rfl

/-- A spent order is classified by the redeemer found at its position. -/
theorem classifySpend_of_spent (hp : Faithful p c) {order : Order} {tx : ChainTx} {idx : ℕ}
    (hout : (c.outputAt order.ref).isSome) (hspender : c.spender order.ref = some tx)
    (hidx : tx.inputs.idxOf? order.ref = some idx) :
    classifySpend opts p order =
      match tx.redeemers.find? fun r => r.txIndex = idx with
      | none => ⟨.unknown, some tx.hash, none⟩
      | some entry => classifyRedeemer opts tx.hash
          ⟨tx.inputs, tx.outputs.mapIdx (c.report tx.hash)⟩ tx.redeemers idx entry := by
  have hsome : ((c.txUtxos order.txHash).bind fun tx => tx.outputs[order.outputIndex]?).bind
      TxOutput.consumedByTx = some tx.hash := by
    refine (ChainState.consumedByTx_txUtxos (c := c) order.ref).trans ?_
    simp [hout, hspender]
  have htx : c.txAt tx.hash = some tx :=
    ChainState.txAt_eq_some.mpr ⟨(ChainState.spender_eq_some.mp hspender).1, rfl⟩
  have hconsuming : c.txUtxos tx.hash = some ⟨tx.inputs, tx.outputs.mapIdx (c.report tx.hash)⟩ := by
    rw [ChainState.txUtxos, htx, Option.map_some]
  simp only [classifySpend, tryClassifySpend, hp.getTxUtxos, hp.getSpendRedeemers, bind,
    Except.bind, hsome, hconsuming, ChainState.spendRedeemers, htx, hidx]
  cases tx.redeemers.find? fun r => r.txIndex = idx <;> rfl

/-- The output at `ref` was spent by `tx` under a redeemer of the order validator
whose constructor is `k`. -/
structure SpentUnder (opts : IndexerOptions) (c : ChainState) (ref : OutRef) (tx : ChainTx)
    (k : ℕ) : Prop where
  created : (c.outputAt ref).isSome
  spender : c.spender ref = some tx
  redeemer : ∃ idx, tx.inputs.idxOf? ref = some idx ∧
    ⟨idx, opts.orderValidatorHash, k⟩ ∈ tx.redeemers

/-- The status a redeemer's constructor stands for. -/
def statusOfConstructor : ℕ → SpentStatus
  | 0 => .cancelled
  | 1 => .taken
  | 2 => .partiallyFilled
  | _ => .unknown

namespace SpentUnder

variable {ref : OutRef} {tx tx' : ChainTx} {k k' : ℕ}

theorem spent (h : SpentUnder opts c ref tx k) : c.spender ref ≠ none := by
  rw [h.spender]
  exact Option.some_ne_none tx

/-- An input has one redeemer. -/
theorem constructor_unique (h : SpentUnder opts c ref tx k) (h' : SpentUnder opts c ref tx' k') :
    k = k' := by
  obtain rfl := Option.some.inj (h.spender.symm.trans h'.spender)
  obtain ⟨idx, hidx, hr⟩ := h.redeemer
  obtain ⟨idx', hidx', hr'⟩ := h'.redeemer
  obtain rfl := Option.some.inj (hidx.symm.trans hidx')
  have hnodup := c.redeemers_nodup tx (ChainState.spender_eq_some.mp h.spender).1
  exact congrArg SpendRedeemer.constructor (List.inj_on_of_nodup_map hnodup hr hr' rfl)

end SpentUnder

/-- A filled order was spent under a partial take. -/
theorem ContinuedBy.spentUnder {parent child : OutRef} {tx : ChainTx} {idx : ℕ}
    (h : ContinuedBy opts c parent child tx idx) : SpentUnder opts c parent tx 2 := by
  obtain ⟨rank, hrank, -⟩ := h.pinned
  obtain ⟨⟨i, hash, k⟩, hr, rfl, rfl, rfl⟩ := mem_partialInputIdxs.mp
    (List.isSome_idxOf?.mp (Option.isSome_of_eq_some hrank))
  exact ⟨h.created, h.spender, i, h.inputIdx, hr⟩

/-- A spend under the order validator is classified by its own redeemer. -/
theorem classifySpend_of_spentUnder (hp : Faithful p c) {order : Order} {tx : ChainTx} {k : ℕ}
    (h : SpentUnder opts c order.ref tx k) :
    ∃ idx, tx.inputs.idxOf? order.ref = some idx ∧
      classifySpend opts p order = classifyRedeemer opts tx.hash
        ⟨tx.inputs, tx.outputs.mapIdx (c.report tx.hash)⟩ tx.redeemers idx
        ⟨idx, opts.orderValidatorHash, k⟩ := by
  obtain ⟨idx, hidx, hr⟩ := h.redeemer
  have hnodup := c.redeemers_nodup tx (ChainState.spender_eq_some.mp h.spender).1
  have hfind : (tx.redeemers.find? fun r => r.txIndex = idx) =
      some ⟨idx, opts.orderValidatorHash, k⟩ := find?_txIndex hnodup hr
  refine ⟨idx, hidx, ?_⟩
  rw [classifySpend_of_spent hp h.created h.spender hidx, hfind]

/-- A provider that tells the truth has a spend classified by the redeemer it was made
with. -/
theorem status_classifySpend (hp : Faithful p c) {order : Order} {tx : ChainTx} {k : ℕ}
    (h : SpentUnder opts c order.ref tx k) :
    (classifySpend opts p order).status = statusOfConstructor k := by
  obtain ⟨idx, -, hclass⟩ := classifySpend_of_spentUnder hp h
  rw [hclass]
  unfold classifyRedeemer statusOfConstructor
  rcases k with _ | _ | _ | k <;> rfl

/-- **The indexer finds the continuation the chain has.** -/
theorem classifySpend_childOrderId (hp : Faithful p c) {order : Order} {id : Str} :
    (classifySpend opts p order).childOrderId = some id ↔
      ∃ child, Continues opts c order.ref child ∧ id = orderIdOf child := by
  by_cases hunspent : (c.outputAt order.ref).isSome = false ∨ c.spender order.ref = none
  · rw [classifySpend_of_unspent hp hunspent]
    refine ⟨fun h => (by cases h), ?_⟩
    rintro ⟨child, ⟨tx, idx, h⟩, -⟩
    obtain hcr | hsp := hunspent
    · exact absurd h.created (by simp [hcr])
    · exact absurd h.spender (by simp [hsp])
  · rw [not_or, Bool.not_eq_false, ← ne_eq, Option.ne_none_iff_exists'] at hunspent
    obtain ⟨hout, tx, hspender⟩ := hunspent
    obtain ⟨hmem, href⟩ := ChainState.spender_eq_some.mp hspender
    obtain ⟨idx, hidx⟩ := Option.isSome_iff_exists.mp (List.isSome_idxOf?.mpr href)
    have hnodup := c.redeemers_nodup tx hmem
    have hcontinues : (∃ child, Continues opts c order.ref child ∧ id = orderIdOf child) ↔
        ∃ k, Pinned (partialInputIdxs opts tx.redeemers) (continuationIdxs opts tx) idx k ∧
          id = orderIdOf ⟨tx.hash, k⟩ := by
      constructor
      · rintro ⟨child, ⟨tx', idx', h⟩, rfl⟩
        obtain rfl := Option.some.inj (hspender.symm.trans h.spender)
        obtain rfl := Option.some.inj (hidx.symm.trans h.inputIdx)
        exact ⟨_, h.pinned, by rw [← h.hash]⟩
      · rintro ⟨k, hk, rfl⟩
        exact ⟨⟨tx.hash, k⟩, ⟨tx, idx, hout, hspender, rfl, hidx, hk⟩, rfl⟩
    rw [classifySpend_of_spent hp hout hspender hidx, hcontinues]
    cases hfind : tx.redeemers.find? fun r => r.txIndex = idx with
    | some entry => exact classifyRedeemer_childOrderId hnodup hfind
    | none =>
        refine ⟨fun h => (by cases h), ?_⟩
        rintro ⟨k, ⟨rank, hrank, -⟩, -⟩
        obtain ⟨r, hr, -⟩ := find?_redeemer opts hnodup
          (List.isSome_idxOf?.mp (Option.isSome_of_eq_some hrank))
        rw [hfind] at hr
        cases hr

/-!
## Backwards

From a continuation: its transaction, its rank among the outputs, and the input of this
rank.
-/

/-- The reported continuation of a position is found at the rank of the
position. -/
theorem findIdx?_reported {tx : ChainTx} {hash : Str} {position rank : ℕ} :
    (((tx.outputs.mapIdx (c.report hash)).filter fun o => bearsOrderBeacon opts o.amount).findIdx?
      fun o => o.outputIndex = position) = some rank ↔
      (continuationIdxs opts tx)[rank]? = some position := by
  have hreported := map_outputIndex_filter opts c tx hash
  have hnodup : (continuationIdxs opts tx).Nodup := continuationIdxs_nodup tx
  rw [← hreported] at hnodup ⊢
  set outs := (tx.outputs.mapIdx (c.report hash)).filter fun o => bearsOrderBeacon opts o.amount
  rw [List.getElem?_map, Option.map_eq_some_iff, List.findIdx?_eq_some_iff_getElem]
  constructor
  · rintro ⟨hlt, hindex, -⟩
    exact ⟨outs[rank], List.getElem?_eq_getElem hlt, of_decide_eq_true hindex⟩
  · rintro ⟨out, hout, rfl⟩
    obtain ⟨hlt, rfl⟩ := List.getElem?_eq_some_iff.mp hout
    refine ⟨hlt, decide_eq_true rfl, ?_⟩
    -- positions are distinct, so no earlier output has this one
    intro j hj heq
    have hsame := List.getElem?_inj (i := j) (j := rank) (by rw [List.length_map]; omega) hnodup
    have := hsame.mp (by
      rw [List.getElem?_map, List.getElem?_map, List.getElem?_eq_getElem (hj.trans hlt),
        List.getElem?_eq_getElem hlt, Option.map_some, Option.map_some, of_decide_eq_true heq])
    omega

/-- The parent is the input whose rank among the partially taken ones is that of
the node among the continuations. -/
theorem parentInput_eq_some {node : Order} {tx : ChainTx} {input : OutRef} :
    parentInput opts ⟨tx.inputs, tx.outputs.mapIdx (c.report node.txHash)⟩
      (partialInputIdxs opts tx.redeemers) node = some input ↔
      ∃ rank idx : ℕ, (continuationIdxs opts tx)[rank]? = some node.outputIndex ∧
        (partialInputIdxs opts tx.redeemers)[rank]? = some idx ∧ tx.inputs[idx]? = some input := by
  have hpairwise := continuationIdxs_pairwise opts tx
  rw [← map_outputIndex_filter opts c tx node.txHash, List.pairwise_map] at hpairwise
  have hsort : List.insertionSort (fun a b => a.outputIndex ≤ b.outputIndex)
      ((tx.outputs.mapIdx (c.report node.txHash)).filter fun o => bearsOrderBeacon opts o.amount) =
      (tx.outputs.mapIdx (c.report node.txHash)).filter fun o => bearsOrderBeacon opts o.amount :=
    List.Pairwise.insertionSort_eq (hpairwise.imp Nat.le_of_lt)
  simp only [parentInput, hsort, Option.bind_eq_some_iff, findIdx?_reported]
  constructor
  · rintro ⟨rank, hrank, idx, hidx, hat⟩
    exact ⟨rank, idx, hrank, hidx, hat⟩
  · rintro ⟨rank, idx, hrank, hidx, hat⟩
    exact ⟨rank, hrank, idx, hidx, hat⟩

/-- **The parent the indexer climbs to is continued by the node.** -/
theorem continues_of_parentInput {node : Order} {tx : ChainTx}
    (htx : c.txAt node.txHash = some tx) {input : OutRef}
    (hinput : parentInput opts ⟨tx.inputs, tx.outputs.mapIdx (c.report node.txHash)⟩
      (partialInputIdxs opts tx.redeemers) node = some input)
    (hcreated : (c.outputAt input).isSome) : Continues opts c input node.ref := by
  obtain ⟨hmem, hhash⟩ := ChainState.txAt_eq_some.mp htx
  obtain ⟨rank, idx, hposition, hidx, hat⟩ := parentInput_eq_some.mp hinput
  exact ⟨tx, idx, hcreated,
    ChainState.spender_eq_some.mpr ⟨hmem, List.mem_of_getElem? hat⟩, hhash.symm,
    idxOf?_of_nodup (ChainState.inputs_nodup_of_mem hmem) hat,
    ⟨rank, idxOf?_of_nodup (partialInputIdxs_nodup (c.redeemers_nodup tx hmem)) hidx, hposition⟩⟩

/-- …and every order that the node continues is found. -/
theorem ContinuedBy.parentInput_eq {node : Order} {parent : OutRef} {tx : ChainTx} {idx : ℕ}
    (h : ContinuedBy opts c parent node.ref tx idx) :
    parentInput opts ⟨tx.inputs, tx.outputs.mapIdx (c.report node.txHash)⟩
      (partialInputIdxs opts tx.redeemers) node = some parent := by
  obtain ⟨rank, hrank, hposition⟩ := h.pinned
  obtain ⟨hlt, hidx, -⟩ := List.idxOf?_eq_some_iff.mp hrank
  obtain ⟨hlt', hinput, -⟩ := List.idxOf?_eq_some_iff.mp h.inputIdx
  exact parentInput_eq_some.mpr ⟨rank, idx, hposition, List.getElem?_eq_some_iff.mpr ⟨hlt, hidx⟩,
    List.getElem?_eq_some_iff.mpr ⟨hlt', hinput⟩⟩

/-- **One step up** from a continuation that is not linked yet: to the order it
continues, unless that is no order for the indexer. -/
theorem climbStep_of_continues (hp : Faithful p c) {repo : OrdersRepo} {node : Order}
    {parent : OutRef} (hlineage : repo.getLineage node.orderId = none)
    (h : Continues opts c parent node.ref) :
    climbStep mesh opts p repo node =
      match (c.utxoAt parent).bind (validateAndMap mesh opts) with
      | none => .ok (.root node.orderId)
      | some order => .ok (.parent order) := by
  obtain ⟨tx, idx, h⟩ := h
  have htx : c.txAt node.txHash = some tx :=
    ChainState.txAt_eq_some.mpr ⟨(ChainState.spender_eq_some.mp h.spender).1, h.hash.symm⟩
  have hpartial : partialInputIdxs opts tx.redeemers ≠ [] := by
    obtain ⟨rank, hrank, -⟩ := h.pinned
    exact List.ne_nil_of_mem (List.isSome_idxOf?.mp (Option.isSome_of_eq_some hrank))
  simp only [climbStep, hlineage, hp.getTxUtxos, hp.getSpendRedeemers, hp.getTxOutput, bind,
    Except.bind, ChainState.txUtxos, ChainState.spendRedeemers, htx, Option.map_some, hpartial,
    if_false, h.parentInput_eq]
  cases (c.utxoAt parent).bind (validateAndMap mesh opts) <;> rfl

/-- One step up leads to an order that `node` continues. -/
theorem continues_of_climbStep (hp : Truthful p c) {repo : OrdersRepo} {node parent : Order}
    (h : climbStep mesh opts p repo node = .ok (.parent parent)) :
    Continues opts c parent.ref node.ref := by
  obtain ⟨creatingTx, redeemers, input, u, hcreating, hredeemers, hinput, hparent, hvalid⟩ :=
    climbStep_eq_parent h
  obtain ⟨tx, htx, rfl⟩ := Option.map_eq_some_iff.mp (hp.getTxUtxos _ _ hcreating).symm
  obtain rfl := hp.getSpendRedeemers _ _ hredeemers
  rw [ChainState.spendRedeemers, htx] at hinput
  have hutxo : c.utxoAt input = some u := (hp.getTxOutput _ _ hparent).symm
  have hcreated : (c.outputAt input).isSome := by
    rw [ChainState.utxoAt] at hutxo
    exact Option.isSome_map.symm.trans (Option.isSome_of_eq_some hutxo)
  rw [(validateAndMap_eq_some hvalid).1, ChainState.input_of_utxoAt hutxo]
  exact continues_of_parentInput htx hinput hcreated

/-- Every parent collected on the climb is an ancestor of the node it started
from. -/
theorem ancestor_of_climb (hp : Truthful p c) {repo : OrdersRepo} {depth : ℕ} {node : Order}
    {chain : List Link} {result : List Link × Option Str}
    (h : climb mesh opts p repo depth node chain = .ok result) :
    ∀ l ∈ result.1, l ∈ chain ∨ Ancestor opts c l.parent.ref node.ref := by
  induction depth generalizing node chain with
  | zero =>
      obtain rfl := Except.ok.inj h
      exact fun l hl => .inl hl
  | succ depth ih =>
      obtain ⟨climbed, hstep, h⟩ := bind_eq_ok.mp h
      cases climbed with
      | root rootId =>
          obtain rfl := Except.ok.inj h
          exact fun l hl => .inl hl
      | parent parent =>
          have hlink := continues_of_climbStep hp hstep
          intro l hl
          obtain hmem | hanc := ih h l hl
          · obtain hmem | rfl := List.mem_append.mp hmem |>.imp_right List.mem_singleton.mp
            · exact .inl hmem
            · exact .inr (.single hlink)
          · exact .inr (hanc.tail hlink)

/-- Every link collected on the climb is a fill. -/
theorem continues_of_climb (hp : Truthful p c) {repo : OrdersRepo} {depth : ℕ} {node : Order}
    {chain : List Link} {result : List Link × Option Str}
    (h : climb mesh opts p repo depth node chain = .ok result)
    (hchain : ∀ l ∈ chain, Continues opts c l.parent.ref l.child.ref) :
    ∀ l ∈ result.1, Continues opts c l.parent.ref l.child.ref := by
  induction depth generalizing node chain with
  | zero =>
      obtain rfl := Except.ok.inj h
      exact hchain
  | succ depth ih =>
      obtain ⟨climbed, hstep, h⟩ := bind_eq_ok.mp h
      cases climbed with
      | root rootId =>
          obtain rfl := Except.ok.inj h
          exact hchain
      | parent parent =>
          refine ih h ?_
          intro l hl
          obtain hmem | rfl := List.mem_append.mp hl |>.imp_right List.mem_singleton.mp
          · exact hchain l hmem
          · exact continues_of_climbStep hp hstep

/-!
## What a backfill writes

Rows and links of ancestors only; the order it was called for keeps its status.
-/

/-- Writing a fill closes its parent and opens nothing. -/
theorem isOpen_writeLink {tipSlot : ℕ} {rootId : Str} {repo : OrdersRepo} {link : Link} {id : Str} :
    (writeLink tipSlot rootId repo link).IsOpen id ↔
      repo.IsOpen id ∧ id ≠ link.parent.orderId := by
  rw [writeLink, OrdersRepo.isOpen_setLineage, OrdersRepo.isOpen_markSpent,
    OrdersRepo.isOpen_upsertOpenOrder]
  exact ⟨fun ⟨hne, h⟩ => ⟨h.resolve_left hne, hne⟩, fun ⟨h, hne⟩ => ⟨hne, .inr h⟩⟩

theorem isOpen_writeLinks {tipSlot : ℕ} {rootId : Str} {links : List Link} {repo : OrdersRepo}
    {id : Str} :
    (links.foldl (writeLink tipSlot rootId) repo).IsOpen id ↔
      repo.IsOpen id ∧ ∀ l ∈ links, id ≠ l.parent.orderId := by
  induction links generalizing repo with
  | nil => simp
  | cons link links ih =>
      rw [List.foldl_cons, ih, isOpen_writeLink, List.forall_mem_cons, and_assoc]

variable (mesh opts) in
/-- **A backfill closes ancestors only**, and opens nothing: the parents it
writes as open it writes as filled right after. -/
theorem isOpen_backfillAncestry (hp : Truthful p c) (repo : OrdersRepo) (order : Order)
    (tipSlot : ℕ) :
    ∃ closed : List OutRef, (∀ parent ∈ closed, Ancestor opts c parent order.ref) ∧
      ∀ id, (backfillAncestry mesh opts p repo order tipSlot).IsOpen id ↔
        repo.IsOpen id ∧ id ∉ closed.map orderIdOf := by
  unfold backfillAncestry
  split
  · next chain rootId hclimb =>
      refine ⟨chain.map fun l => l.parent.ref, ?_, ?_⟩
      · intro parent hparent
        obtain ⟨l, hl, rfl⟩ := List.mem_map.mp hparent
        exact (ancestor_of_climb hp hclimb l hl).resolve_left List.not_mem_nil
      · intro id
        rw [isOpen_writeLinks]
        simp only [List.mem_reverse, Order.orderId_eq_ref, List.map_map, List.mem_map,
          Function.comp_apply, not_exists, not_and, ne_eq, eq_comm]
  · exact ⟨[], by simp, by simp⟩

/-- Recovered fills record no parent but the one an order continues. -/
theorem parentOrderId_of_writeLinks {tipSlot : ℕ} {rootId : Str} {links : List Link}
    {repo : OrdersRepo} {parent child : OutRef} (hnext : Continues opts c parent child)
    (hlinks : ∀ l ∈ links, Continues opts c l.parent.ref l.child.ref)
    (hrepo : ∀ l, repo.getLineage (orderIdOf child) = some l → l.parentOrderId = orderIdOf parent) :
    ∀ l, (links.foldl (writeLink tipSlot rootId) repo).getLineage (orderIdOf child) = some l →
      l.parentOrderId = orderIdOf parent := by
  induction links generalizing repo with
  | nil => exact hrepo
  | cons link links ih =>
      refine ih (fun l hl => hlinks l (List.mem_cons_of_mem _ hl)) ?_
      intro l hl
      rw [writeLink, OrdersRepo.getLineage_setLineage] at hl
      split at hl
      · next heq =>
          have hlink := hlinks link List.mem_cons_self
          rw [link.child.orderId_eq_ref] at heq
          rw [← orderIdOf_injective heq] at hlink
          rw [← Option.some.inj hl, link.parent.orderId_eq_ref, hnext.left_unique hlink]
      · rw [OrdersRepo.getLineage_markSpent] at hl
        exact hrepo l hl

/-- **A backfill records true parents.** -/
theorem parentOrderId_of_backfillAncestry (hp : Truthful p c) {repo : OrdersRepo} {order : Order}
    {tipSlot : ℕ} {parent child : OutRef} (hnext : Continues opts c parent child)
    (hnone : repo.getLineage (orderIdOf child) = none) {l : Lineage}
    (h : (backfillAncestry mesh opts p repo order tipSlot).getLineage (orderIdOf child) = some l) :
    l.parentOrderId = orderIdOf parent := by
  have hrepo : ∀ l, repo.getLineage (orderIdOf child) = some l →
      l.parentOrderId = orderIdOf parent := by
    intro l hl
    rw [hnone] at hl
    cases hl
  unfold backfillAncestry at h
  split at h
  · next chain rootId hclimb =>
      refine parentOrderId_of_writeLinks hnext ?_ hrepo l h
      intro link hlink
      exact continues_of_climb hp hclimb (by simp) link (List.mem_reverse.mp hlink)
  · exact hrepo l h

theorem isSome_statusOf_writeLinks {tipSlot : ℕ} {rootId : Str} {links : List Link}
    {repo : OrdersRepo} {id : Str} (h : (repo.statusOf id).isSome) :
    ((links.foldl (writeLink tipSlot rootId) repo).statusOf id).isSome := by
  induction links generalizing repo with
  | nil => exact h
  | cons link links ih =>
      apply ih
      rw [writeLink, OrdersRepo.statusOf_setLineage]
      exact OrdersRepo.isSome_statusOf_markSpent (OrdersRepo.isSome_statusOf_upsertOpenOrder h)

theorem isSome_statusOf_backfillAncestry {repo : OrdersRepo} {order : Order} {tipSlot : ℕ}
    {id : Str} (h : (repo.statusOf id).isSome) :
    ((backfillAncestry mesh opts p repo order tipSlot).statusOf id).isSome := by
  unfold backfillAncestry
  split
  · exact isSome_statusOf_writeLinks h
  · exact h

end BeaconDex.Backend
