import BeaconDex.Backend.Upkeep

/-!
# The rows and the spends in the cache

Every row of the cache rests on an output that was created, and every recorded spend
on a transaction that made it.  Neither needs more of the chain provider than that
what it answers is so: answers may fail to come, a spender may be left out, redeemers
may be skipped (`Honest`).  A client that parses what it recognises and passes over the
rest is still honest.

`StatusSound.upkeep` is the step; a run is a matter of `Run.keeps`.

## What is not promised

A status is the reading of a redeemer, and where the provider leaves redeemers out the
indexer says `unknown`.  Soundness is about the outputs and the transactions; what the
statuses mean, and when they are exact, is the subject of the files on the Koios client.
-/

namespace BeaconDex.Backend

open Library

/-!
## Truth

What a row rests on, and what a recorded spend rests on.
-/

/-- A row without what is recorded of it later. -/
def Order.bare (row : Order) : Order :=
  { row with
    status := .opened
    parentOrderId := none
    rootOrderId := none
    createdAtSlot := none
    spentAtSlot := none
    spentTxHash := none }

/-- The output at `ref` was spent by `tx`, under a redeemer that stands for
`status`. -/
structure SpentAs (c : ChainState) (ref : OutRef) (tx : ChainTx) (status : SpentStatus) : Prop where
  created : (c.outputAt ref).isSome
  spender : c.spender ref = some tx
  redeemer : ∃ idx, tx.inputs.idxOf? ref = some idx ∧
    ∃ entry ∈ tx.redeemers, entry.txIndex = idx ∧ statusOfConstructor entry.constructor = status

/-- A row is what `validateAndMap` makes of the output it names. -/
def Genuine (mesh : Mesh) (opts : IndexerOptions) (history : History) (row : Order) : Prop :=
  ∃ u, history.Created row.ref u ∧ validateAndMap mesh opts u = some row.bare

/-- A recorded spend happened. -/
def SpendTrue (history : History) (ref : OutRef) (status : SpentStatus) (txHash : Option Str) :
    Prop :=
  ∃ c ∈ history.chains, ∃ tx, SpentAs c ref tx status ∧ txHash = some tx.hash

/-- **The rows and the spends are right** about the history: every row is of an output
that was created, as it was created, and every recorded spend but an `unknown` one is by
the transaction and the redeemer it says. -/
structure StatusSound (mesh : Mesh) (opts : IndexerOptions) (history : History)
    (repo : OrdersRepo) : Prop where
  rows : ∀ id row, repo.getOrder id = some row → Genuine mesh opts history row
  spends : ∀ ref status txHash, status ≠ .unknown →
    repo.spendOf (orderIdOf ref) = some (SpentStatus.toOrderStatus status, txHash) →
      SpendTrue history ref status txHash

section Statuses

variable {mesh : Mesh} {opts : IndexerOptions} {p : ChainProvider} {c : ChainState}
variable {history : History} {repo : OrdersRepo}

theorem SpentStatus.toOrderStatus_injective : Function.Injective SpentStatus.toOrderStatus := by
  intro a b h
  cases a <;> cases b <;> first | rfl | cases h

/-- What an accepted output is mapped to has nothing recorded. -/
theorem bare_of_validateAndMap {u : UTxO} {row : Order}
    (h : validateAndMap mesh opts u = some row) : row.bare = row ∧ row.spentTxHash = none := by
  simp only [validateAndMap, Option.bind_eq_bind, Option.bind_eq_some_iff, Option.guard_eq_some',
    Option.pure_def, Option.some.injEq] at h
  obtain ⟨addr, -, -, -, cbor, -, -, -, datum, -, -, -, -, -, -, -, deposit, -, address, -, rfl⟩ := h
  exact ⟨rfl, rfl⟩

/-- An accepted output that was created gives a genuine row. -/
theorem genuine_of_validateAndMap {u : UTxO} {row : Order} (hu : history.Created u.input u)
    (h : validateAndMap mesh opts u = some row) : Genuine mesh opts history row := by
  refine ⟨u, ?_, h.trans (congrArg some (bare_of_validateAndMap h).1.symm)⟩
  rwa [(validateAndMap_eq_some h).1]

/-!
## The writes, row by row

What a write does to the row under an id, so that the invariant can be checked for each
id.
-/

/-- A row found after an order was cached. -/
theorem getOrder_upsertOpenOrder {row row' : Order} {id : Str}
    (h : (repo.upsertOpenOrder row).getOrder id = some row') :
    repo.getOrder id = some row' ∨ id = row.orderId ∧ row'.bare = row.bare ∧
      row'.parentOrderId =
        ((repo.getLineage id).map Lineage.parentOrderId).or row.parentOrderId ∧
      row'.rootOrderId = ((repo.getLineage id).map Lineage.rootOrderId).or row.rootOrderId := by
  rw [OrdersRepo.upsertOpenOrder, OrdersRepo.getOrder, KeyedList.find?_set] at h
  cases hl : repo.getLineage row.orderId <;> simp only [hl] at h <;> split at h
  · next heq =>
      obtain rfl := Option.some.inj h
      exact .inr ⟨heq, rfl, by rw [heq, hl]; rfl, by rw [heq, hl]; rfl⟩
  · exact .inl h
  · next heq =>
      obtain rfl := Option.some.inj h
      exact .inr ⟨heq, rfl, by rw [heq, hl]; rfl, by rw [heq, hl]; rfl⟩
  · exact .inl h

/-- A row found after a spend was recorded. -/
theorem getOrder_markSpent {id id' : Str} {status : SpentStatus} {txHash : Option Str}
    {slot : Option ℕ} {row' : Order}
    (h : (repo.markSpent id status txHash slot).getOrder id' = some row') :
    ∃ row, repo.getOrder id' = some row ∧ row'.bare = row.bare ∧
      row'.parentOrderId = row.parentOrderId ∧ row'.rootOrderId = row.rootOrderId := by
  unfold OrdersRepo.markSpent at h
  cases hrow : repo.getOrder id with
  | none =>
      rw [hrow] at h
      exact ⟨row', h, rfl, rfl, rfl⟩
  | some row =>
      rw [hrow] at h
      simp only [OrdersRepo.getOrder, KeyedList.find?_set] at h
      split at h
      · next heq =>
          obtain rfl := Option.some.inj h
          rw [OrdersRepo.orderId_of_getOrder hrow] at heq
          exact ⟨row, heq ▸ hrow, rfl, rfl, rfl⟩
      · exact ⟨row', h, rfl, rfl, rfl⟩

/-- A row found after a lineage was recorded. -/
theorem getOrder_setLineage {child parent root id : Str} {row' : Order}
    (h : (repo.setLineage child parent root).getOrder id = some row') :
    ∃ row, repo.getOrder id = some row ∧ row'.bare = row.bare ∧
      row'.parentOrderId = (if id = child then some parent else row.parentOrderId) ∧
      row'.rootOrderId = if id = child then some root else row.rootOrderId := by
  unfold OrdersRepo.setLineage at h
  cases hrow : repo.getOrder child with
  | none =>
      rw [hrow] at h
      have hne : id ≠ child := by
        rintro rfl
        exact Option.some_ne_none _ (h.symm.trans hrow)
      exact ⟨row', h, rfl, (if_neg hne).symm, (if_neg hne).symm⟩
  | some row =>
      have hid := OrdersRepo.orderId_of_getOrder hrow
      rw [hrow] at h
      simp only [OrdersRepo.getOrder, KeyedList.find?_set] at h
      split at h
      · next heq =>
          obtain rfl := Option.some.inj h
          rw [hid] at heq
          exact ⟨row, heq ▸ hrow, rfl, (if_pos heq).symm, (if_pos heq).symm⟩
      · next hne =>
          rw [hid] at hne
          exact ⟨row', h, rfl, (if_neg hne).symm, (if_neg hne).symm⟩

/-- A row is genuine whatever was recorded of it. -/
theorem Genuine.of_bare {row row' : Order} (h : Genuine mesh opts history row)
    (hbare : row'.bare = row.bare) : Genuine mesh opts history row' := by
  obtain ⟨u, hu, hrow⟩ := h
  have href : row'.ref = row.ref := (congrArg Order.ref hbare :)
  exact ⟨u, href ▸ hu, hbare ▸ hrow⟩

namespace StatusSound

/-- An empty cache says nothing that is false. -/
theorem empty : StatusSound mesh opts history .empty where
  rows id row h := by cases h
  spends ref status txHash _ h := by cases h

/-- The cursor is not part of what it says. -/
theorem setCursor (h : StatusSound mesh opts history repo) (slot : ℕ) :
    StatusSound mesh opts history (repo.setCursor slot) :=
  ⟨h.rows, h.spends⟩

/-- Caching an order. -/
theorem upsertOpenOrder (h : StatusSound mesh opts history repo) {row : Order}
    (hrow : Genuine mesh opts history row) :
    StatusSound mesh opts history (repo.upsertOpenOrder row) where
  rows id row' h' := by
    obtain hold | ⟨-, hbare, -⟩ := getOrder_upsertOpenOrder h'
    · exact h.rows id row' hold
    · exact hrow.of_bare hbare
  spends ref status txHash hknown h' := by
    rw [OrdersRepo.spendOf_upsertOpenOrder] at h'
    split at h'
    · exact absurd (congrArg Prod.fst (Option.some.inj h')).symm status.toOrderStatus_ne_opened
    · exact h.spends ref status txHash hknown h'

/-- Recording a spend that happened, or an unknown one. -/
theorem markSpent (h : StatusSound mesh opts history repo) {ref : OutRef} {status : SpentStatus}
    {txHash : Option Str} {slot : Option ℕ}
    (hspend : status ≠ .unknown → SpendTrue history ref status txHash) :
    StatusSound mesh opts history (repo.markSpent (orderIdOf ref) status txHash slot) where
  rows id row' h' := by
    obtain ⟨row, hrow, hbare, -⟩ := getOrder_markSpent h'
    exact (h.rows id row hrow).of_bare hbare
  spends ref' status' txHash' hknown h' := by
    rw [OrdersRepo.spendOf_markSpent] at h'
    split at h'
    · next heq =>
        obtain rfl := orderIdOf_injective heq
        obtain ⟨⟨old, oldTx⟩, -, hpair⟩ := Option.map_eq_some_iff.mp h'
        obtain rfl := SpentStatus.toOrderStatus_injective (congrArg Prod.fst hpair)
        obtain rfl := (congrArg Prod.snd hpair : txHash.or oldTx = txHash')
        obtain ⟨c, hc, tx, hspent, rfl⟩ := hspend hknown
        exact ⟨c, hc, tx, hspent, rfl⟩
    · exact h.spends ref' status' txHash' hknown h'

/-- Recording a lineage, whatever it says. -/
theorem setLineage (h : StatusSound mesh opts history repo) (child parent root : Str) :
    StatusSound mesh opts history (repo.setLineage child parent root) where
  rows id row' h' := by
    obtain ⟨row, hrow, hbare, -⟩ := getOrder_setLineage h'
    exact (h.rows id row hrow).of_bare hbare
  spends ref status txHash hknown h' := by
    rw [OrdersRepo.spendOf_setLineage] at h'
    exact h.spends ref status txHash hknown h'

/-- A mapped order is cached, at whatever slot. -/
theorem cached (h : StatusSound mesh opts history repo) {u : UTxO} {row : Order}
    (hu : history.Created u.input u) (hrow : validateAndMap mesh opts u = some row) (slot : ℕ) :
    StatusSound mesh opts history (repo.upsertOpenOrder { row with createdAtSlot := some slot }) :=
  h.upsertOpenOrder ((genuine_of_validateAndMap hu hrow).of_bare rfl)

end StatusSound

/-!
## Honest answers

What can be read off answers that are true as far as they go.
-/

/-- An output as it is reported, perhaps without its spender. -/
structure ReportsOf (reported truth : TxOutput) : Prop where
  address : reported.address = truth.address
  amount : reported.amount = truth.amount
  outputIndex : reported.outputIndex = truth.outputIndex
  consumedByTx : ∀ tx, reported.consumedByTx = some tx → truth.consumedByTx = some tx

/-- **What the provider answers is so**, as far as it goes: an output that is returned is
as it is said to be, spenders may be missing in a transaction's outputs, and redeemers may
be missing from a list. -/
structure Honest (p : ChainProvider) (c : ChainState) : Prop where
  getUtxo : ∀ ref u, p.getUtxo ref = .ok (some u) → c.liveUtxo ref = some u
  getTxOutput : ∀ ref u, p.getTxOutput ref = .ok (some u) → c.utxoAt ref = some u
  getTxUtxos : ∀ hash answer, p.getTxUtxos hash = .ok (some answer) →
    ∃ tx, c.txAt hash = some tx ∧ answer.inputs = tx.inputs ∧
      List.Forall₂ ReportsOf answer.outputs (tx.outputs.mapIdx (c.report hash))
  getSpendRedeemers : ∀ hash answer, p.getSpendRedeemers hash = .ok answer →
    ∀ r ∈ answer, r ∈ c.spendRedeemers hash

/-- A provider that tells the truth is honest; the converse fails, as an honest one may
leave things out. -/
theorem Truthful.honest (hp : Truthful p c) : Honest p c where
  getUtxo ref u h := (hp.getUtxo _ _ h).symm
  getTxOutput ref u h := (hp.getTxOutput _ _ h).symm
  getTxUtxos hash answer h := by
    obtain ⟨tx, htx, rfl⟩ := Option.map_eq_some_iff.mp (hp.getTxUtxos _ _ h).symm
    exact ⟨tx, htx, rfl, List.forall₂_same.mpr fun _ _ => ⟨rfl, rfl, rfl, fun _ h => h⟩⟩
  getSpendRedeemers hash answer h r hr := hp.getSpendRedeemers _ _ h ▸ hr

/-- What an honest provider returns as live was created. -/
theorem Honest.sighted (hp : Honest p c) (hc : c ∈ history.chains)
    (hlisted : ∀ u, Lists p (orderBeaconUnit opts) u → history.Created u.input u) :
    Sighted opts history p where
  listed := hlisted
  live ref u hu := by
    have hlive := ChainState.liveUtxo_eq_some.mp (hp.getUtxo _ _ hu)
    refine ⟨c, hc, ?_⟩
    rw [ChainState.input_of_utxoAt hlive.2]
    exact hlive.2

/-- The spender reported of an output spent it. -/
theorem spender_of_consumedByTx (hp : Honest p c) (ref : OutRef) {created : Option TxUtxos}
    {spendTx : Str} (hcreated : p.getTxUtxos ref.txHash = .ok created)
    (h : (created.bind fun tx => tx.outputs[ref.outputIndex]?).bind TxOutput.consumedByTx =
      some spendTx) :
    (c.outputAt ref).isSome ∧ ∃ tx, c.spender ref = some tx ∧ tx.hash = spendTx := by
  obtain ⟨out, hout, hspent⟩ := Option.bind_eq_some_iff.mp h
  obtain ⟨answer, rfl, hat⟩ := Option.bind_eq_some_iff.mp hout
  obtain ⟨tx, htx, -, houtputs⟩ := hp.getTxUtxos _ _ hcreated
  obtain ⟨truth, htruth, hreported⟩ := exists_of_getElem?_left houtputs hat
  have hconsumed := c.consumedByTx_txUtxos ref
  have hreport : (c.txUtxos ref.txHash).bind (fun tx => tx.outputs[ref.outputIndex]?) =
      some truth := by
    rw [ChainState.txUtxos, htx]
    exact htruth
  rw [hreport, Option.bind_some, hreported.consumedByTx _ hspent] at hconsumed
  split at hconsumed
  · next hout =>
      obtain ⟨spender, hspender, hhash⟩ := Option.map_eq_some_iff.mp hconsumed.symm
      exact ⟨hout, spender, hspender, hhash⟩
  · cases hconsumed

variable (opts) in
theorem classifyRedeemer_spent (spendTx : Str) (consuming : TxUtxos)
    (redeemers : List SpendRedeemer) (idx : ℕ) (entry : SpendRedeemer) :
    (classifyRedeemer opts spendTx consuming redeemers idx entry).status =
        statusOfConstructor entry.constructor ∧
      (classifyRedeemer opts spendTx consuming redeemers idx entry).txHash = some spendTx := by
  obtain ⟨i, hash, k⟩ := entry
  unfold classifyRedeemer statusOfConstructor
  rcases k with _ | _ | _ | k <;> exact ⟨rfl, rfl⟩

/-- **A status other than unknown is how the order was spent.** -/
theorem spentAs_of_classifySpend (hp : Honest p c) {order : Order}
    (hknown : (classifySpend opts p order).status ≠ .unknown) :
    ∃ tx, SpentAs c order.ref tx (classifySpend opts p order).status ∧
      (classifySpend opts p order).txHash = some tx.hash := by
  unfold classifySpend at hknown ⊢
  cases hspend : tryClassifySpend opts p order with
  | error e =>
      rw [hspend] at hknown
      exact absurd rfl hknown
  | ok spend =>
      rw [hspend] at hknown
      dsimp only at hknown ⊢
      obtain ⟨created, hcreated, h⟩ := bind_eq_ok.mp hspend
      dsimp only at h
      split at h
      · obtain rfl := Except.ok.inj h
        exact absurd rfl hknown
      next spendTx hconsumed =>
      obtain ⟨hout, tx, hspender, rfl⟩ :=
        spender_of_consumedByTx hp order.ref hcreated hconsumed
      obtain ⟨answer, hanswer, h⟩ := bind_eq_ok.mp h
      obtain ⟨redeemers, hredeemers, h⟩ := bind_eq_ok.mp h
      split at h
      · obtain rfl := Except.ok.inj h
        exact absurd rfl hknown
      next _ consuming _ =>
      split at h
      · obtain rfl := Except.ok.inj h
        exact absurd rfl hknown
      next idx hidx =>
      split at h
      · obtain rfl := Except.ok.inj h
        exact absurd rfl hknown
      next entry hfind =>
      obtain rfl := Except.ok.inj h
      have htx : c.txAt tx.hash = some tx :=
        ChainState.txAt_eq_some.mpr ⟨(ChainState.spender_eq_some.mp hspender).1, rfl⟩
      obtain ⟨tx', htx', hinputs, -⟩ := hp.getTxUtxos _ _ hanswer
      obtain rfl := Option.some.inj (htx.symm.trans htx')
      have hentry := hp.getSpendRedeemers _ _ hredeemers entry (List.mem_of_find?_eq_some hfind)
      rw [ChainState.spendRedeemers, htx] at hentry
      have hposition : entry.txIndex = idx := by simpa using List.find?_some hfind
      obtain ⟨hstatus, hspendTx⟩ := classifyRedeemer_spent opts tx.hash consuming redeemers idx entry
      exact ⟨tx, ⟨hout, hspender, idx, hinputs ▸ hidx, entry, hentry, hposition, hstatus.symm⟩,
        hspendTx⟩

/-! ## Backfilling -/

/-- A link the climb collects: its parent is as it is mapped, and was partially filled
by the link's transaction. -/
structure LinkSpent (mesh : Mesh) (opts : IndexerOptions) (c : ChainState) (link : Link) :
    Prop where
  mapped : ∃ u, c.utxoAt u.input = some u ∧ validateAndMap mesh opts u = some link.parent
  spent : ∃ tx, SpentAs c link.parent.ref tx .partiallyFilled ∧ link.spendTx = tx.hash

/-- What a step up leads to. -/
theorem linkSpent_of_climbStep (hp : Honest p c) {node parent : Order}
    (h : climbStep mesh opts p repo node = .ok (.parent parent)) :
    LinkSpent mesh opts c ⟨node, parent, node.txHash⟩ := by
  obtain ⟨creatingTx, redeemers, input, u, hcreating, hredeemers, hinput, hparent, hvalid⟩ :=
    climbStep_eq_parent h
  have hu := hp.getTxOutput _ _ hparent
  have huinput := ChainState.input_of_utxoAt hu
  have href : parent.ref = input := (validateAndMap_eq_some hvalid).1.trans huinput
  refine ⟨⟨u, by rwa [huinput], hvalid⟩, ?_⟩
  obtain ⟨tx, hat, hinputs, -⟩ := hp.getTxUtxos _ _ hcreating
  -- the input is at the position of a partial redeemer
  obtain ⟨rank, -, hrank⟩ := Option.bind_eq_some_iff.mp hinput
  obtain ⟨idx, hidx, hposition⟩ := Option.bind_eq_some_iff.mp hrank
  have hmem := (List.mem_insertionSort _).mp (List.mem_of_getElem? hidx)
  obtain ⟨entry, hentry, rfl⟩ := List.mem_map.mp hmem
  obtain ⟨hentry, hpartial⟩ := List.mem_filter.mp hentry
  have hredeemer := hp.getSpendRedeemers _ _ hredeemers entry hentry
  rw [ChainState.spendRedeemers, hat] at hredeemer
  rw [hinputs] at hposition
  obtain ⟨hmem, hhash⟩ := ChainState.txAt_eq_some.mp hat
  obtain ⟨out, hout, -⟩ := Option.map_eq_some_iff.mp hu
  refine ⟨tx, ⟨?_, ?_, entry.txIndex, ?_, entry, hredeemer, rfl, ?_⟩, hhash.symm⟩
  · rw [href, hout]
    rfl
  · rw [href]
    exact ChainState.spender_eq_some.mpr ⟨hmem, List.mem_of_getElem? hposition⟩
  · rw [href]
    exact idxOf?_of_nodup (ChainState.inputs_nodup_of_mem hmem) hposition
  · have hconstructor : entry.constructor = 2 := (of_decide_eq_true hpartial).2
    rw [hconstructor]
    rfl

/-- The whole climb. -/
theorem linkSpent_of_climb (hp : Honest p c) {depth : ℕ} {node : Order} {chain chain' : List Link}
    {rootId : Option Str} (hclimb : climb mesh opts p repo depth node chain = .ok (chain', rootId))
    (hchain : ∀ l ∈ chain, LinkSpent mesh opts c l) : ∀ l ∈ chain', LinkSpent mesh opts c l := by
  induction depth generalizing node chain with
  | zero =>
      obtain ⟨rfl, -⟩ := Prod.mk.inj (Except.ok.inj hclimb)
      exact hchain
  | succ depth ih =>
      obtain ⟨climbed, hstep, hclimb⟩ := bind_eq_ok.mp hclimb
      cases climbed with
      | root rootId' =>
          obtain ⟨rfl, -⟩ := Prod.mk.inj (Except.ok.inj hclimb)
          exact hchain
      | parent parent =>
          refine ih hclimb fun l hl => ?_
          obtain hmem | rfl := List.mem_append.mp hl |>.imp_right List.mem_singleton.mp
          · exact hchain l hmem
          · exact linkSpent_of_climbStep hp hstep

namespace StatusSound

/-- A line of fills that was climbed from honest answers is one that happened. -/
theorem backfillAncestry (h : StatusSound mesh opts history repo) (hp : Honest p c)
    (hc : c ∈ history.chains) (order : Order) (tipSlot : ℕ) :
    StatusSound mesh opts history (backfillAncestry mesh opts p repo order tipSlot) := by
  unfold Backend.backfillAncestry
  split
  · next chain rootId hclimb =>
      have hlinks := linkSpent_of_climb hp hclimb (by simp)
      refine List.foldlRecOn _ _ h fun repo hrepo link hmem => ?_
      obtain ⟨⟨u, hu, hrow⟩, tx, hspent, htx⟩ := hlinks link (List.mem_reverse.mp hmem)
      rw [writeLink, link.parent.orderId_eq_ref]
      refine ((hrepo.cached ⟨c, hc, hu⟩ hrow tipSlot).markSpent fun _ => ?_).setLineage _ _ _
      exact ⟨c, hc, tx, hspent, congrArg some htx⟩
  · exact h

/-- **With an honest provider every write keeps the rows and the spends right.** -/
theorem upkeep (hp : Honest p c) (hc : c ∈ history.chains) (hsighted : Sighted opts history p) :
    Upkeep mesh opts history p (StatusSound mesh opts history) where
  sighted := hsighted
  setCursor h := h.setCursor
  cached h _ _ hu hrow := h.cached hu hrow
  backfilled h := h.backfillAncestry hp hc
  retired h cached := by
    rw [cached.orderId_eq_ref]
    refine h.markSpent fun hknown => ?_
    obtain ⟨tx, hspent, htx⟩ := spentAs_of_classifySpend hp hknown
    exact ⟨c, hc, tx, hspent, htx⟩
  linked h _ _ _ := h.setLineage _ _ _

end StatusSound

end Statuses

end BeaconDex.Backend
