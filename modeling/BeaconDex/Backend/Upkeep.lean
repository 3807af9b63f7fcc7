import BeaconDex.Backend.Ancestry

/-!
# What the indexer writes

A pass of `OrderIndexer` and a run of `repairLineage` change the cache through a
handful of writes: an order is cached as it was mapped, a spend is recorded as it
was classified, a continuation is linked, a line of fills is backfilled.
`Upkeep.doSync` and `Upkeep.repairLineage` are the rules for both: what those
writes keep, they keep, however they end.

## Writes and what they rest on

Each write comes with the evidence it was made on: a report that was validated, an
answer about a spender, a climb.  A property of the cache is shown to be kept by giving
one proof for each kind of write, from its evidence, and no proof about the cache
follows the loops again.
-/

namespace BeaconDex.Backend

open Library

/-!
## Histories

The states an indexer may see over its lifetime.  They need not follow each other, as a
chain may be rolled back; what they share is that a hash names one transaction.
-/

/-- The states of one chain over time, with its forks: a fork may drop transactions and
bring them back, but a hash never names two different ones. -/
structure History where
  chains : Set ChainState
  /-- A hash names one transaction. -/
  content : ∀ c ∈ chains, ∀ c' ∈ chains, ∀ tx ∈ c.txs.entries, ∀ tx' ∈ c'.txs.entries,
    tx.hash = tx'.hash → tx = tx'

namespace History

variable {history : History} {opts : IndexerOptions} {ref parent parent' child : OutRef} {u u' : UTxO}

/-- The output `u` was created at `ref`. -/
def Created (history : History) (ref : OutRef) (u : UTxO) : Prop :=
  ∃ c ∈ history.chains, c.utxoAt ref = some u

/-- `child` continues `parent`, on one of the chains. -/
def Fills (history : History) (opts : IndexerOptions) (parent child : OutRef) : Prop :=
  ∃ c ∈ history.chains, Continues opts c parent child

/-- A reference was created as one output, in all states of a history. -/
theorem Created.unique (h : history.Created ref u) (h' : history.Created ref u') : u = u' := by
  obtain ⟨c, hc, hu⟩ := h
  obtain ⟨c', hc', hu'⟩ := h'
  obtain ⟨out, hout, rfl⟩ := Option.map_eq_some_iff.mp hu
  obtain ⟨out', hout', rfl⟩ := Option.map_eq_some_iff.mp hu'
  obtain ⟨tx, htx, hat⟩ := Option.bind_eq_some_iff.mp hout
  obtain ⟨tx', htx', hat'⟩ := Option.bind_eq_some_iff.mp hout'
  obtain ⟨hmem, hhash⟩ := ChainState.txAt_eq_some.mp htx
  obtain ⟨hmem', hhash'⟩ := ChainState.txAt_eq_some.mp htx'
  obtain rfl := history.content c hc c' hc' tx hmem tx' hmem' (hhash.trans hhash'.symm)
  rw [Option.some.inj (hat.symm.trans hat')]

/-- The order an output continues is the same on every chain that has it. -/
theorem Fills.left_unique (h : history.Fills opts parent child)
    (h' : history.Fills opts parent' child) : parent = parent' := by
  obtain ⟨c, hc, tx, idx, hfill⟩ := h
  obtain ⟨c', hc', tx', idx', hfill'⟩ := h'
  obtain rfl := history.content c hc c' hc' tx (ChainState.spender_eq_some.mp hfill.spender).1 tx'
    (ChainState.spender_eq_some.mp hfill'.spender).1 (hfill.hash.symm.trans hfill'.hash)
  obtain rfl := hfill.pinned.left_unique (continuationIdxs_nodup tx) hfill'.pinned
  exact idxOf?_inj hfill.inputIdx hfill'.inputIdx

end History

/-! ## Repairing lineages -/

/-- What `repairLineage` has done so far. -/
structure Repair where
  repo : OrdersRepo
  checked : ℕ
  repaired : ℕ

section Repair

variable (mesh : Mesh) (opts : IndexerOptions) (p : ChainProvider)

/-- One order: it is retried when it may be a continuation and nothing is recorded
of it. -/
def repairOne (tipSlot : ℕ) (done : Repair) (orderId : Str) : Repair :=
  match done.repo.getOrder orderId with
  | none => done
  | some order =>
      if ¬order.allowPartialFill then done
      else if (done.repo.getLineage orderId).isSome then done
      else
        let repo := backfillAncestry mesh opts p done.repo order tipSlot
        ⟨repo, done.checked + 1,
          if (repo.getLineage orderId).isSome then done.repaired + 1 else done.repaired⟩

/-- **`repairLineage`** over the orders open when it begins.  Only the first call
can throw. -/
def repairLineage (repo : OrdersRepo) : Except Failure Repair := do
  let tip ← p.getTip
  return repo.listOpenOrderIds.foldl (repairOne mesh opts p tip.slot) ⟨repo, 0, 0⟩

end Repair

/-!
## The writes

One rule for each function of the indexer, by the loops it consists of.
-/

section Writes

variable {mesh : Mesh} {opts : IndexerOptions} {p : ChainProvider} {history : History}
variable {I : OrdersRepo → Prop} {repo : OrdersRepo} {pass : Pass} {tip : ChainTip}

/-- What the provider lists, and what it returns as live, was created. -/
structure Sighted (opts : IndexerOptions) (history : History) (p : ChainProvider) : Prop where
  listed : ∀ u, Lists p (orderBeaconUnit opts) u → history.Created u.input u
  live : ∀ ref u, p.getUtxo ref = .ok (some u) → history.Created u.input u

/-- **`I` is kept by every write** that the answers of `p` lead to: caching what was
mapped from a created output, recording a spend as it was classified, linking a
continuation to its parent, backfilling, and moving the cursor. -/
structure Upkeep (mesh : Mesh) (opts : IndexerOptions) (history : History) (p : ChainProvider)
    (I : OrdersRepo → Prop) : Prop where
  sighted : Sighted opts history p
  setCursor : ∀ {repo}, I repo → ∀ slot, I (repo.setCursor slot)
  cached : ∀ {repo}, I repo → ∀ {u row}, history.Created u.input u →
    validateAndMap mesh opts u = some row → ∀ slot : ℕ,
      I (repo.upsertOpenOrder { row with createdAtSlot := some slot })
  backfilled : ∀ {repo}, I repo → ∀ order tipSlot, I (backfillAncestry mesh opts p repo order tipSlot)
  retired : ∀ {repo}, I repo → ∀ cached : Order,
    I (repo.markSpent cached.orderId (classifySpend opts p cached).status
      (classifySpend opts p cached).txHash none)
  linked : ∀ {repo}, I repo → ∀ {cached childOrderId},
    (classifySpend opts p cached).childOrderId = some childOrderId →
      I (repo.setLineage childOrderId cached.orderId
        (match repo.getLineage cached.orderId with
        | some parent => parent.rootOrderId
        | none => cached.orderId))

namespace Upkeep

/-- What the writes keep, the discovery of one output keeps, -/
theorem discover (h : Upkeep mesh opts history p I) (hpass : I pass.repo) {utxo : UTxO}
    (hu : Lists p (orderBeaconUnit opts) utxo) :
    I (discover mesh opts p tip utxo pass).state.repo := by
  obtain hsame | ⟨row, order, hrow, rfl, hwritten | hwritten⟩ :=
    repo_discover mesh opts p tip pass utxo
  · rwa [hsame]
  · rw [hwritten]
    exact h.cached hpass (h.sighted.listed utxo hu) hrow tip.slot
  · rw [hwritten]
    exact h.backfilled (h.cached hpass (h.sighted.listed utxo hu) hrow tip.slot) _ _

/-- the whole discovery, -/
theorem discovery (h : Upkeep mesh opts history p I) (hrepo : I repo) :
    I (discovery mesh opts p tip repo).state.repo := by
  let Inv : Pass → Prop := fun pass => I pass.repo
  refine Attempt.query_keeps (I := Inv) hrepo fun holders hholders => ?_
  refine forEach_keeps (I := Inv) (fun address haddress pass hpass => ?_) hrepo
  refine Attempt.query_keeps (I := Inv) hpass fun utxos hutxos => ?_
  refine forEach_keeps (I := Inv) (fun utxo hutxo pass hpass => ?_) hpass
  exact h.discover hpass ⟨holders, hholders, address, haddress, utxos, hutxos, hutxo⟩

/-- the surfacing of a continuation, -/
theorem surface (h : Upkeep mesh opts history p I) (hpass : I pass.repo) (childOrderId : Str) :
    I (surface mesh opts p tip childOrderId pass).state.repo := by
  obtain hsame | ⟨ref, utxo, row, -, -, hutxo, hrow, hstate⟩ :=
    state_surface mesh opts p tip pass childOrderId
  · rwa [hsame]
  · rw [hstate]
    exact h.cached hpass (h.sighted.live ref utxo hutxo) hrow tip.slot

/-- and the retirement of one row. -/
theorem retire (h : Upkeep mesh opts history p I) (hpass : I pass.repo) (orderId : Str) :
    I (retire mesh opts p tip orderId pass).state.repo := by
  unfold Backend.retire
  split
  · exact hpass
  split
  · exact hpass
  next cached hcached =>
  obtain rfl := OrdersRepo.orderId_of_getOrder hcached
  have hmarked := h.retired hpass cached
  dsimp only
  split
  · exact hmarked
  · next childOrderId hchild => exact h.surface (h.linked hmarked hchild) childOrderId

/-- **A pass** keeps what its writes keep, completed or thrown out of. -/
theorem doSync (h : Upkeep mesh opts history p I) (hrepo : I repo) :
    I (doSync mesh opts p repo).state.repo := by
  let Inv : Pass → Prop := fun pass => I pass.repo
  refine Attempt.query_keeps (I := Inv) hrepo fun tip _ => ?_
  refine Attempt.andThen_keeps (I := Inv) (Attempt.andThen_keeps (I := Inv) (h.discovery hrepo) ?_)
    fun pass hpass => h.setCursor hpass tip.slot
  intro pass hpass
  exact forEach_keeps (I := Inv) (fun id _ pass hpass => h.retire hpass id) hpass

/-- …and so does a repair. -/
theorem repairLineage (h : Upkeep mesh opts history p I) (hrepo : I repo) {done : Repair}
    (hdone : repairLineage mesh opts p repo = .ok done) : I done.repo := by
  obtain ⟨tip, -, hdone⟩ := bind_eq_ok.mp hdone
  obtain rfl := Except.ok.inj hdone
  refine List.foldlRecOn _ _ (motive := fun (done : Repair) => I done.repo) hrepo
    fun done hdone id _ => ?_
  unfold repairOne
  split
  · exact hdone
  split
  · exact hdone
  split
  · exact hdone
  · exact h.backfilled hdone _ _

end Upkeep

end Writes

end BeaconDex.Backend
