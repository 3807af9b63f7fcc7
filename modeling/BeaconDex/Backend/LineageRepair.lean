import BeaconDex.Backend.CacheSoundness
import BeaconDex.Backend.OpenBook

/-!
# Repairing lineages

`repairLineage` retries `backfillAncestry` for every open order that may be a
continuation and has nothing recorded of it.  `CacheSound` says that what it writes
is true; here it is shown to write enough.  After one repair every open
continuation within reach of the climb is linked (`repairLineage_complete`), and
another repair finds nothing more to do.

## Complete, and only once

A repair reads the cache while it writes to it, and what it writes for one row may be
about another one of its list.  The rows that are left to be repaired only become fewer,
which is why the result of the whole loop is the sum of its turns and a second repair
has nothing to write.
-/

namespace BeaconDex.Backend

open Library

section

variable {mesh : Mesh} {opts : IndexerOptions} {p : ChainProvider} {c : ChainState}
variable {history : History} {repo : OrdersRepo} {node order : Order} {ancestors : List Order}
variable {tipSlot : ℕ} {done : Repair} {id : Str}

/-!
## One backfill

What a climb that succeeds has written, for the order it was begun at.
-/

variable (repo) in
/-- The climb along a line that may be linked in part: it stops at the first linked
order, and an unlinked order is not passed over. -/
theorem exists_climb_of_descent (hp : Faithful p c) (h : Descent mesh opts c ancestors node)
    {depth : ℕ} (hdepth : ancestors.length < depth) (chain : List Link) :
    ∃ k rootId, climb mesh opts p repo depth node chain =
        .ok (chain ++ (fillsOf node ancestors).take k, some rootId) ∧
      (repo.getLineage node.orderId = none → 0 < k) := by
  induction h generalizing depth chain with
  | @created root hroot =>
      obtain ⟨depth, rfl⟩ : ∃ n, depth = n + 1 := ⟨depth - 1, by omega⟩
      refine ⟨1, ?_⟩
      cases hlineage : repo.getLineage root.orderId with
      | some existing =>
          exact ⟨existing.rootOrderId, by
            simp [climb, climbStep, hlineage, fillsOf, bind, Except.bind, pure, Except.pure],
            fun _ => one_pos⟩
      | none =>
          have hstep : climbStep mesh opts p repo root = .ok (.root root.orderId) := by
            refine (climbStep_of_unlinked hp hlineage).resolve_right ?_
            rintro ⟨parent, hparent⟩
            exact hroot _ (continues_of_climbStep hp.truthful hparent)
          exact ⟨root.orderId, by
            simp [climb, hstep, fillsOf, bind, Except.bind, pure, Except.pure], fun _ => one_pos⟩
  | @fill ancestors parent child line row next ih =>
      obtain ⟨depth, rfl⟩ : ∃ n, depth = n + 1 := ⟨depth - 1, by omega⟩
      cases hlineage : repo.getLineage child.orderId with
      | some existing =>
          exact ⟨0, existing.rootOrderId, by
            simp [climb, climbStep, hlineage, bind, Except.bind, pure, Except.pure],
            fun hnone => by cases hnone⟩
      | none =>
          have hstep : climbStep mesh opts p repo child = .ok (.parent parent) := by
            rw [climbStep_of_continues hp hlineage next, row]
          obtain ⟨k, rootId, hclimb, -⟩ := ih (Nat.lt_of_succ_lt_succ hdepth)
            (chain ++ [⟨child, parent, child.txHash⟩])
          refine ⟨k + 1, rootId, ?_, fun _ => k.succ_pos⟩
          rw [climb, hstep, fillsOf, List.take_succ_cons]
          refine hclimb.trans ?_
          rw [List.append_assoc, List.singleton_append]

/-- Links are written over, not removed, and each write leaves its child linked. -/
theorem isSome_getLineage_writeLinks {rootId : Str} {links : List Link}
    (h : (repo.getLineage id).isSome ∨ ∃ l ∈ links, l.child.orderId = id) :
    ((links.foldl (writeLink tipSlot rootId) repo).getLineage id).isSome := by
  induction links generalizing repo with
  | nil => exact h.resolve_right (by simp)
  | cons link links ih =>
      refine ih ?_
      rw [getLineage_writeLink]
      split
      · exact .inl rfl
      · next hne =>
          obtain hsome | ⟨l, hl, hchild⟩ := h
          · exact .inl hsome
          · obtain rfl | hl := List.mem_cons.mp hl
            · exact absurd hchild.symm hne
            · exact .inr ⟨l, hl, hchild⟩

/-- A row that is linked stays linked. -/
theorem isSome_getLineage_backfillAncestry (h : (repo.getLineage id).isSome) :
    ((backfillAncestry mesh opts p repo order tipSlot).getLineage id).isSome := by
  unfold backfillAncestry
  split
  · exact isSome_getLineage_writeLinks (.inl h)
  · exact h

/-- **A backfill links a continuation** whose line is short enough. -/
theorem backfillAncestry_links (hp : Faithful p c) {parent : Order}
    (h : Descent mesh opts c (parent :: ancestors) order) (hshort : ancestors.length + 1 < 64)
    (hlineage : repo.getLineage order.orderId = none) :
    ((backfillAncestry mesh opts p repo order tipSlot).getLineage order.orderId).isSome := by
  obtain ⟨k, rootId, hclimb, hpos⟩ := exists_climb_of_descent repo hp h hshort []
  obtain ⟨k, rfl⟩ : ∃ n, k = n + 1 := ⟨k - 1, by have := hpos hlineage; omega⟩
  rw [backfillAncestry, hclimb]
  refine isSome_getLineage_writeLinks (.inr ⟨⟨order, parent, order.txHash⟩, ?_, rfl⟩)
  rw [List.mem_reverse, List.nil_append, fillsOf, List.take_succ_cons]
  exact List.mem_cons_self

/-- …and leaves a created order alone. -/
theorem backfillAncestry_created (hp : Faithful p c) (h : Descent mesh opts c [] order) :
    backfillAncestry mesh opts p repo order tipSlot = repo := by
  obtain ⟨k, rootId, hclimb, -⟩ :=
    exists_climb_of_descent repo hp h (show [].length < 64 by decide) []
  rw [backfillAncestry, hclimb]
  simp [fillsOf]

/-!
## The rows repaired

The loop over the rows that are open and not linked.
-/

/-- A line leads to an output, whatever row it has. -/
theorem Descent.of_ref {order' : Order} (h : Descent mesh opts c ancestors order)
    (href : order'.ref = order.ref) : Descent mesh opts c ancestors order' := by
  cases h with
  | created hroot => exact .created fun parent => href ▸ hroot parent
  | fill line row next => exact .fill line row (href ▸ next)

/-- Two sound caches agree on a row, but for what is recorded of it. -/
theorem CacheSound.bare_unique {repo' : OrdersRepo} {row row' : Order}
    (h : CacheSound mesh opts history repo) (h' : CacheSound mesh opts history repo')
    (hrow : repo.getOrder id = some row) (hrow' : repo'.getOrder id = some row') :
    row'.bare = row.bare := by
  have href : row'.ref = row.ref := by
    apply orderIdOf_injective
    rw [← row.orderId_eq_ref, ← row'.orderId_eq_ref, OrdersRepo.orderId_of_getOrder hrow,
      OrdersRepo.orderId_of_getOrder hrow']
  obtain ⟨u, hu, hmapped⟩ := h.rows id row hrow
  obtain ⟨u', hu', hmapped'⟩ := h'.rows id row' hrow'
  obtain rfl := hu.unique (href ▸ hu')
  exact Option.some.inj (hmapped'.symm.trans hmapped)

/-- An order that may be filled, with the line of at most sixty-three fills behind
it. -/
def Reached (mesh : Mesh) (opts : IndexerOptions) (c : ChainState) (repo : OrdersRepo) (id : Str)
    (ancestors : List Order) : Prop :=
  ∃ row, repo.getOrder id = some row ∧ row.allowPartialFill = true ∧
    Descent mesh opts c ancestors row ∧ ancestors.length < 64

/-- It is one in every sound cache that has it. -/
theorem Reached.transfer {repo' : OrdersRepo} (h : Reached mesh opts c repo id ancestors)
    (hsound : CacheSound mesh opts history repo) (hsound' : CacheSound mesh opts history repo')
    (hcached : (repo'.statusOf id).isSome) : Reached mesh opts c repo' id ancestors := by
  obtain ⟨row, hrow, hallowed, hline, hshort⟩ := h
  obtain ⟨status, hstatus⟩ := Option.isSome_iff_exists.mp hcached
  obtain ⟨row', hrow', -⟩ := OrdersRepo.statusOf_eq_some.mp hstatus
  have hbare := hsound.bare_unique hsound' hrow hrow'
  exact ⟨row', hrow', (congrArg Order.allowPartialFill hbare).trans hallowed,
    hline.of_ref (congrArg Order.ref hbare :), hshort⟩

/-- What holds between a cache and the cache after some repairs: it is still sound, no row
and no lineage is lost, and nothing was opened. -/
structure Mended (mesh : Mesh) (opts : IndexerOptions) (history : History)
    (repo repo' : OrdersRepo) : Prop where
  sound : CacheSound mesh opts history repo'
  kept : ∀ id, (repo.statusOf id).isSome → (repo'.statusOf id).isSome
  linked : ∀ id, (repo.getLineage id).isSome → (repo'.getLineage id).isSome
  opened : ∀ id, repo'.IsOpen id → repo.IsOpen id

/-- What is mended in two goes is mended. -/
theorem Mended.trans {repo' repo'' : OrdersRepo} (h : Mended mesh opts history repo repo')
    (h' : Mended mesh opts history repo' repo'') : Mended mesh opts history repo repo'' :=
  ⟨h'.sound, fun id hid => h'.kept id (h.kept id hid), fun id hid => h'.linked id (h.linked id hid),
    fun id hid => h.opened id (h'.opened id hid)⟩

variable (tipSlot) in
/-- **Step lemma.** -/
theorem mended_of_repairOne (hp : Truthful p c) (hc : c ∈ history.chains)
    (hsound : CacheSound mesh opts history done.repo) (id : Str) :
    Mended mesh opts history done.repo (repairOne mesh opts p tipSlot done id).repo := by
  have hsame : Mended mesh opts history done.repo done.repo :=
    ⟨hsound, fun _ h => h, fun _ h => h, fun _ h => h⟩
  unfold repairOne
  split
  · exact hsame
  split
  · exact hsame
  split
  · exact hsame
  next order _ _ _ =>
  obtain ⟨closed, -, hopen⟩ := isOpen_backfillAncestry mesh opts hp done.repo order tipSlot
  exact ⟨hsound.backfillAncestry hp hc order tipSlot, fun _ => isSome_statusOf_backfillAncestry,
    fun _ => isSome_getLineage_backfillAncestry, fun id hid => ((hopen id).mp hid).1⟩

variable (tipSlot done) in
/-- **Run lemma.** -/
theorem mended_of_repairs (hp : Truthful p c) (hc : c ∈ history.chains)
    (hsound : CacheSound mesh opts history done.repo) (ids : List Str) :
    Mended mesh opts history done.repo (ids.foldl (repairOne mesh opts p tipSlot) done).repo := by
  induction ids generalizing done with
  | nil => exact ⟨hsound, fun _ h => h, fun _ h => h, fun _ h => h⟩
  | cons id ids ih =>
      have hstep := mended_of_repairOne tipSlot hp hc hsound id
      exact hstep.trans (ih _ hstep.sound)

/-- The order whose turn it is gets linked, if it is a continuation. -/
theorem repairOne_links (hp : Faithful p c) {parent : Order}
    (hreached : Reached mesh opts c done.repo id (parent :: ancestors)) :
    ((repairOne mesh opts p tipSlot done id).repo.getLineage id).isSome := by
  obtain ⟨row, hrow, hallowed, hline, hshort⟩ := hreached
  obtain rfl := OrdersRepo.orderId_of_getOrder hrow
  simp only [repairOne, hrow, hallowed, not_true_eq_false, if_false]
  split
  · next hlinked => exact hlinked
  · next hunlinked =>
    exact backfillAncestry_links hp hline hshort (by simpa using hunlinked)

variable (tipSlot done) in
/-- Every continuation gets its turn. -/
theorem repairs_link (hp : Faithful p c) (hc : c ∈ history.chains)
    (hsound : CacheSound mesh opts history done.repo) {ids : List Str} {parent : Order}
    (hid : id ∈ ids) (hreached : Reached mesh opts c done.repo id (parent :: ancestors)) :
    ((ids.foldl (repairOne mesh opts p tipSlot) done).repo.getLineage id).isSome := by
  induction ids generalizing done with
  | nil => cases hid
  | cons first ids ih =>
      have hstep := mended_of_repairOne tipSlot hp.truthful hc hsound first
      obtain rfl | hid := List.mem_cons.mp hid
      · exact (mended_of_repairs tipSlot _ hp.truthful hc hstep.sound ids).linked _
          (repairOne_links hp hreached)
      · refine ih _ hstep.sound hid (hreached.transfer hsound hstep.sound (hstep.kept id ?_))
        obtain ⟨row, hrow, -⟩ := hreached
        exact Option.isSome_of_eq_some (OrdersRepo.statusOf_eq_some.mpr ⟨row, hrow, rfl⟩)

variable (tipSlot) in
/-- Where every open order that may be filled is created or linked, a repair does
nothing. -/
theorem repairs_idle (hp : Faithful p c) {ids : List Str}
    (hsettled : ∀ id ∈ ids, ∀ row, repo.getOrder id = some row → row.allowPartialFill = true →
      (repo.getLineage id).isSome ∨ Descent mesh opts c [] row) (checked : ℕ) :
    ∃ checked', ids.foldl (repairOne mesh opts p tipSlot) ⟨repo, checked, 0⟩ =
      ⟨repo, checked', 0⟩ := by
  induction ids generalizing checked with
  | nil => exact ⟨checked, rfl⟩
  | cons id ids ih =>
      obtain ⟨checked', hone⟩ : ∃ checked',
          repairOne mesh opts p tipSlot ⟨repo, checked, 0⟩ id = ⟨repo, checked', 0⟩ := by
        unfold repairOne
        split
        · exact ⟨_, rfl⟩
        · next row hrow =>
          split
          · exact ⟨_, rfl⟩
          · next hallowed =>
            split
            · exact ⟨_, rfl⟩
            · next hunlinked =>
              have hcreated := (hsettled id List.mem_cons_self row hrow
                (by simpa using hallowed)).resolve_left hunlinked
              rw [backfillAncestry_created hp hcreated]
              exact ⟨checked + 1, congrArg (Repair.mk repo (checked + 1)) (if_neg hunlinked)⟩
      rw [List.foldl_cons, hone]
      exact ih (fun id hid => hsettled id (List.mem_cons_of_mem _ hid)) checked'

/-- What a sound cache has recorded of a continuation. -/
theorem CacheSound.lineage_of_fills (h : CacheSound mesh opts history repo) {parent child : OutRef}
    (hfill : history.Fills opts parent child)
    (hlinked : (repo.getLineage (orderIdOf child)).isSome) :
    ∃ root, repo.getLineage (orderIdOf child) = some ⟨orderIdOf parent, orderIdOf root⟩ ∧
      Relation.ReflTransGen (history.Fills opts) root parent := by
  obtain ⟨l, hl⟩ := Option.isSome_iff_exists.mp hlinked
  obtain ⟨child', hchild, parent', root, rfl, hfill', hroot⟩ := h.lineages _ _ hl
  obtain rfl := orderIdOf_injective hchild
  obtain rfl := hfill'.left_unique hfill
  exact ⟨root, hl, hroot⟩

/-- After repairs that have linked what is reached, nothing is left to do. -/
theorem Mended.settled {repo' : OrdersRepo} (h : Mended mesh opts history repo repo')
    (hsound : CacheSound mesh opts history repo)
    (hlines : ∀ id row, repo.getOrder id = some row → row.status = .opened →
      row.allowPartialFill = true →
        ∃ ancestors, Descent mesh opts c ancestors row ∧ ancestors.length < 64)
    (hlinks : ∀ id ∈ repo.listOpenOrderIds, ∀ parent older,
      Reached mesh opts c repo id (parent :: older) → (repo'.getLineage id).isSome) :
    ∀ id ∈ repo'.listOpenOrderIds, ∀ row, repo'.getOrder id = some row →
      row.allowPartialFill = true →
        (repo'.getLineage id).isSome ∨ Descent mesh opts c [] row := by
  intro id hid row' hrow' hallowed'
  have hopen := h.opened id (OrdersRepo.mem_listOpenOrderIds.mp hid)
  obtain ⟨row, hrow, hstatus⟩ := OrdersRepo.statusOf_eq_some.mp hopen
  have hbare := hsound.bare_unique h.sound hrow hrow'
  have hallowed : row.allowPartialFill = true :=
    (congrArg Order.allowPartialFill hbare).symm.trans hallowed'
  obtain ⟨ancestors, hline, hshort⟩ := hlines id row hrow hstatus hallowed
  cases ancestors with
  | nil => exact .inr (hline.of_ref (congrArg Order.ref hbare :))
  | cons parent older =>
      exact .inl (hlinks id (OrdersRepo.mem_listOpenOrderIds.mpr hopen) parent older
        ⟨row, hrow, hallowed, hline, hshort⟩)

/-- **One repair is enough.**  Take a cache that any passes and repairs have led to, and
a provider that answers about a chain on which the open orders that may be filled
have at most sixty-three fills behind them.  The repair links each of them that is a
continuation to the order it continues, and a second one changes nothing. -/
theorem repairLineage_complete {observed : List (ChainProvider × ChainState)}
    (hrun : Run (Maintains mesh opts history) .empty observed repo) (hp : Faithful p c)
    (hc : c ∈ history.chains)
    (hlines : ∀ id row, repo.getOrder id = some row → row.status = .opened →
      row.allowPartialFill = true →
        ∃ ancestors, Descent mesh opts c ancestors row ∧ ancestors.length < 64) :
    ∃ done, repairLineage mesh opts p repo = .ok done ∧
      (∀ id row, repo.getOrder id = some row → row.status = .opened → row.allowPartialFill = true →
        ∀ parent, Continues opts c parent row.ref → ∃ root,
          done.repo.getLineage id = some ⟨orderIdOf parent, orderIdOf root⟩ ∧
            Relation.ReflTransGen (history.Fills opts) root parent) ∧
      ∃ checked, repairLineage mesh opts p done.repo = .ok ⟨done.repo, checked, 0⟩ := by
  have hsound : CacheSound mesh opts history repo := CacheSound.empty.run hrun
  have hrepair : ∀ repo, repairLineage mesh opts p repo =
      .ok (repo.listOpenOrderIds.foldl (repairOne mesh opts p c.tip.slot) ⟨repo, 0, 0⟩) := by
    intro repo
    rw [repairLineage, hp.getTip]
    rfl
  let done := repo.listOpenOrderIds.foldl (repairOne mesh opts p c.tip.slot) ⟨repo, 0, 0⟩
  have hmended : Mended mesh opts history repo done.repo :=
    mended_of_repairs c.tip.slot ⟨repo, 0, 0⟩ hp.truthful hc hsound repo.listOpenOrderIds
  have hlinks : ∀ id ∈ repo.listOpenOrderIds, ∀ parent older,
      Reached mesh opts c repo id (parent :: older) → (done.repo.getLineage id).isSome :=
    fun id hid parent older hreached =>
      repairs_link c.tip.slot ⟨repo, 0, 0⟩ hp hc hsound hid hreached
  refine ⟨done, hrepair repo, ?_, ?_⟩
  · intro id row hrow hopen hallowed parent hparent
    obtain ⟨ancestors, hline, hshort⟩ := hlines id row hrow hopen hallowed
    have hmem : id ∈ repo.listOpenOrderIds := OrdersRepo.mem_listOpenOrderIds.mpr
      (OrdersRepo.statusOf_eq_some.mpr ⟨row, hrow, hopen⟩)
    have hlinked : (done.repo.getLineage id).isSome := by
      cases hline with
      | created hroot => exact absurd hparent (hroot parent)
      | fill line mapped next =>
          exact hlinks id hmem _ _ ⟨row, hrow, hallowed, .fill line mapped next, hshort⟩
    obtain rfl : orderIdOf row.ref = id :=
      row.orderId_eq_ref.symm.trans (OrdersRepo.orderId_of_getOrder hrow)
    exact hmended.sound.lineage_of_fills ⟨c, hc, hparent⟩ hlinked
  · obtain ⟨checked, hidle⟩ := repairs_idle c.tip.slot hp
      (hmended.settled hsound hlines hlinks) 0
    exact ⟨checked, (hrepair _).trans (congrArg Except.ok hidle)⟩

end

/-! The sampled fill, a hundred blocks later, first seen while nothing is answered
about transactions. -/

namespace SampleRepair

open SampleChain (mesh opts exact orderRef continuationRef)

def settled : ChainState := { SampleChain.filled with tip := ⟨6000, 300⟩ }

def history : History where
  chains := {c | c = settled}
  content := by
    rintro c rfl c' rfl tx htx tx' htx' hhash
    exact Option.some.inj ((ChainState.txAt_eq_some.mpr ⟨htx, hhash⟩).symm.trans
      (ChainState.txAt_eq_some.mpr ⟨htx', rfl⟩))

def flaky : ChainProvider := { exact settled with getTxUtxos := fun _ => .error "503".toList }

theorem observes : Observes opts history flaky settled where
  chain := rfl
  truthful :=
    { (ChainState.provider_faithful : Faithful (exact settled) settled).truthful with
      getTxUtxos := fun _ _ h => by cases h }
  listed u hu :=
    ⟨settled, rfl, (ChainState.liveUtxo_eq_some.mp (ChainState.provider_exact.1 u hu)).2⟩

/-- The cache after that pass. -/
def seen : OrdersRepo := (doSync mesh opts flaky .empty).state.repo

set_option maxRecDepth 100000 in
theorem seen_ids : seen.orders.entries.map Order.ref = [continuationRef] := by decide

set_option maxRecDepth 100000 in
theorem created (parent : OutRef) : ¬Continues opts settled parent orderRef := by
  rintro ⟨tx, idx, hcontinued⟩
  have hfirst : settled.txAt orderRef.txHash = some tx :=
    ChainState.txAt_eq_some.mpr
      ⟨(ChainState.spender_eq_some.mp hcontinued.spender).1, hcontinued.hash.symm⟩
  obtain rfl : SampleChain.creation = tx :=
    Option.some.inj ((by decide : some SampleChain.creation = _).trans hfirst)
  obtain ⟨rank, hrank, -⟩ := hcontinued.pinned
  cases hrank

set_option maxRecDepth 100000 in
theorem continues : Continues opts settled orderRef continuationRef :=
  ⟨SampleChain.fill, 0, by decide, by decide, by decide, by decide, 0, by decide, by decide⟩

end SampleRepair

open SampleRepair SampleChain in
set_option maxRecDepth 100000 in
theorem repairLineage_complete_sample : ∃ done root,
    seen.getLineage (orderIdOf continuationRef) = none ∧
    repairLineage mesh opts (exact settled) seen = .ok done ∧
    done.repo.getLineage (orderIdOf continuationRef) = some ⟨orderIdOf orderRef, root⟩ := by
  have hparent : ∃ parent, parent.ref = orderRef ∧
      (settled.utxoAt parent.ref).bind (validateAndMap mesh opts) = some parent := by
    obtain ⟨parent, hrow⟩ : ∃ parent,
        (settled.utxoAt orderRef).bind (validateAndMap mesh opts) = some parent :=
      Option.isSome_iff_exists.mp (by decide)
    obtain ⟨u, hu, hvalid⟩ := Option.bind_eq_some_iff.mp hrow
    have href : parent.ref = orderRef :=
      (validateAndMap_eq_some hvalid).1.trans (ChainState.input_of_utxoAt hu)
    exact ⟨parent, href, href ▸ hrow⟩
  obtain ⟨parent, hparentRef, hparentRow⟩ := hparent
  have hlines : ∀ id row, seen.getOrder id = some row → row.status = .opened →
      row.allowPartialFill = true →
        ∃ ancestors, Descent mesh opts settled ancestors row ∧ ancestors.length < 64 := by
    intro id row hrow _ _
    have hmem : row.ref ∈ seen.orders.entries.map Order.ref :=
      List.mem_map_of_mem (KeyedList.find?_eq_some.mp hrow).1
    rw [seen_ids, List.mem_singleton] at hmem
    refine ⟨[parent], .fill (.created ?_) hparentRow ?_, show 1 < 64 by decide⟩
    · exact fun other => hparentRef ▸ created other
    · rw [hparentRef, hmem]
      exact continues
  obtain ⟨done, hdone, hlinked, -⟩ := repairLineage_complete (.single (.pass observes))
    (ChainState.provider_faithful : Faithful (exact settled) settled) rfl hlines
  obtain ⟨row, hrow⟩ : ∃ row, seen.getOrder (orderIdOf continuationRef) = some row :=
    Option.isSome_iff_exists.mp (by decide)
  have hstatus : row.status = .opened ∧ row.allowPartialFill = true := by
    have hboth : (seen.getOrder (orderIdOf continuationRef)).all
        fun row => row.status = .opened ∧ row.allowPartialFill = true := by decide
    rw [hrow] at hboth
    exact of_decide_eq_true hboth
  have href : row.ref = continuationRef := by
    apply orderIdOf_injective
    rw [← row.orderId_eq_ref, OrdersRepo.orderId_of_getOrder hrow]
  obtain ⟨root, hl, -⟩ := hlinked _ row hrow hstatus.1 hstatus.2 orderRef (href ▸ continues)
  exact ⟨done, orderIdOf root, by decide, hdone, hl⟩

end BeaconDex.Backend
