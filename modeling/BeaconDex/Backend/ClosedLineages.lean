import BeaconDex.Backend.IndexerGuarantees

/-!
# Closed lineages

What a pass records of an order that was filled, and of whose continuation
nothing is left on chain any more.

Retirement goes one fill at a time: it classifies the orders that were cached as
open, and it caches a continuation only when it finds it unspent.  So of an order
that no live output descends from, a pass writes the status of its own spend if
the order was cached as open, and otherwise nothing at all
(`statusOf_doSync_of_extinct`).

A chain that came and went between two passes is therefore recorded when it has
no fill (`closed_chain_recorded_iff`).  With one, the first order is on record as
filled and its continuation as its child, but the child never gets a row.

## Chains as data

A closed chain is the list of its orders, from the first to the last, with the status of
the last spend.  The recursion of `Recorded` is over this list, and the induction of the
main result too: what a pass misses, it misses at the first continuation, and the rest
of the chain is not looked at.
-/

namespace BeaconDex.Backend

open Library

/-!
## Chains on record

What it is for a chain to be closed, and for a cache to have it on record.
-/

/-- The output was cancelled or taken, according to its redeemer. -/
def ClosedAs (opts : IndexerOptions) (c : ChainState) (ref : OutRef) (status : SpentStatus) :
    Prop :=
  ∃ tx k, SpentUnder opts c ref tx k ∧ (k = 0 ∨ k = 1) ∧ status = statusOfConstructor k

/-- **A closed chain of fills**: each of `links` continues the order before it,
`order` at first, and the last order was closed. -/
inductive ClosedChain (opts : IndexerOptions) (c : ChainState) :
    OutRef → List OutRef → SpentStatus → Prop
  | closed {order : OutRef} {status : SpentStatus} (hclosed : ClosedAs opts c order status) :
      ClosedChain opts c order [] status
  | filled {order child : OutRef} {links : List OutRef} {status : SpentStatus}
      (hnext : Continues opts c order child) (hrest : ClosedChain opts c child links status) :
      ClosedChain opts c order (child :: links) status

/-- `repo` records that `child` continues `parent`. -/
def Linked (repo : OrdersRepo) (parent child : OutRef) : Prop :=
  ∃ root, repo.getLineage (orderIdOf child) = some ⟨orderIdOf parent, root⟩

/-- **The cache records a chain**: every order of it with its final status, and
every continuation with its lineage. -/
def Recorded (repo : OrdersRepo) (root : Str) : OutRef → List OutRef → SpentStatus → Prop
  | order, [], status => repo.statusOf (orderIdOf order) = some status.toOrderStatus
  | order, child :: links, status =>
      repo.statusOf (orderIdOf order) = some .partiallyFilled ∧
        repo.getLineage (orderIdOf child) = some ⟨orderIdOf order, root⟩ ∧
        Recorded repo root child links status

/-- A lineage that is recorded has a row for its order. -/
theorem Recorded.hasRow {repo : OrdersRepo} {root : Str} {order : OutRef} {links : List OutRef}
    {status : SpentStatus} (h : Recorded repo root order links status) :
    (repo.statusOf (orderIdOf order)).isSome := by
  cases links with
  | nil => exact Option.isSome_of_eq_some h
  | cons child links => exact Option.isSome_of_eq_some h.1

/-- No live output is the order or descends from it. -/
structure Extinct (opts : IndexerOptions) (c : ChainState) (ref : OutRef) : Prop where
  spent : c.spender ref ≠ none
  descendants : ∀ last, Ancestor opts c ref last → c.spender last ≠ none

section Chains

variable {opts : IndexerOptions} {c : ChainState} {order : OutRef} {links : List OutRef}
variable {status : SpentStatus}

/-- An order that was taken in full or cancelled is not continued. -/
theorem ClosedAs.not_continues (h : ClosedAs opts c order status) (child : OutRef) :
    ¬ Continues opts c order child := by
  rintro ⟨tx, idx, hnext⟩
  obtain ⟨tx', k, hspent, hk, -⟩ := h
  have := hspent.constructor_unique hnext.spentUnder
  omega

/-- A chain that is closed has no live output. -/
theorem ClosedChain.extinct (h : ClosedChain opts c order links status) : Extinct opts c order := by
  induction h with
  | closed hclosed =>
      obtain ⟨tx, k, hspent, -⟩ := id hclosed
      refine ⟨hspent.spent, ?_⟩
      intro last hanc
      obtain ⟨x, hx, -⟩ := Relation.TransGen.head'_iff.mp hanc
      exact absurd hx (hclosed.not_continues x)
  | filled hnext _ ih =>
      refine ⟨hnext.spent, ?_⟩
      intro last hanc
      obtain ⟨x, hx, hrest⟩ := Relation.TransGen.head'_iff.mp hanc
      obtain rfl := hx.right_unique hnext
      obtain rfl | hfurther := Relation.reflTransGen_iff_eq_or_transGen.mp hrest
      · exact ih.spent
      · exact ih.descendants last hfurther

/-- Every order of a closed chain was spent under the order validator. -/
theorem ClosedChain.spentUnder (h : ClosedChain opts c order links status) :
    ∃ tx k, SpentUnder opts c order tx k := by
  cases h with
  | closed hclosed =>
      obtain ⟨tx, k, hspent, -⟩ := hclosed
      exact ⟨tx, k, hspent⟩
  | filled hnext hrest =>
      obtain ⟨tx, idx, hnext⟩ := hnext
      exact ⟨tx, 2, hnext.spentUnder⟩

end Chains

/-!
## Statuses in a pass

The parts of a pass one by one: none of them writes a status for an order that nothing
live descends from, but for the one that retires it.
-/

section Statuses

variable {mesh : Mesh} {opts : IndexerOptions} {p : ChainProvider} {c : ChainState}
variable {repo : OrdersRepo} {pass pass' : Pass} {ref : OutRef}

/-- Writing fills touches the rows of their parents only. -/
theorem statusOf_writeLinks {tipSlot : ℕ} {rootId : Str} {links : List Link} {repo : OrdersRepo}
    {id : Str} (h : ∀ l ∈ links, id ≠ l.parent.orderId) :
    (links.foldl (writeLink tipSlot rootId) repo).statusOf id = repo.statusOf id := by
  induction links generalizing repo with
  | nil => rfl
  | cons link links ih =>
      have hne : id ≠ link.parent.orderId := h link List.mem_cons_self
      rw [List.foldl_cons, ih fun l hl => h l (List.mem_cons_of_mem _ hl), writeLink,
        OrdersRepo.statusOf_setLineage, OrdersRepo.statusOf_markSpent, if_neg hne,
        OrdersRepo.statusOf_upsertOpenOrder, if_neg hne]

/-- A backfill says nothing about an order but of its ancestors. -/
theorem statusOf_backfillAncestry (hp : Truthful p c) {order : Order} {tipSlot : ℕ}
    (h : ¬ Ancestor opts c ref order.ref) :
    (backfillAncestry mesh opts p repo order tipSlot).statusOf (orderIdOf ref) =
      repo.statusOf (orderIdOf ref) := by
  unfold backfillAncestry
  split
  · next chain rootId hclimb =>
      apply statusOf_writeLinks
      intro l hl heq
      rw [l.parent.orderId_eq_ref] at heq
      obtain rfl := orderIdOf_injective heq
      exact h ((ancestor_of_climb hp hclimb l (List.mem_reverse.mp hl)).resolve_left
        List.not_mem_nil)
  · rfl

/-- Discovering a live output leaves an extinct order alone. -/
theorem statusOf_discover (hp : Truthful p c) (hextinct : Extinct opts c ref) {tip : ChainTip}
    {utxo : UTxO} (hlive : c.spender utxo.input = none)
    (h : discover mesh opts p tip utxo pass = .ok pass') :
    pass'.repo.statusOf (orderIdOf ref) = pass.repo.statusOf (orderIdOf ref) := by
  rw [← Attempt.state_of_eq_ok h]
  obtain hsame | ⟨row, order, hvalid, rfl, hrepo⟩ := repo_discover mesh opts p tip pass utxo
  · rw [hsame]
  · have href : row.ref = utxo.input := (validateAndMap_eq_some hvalid).1
    have hupsert : (pass.repo.upsertOpenOrder
        { row with createdAtSlot := some tip.slot }).statusOf (orderIdOf ref) =
        pass.repo.statusOf (orderIdOf ref) := by
      rw [OrdersRepo.statusOf_upsertOpenOrder, if_neg]
      intro heq
      rw [Order.orderId_eq_ref] at heq
      have hsame : ref = row.ref := orderIdOf_injective heq
      exact hextinct.spent (hsame.trans href ▸ hlive)
    obtain hrepo | hrepo := hrepo
    · rw [hrepo, hupsert]
    · rw [hrepo, ← hupsert]
      apply statusOf_backfillAncestry hp
      intro hanc
      exact hextinct.descendants _ hanc (href ▸ hlive)

/-- **Step 1** says nothing about an extinct order. -/
theorem statusOf_discovery (hp : Truthful p c) (hlists : ListsOnlyLive p c (orderBeaconUnit opts))
    (hextinct : Extinct opts c ref) (h : discovery mesh opts p c.tip repo = .ok pass) :
    pass.repo.statusOf (orderIdOf ref) = repo.statusOf (orderIdOf ref) := by
  obtain ⟨holders, hholders, hloop⟩ := Attempt.query_eq_ok.mp h
  refine forEach_completes (R := fun _ t =>
    t.repo.statusOf (orderIdOf ref) = repo.statusOf (orderIdOf ref)) ?_ hloop rfl
  intro _ address haddress s s' hs hstep
  obtain ⟨utxos, hutxos, hinner⟩ := Attempt.query_eq_ok.mp hstep
  refine forEach_completes (R := fun _ t =>
    t.repo.statusOf (orderIdOf ref) = repo.statusOf (orderIdOf ref)) ?_ hinner hs
  intro _ utxo hutxo t t' ht hdiscover
  have hlisted : Lists p (orderBeaconUnit opts) utxo :=
    ⟨holders, hholders, address, haddress, utxos, hutxos, hutxo⟩
  have hlive := (ChainState.liveUtxo_eq_some.mp (hlists utxo hlisted)).1
  rw [statusOf_discover hp hextinct hlive hdiscover, ht]

/-- Surfacing says nothing about a spent order. -/
theorem statusOf_surface (hp : Faithful p c) (hspent : c.spender ref ≠ none) {tip : ChainTip}
    {child : OutRef} (htext : '#' ∉ child.txHash) :
    (surface mesh opts p tip (orderIdOf child) pass).state.repo.statusOf (orderIdOf ref) =
      pass.repo.statusOf (orderIdOf ref) := by
  obtain hsame | ⟨ref', utxo, childOrder, -, href, hutxo, hvalid, hstate⟩ :=
    state_surface mesh opts p tip pass (orderIdOf child)
  · rw [hsame]
  · rw [parseOrderId_orderIdOf htext] at href
    obtain rfl := Option.some.inj href
    have hlive : c.liveUtxo child = some utxo := Except.ok.inj ((hp.getUtxo child).symm.trans hutxo)
    obtain ⟨hunspent, hat⟩ := ChainState.liveUtxo_eq_some.mp hlive
    have hchild : childOrder.ref = child := by
      rw [(validateAndMap_eq_some hvalid).1, ChainState.input_of_utxoAt hat]
    rw [hstate, OrdersRepo.statusOf_upsertOpenOrder, if_neg]
    intro heq
    rw [Order.orderId_eq_ref] at heq
    have hsame : ref = childOrder.ref := orderIdOf_injective heq
    exact hspent (hsame.trans hchild ▸ hunspent)

/-- Retiring an order writes the status of its spend; retiring another one leaves
a spent order alone. -/
theorem statusOf_retire (hp : Faithful p c) {tx : ChainTx} {k : ℕ}
    (hspent : SpentUnder opts c ref tx k) {tip : ChainTip} {id : Str}
    (hunseen : orderIdOf ref ∉ pass.seenOpen)
    (h : retire mesh opts p tip id pass = .ok pass') :
    pass'.repo.statusOf (orderIdOf ref) =
      if orderIdOf ref = id then
        (pass.repo.statusOf (orderIdOf ref)).map fun _ => (statusOfConstructor k).toOrderStatus
      else pass.repo.statusOf (orderIdOf ref) := by
  rw [← Attempt.state_of_eq_ok h]
  obtain ⟨hwhy, hsame⟩ | ⟨cached, marked, hid, hcached, rfl, hstate⟩ :=
    state_retire mesh opts p tip pass id
  · rw [hsame]
    split
    · next heq =>
        -- an unseen order that is passed over has no row
        subst heq
        rw [OrdersRepo.statusOf, hwhy.resolve_left hunseen, Option.map_none, Option.map_none]
    · rfl
  · have hmarked : (pass.repo.markSpent id (classifySpend opts p cached).status
        (classifySpend opts p cached).txHash none).statusOf (orderIdOf ref) =
        if orderIdOf ref = id then
          (pass.repo.statusOf (orderIdOf ref)).map fun _ => (statusOfConstructor k).toOrderStatus
        else pass.repo.statusOf (orderIdOf ref) := by
      rw [OrdersRepo.statusOf_markSpent]
      by_cases heq : orderIdOf ref = id
      · have hid := OrdersRepo.orderId_of_getOrder hcached
        rw [cached.orderId_eq_ref, ← heq] at hid
        obtain rfl := orderIdOf_injective hid
        rw [if_pos heq, if_pos heq, status_classifySpend hp hspent, heq]
      · rw [if_neg heq, if_neg heq]
    obtain hstate | ⟨childId, root, hchild, hstate⟩ := hstate
    · rw [hstate]
      exact hmarked
    · obtain ⟨child, hnext, rfl⟩ := (classifySpend_childOrderId hp).mp hchild
      rw [hstate, statusOf_surface hp hspent.spent (hash_text_of_continues hnext),
        OrdersRepo.statusOf_setLineage]
      exact hmarked

/-- What retirement has seen of a spent order: it stays unseen, for whatever is
surfaced is unspent. -/
theorem unseen_of_retire (hp : Faithful p c) (hspent : c.spender ref ≠ none) {tip : ChainTip}
    {id : Str} (hunseen : orderIdOf ref ∉ pass.seenOpen)
    (h : retire mesh opts p tip id pass = .ok pass') : orderIdOf ref ∉ pass'.seenOpen := by
  by_cases hseen : id ∈ pass.seenOpen
  · rw [retire, if_pos hseen] at h
    rwa [← Except.ok.inj h]
  · cases hrow : pass.repo.getOrder id with
    | none =>
        rw [retire, if_neg hseen, hrow] at h
        rwa [← Except.ok.inj h]
    | some cached =>
        obtain ⟨retired, hok, hone⟩ := retire_unseen mesh opts hp tip hseen hrow
        obtain rfl := Except.ok.inj (h.symm.trans hok)
        rw [hone.seen, not_or]
        refine ⟨hunseen, ?_⟩
        rintro ⟨child, ⟨-, u, hu, -⟩, heq⟩
        obtain rfl := orderIdOf_injective heq
        exact hspent (ChainState.liveUtxo_eq_some.mp hu).1

/-- **Step 2** gives a spent order that was not seen the status of its spend, if
it was open, and otherwise says nothing about it. -/
theorem statusOf_retirement (hp : Faithful p c) {tx : ChainTx} {k : ℕ}
    (hspent : SpentUnder opts c ref tx k) {tip : ChainTip}
    (hunseen : orderIdOf ref ∉ pass.seenOpen)
    (h : retirement mesh opts p tip pass = .ok pass') :
    pass'.repo.statusOf (orderIdOf ref) =
      if pass.repo.IsOpen (orderIdOf ref) then some (statusOfConstructor k).toOrderStatus
      else pass.repo.statusOf (orderIdOf ref) := by
  have hloop := forEach_completes (R := fun done t => orderIdOf ref ∉ t.seenOpen ∧
    t.repo.statusOf (orderIdOf ref) = if orderIdOf ref ∈ done then
        (pass.repo.statusOf (orderIdOf ref)).map fun _ => (statusOfConstructor k).toOrderStatus
      else pass.repo.statusOf (orderIdOf ref)) ?_ h ⟨hunseen, rfl⟩
  · rw [hloop.2]
    simp only [OrdersRepo.mem_listOpenOrderIds]
    split
    · next hopen => rw [show pass.repo.statusOf (orderIdOf ref) = some .opened from hopen]; rfl
    · rfl
  · rintro done id - t t' ⟨ht, hstatus⟩ hstep
    refine ⟨unseen_of_retire hp hspent.spent ht hstep, ?_⟩
    rw [statusOf_retire hp hspent ht hstep, hstatus]
    by_cases heq : orderIdOf ref = id
    · subst heq
      by_cases hdone : orderIdOf ref ∈ done <;> simp [hdone, Function.comp_def]
    · simp [heq]

/-- **A pass and an extinct order.**  It is closed as it was spent if it was
cached as open; otherwise the pass leaves what is on record, or the lack of it. -/
theorem statusOf_doSync_of_extinct (hp : Faithful p c)
    (hlists : ListsOnlyLive p c (orderBeaconUnit opts)) (hextinct : Extinct opts c ref)
    {tx : ChainTx} {k : ℕ} (hspent : SpentUnder opts c ref tx k)
    (hsync : doSync mesh opts p repo = .ok pass) :
    pass.repo.statusOf (orderIdOf ref) =
      if repo.IsOpen (orderIdOf ref) then some (statusOfConstructor k).toOrderStatus
      else repo.statusOf (orderIdOf ref) := by
  obtain ⟨found, retired, hfound, hretired, rfl⟩ := (doSync_eq_ok hp).mp hsync
  have hunseen : orderIdOf ref ∉ found.seenOpen := fun hseen =>
    not_listed_of_spent hlists hextinct.spent
      ((mem_seenOpen_of_discovery hp.truthful hfound).mp hseen)
  have hdiscovery := statusOf_discovery hp.truthful hlists hextinct hfound
  show retired.repo.statusOf (orderIdOf ref) = _
  have hopen : found.repo.IsOpen (orderIdOf ref) ↔ repo.IsOpen (orderIdOf ref) := by
    rw [OrdersRepo.IsOpen, OrdersRepo.IsOpen, hdiscovery]
  rw [statusOf_retirement hp hspent hunseen hretired, hdiscovery]
  simp only [hopen]

end Statuses

/-!
## Lineages in a pass

A link is kept by all parts of a pass.
-/

section Lineages

variable {mesh : Mesh} {opts : IndexerOptions} {p : ChainProvider} {c : ChainState}
variable {repo : OrdersRepo} {parent child : OutRef}

/-- A link of the chain overwrites no other parent: an order has one. -/
theorem Linked.setLineage (h : Linked repo parent child) (hnext : Continues opts c parent child)
    {parent' child' : OutRef} (hnext' : Continues opts c parent' child') (root : Str) :
    Linked (repo.setLineage (orderIdOf child') (orderIdOf parent') root) parent child := by
  unfold Linked
  rw [OrdersRepo.getLineage_setLineage]
  split
  · next heq =>
      obtain rfl := orderIdOf_injective heq
      obtain rfl := hnext.left_unique hnext'
      exact ⟨root, rfl⟩
  · exact h

/-- A link of a fill to its parent, once there, is kept by all that the indexer does.  An
upsert writes no lineage. -/
theorem Linked.upsertOpenOrder (h : Linked repo parent child) (order : Order) :
    Linked (repo.upsertOpenOrder order) parent child := h

/-- A spend writes no lineage. -/
theorem Linked.markSpent (h : Linked repo parent child) (orderId : Str) (status : SpentStatus)
    (spentTxHash : Option Str) :
    Linked (repo.markSpent orderId status spentTxHash none) parent child := by
  unfold Linked
  rw [OrdersRepo.getLineage_markSpent]
  exact h

/-- The fills of a chain may write the same link again, which is the only one there can
be. -/
theorem Linked.writeLinks (h : Linked repo parent child) (hnext : Continues opts c parent child)
    {tipSlot : ℕ} {rootId : Str} {links : List Link}
    (hlinks : ∀ l ∈ links, Continues opts c l.parent.ref l.child.ref) :
    Linked (links.foldl (writeLink tipSlot rootId) repo) parent child := by
  induction links generalizing repo with
  | nil => exact h
  | cons link links ih =>
      refine ih ?_ fun l hl => hlinks l (List.mem_cons_of_mem _ hl)
      rw [writeLink, link.child.orderId_eq_ref, link.parent.orderId_eq_ref]
      exact ((h.upsertOpenOrder _).markSpent _ _ _).setLineage hnext
        (hlinks link List.mem_cons_self) rootId

/-- So does a whole climb, wherever it ends. -/
theorem Linked.backfillAncestry (h : Linked repo parent child)
    (hnext : Continues opts c parent child) (hp : Truthful p c) (order : Order) (tipSlot : ℕ) :
    Linked (Backend.backfillAncestry mesh opts p repo order tipSlot) parent child := by
  unfold Backend.backfillAncestry
  split
  · next chain rootId hclimb =>
      refine h.writeLinks hnext ?_
      intro l hl
      exact continues_of_climb hp hclimb (by simp) l (List.mem_reverse.mp hl)
  · exact h

/-- The link outlasts the discovery of an output, -/
theorem linked_discover (hp : Truthful p c) (hnext : Continues opts c parent child) {tip : ChainTip}
    {utxo : UTxO} {pass : Pass} (h : Linked pass.repo parent child) :
    Linked (discover mesh opts p tip utxo pass).state.repo parent child := by
  obtain hsame | ⟨row, order, -, -, hrepo | hrepo⟩ := repo_discover mesh opts p tip pass utxo
  · rwa [hsame]
  · rw [hrepo]
    exact h.upsertOpenOrder order
  · rw [hrepo]
    exact (h.upsertOpenOrder order).backfillAncestry hnext hp order tip.slot

/-- the surfacing of a continuation, -/
theorem linked_surface {tip : ChainTip} {childId : Str} {pass : Pass}
    (h : Linked pass.repo parent child) :
    Linked (surface mesh opts p tip childId pass).state.repo parent child := by
  obtain hsame | ⟨-, -, childOrder, -, -, -, -, hstate⟩ := state_surface mesh opts p tip pass childId
  · rwa [hsame]
  · rw [hstate]
    exact h.upsertOpenOrder _

/-- and the retirement of a row, which are the parts of a pass. -/
theorem linked_retire (hp : Faithful p c) (hnext : Continues opts c parent child) {tip : ChainTip}
    {id : Str} {pass : Pass} (h : Linked pass.repo parent child) :
    Linked (retire mesh opts p tip id pass).state.repo parent child := by
  obtain ⟨-, hsame⟩ | ⟨cached, marked, -, hcached, rfl, hstate⟩ :=
    state_retire mesh opts p tip pass id
  · rwa [hsame]
  · obtain hstate | ⟨childId, root, hchild, hstate⟩ := hstate
    · rw [hstate]
      exact h.markSpent _ _ _
    · obtain ⟨child', hnext', rfl⟩ := (classifySpend_childOrderId hp).mp hchild
      obtain rfl : id = orderIdOf cached.ref := by
        rw [← cached.orderId_eq_ref, OrdersRepo.orderId_of_getOrder hcached]
      rw [hstate]
      exact linked_surface ((h.markSpent _ _ _).setLineage hnext hnext' _)

/-- **The lineage recorded for a continuation stays**: a pass may write it again,
with the same parent. -/
theorem linked_doSync (hp : Faithful p c) (hnext : Continues opts c parent child)
    (h : Linked repo parent child) : Linked (doSync mesh opts p repo).state.repo parent child := by
  let Inv : Pass → Prop := fun t => Linked t.repo parent child
  refine Attempt.query_keeps (I := Inv) h ?_
  intro tip _
  refine Attempt.andThen_keeps (I := Inv) ?_ fun _ ht => ht
  refine Attempt.andThen_keeps (I := Inv) ?_ fun found hfound =>
    forEach_keeps (I := Inv) (fun _ _ _ ht => linked_retire hp hnext ht) hfound
  refine Attempt.query_keeps (I := Inv) h fun holders _ =>
    forEach_keeps (I := Inv) (fun address _ t ht => ?_) h
  exact Attempt.query_keeps (I := Inv) ht fun utxos _ =>
    forEach_keeps (I := Inv) (fun _ _ _ ht => linked_discover hp.truthful hnext ht) ht

end Lineages

/-!
## Closed chains

The result, with a chain that is recorded and one that is lost.
-/

section ClosedChains

variable {mesh : Mesh} {opts : IndexerOptions} {p : ChainProvider} {c : ChainState}
variable {repo : OrdersRepo} {pass : Pass}

/-- **When a chain that closed between two passes is recorded**: when the order itself was
taken or cancelled.  With a fill in between, the pass records the fill and the lineage of
the continuation, but has no row for what came of it. -/
theorem closed_chain_recorded_iff (hp : Faithful p c)
    (hlists : ListsOnlyLive p c (orderBeaconUnit opts)) {order : OutRef} {links : List OutRef}
    {status : SpentStatus} (hopen : repo.IsOpen (orderIdOf order))
    (hchain : ClosedChain opts c order links status)
    (hnew : ∀ link ∈ links, repo.statusOf (orderIdOf link) = none)
    (hsync : doSync mesh opts p repo = .ok pass) :
    ((∃ root, Recorded pass.repo root order links status) ∧
      ∀ parent, Continues opts c parent order → Linked repo parent order →
        Linked pass.repo parent order) ↔ links = [] := by
  have hkept : ∀ parent, Continues opts c parent order → Linked repo parent order →
      Linked pass.repo parent order := by
    intro parent hnext hlinked
    have hstate : (doSync mesh opts p repo).state = pass := by rw [hsync]; rfl
    rw [← hstate]
    exact linked_doSync hp hnext hlinked
  rw [and_iff_left hkept]
  cases hchain with
  | closed hclosed =>
      have hextinct : Extinct opts c order := (ClosedChain.closed hclosed).extinct
      obtain ⟨tx, k, hspent, -, rfl⟩ := hclosed
      refine iff_of_true ⟨[], ?_⟩ rfl
      rw [Recorded, statusOf_doSync_of_extinct hp hlists hextinct hspent hsync, if_pos hopen]
  | @filled _ child links _ hnext hrest =>
      refine iff_of_false ?_ (List.cons_ne_nil child links)
      rintro ⟨root, -, -, hrecorded⟩
      obtain ⟨tx, k, hspent⟩ := hrest.spentUnder
      -- the continuation had no row, and a pass gives none to an extinct order
      have hmissing := hnew child List.mem_cons_self
      have hclosed : ¬ repo.IsOpen (orderIdOf child) := by
        rw [OrdersRepo.IsOpen, hmissing]
        exact (Option.some_ne_none _).symm
      have hrow := hrecorded.hasRow
      rw [statusOf_doSync_of_extinct hp hlists hrest.extinct hspent hsync, if_neg hclosed,
        hmissing] at hrow
      cases hrow

end ClosedChains

namespace SampleChain

open BeaconDex.Sample (token)

/-- The order is taken in full. -/
def take : ChainTx where
  hash := txId 0xe3
  height := 300
  inputs := [⟨txId 0xc1, 0⟩, ⟨txId 0xf2, 0⟩]
  outputs :=
    [⟨sellerAddress,
      [⟨"lovelace".toList, 2000000⟩, ⟨hexOf (token.policyId ++ token.assetName), 5⟩], none⟩]
  redeemers := [⟨0, opts.orderValidatorHash, 1⟩]

def taken : ChainState where
  tip := ⟨6000, 301⟩
  txs := ⟨[creation, take], by decide⟩
  hash_text := by decide
  inputs_nodup := by decide
  redeemers_nodup := by decide

/-- What the fill left is taken six blocks later. -/
def lastTake : ChainTx where
  hash := txId 0xe4
  height := 206
  inputs := [⟨txId 0xd2, 1⟩, ⟨txId 0xf3, 0⟩]
  outputs :=
    [⟨sellerAddress,
      [⟨"lovelace".toList, 2000000⟩, ⟨hexOf (token.policyId ++ token.assetName), 3⟩], none⟩]
  redeemers := [⟨0, opts.orderValidatorHash, 1⟩]

def filledAndTaken : ChainState where
  tip := ⟨5300, 210⟩
  txs := ⟨[creation, fill, lastTake], by decide⟩
  hash_text := by decide
  inputs_nodup := by decide
  redeemers_nodup := by decide

set_option maxRecDepth 100000 in
theorem taken_chain : ClosedChain opts taken orderRef [] .taken :=
  .closed ⟨take, 1, ⟨by decide, by decide, 0, by decide, by decide⟩, .inr rfl, rfl⟩

set_option maxRecDepth 100000 in
theorem filledAndTaken_chain : ClosedChain opts filledAndTaken orderRef [continuationRef] .taken :=
  .filled ⟨fill, 0, by decide, by decide, by decide, by decide, 0, by decide, by decide⟩
    (.closed ⟨lastTake, 1, ⟨by decide, by decide, 0, by decide, by decide⟩, .inr rfl, rfl⟩)

end SampleChain

section

open SampleChain

theorem closed_chain_recorded_iff_sample :
    ∃ pass, doSync mesh opts (exact taken) indexed = .ok pass ∧
      ∃ root, Recorded pass.repo root orderRef [] .taken := by
  obtain ⟨pass, hsync⟩ : ∃ pass, doSync mesh opts (exact taken) indexed = .ok pass :=
    ChainState.provider_completes indexed
  exact ⟨pass, hsync, ((closed_chain_recorded_iff ChainState.provider_faithful
    ChainState.provider_exact.1 indexed_isOpen taken_chain (by simp) hsync).mpr rfl).1⟩

set_option maxRecDepth 100000 in
/-- **A chain that closes between two passes is lost**: filled once and then
taken, it ends in an order without a row. -/
theorem closed_chain_lost :
    Faithful (exact filledAndTaken) filledAndTaken ∧
      (ListsOnlyLive (exact filledAndTaken) filledAndTaken (orderBeaconUnit opts) ∧
        ListsAll (exact filledAndTaken) filledAndTaken (orderBeaconUnit opts)) ∧
      indexed.IsOpen (orderIdOf orderRef) ∧
      ClosedChain opts filledAndTaken orderRef [continuationRef] .taken ∧
      indexed.statusOf (orderIdOf continuationRef) = none ∧
      ∃ pass, doSync mesh opts (exact filledAndTaken) indexed = .ok pass ∧
        pass.repo.statusOf (orderIdOf orderRef) = some .partiallyFilled ∧
        pass.repo.getLineage (orderIdOf continuationRef) =
          some ⟨orderIdOf orderRef, orderIdOf orderRef⟩ ∧
        pass.repo.statusOf (orderIdOf continuationRef) = none ∧
        ¬ ∃ root, Recorded pass.repo root orderRef [continuationRef] .taken := by
  obtain ⟨pass, hsync⟩ : ∃ pass, doSync mesh opts (exact filledAndTaken) indexed = .ok pass :=
    ChainState.provider_completes indexed
  have hfilled : (doSync mesh opts (exact filledAndTaken) indexed).state.repo.statusOf
      (orderIdOf orderRef) = some .partiallyFilled := by decide
  have hlinked : (doSync mesh opts (exact filledAndTaken) indexed).state.repo.getLineage
      (orderIdOf continuationRef) = some ⟨orderIdOf orderRef, orderIdOf orderRef⟩ := by decide
  have hlost : (doSync mesh opts (exact filledAndTaken) indexed).state.repo.statusOf
      (orderIdOf continuationRef) = none := by decide
  rw [show doSync mesh opts (exact filledAndTaken) indexed = .ok pass from hsync] at hfilled
  rw [show doSync mesh opts (exact filledAndTaken) indexed = .ok pass from hsync] at hlinked
  rw [show doSync mesh opts (exact filledAndTaken) indexed = .ok pass from hsync] at hlost
  refine ⟨ChainState.provider_faithful, ChainState.provider_exact, indexed_isOpen,
    filledAndTaken_chain, by decide, pass, hsync, hfilled, hlinked, hlost, ?_⟩
  rintro ⟨root, -, -, hrecorded⟩
  exact absurd (hlost.symm.trans hrecorded) (Option.some_ne_none _).symm

end

end BeaconDex.Backend
