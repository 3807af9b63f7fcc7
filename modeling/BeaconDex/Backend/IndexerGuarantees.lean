import BeaconDex.Backend.OpenBook

/-!
# What the indexer guarantees

Three statements about the cache, each at the generality the status formula of
the open book allows.

**No vanish window** (`continuation_open_iff`).  When the chain of fills of an
order ends in a live order, that order is open after the pass if it was listed
and is confirmed (or was open already), or if it was not listed and the very fill
that created it was of an order cached as open.  A continuation listed while it
is still fresh satisfies neither.

**Live orders** (`live_order_kept`).  A pass keeps an unspent open order open if
the order was listed, or if it is surfaced again as the continuation of an
unlisted open order.  An incomplete listing takes it off the book otherwise.

**Exactness** (`cache_exact`).  With complete listings the open rows are the live
orders, up to the confirmation threshold.
-/

namespace BeaconDex.Backend

open Library

/-!
## No vanish window

An order that was filled while nobody looked: when its live continuation is on the book
after one pass.
-/

section NoVanishWindow

variable {mesh : Mesh} {opts : IndexerOptions} {p : ChainProvider} {c : ChainState}
variable {repo : OrdersRepo} {pass : Pass}

/-- A provider that lists only what is live does not list a spent order. -/
theorem not_listed_of_spent (hlists : ListsOnlyLive p c (orderBeaconUnit opts)) {ref : OutRef}
    (hspent : c.spender ref ≠ none) : ¬ Listed mesh opts p ref := by
  rintro ⟨u, hu, -, rfl⟩
  exact hspent (ChainState.liveUtxo_eq_some.mp (hlists u hu)).1

/-- The order before the last one of a chain of fills is the first one, or a
later one. -/
theorem Ancestor.eq_or_ancestor_of_continues {order parent last : OutRef}
    (hchain : Ancestor opts c order last) (hnext : Continues opts c parent last) :
    parent = order ∨ Ancestor opts c order parent := by
  obtain ⟨x, hx, hlast⟩ := Relation.TransGen.tail'_iff.mp hchain
  obtain rfl := hlast.left_unique hnext
  exact Relation.reflTransGen_iff_eq_or_transGen.mp hx

/-- **When the live end of a chain of fills is on the book after the pass** that finds the
first of them.  A listed one is, if it was before or has its confirmations; so a fresh one
that is listed too early is not, although the pass has followed the chain to it.  One that
is not listed is surfaced if the fill that created it was of an order cached as open. -/
theorem continuation_open_iff (hp : Faithful p c) (hlists : ListsOnlyLive p c (orderBeaconUnit opts))
    {order last : OutRef} {u : UTxO} (hopen : repo.IsOpen (orderIdOf order))
    (hchain : Ancestor opts c order last) (hlive : c.liveUtxo last = some u)
    (haccepted : Accepted mesh opts u) (hsync : doSync mesh opts p repo = .ok pass) :
    pass.repo.IsOpen (orderIdOf last) ↔
      Listed mesh opts p last ∧ (repo.IsOpen (orderIdOf last) ∨ Confirmed opts c last) ∨
      ¬ Listed mesh opts p last ∧ (Continues opts c order last ∨
        ∃ parent, Ancestor opts c order parent ∧ Continues opts c parent last ∧
          repo.IsOpen (orderIdOf parent)) := by
  rw [isOpen_doSync hp hsync (ChainState.liveUtxo_eq_some.mp hlive).1]
  refine or_congr_right (and_congr_right ?_)
  intro _
  have hsurf : ∀ {parent}, Continues opts c parent last → repo.IsOpen (orderIdOf parent) →
      ∃ parent, repo.IsOpen (orderIdOf parent) ∧ ¬ Listed mesh opts p parent ∧
        Surfaces mesh opts c parent last := fun {parent} hnext hparent =>
    ⟨parent, hparent, not_listed_of_spent hlists hnext.spent, hnext, u, hlive, haccepted⟩
  constructor
  · rintro ⟨parent, hparent, -, hnext, -⟩
    obtain rfl | hlater := hchain.eq_or_ancestor_of_continues hnext
    · exact .inl hnext
    · exact .inr ⟨parent, hlater, hnext, hparent⟩
  · rintro (hnext | ⟨parent, -, hnext, hparent⟩)
    · exact hsurf hnext hopen
    · exact hsurf hnext hparent

end NoVanishWindow

namespace SampleChain

set_option maxRecDepth 100000 in
theorem indexed_isOpen : indexed.IsOpen (orderIdOf orderRef) := by decide

set_option maxRecDepth 100000 in
theorem continues : Continues opts filled orderRef continuationRef :=
  ⟨fill, 0, by decide, by decide, by decide, by decide, 0, by decide, by decide⟩

/-- The continuation's output, unspent in the block of the fill. -/
def continuation : UTxO :=
  let out := orderOutput 8000000 (datumCbor [0x00, 0x5b, 0x8d, 0x80] [0x03])
  ⟨continuationRef, out.address, out.amount, out.plutusData⟩

set_option maxRecDepth 100000 in
theorem continuation_live : filled.liveUtxo continuationRef = some continuation := by decide

set_option maxRecDepth 100000 in
theorem continuation_accepted : Accepted mesh opts continuation := by decide

end SampleChain

section

open SampleChain

/-- A pass whose listing shows nothing finds the fill and surfaces its
continuation. -/
theorem continuation_open_iff_sample :
    ∃ pass, doSync mesh opts (filled.provider []) indexed = .ok pass ∧
      pass.repo.IsOpen (orderIdOf continuationRef) := by
  obtain ⟨pass, hsync⟩ : ∃ pass, doSync mesh opts (filled.provider []) indexed = .ok pass :=
    ChainState.provider_completes indexed
  refine ⟨pass, hsync, (continuation_open_iff ChainState.provider_faithful
    (fun _ hu => absurd (ChainState.lists_provider.mp hu) List.not_mem_nil) indexed_isOpen
    (.single continues) continuation_live continuation_accepted hsync).mpr
      (.inr ⟨?_, .inl continues⟩)⟩
  rintro ⟨u, hu, -⟩
  exact absurd (ChainState.lists_provider.mp hu) List.not_mem_nil

set_option maxRecDepth 100000 in
/-- **A fresh continuation vanishes**: the listing shows it one block old, so the
gate skips it and retirement takes it for cached. -/
theorem continuation_vanishes :
    Faithful (exact filled) filled ∧
      (ListsOnlyLive (exact filled) filled (orderBeaconUnit opts) ∧
        ListsAll (exact filled) filled (orderBeaconUnit opts)) ∧
      indexed.IsOpen (orderIdOf orderRef) ∧ Ancestor opts filled orderRef continuationRef ∧
      filled.liveUtxo continuationRef = some continuation ∧ Accepted mesh opts continuation ∧
      ∃ pass, doSync mesh opts (exact filled) indexed = .ok pass ∧
        ¬ pass.repo.IsOpen (orderIdOf continuationRef) := by
  obtain ⟨pass, hsync⟩ : ∃ pass, doSync mesh opts (exact filled) indexed = .ok pass :=
    ChainState.provider_completes indexed
  have hclosed : ¬ (doSync mesh opts (exact filled) indexed).state.repo.IsOpen
      (orderIdOf continuationRef) := by decide
  rw [show doSync mesh opts (exact filled) indexed = .ok pass from hsync] at hclosed
  exact ⟨ChainState.provider_faithful, ChainState.provider_exact, indexed_isOpen, .single continues,
    continuation_live, continuation_accepted, pass, hsync, hclosed⟩

end

/-!
## Live orders

What keeps an order that is live on the book, and what takes it off by mistake.
-/

section LiveOrders

variable {mesh : Mesh} {opts : IndexerOptions} {p : ChainProvider} {c : ChainState}
variable {repo : OrdersRepo} {pass : Pass}

/-- What keeps a live order on the book during one pass: the listing shows it; or
a listing call throws; or the pass closes the order and then surfaces it again, as
the continuation of an order that is cached as open and not listed. -/
def Protected (mesh : Mesh) (opts : IndexerOptions) (p : ChainProvider) (c : ChainState)
    (repo : OrdersRepo) (ref : OutRef) : Prop :=
  Listed mesh opts p ref ∨ ListingThrows p (orderBeaconUnit opts) ∨
    Faithful p c ∧ ∃ parent, repo.IsOpen (orderIdOf parent) ∧ ¬ Listed mesh opts p parent ∧
      Surfaces mesh opts c parent ref

/-- A completed pass with a faithful provider keeps exactly the protected orders
open. -/
theorem kept_open_iff (hp : Faithful p c) {ref : OutRef} (hopen : repo.IsOpen (orderIdOf ref))
    (hlive : c.spender ref = none) (hsync : doSync mesh opts p repo = .ok pass) :
    pass.repo.IsOpen (orderIdOf ref) ↔ Protected mesh opts p c repo ref := by
  obtain ⟨found, -, hfound, -⟩ := (doSync_eq_ok hp).mp hsync
  rw [isOpen_doSync hp hsync hlive, Protected]
  by_cases hlisted : Listed mesh opts p ref <;>
    simp [hlisted, hopen, hp, not_listingThrows hp.getTip hfound]

/-- Surfacing only adds to what is seen and open. -/
theorem surface_keeps {tip : ChainTip} {child id : Str}
    (h : id ∈ pass.seenOpen ∧ pass.repo.IsOpen id) :
    id ∈ (surface mesh opts p tip child pass).state.seenOpen ∧
      (surface mesh opts p tip child pass).state.repo.IsOpen id := by
  obtain hsame | ⟨-, -, childOrder, -, -, -, -, hstate⟩ := state_surface mesh opts p tip pass child
  · rwa [hsame]
  · rw [hstate]
    exact ⟨List.mem_insert_of_mem h.1, OrdersRepo.isOpen_upsertOpenOrder.mpr (.inr h.2)⟩

/-- Retirement passes over what was seen. -/
theorem isOpen_retirement_state {tip : ChainTip} {found : Pass} {id : Str}
    (hseen : id ∈ found.seenOpen) (hopen : found.repo.IsOpen id) :
    (retirement mesh opts p tip found).state.repo.IsOpen id := by
  let Inv : Pass → Prop := fun t => id ∈ t.seenOpen ∧ t.repo.IsOpen id
  suffices Inv (retirement mesh opts p tip found).state from this.2
  refine forEach_keeps (I := Inv) ?_ ⟨hseen, hopen⟩
  intro retired _ t ht
  obtain ⟨-, hsame⟩ | ⟨cached, marked, hunseen, -, rfl, hstate⟩ :=
    state_retire mesh opts p tip t retired
  · rwa [hsame]
  · have hne : id ≠ retired := fun heq => hunseen (heq ▸ ht.1)
    have hmarked : (t.repo.markSpent retired (classifySpend opts p cached).status
        (classifySpend opts p cached).txHash none).IsOpen id :=
      OrdersRepo.isOpen_markSpent.mpr ⟨hne, ht.2⟩
    obtain hstate | ⟨childId, root, -, hstate⟩ := hstate
    · rw [hstate]
      exact ⟨ht.1, hmarked⟩
    · rw [hstate]
      exact surface_keeps ⟨ht.1, OrdersRepo.isOpen_setLineage.mpr hmarked⟩

/-- One pass, however it ends and whatever the listing, keeps a protected live
order open. -/
theorem isOpen_doSync_state (hp : Truthful p c) {ref : OutRef}
    (hopen : repo.IsOpen (orderIdOf ref)) (hlive : c.spender ref = none)
    (hprotected : Protected mesh opts p c repo ref) :
    (doSync mesh opts p repo).state.repo.IsOpen (orderIdOf ref) := by
  let Inv : Pass → Prop := fun t => t.repo.IsOpen (orderIdOf ref)
  refine Attempt.query_keeps (I := Inv) hopen ?_
  intro tip htip
  obtain rfl := hp.getTip tip htip
  refine Attempt.andThen_keeps (I := Inv) ?_ fun retired h => OrdersRepo.isOpen_setCursor.mpr h
  have hdiscovery := isOpen_discovery_state mesh opts hp hlive hopen
  cases hfound : discovery mesh opts p c.tip repo with
  | error thrown =>
      rw [hfound] at hdiscovery
      exact hdiscovery
  | ok found =>
      show Inv (retirement mesh opts p c.tip found).state
      obtain hlisted | hthrows | ⟨hfaithful, hparent⟩ := hprotected
      · exact isOpen_retirement_state ((mem_seenOpen_of_discovery hp hfound).mpr hlisted)
          ((isOpen_of_discovery hp hfound hlive).mpr (.inl hopen))
      · exact absurd hthrows (not_listingThrows htip hfound)
      · obtain ⟨retired, hretired, -⟩ :=
          retired_of_retirement mesh opts hfaithful c.tip found
        have hsync : doSync mesh opts p repo = .ok _ :=
          (doSync_eq_ok hfaithful).mpr ⟨found, retired, hfound, hretired, rfl⟩
        rw [hretired]
        exact (kept_open_iff hfaithful hopen hlive hsync).mpr (.inr (.inr ⟨hfaithful, hparent⟩))

/-- A pass seen from the cache: the provider it asked and the chain state that
provider answered from. -/
structure PassFor (mesh : Mesh) (opts : IndexerOptions) (ref : OutRef) (repo : OrdersRepo)
    (observed : ChainProvider × ChainState) (repo' : OrdersRepo) : Prop where
  truthful : Truthful observed.1 observed.2
  unspent : observed.2.spender ref = none
  keeps : Protected mesh opts observed.1 observed.2 repo ref
  result : repo' = (doSync mesh opts observed.1 repo).state.repo

/-- **A live order stays on the book** over every run of passes, completed or not, that
protect it: in each of them the provider says nothing false, the order is unspent, and it
is listed, or a listing call throws, or the pass closes it and surfaces it again as a
continuation (`Protected`). -/
theorem live_order_kept {ref : OutRef} {repo' : OrdersRepo}
    {observed : List (ChainProvider × ChainState)}
    (hrun : Run (PassFor mesh opts ref) repo observed repo')
    (hopen : repo.IsOpen (orderIdOf ref)) : repo'.IsOpen (orderIdOf ref) := by
  refine Run.keeps (I := fun r => r.IsOpen (orderIdOf ref)) (fun hpass hs => ?_) hrun hopen
  rw [hpass.result]
  exact isOpen_doSync_state hpass.truthful hs hpass.unspent hpass.keeps

end LiveOrders

section

open SampleChain

set_option maxRecDepth 100000 in
theorem live_order_kept_sample :
    (doSync mesh opts (exact created) indexed).state.repo.IsOpen (orderIdOf orderRef) := by
  have hlisted : Listed mesh opts (exact created) orderRef :=
    ⟨⟨orderRef, (orderOutput 12000000 (datumCbor [0x00, 0x98, 0x96, 0x80] [0x05])).address,
      (orderOutput 12000000 (datumCbor [0x00, 0x98, 0x96, 0x80] [0x05])).amount,
      (orderOutput 12000000 (datumCbor [0x00, 0x98, 0x96, 0x80] [0x05])).plutusData⟩,
      ChainState.lists_provider.mpr (by decide), by decide, rfl⟩
  have hrun : Run (PassFor mesh opts orderRef) indexed [(exact created, created)]
      (doSync mesh opts (exact created) indexed).state.repo :=
    .single ⟨ChainState.provider_faithful.truthful, by decide, .inl hlisted, rfl⟩
  exact live_order_kept hrun indexed_isOpen

set_option maxRecDepth 100000 in
/-- **A live order is dropped** when the listing comes back empty. -/
theorem live_order_dropped :
    Faithful (created.provider []) created ∧ created.spender orderRef = none ∧
      indexed.IsOpen (orderIdOf orderRef) ∧
      (doSync mesh opts (created.provider []) indexed).state.repo.statusOf (orderIdOf orderRef) =
        some .unknown :=
  ⟨ChainState.provider_faithful, by decide, indexed_isOpen, by decide⟩

end

/-!
## Exactness

The cache after a pass that has seen everything.
-/

section Exactness

variable {mesh : Mesh} {opts : IndexerOptions} {p : ChainProvider} {c : ChainState}
variable {repo : OrdersRepo} {pass : Pass}

/-- **With complete listings the open rows are the live orders.** Whatever the cache was
before, after a completed pass every open row is a live order, every live order that is
acceptable and confirmed is an open row, and every row that was open and is no live output
any more has the status of its spend. -/
theorem cache_exact (hp : Faithful p c) (hsound : ListsOnlyLive p c (orderBeaconUnit opts))
    (hcomplete : ListsAll p c (orderBeaconUnit opts))
    (hsync : doSync mesh opts p repo = .ok pass) :
    (∀ id, pass.repo.IsOpen id →
      ∃ ref u, id = orderIdOf ref ∧ c.liveUtxo ref = some u ∧ Accepted mesh opts u) ∧
    (∀ ref u, c.liveUtxo ref = some u → Accepted mesh opts u → Confirmed opts c ref →
      pass.repo.IsOpen (orderIdOf ref)) ∧
    (∀ id, repo.IsOpen id → (¬ ∃ ref u, id = orderIdOf ref ∧ c.liveUtxo ref = some u) →
      ∃ status, pass.repo.statusOf id = some status ∧ status ≠ .opened) := by
  have hlive : ∀ id, pass.repo.IsOpen id →
      ∃ ref u, id = orderIdOf ref ∧ c.liveUtxo ref = some u ∧ Accepted mesh opts u := by
    intro id hopen
    obtain ⟨ref, rfl, ⟨u, hlists, hacc, rfl⟩ | ⟨parent, -, u, hutxo, hacc⟩⟩ :=
      listed_or_surfaced hp hsync hopen
    · exact ⟨u.input, u, rfl, hsound u hlists, hacc⟩
    · exact ⟨ref, u, rfl, hutxo, hacc⟩
  refine ⟨hlive, ?_, ?_⟩
  · intro ref u hutxo hacc hconf
    obtain ⟨hunspent, hat⟩ := ChainState.liveUtxo_eq_some.mp hutxo
    obtain ⟨order, hvalid⟩ := Option.isSome_iff_exists.mp hacc
    have hlisted : Listed mesh opts p ref :=
      ⟨u, hcomplete ref u hutxo (validateAndMap_eq_some hvalid).2, hacc,
        ChainState.input_of_utxoAt hat⟩
    exact (isOpen_doSync hp hsync hunspent).mpr (.inl ⟨hlisted, .inr hconf⟩)
  · intro id hopen hdead
    obtain ⟨found, -, hrows, -⟩ := isOpen_of_doSync hp hsync
    obtain ⟨status, hstatus⟩ := Option.isSome_iff_exists.mp
      (hrows id (Option.isSome_of_eq_some hopen))
    refine ⟨status, hstatus, ?_⟩
    rintro rfl
    obtain ⟨ref, u, hid, hutxo, -⟩ := hlive id hstatus
    exact hdead ⟨ref, u, hid, hutxo⟩

end Exactness

open SampleChain in
theorem cache_exact_sample :
    ∃ pass, doSync mesh opts (exact filled) indexed = .ok pass ∧
      (∀ id, pass.repo.IsOpen id →
        ∃ ref u, id = orderIdOf ref ∧ filled.liveUtxo ref = some u ∧ Accepted mesh opts u) ∧
      (∀ ref u, filled.liveUtxo ref = some u → Accepted mesh opts u → Confirmed opts filled ref →
        pass.repo.IsOpen (orderIdOf ref)) ∧
      ∀ id, indexed.IsOpen id → (¬ ∃ ref u, id = orderIdOf ref ∧ filled.liveUtxo ref = some u) →
        ∃ status, pass.repo.statusOf id = some status ∧ status ≠ .opened := by
  obtain ⟨pass, hsync⟩ : ∃ pass, doSync mesh opts (exact filled) indexed = .ok pass :=
    ChainState.provider_completes indexed
  exact ⟨pass, hsync, cache_exact ChainState.provider_faithful ChainState.provider_exact.1
    ChainState.provider_exact.2 hsync⟩

end BeaconDex.Backend
