import BeaconDex.Backend.Continuation
import BeaconDex.Library.Run
import Mathlib.Data.Set.Basic

/-!
# The open book after a pass

Which ids are cached as open when a pass of the indexer ends.  Discovery is
summed up by the outputs it was shown (`Discovered`), retirement by the ids it
has gone through (`Retired`), and together they give the status of every unspent
order after the pass (`isOpen_doSync`): a listed order is open if it was before
or is confirmed, an unlisted one only if the fill that created it was of an order
cached as open.

Listings are arbitrary up to there.

## Two halves that are described apart

What a pass leaves open depends on what the provider lists and on what it later says
about spends, and the two may contradict each other.  Each half is therefore summed up
on its own, by the inputs it was given, before anything is assumed of the provider.
What a truthful listing makes of the sum is left to the files that use it.
-/

namespace BeaconDex.Backend

open Library

variable {mesh : Mesh} {opts : IndexerOptions} {p : ChainProvider} {c : ChainState}

/-- The indexer takes the output for an order. -/
def Accepted (mesh : Mesh) (opts : IndexerOptions) (u : UTxO) : Prop :=
  (validateAndMap mesh opts u).isSome

instance (u : UTxO) : Decidable (Accepted mesh opts u) :=
  inferInstanceAs (Decidable ((validateAndMap mesh opts u).isSome = true))

/-- The transaction that created the output has the configured confirmations. -/
def Confirmed (opts : IndexerOptions) (c : ChainState) (ref : OutRef) : Prop :=
  ∃ n, c.confirmations ref.txHash c.tip.height = some n ∧ opts.confirmations ≤ n

/-- The listing shows an acceptable output under `ref`. -/
def Listed (mesh : Mesh) (opts : IndexerOptions) (p : ChainProvider) (ref : OutRef) : Prop :=
  ∃ u, Lists p (orderBeaconUnit opts) u ∧ Accepted mesh opts u ∧ u.input = ref

/-- Classifying the fill of `parent` surfaces `child`: its continuation, unspent
and acceptable. -/
def Surfaces (mesh : Mesh) (opts : IndexerOptions) (c : ChainState) (parent child : OutRef) :
    Prop :=
  Continues opts c parent child ∧ ∃ u, c.liveUtxo child = some u ∧ Accepted mesh opts u

/-!
## Discovery

A loop over the listing.  What it does to the ids that are open, and to those that have
been seen, is the sum of what its turns do.
-/

/-- What discovering the outputs `found` does to a pass: the acceptable ones are
seen, those that are confirmed are opened, and an open id stays open unless it is
an ancestor of one of them. -/
structure Discovered (mesh : Mesh) (opts : IndexerOptions) (c : ChainState) (found : Set UTxO)
    (pass pass' : Pass) : Prop where
  rows : ∀ id, (pass.repo.statusOf id).isSome → (pass'.repo.statusOf id).isSome
  seen : ∀ id, id ∈ pass'.seenOpen ↔
    id ∈ pass.seenOpen ∨ ∃ u ∈ found, Accepted mesh opts u ∧ id = orderIdOf u.input
  opened : ∀ id, pass'.repo.IsOpen id → pass.repo.IsOpen id ∨
    ∃ u ∈ found, Accepted mesh opts u ∧ Confirmed opts c u.input ∧ id = orderIdOf u.input
  kept : ∀ id, (pass.repo.IsOpen id ∨
      ∃ u ∈ found, Accepted mesh opts u ∧ Confirmed opts c u.input ∧ id = orderIdOf u.input) →
    (∀ u ∈ found, Accepted mesh opts u → ∀ parent, Ancestor opts c parent u.input →
      id ≠ orderIdOf parent) → pass'.repo.IsOpen id

namespace Discovered

variable {found found' : Set UTxO} {pass pass' pass'' : Pass}

theorem refl (pass : Pass) : Discovered mesh opts c ∅ pass pass where
  rows id h := h
  seen := by simp
  opened id h := .inl h
  kept id h _ := h.resolve_right (by simp)

theorem trans (h : Discovered mesh opts c found pass pass')
    (h' : Discovered mesh opts c found' pass' pass'') :
    Discovered mesh opts c (found ∪ found') pass pass'' where
  rows id hid := h'.rows id (h.rows id hid)
  seen id := by
    rw [h'.seen, h.seen, or_assoc]
    refine or_congr_right ⟨?_, ?_⟩
    · rintro (⟨u, hu, hacc⟩ | ⟨u, hu, hacc⟩)
      · exact ⟨u, .inl hu, hacc⟩
      · exact ⟨u, .inr hu, hacc⟩
    · rintro ⟨u, hu | hu, hacc⟩
      · exact .inl ⟨u, hu, hacc⟩
      · exact .inr ⟨u, hu, hacc⟩
  opened id hopen := by
    obtain hmid | ⟨u, hu, hacc⟩ := h'.opened id hopen
    · exact (h.opened id hmid).imp_right fun ⟨u, hu, hacc⟩ => ⟨u, .inl hu, hacc⟩
    · exact .inr ⟨u, .inr hu, hacc⟩
  kept id hopen hanc := by
    have hfirst : _ → pass'.repo.IsOpen id := fun hstart =>
      h.kept id hstart fun u hu => hanc u (.inl hu)
    refine h'.kept id ?_ fun u hu => hanc u (.inr hu)
    obtain hopen | ⟨u, hu | hu, hacc⟩ := hopen
    · exact .inl (hfirst (.inl hopen))
    · exact .inl (hfirst (.inr ⟨u, hu, hacc⟩))
    · exact .inr ⟨u, hu, hacc⟩

end Discovered

variable (mesh opts) in
/-- Caching an order as open, with its lineage when it is new to the cache, opens
that order, and closes ancestors of it only. -/
theorem opens_with_ancestry (hp : Truthful p c) (repo : OrdersRepo) (order : Order) (isNew : Bool)
    (tipSlot : ℕ) :
    let repo' := if isNew then
        backfillAncestry mesh opts p (repo.upsertOpenOrder order) order tipSlot
      else repo.upsertOpenOrder order
    (∀ id, (repo.statusOf id).isSome → (repo'.statusOf id).isSome) ∧
      ∃ closed : List OutRef, (∀ parent ∈ closed, Ancestor opts c parent order.ref) ∧
        ∀ id, repo'.IsOpen id ↔
          (id = order.orderId ∨ repo.IsOpen id) ∧ id ∉ closed.map orderIdOf := by
  cases isNew with
  | true =>
      obtain ⟨closed, hclosed, hopen⟩ :=
        isOpen_backfillAncestry mesh opts hp (repo.upsertOpenOrder order) order tipSlot
      refine ⟨?_, closed, hclosed, ?_⟩
      · intro id hid
        show ((backfillAncestry mesh opts p _ order tipSlot).statusOf id).isSome
        exact isSome_statusOf_backfillAncestry (OrdersRepo.isSome_statusOf_upsertOpenOrder hid)
      · intro id
        show (backfillAncestry mesh opts p _ order tipSlot).IsOpen id ↔ _
        rw [hopen, OrdersRepo.isOpen_upsertOpenOrder]
  | false =>
      refine ⟨?_, [], by simp, ?_⟩
      · intro id hid
        show ((repo.upsertOpenOrder order).statusOf id).isSome
        exact OrdersRepo.isSome_statusOf_upsertOpenOrder hid
      · intro id
        show (repo.upsertOpenOrder order).IsOpen id ↔ _
        rw [OrdersRepo.isOpen_upsertOpenOrder]
        simp

/-- What one discovered order does: it is seen, and either the cache is left
alone, because the order is open already or is not confirmed, or the order is
opened and some of its ancestors closed. -/
theorem discover_cases (hp : Truthful p c) {utxo : UTxO} {order : Order} {pass pass' : Pass}
    (hvalid : validateAndMap mesh opts utxo = some order)
    (h : discover mesh opts p c.tip utxo pass = .ok pass') :
    pass'.seenOpen = pass.seenOpen.insert order.orderId ∧
      (∀ id, (pass.repo.statusOf id).isSome → (pass'.repo.statusOf id).isSome) ∧
      (pass'.repo = pass.repo ∧ (pass.repo.IsOpen order.orderId ∨ ¬ Confirmed opts c order.ref) ∨
        Confirmed opts c order.ref ∧ ∃ closed : List OutRef,
          (∀ parent ∈ closed, Ancestor opts c parent order.ref) ∧
          ∀ id, pass'.repo.IsOpen id ↔
            (id = order.orderId ∨ pass.repo.IsOpen id) ∧ id ∉ closed.map orderIdOf) := by
  simp only [discover, hvalid] at h
  split at h
  · next hcached =>
      obtain rfl := Except.ok.inj h
      exact ⟨rfl, fun id hid => hid, .inl ⟨rfl, .inl hcached⟩⟩
  · obtain ⟨confirmations, hanswer, h⟩ := Attempt.query_eq_ok.mp h
    obtain rfl := hp.getTxConfirmations _ _ _ hanswer
    split at h
    · next hnone =>
        obtain rfl := Except.ok.inj h
        refine ⟨rfl, fun id hid => hid, .inl ⟨rfl, .inr ?_⟩⟩
        rintro ⟨n, hn, -⟩
        cases hnone.symm.trans hn
    · next n hn =>
        split at h
        · next hfresh =>
            obtain rfl := Except.ok.inj h
            refine ⟨rfl, fun id hid => hid, .inl ⟨rfl, .inr ?_⟩⟩
            rintro ⟨m, hm, hle⟩
            obtain rfl := Option.some.inj (hn.symm.trans hm)
            exact absurd hfresh (not_lt.mpr hle)
        · next hconfirmed =>
            obtain rfl := Except.ok.inj h
            obtain ⟨hrows, hopens⟩ := opens_with_ancestry mesh opts hp pass.repo
              { order with createdAtSlot := some c.tip.slot }
              (pass.repo.getOrder order.orderId).isNone c.tip.slot
            exact ⟨rfl, hrows, .inr ⟨⟨n, hn, not_lt.mp hconfirmed⟩, hopens⟩⟩

/-- One output. -/
theorem discovered_of_discover (hp : Truthful p c) {utxo : UTxO} {pass pass' : Pass}
    (h : discover mesh opts p c.tip utxo pass = .ok pass') :
    Discovered mesh opts c {utxo} pass pass' := by
  cases hvalid : validateAndMap mesh opts utxo with
  | none =>
      have hno : ¬ Accepted mesh opts utxo := by simp [Accepted, hvalid]
      simp only [discover, hvalid] at h
      obtain rfl := Except.ok.inj h
      constructor <;> simp +contextual [hno]
  | some order =>
      have hacc : Accepted mesh opts utxo := by simp [Accepted, hvalid]
      obtain ⟨href, -⟩ := validateAndMap_eq_some hvalid
      have hid : order.orderId = orderIdOf utxo.input := by rw [order.orderId_eq_ref, href]
      obtain ⟨hseen, hrows, hrepo⟩ := discover_cases hp hvalid h
      rw [hid, href] at hrepo
      rw [hid] at hseen
      refine ⟨hrows, ?_, ?_, ?_⟩
      · intro id
        rw [hseen, List.mem_insert_iff, or_comm]
        simp [hacc]
      · intro id hopen
        obtain ⟨heq, -⟩ | ⟨hconf, closed, -, hiff⟩ := hrepo
        · exact .inl (heq ▸ hopen)
        · obtain heq | hold := ((hiff id).mp hopen).1
          · exact .inr ⟨utxo, rfl, hacc, hconf, heq⟩
          · exact .inl hold
      · intro id hopen hanc
        obtain ⟨heq, hwhy⟩ | ⟨-, closed, hclosed, hiff⟩ := hrepo
        · rw [heq]
          obtain hold | ⟨u, rfl, -, hconf, rfl⟩ := hopen
          · exact hold
          · exact hwhy.resolve_right (not_not.mpr hconf)
        · rw [hiff]
          constructor
          · obtain hold | ⟨u, rfl, -, -, heq⟩ := hopen
            · exact .inr hold
            · exact .inl heq
          · intro hmem
            obtain ⟨parent, hparent, rfl⟩ := List.mem_map.mp hmem
            exact hanc utxo rfl hacc parent (hclosed parent hparent) rfl

/-- One holder. -/
theorem discovered_of_discoverAt (hp : Truthful p c) {address : Str} {pass pass' : Pass}
    (h : discoverAt mesh opts p c.tip address pass = .ok pass') :
    Discovered mesh opts c
      {u | ∃ utxos, p.getUtxosByAddress address (orderBeaconUnit opts) = .ok utxos ∧ u ∈ utxos}
      pass pass' := by
  obtain ⟨utxos, hutxos, hloop⟩ := Attempt.query_eq_ok.mp h
  have hset : {u | ∃ utxos, p.getUtxosByAddress address (orderBeaconUnit opts) = .ok utxos ∧
      u ∈ utxos} = {u | u ∈ utxos} := by
    ext u
    simp [hutxos]
  rw [hset]
  refine forEach_completes (R := fun done t => Discovered mesh opts c {u | u ∈ done} pass t)
    (fun done utxo _ s s' hs hstep => ?_) hloop (by simpa using Discovered.refl pass)
  have hunion : {u | u ∈ done ++ [utxo]} = {u | u ∈ done} ∪ {utxo} := by
    ext u
    simp [or_comm]
  rw [hunion]
  exact hs.trans (discovered_of_discover hp hstep)

/-- **Step 1**, when it completes. -/
theorem discovered_of_discovery (hp : Truthful p c) {repo : OrdersRepo} {pass : Pass}
    (h : discovery mesh opts p c.tip repo = .ok pass) :
    Discovered mesh opts c {u | Lists p (orderBeaconUnit opts) u} ⟨repo, [], 0, 0⟩ pass := by
  obtain ⟨holders, hholders, hloop⟩ := Attempt.query_eq_ok.mp h
  have hset : {u | Lists p (orderBeaconUnit opts) u} = {u | ∃ address ∈ holders, ∃ utxos,
      p.getUtxosByAddress address (orderBeaconUnit opts) = .ok utxos ∧ u ∈ utxos} := by
    ext u
    simp [Lists, hholders]
  rw [hset]
  refine forEach_completes (R := fun done t => Discovered mesh opts c {u | ∃ address ∈ done,
      ∃ utxos, p.getUtxosByAddress address (orderBeaconUnit opts) = .ok utxos ∧ u ∈ utxos}
      ⟨repo, [], 0, 0⟩ t)
    (fun done address _ s s' hs hstep => ?_) hloop (by simpa using Discovered.refl _)
  have hunion : {u | ∃ a ∈ done ++ [address], ∃ utxos,
      p.getUtxosByAddress a (orderBeaconUnit opts) = .ok utxos ∧ u ∈ utxos} =
      {u | ∃ a ∈ done, ∃ utxos,
        p.getUtxosByAddress a (orderBeaconUnit opts) = .ok utxos ∧ u ∈ utxos} ∪
      {u | ∃ utxos,
        p.getUtxosByAddress address (orderBeaconUnit opts) = .ok utxos ∧ u ∈ utxos} := by
    ext u
    simp [or_and_right, exists_or]
  rw [hunion]
  exact hs.trans (discovered_of_discoverAt hp hstep)

section Discovery

variable {repo : OrdersRepo} {pass : Pass} {ref : OutRef}

/-- A call the pass cannot do without throws: step 2 is never reached. -/
def ListingThrows (p : ChainProvider) (unit : Str) : Prop :=
  (∃ e, p.getTip = .error e) ∨ (∃ e, p.getAssetAddresses unit = .error e) ∨
    ∃ holders, p.getAssetAddresses unit = .ok holders ∧
      ∃ address ∈ holders, ∃ e, p.getUtxosByAddress address unit = .error e

/-- A completed discovery had every listing it asked for. -/
theorem not_listingThrows {tip : ChainTip} (htip : p.getTip = .ok tip)
    (h : discovery mesh opts p tip repo = .ok pass) : ¬ ListingThrows p (orderBeaconUnit opts) := by
  obtain ⟨holders, hholders, hloop⟩ := Attempt.query_eq_ok.mp h
  have hall : ∀ address ∈ holders, ∃ utxos,
      p.getUtxosByAddress address (orderBeaconUnit opts) = .ok utxos := by
    refine forEach_completes (R := fun done _ => ∀ address ∈ done, ∃ utxos,
      p.getUtxosByAddress address (orderBeaconUnit opts) = .ok utxos)
      (fun done address _ s s' hdone hstep => ?_) hloop (by simp)
    obtain ⟨utxos, hutxos, -⟩ := Attempt.query_eq_ok.mp hstep
    intro a ha
    obtain ha | rfl := List.mem_append.mp ha |>.imp_right List.mem_singleton.mp
    · exact hdone a ha
    · exact ⟨utxos, hutxos⟩
  rintro (⟨e, he⟩ | ⟨e, he⟩ | ⟨holders', hholders', address, haddress, e, he⟩)
  · cases htip.symm.trans he
  · cases hholders.symm.trans he
  · obtain rfl := Except.ok.inj (hholders.symm.trans hholders')
    obtain ⟨utxos, hutxos⟩ := hall address haddress
    cases hutxos.symm.trans he

/-- What discovery has seen is what was listed. -/
theorem mem_seenOpen_of_discovery (hp : Truthful p c)
    (h : discovery mesh opts p c.tip repo = .ok pass) :
    orderIdOf ref ∈ pass.seenOpen ↔ Listed mesh opts p ref := by
  rw [(discovered_of_discovery hp h).seen]
  simp only [List.not_mem_nil, false_or, Set.mem_ofPred_eq, Listed]
  exact exists_congr fun u => and_congr_right fun _ => and_congr_right fun _ =>
    orderIdOf_injective.eq_iff.trans eq_comm

/-- Discovery closes no unspent order. -/
theorem isOpen_of_discovery (hp : Truthful p c)
    (h : discovery mesh opts p c.tip repo = .ok pass) (hlive : c.spender ref = none) :
    pass.repo.IsOpen (orderIdOf ref) ↔
      repo.IsOpen (orderIdOf ref) ∨ Listed mesh opts p ref ∧ Confirmed opts c ref := by
  have hfound : (∃ u ∈ {u | Lists p (orderBeaconUnit opts) u}, Accepted mesh opts u ∧
      Confirmed opts c u.input ∧ orderIdOf ref = orderIdOf u.input) ↔
      Listed mesh opts p ref ∧ Confirmed opts c ref := by
    constructor
    · rintro ⟨u, hlists, hacc, hconf, heq⟩
      obtain rfl := orderIdOf_injective heq
      exact ⟨⟨u, hlists, hacc, rfl⟩, hconf⟩
    · rintro ⟨⟨u, hlists, hacc, rfl⟩, hconf⟩
      exact ⟨u, hlists, hacc, hconf, rfl⟩
  have hdiscovered := discovered_of_discovery hp h
  rw [← hfound]
  refine ⟨hdiscovered.opened _, fun hopen => hdiscovered.kept _ hopen ?_⟩
  intro u _ _ parent hanc heq
  obtain rfl := orderIdOf_injective heq
  exact hanc.spent hlive

/-- The parent of an unspent order stays in the cache as it is, unless discovery
was shown one of the two. -/
theorem isOpen_parent_of_discovery (hp : Truthful p c)
    (h : discovery mesh opts p c.tip repo = .ok pass) (hlive : c.spender ref = none)
    (href : ¬ Listed mesh opts p ref) {parent : OutRef} (hparent : ¬ Listed mesh opts p parent)
    (hnext : Continues opts c parent ref) :
    pass.repo.IsOpen (orderIdOf parent) ↔ repo.IsOpen (orderIdOf parent) := by
  have hdiscovered := discovered_of_discovery hp h
  constructor
  · intro hopen
    refine (hdiscovered.opened _ hopen).resolve_right ?_
    rintro ⟨u, hlists, hacc, -, heq⟩
    exact hparent ⟨u, hlists, hacc, (orderIdOf_injective heq).symm⟩
  · intro hopen
    refine hdiscovered.kept _ (.inl hopen) ?_
    rintro u hlists hacc ancestor hanc heq
    -- a listed descendant of the parent can only be the unspent order itself
    obtain rfl := orderIdOf_injective heq
    exact href ⟨u, hlists, hacc, hanc.eq_of_continues hnext hlive⟩

/-- A throw in the middle of discovering an output leaves the cache alone. -/
theorem repo_of_discover_error {tip : ChainTip} {utxo : UTxO} {start : Pass} {e : Failure}
    (h : discover mesh opts p tip utxo start = .error (e, pass)) : pass.repo = start.repo := by
  unfold discover at h
  split at h
  · cases h
  · dsimp only at h
    split at h
    · cases h
    · cases hanswer : p.getTxConfirmations _ tip.height with
      | error e' =>
          rw [hanswer] at h
          cases h
          rfl
      | ok answer =>
          rw [hanswer, Attempt.query] at h
          split at h
          · cases h
          · split at h <;> cases h

variable (mesh opts) in
/-- However discovery ends, an unspent order stays open. -/
theorem isOpen_discovery_state (hp : Truthful p c) (hlive : c.spender ref = none)
    (hopen : repo.IsOpen (orderIdOf ref)) :
    (discovery mesh opts p c.tip repo).state.repo.IsOpen (orderIdOf ref) := by
  let Inv : Pass → Prop := fun t => t.repo.IsOpen (orderIdOf ref)
  refine Attempt.query_keeps (I := Inv) hopen fun holders _ =>
    forEach_keeps (I := Inv) (fun address _ s hs => ?_) hopen
  refine Attempt.query_keeps (I := Inv) hs fun utxos _ =>
    forEach_keeps (I := Inv) (fun utxo _ t ht => ?_) hs
  cases hstep : discover mesh opts p c.tip utxo t with
  | ok t' =>
      refine (discovered_of_discover hp hstep).kept _ (.inl ht) ?_
      intro u _ _ parent hanc heq
      obtain rfl := orderIdOf_injective heq
      exact hanc.spent hlive
  | error thrown =>
      show thrown.2.repo.IsOpen (orderIdOf ref)
      rw [repo_of_discover_error hstep]
      exact ht

end Discovery

/-!
## Retirement

A loop over the ids that are open and were not seen.  A turn closes its row, or leaves
it if its output is found unspent, and may surface a continuation.
-/

theorem hash_text_of_continues {parent child : OutRef} (h : Continues opts c parent child) :
    '#' ∉ child.txHash := by
  obtain ⟨tx, idx, h⟩ := h
  rw [h.hash]
  exact c.hash_text tx (ChainState.spender_eq_some.mp h.spender).1

/-- A continuation found unspent and acceptable is opened, unless it was seen. -/
structure Surfaced (mesh : Mesh) (opts : IndexerOptions) (c : ChainState) (child : OutRef)
    (pass pass' : Pass) : Prop where
  seen : ∀ x, x ∈ pass'.seenOpen ↔ x ∈ pass.seenOpen ∨
    (∃ u, c.liveUtxo child = some u ∧ Accepted mesh opts u) ∧ x = orderIdOf child
  isOpen : ∀ x, pass'.repo.IsOpen x ↔ pass.repo.IsOpen x ∨ x ∉ pass.seenOpen ∧
    (∃ u, c.liveUtxo child = some u ∧ Accepted mesh opts u) ∧ x = orderIdOf child
  rows : ∀ x, (pass.repo.statusOf x).isSome → (pass'.repo.statusOf x).isSome

variable (mesh opts) in
/-- A continuation that is looked up is cached if it is live and in order, and passed over
otherwise. -/
theorem surfaced_of_surface (hp : Faithful p c) (tip : ChainTip) {child : OutRef}
    (htext : '#' ∉ child.txHash) (pass : Pass) :
    ∃ pass', surface mesh opts p tip (orderIdOf child) pass = .ok pass' ∧
      Surfaced mesh opts c child pass pass' := by
  unfold surface
  split
  · next hseen =>
      refine ⟨pass, rfl, ⟨?_, ?_, fun x hx => hx⟩⟩
      · intro x
        refine ⟨Or.inl, ?_⟩
        rintro (hx | ⟨-, rfl⟩)
        · exact hx
        · exact hseen
      · intro x
        refine ⟨Or.inl, ?_⟩
        rintro (hopen | ⟨hx, -, rfl⟩)
        · exact hopen
        · exact absurd hseen hx
  · next hseen =>
      rw [parseOrderId_orderIdOf htext]
      simp only [hp.getUtxo, Attempt.query]
      split
      · next hnone =>
          have hno : ¬ ∃ u, c.liveUtxo child = some u ∧ Accepted mesh opts u := by
            rintro ⟨u, hu, hacc⟩
            rw [hu, Option.bind_some] at hnone
            simp [Accepted, hnone] at hacc
          refine ⟨pass, rfl, ⟨fun x => ?_, fun x => ?_, fun x hx => hx⟩⟩ <;> simp [hno]
      · next childOrder hsome =>
          obtain ⟨u, hu, hvalid⟩ := Option.bind_eq_some_iff.mp hsome
          have hyes : ∃ u, c.liveUtxo child = some u ∧ Accepted mesh opts u :=
            ⟨u, hu, Option.isSome_of_eq_some hvalid⟩
          have hid : childOrder.orderId = orderIdOf child := by
            rw [childOrder.orderId_eq_ref, (validateAndMap_eq_some hvalid).1,
              ChainState.input_of_utxoAt (ChainState.liveUtxo_eq_some.mp hu).2]
          refine ⟨_, rfl, ⟨?_, ?_, ?_⟩⟩
          · intro x
            rw [List.mem_insert_iff, or_comm]
            simp only [hyes, true_and]
          · intro x
            rw [OrdersRepo.isOpen_upsertOpenOrder, hid, or_comm]
            apply or_congr_right
            constructor
            · rintro rfl
              exact ⟨hseen, hyes, rfl⟩
            · rintro ⟨-, -, heq⟩
              exact heq
          · intro x hx
            exact OrdersRepo.isSome_statusOf_upsertOpenOrder hx

/-- What retiring an unseen row does: the row is closed, and the continuation it
surfaces is opened and seen. -/
structure RetiredOne (mesh : Mesh) (opts : IndexerOptions) (c : ChainState) (id : Str)
    (cached : Order) (pass pass' : Pass) : Prop where
  seen : ∀ x, x ∈ pass'.seenOpen ↔ x ∈ pass.seenOpen ∨
    ∃ child, Surfaces mesh opts c cached.ref child ∧ x = orderIdOf child
  isOpen : ∀ x, pass'.repo.IsOpen x ↔ x ≠ id ∧ pass.repo.IsOpen x ∨
    x ∉ pass.seenOpen ∧ ∃ child, Surfaces mesh opts c cached.ref child ∧ x = orderIdOf child
  rows : ∀ x, (pass.repo.statusOf x).isSome → (pass'.repo.statusOf x).isSome

variable (mesh opts) in
/-- Closing a row that was filled, linking its continuation and surfacing it. -/
theorem retiredOne_of_surface (hp : Faithful p c) (tip : ChainTip) {id : Str} {pass : Pass}
    {cached : Order} {child : OutRef} (hnext : Continues opts c cached.ref child)
    (status : SpentStatus) (spentTxHash : Option Str) (root : Str) :
    ∃ pass', surface mesh opts p tip (orderIdOf child)
        { pass with
          repo := (pass.repo.markSpent id status spentTxHash none).setLineage (orderIdOf child) id
            root
          spentCount := pass.spentCount + 1 } = .ok pass' ∧
      RetiredOne mesh opts c id cached pass pass' := by
  have hsurf : ∀ x, (∃ child', Surfaces mesh opts c cached.ref child' ∧ x = orderIdOf child') ↔
      (∃ u, c.liveUtxo child = some u ∧ Accepted mesh opts u) ∧ x = orderIdOf child := by
    intro x
    constructor
    · rintro ⟨child', ⟨hnext', hlive⟩, rfl⟩
      obtain rfl := hnext.right_unique hnext'
      exact ⟨hlive, rfl⟩
    · rintro ⟨hlive, rfl⟩
      exact ⟨child, ⟨hnext, hlive⟩, rfl⟩
  obtain ⟨pass', hok, hsurfaced⟩ := surfaced_of_surface mesh opts hp tip
    (hash_text_of_continues hnext) { pass with
      repo := (pass.repo.markSpent id status spentTxHash none).setLineage (orderIdOf child) id root
      spentCount := pass.spentCount + 1 }
  refine ⟨pass', hok, ⟨?_, ?_, ?_⟩⟩
  · intro x
    rw [hsurfaced.seen, hsurf]
  · intro x
    rw [hsurfaced.isOpen, hsurf, OrdersRepo.isOpen_setLineage, OrdersRepo.isOpen_markSpent]
  · intro x hx
    apply hsurfaced.rows x
    rw [OrdersRepo.statusOf_setLineage]
    exact OrdersRepo.isSome_statusOf_markSpent hx

variable (mesh opts) in
/-- A row whose output was not listed is retired by what is found of its spend; a provider
that answers lets the turn complete. -/
theorem retire_unseen (hp : Faithful p c) (tip : ChainTip) {id : Str} {pass : Pass} {cached : Order}
    (hseen : id ∉ pass.seenOpen) (hrow : pass.repo.getOrder id = some cached) :
    ∃ pass', retire mesh opts p tip id pass = .ok pass' ∧
      RetiredOne mesh opts c id cached pass pass' := by
  simp only [retire, hseen, if_false, hrow]
  cases hchild : (classifySpend opts p cached).childOrderId with
  | none =>
      have hno : ∀ x, ¬ ∃ child, Surfaces mesh opts c cached.ref child ∧ x = orderIdOf child := by
        rintro x ⟨child, hsurf, -⟩
        have := (classifySpend_childOrderId hp).mpr ⟨child, hsurf.1, rfl⟩
        rw [hchild] at this
        cases this
      refine ⟨_, rfl, ⟨?_, ?_, ?_⟩⟩
      · intro x
        simp [hno]
      · intro x
        simp [hno, OrdersRepo.isOpen_markSpent]
      · intro x hx
        exact OrdersRepo.isSome_statusOf_markSpent hx
  | some childId =>
      obtain ⟨child, hnext, rfl⟩ := (classifySpend_childOrderId hp).mp hchild
      exact retiredOne_of_surface mesh opts hp tip hnext _ _ _

/-- `x` was surfaced by one of the retired ids. -/
def SurfacedFrom (mesh : Mesh) (opts : IndexerOptions) (c : ChainState) (start : Pass)
    (retired : List Str) (x : Str) : Prop :=
  ∃ parent child, orderIdOf parent ∈ retired ∧ orderIdOf parent ∉ start.seenOpen ∧
    Surfaces mesh opts c parent child ∧ x = orderIdOf child

/-- Where retirement stands after the ids `retired`: an id is open if it was when
the step began and has been seen or not reached, or if it was surfaced. -/
structure Retired (mesh : Mesh) (opts : IndexerOptions) (c : ChainState) (start : Pass)
    (retired : List Str) (pass : Pass) : Prop where
  rows : ∀ x, (start.repo.statusOf x).isSome → (pass.repo.statusOf x).isSome
  seen : ∀ x, x ∈ pass.seenOpen ↔
    x ∈ start.seenOpen ∨ SurfacedFrom mesh opts c start retired x
  isOpen : ∀ x, pass.repo.IsOpen x ↔
    start.repo.IsOpen x ∧ (x ∈ start.seenOpen ∨ x ∉ retired) ∨
      x ∉ start.seenOpen ∧ SurfacedFrom mesh opts c start retired x

namespace Retired

variable {start pass pass' : Pass} {retired : List Str} {id : Str}

theorem refl (start : Pass) : Retired mesh opts c start [] start where
  rows x hx := hx
  seen x := by simp [SurfacedFrom]
  isOpen x := by simp [SurfacedFrom]

/-- One more id surfaces what was surfaced before, and its own continuation. -/
theorem surfacedFrom_append {x : Str} :
    SurfacedFrom mesh opts c start (retired ++ [id]) x ↔
      SurfacedFrom mesh opts c start retired x ∨ SurfacedFrom mesh opts c start [id] x := by
  simp only [SurfacedFrom, List.mem_append, or_and_right, exists_or]

/-- An id already seen is passed over. -/
theorem passedOver (h : Retired mesh opts c start retired pass) (hseen : id ∈ pass.seenOpen) :
    Retired mesh opts c start (retired ++ [id]) pass := by
  -- an id that was surfaced is unspent, so it surfaces nothing itself
  have hsame : ∀ x, SurfacedFrom mesh opts c start (retired ++ [id]) x ↔
      SurfacedFrom mesh opts c start retired x := by
    intro x
    rw [surfacedFrom_append, or_iff_left_iff_imp]
    rintro ⟨parent, child, heq, hunseen, hsurf, rfl⟩
    rw [List.mem_singleton] at heq
    obtain hstart | ⟨parent', child', -, -, hsurf', hid⟩ := (h.seen id).mp hseen
    · exact absurd (heq ▸ hstart) hunseen
    · obtain rfl := orderIdOf_injective (heq.trans hid)
      obtain ⟨u, hu, -⟩ := hsurf'.2
      exact absurd (ChainState.liveUtxo_eq_some.mp hu).1 hsurf.1.spent
  refine ⟨h.rows, ?_, ?_⟩
  · intro x
    rw [h.seen, hsame]
  · intro x
    rw [h.isOpen, hsame, List.mem_append, List.mem_singleton, not_or]
    by_cases hx : x = id
    · subst hx
      obtain hstart | hsurf := (h.seen x).mp hseen
      · simp [hstart]
      · by_cases hstart : x ∈ start.seenOpen
        · simp [hstart]
        · simp [hstart, hsurf]
    · simp [hx]

/-- An unseen row is retired. -/
theorem retireOne (h : Retired mesh opts c start retired pass) (hseen : id ∉ pass.seenOpen)
    {cached : Order} (hid : id = orderIdOf cached.ref)
    (hone : RetiredOne mesh opts c id cached pass pass') :
    Retired mesh opts c start (retired ++ [id]) pass' := by
  have hunseen : id ∉ start.seenOpen := fun hmem => hseen ((h.seen id).mpr (.inl hmem))
  have hfresh : ¬ SurfacedFrom mesh opts c start retired id := fun hsurf =>
    hseen ((h.seen id).mpr (.inr hsurf))
  have hmore : ∀ x, SurfacedFrom mesh opts c start (retired ++ [id]) x ↔
      SurfacedFrom mesh opts c start retired x ∨
        ∃ child, Surfaces mesh opts c cached.ref child ∧ x = orderIdOf child := by
    intro x
    rw [surfacedFrom_append]
    refine or_congr_right ⟨?_, ?_⟩
    · rintro ⟨parent, child, heq, -, hsurf, rfl⟩
      obtain rfl := orderIdOf_injective ((List.mem_singleton.mp heq).trans hid)
      exact ⟨child, hsurf, rfl⟩
    · rintro ⟨child, hsurf, rfl⟩
      exact ⟨cached.ref, child, by simp [hid], hid ▸ hunseen, hsurf, rfl⟩
  refine ⟨fun x hx => hone.rows x (h.rows x hx), ?_, ?_⟩
  · intro x
    rw [hone.seen, h.seen, hmore, or_assoc]
  · intro x
    rw [hone.isOpen, h.isOpen, h.seen, hmore, List.mem_append, List.mem_singleton]
    by_cases hx : x = id
    · subst hx
      simp [hunseen, hfresh]
    · simp only [hx, ne_eq, not_false_eq_true, true_and, or_false, not_or]
      by_cases hstart : x ∈ start.seenOpen
      · simp [hstart]
      · by_cases hsurf : SurfacedFrom mesh opts c start retired x
        · simp [hstart, hsurf]
        · simp [hstart, hsurf]

end Retired

/-- One id. -/
theorem retired_of_retire (hp : Faithful p c) (tip : ChainTip) {start pass : Pass}
    {retired : List Str} {id : Str} (h : Retired mesh opts c start retired pass)
    (hrow : (start.repo.statusOf id).isSome) :
    ∃ pass', retire mesh opts p tip id pass = .ok pass' ∧
      Retired mesh opts c start (retired ++ [id]) pass' := by
  by_cases hseen : id ∈ pass.seenOpen
  · exact ⟨pass, by rw [retire, if_pos hseen], h.passedOver hseen⟩
  · obtain ⟨status, hstatus⟩ := Option.isSome_iff_exists.mp (h.rows id hrow)
    obtain ⟨cached, hcached, -⟩ := OrdersRepo.statusOf_eq_some.mp hstatus
    have hid : id = orderIdOf cached.ref := by
      rw [← cached.orderId_eq_ref, OrdersRepo.orderId_of_getOrder hcached]
    obtain ⟨pass', hok, hone⟩ := retire_unseen mesh opts hp tip hseen hcached
    exact ⟨pass', hok, h.retireOne hseen hid hone⟩

variable (mesh opts) in
/-- **Step 2** completes when the point calls answer. -/
theorem retired_of_retirement (hp : Faithful p c) (tip : ChainTip) (start : Pass) :
    ∃ pass, retirement mesh opts p tip start = .ok pass ∧
      Retired mesh opts c start start.repo.listOpenOrderIds pass := by
  refine forEach_total ?_ (Retired.refl start)
  intro retired id hid pass h
  have hopen := OrdersRepo.mem_listOpenOrderIds.mp hid
  exact retired_of_retire hp tip h (Option.isSome_of_eq_some hopen)

/-!
## The pass

Both loops in a row, for providers that answer.
-/

section Pass

variable {repo : OrdersRepo} {pass : Pass} {ref : OutRef}

/-- A completed pass is a completed discovery with a completed retirement after it. -/
theorem doSync_eq_ok (hp : Faithful p c) :
    doSync mesh opts p repo = .ok pass ↔
      ∃ found retired, discovery mesh opts p c.tip repo = .ok found ∧
        retirement mesh opts p c.tip found = .ok retired ∧
        pass = { retired with repo := retired.repo.setCursor c.tip.slot } := by
  rw [doSync, hp.getTip]
  simp only [Attempt.query, Attempt.andThen_eq_ok]
  constructor
  · rintro ⟨retired, ⟨found, hfound, hretired⟩, hpass⟩
    exact ⟨found, retired, hfound, hretired, (Except.ok.inj hpass).symm⟩
  · rintro ⟨found, retired, hfound, hretired, rfl⟩
    exact ⟨retired, ⟨found, hfound, hretired⟩, rfl⟩

variable (mesh opts) in
/-- With a provider that answers, no turn of the discovery fails. -/
theorem discover_completes (hp : Faithful p c) (tip : ChainTip) (utxo : UTxO) (pass : Pass) :
    ∃ pass', discover mesh opts p tip utxo pass = .ok pass' := by
  unfold discover
  split
  · exact ⟨_, rfl⟩
  · dsimp only
    split
    · exact ⟨_, rfl⟩
    · rw [hp.getTxConfirmations, Attempt.query]
      split
      · exact ⟨_, rfl⟩
      · split <;> exact ⟨_, rfl⟩

/-- With a faithful provider only a listing call can abort a pass. -/
theorem doSync_completes (hp : Faithful p c) (hlisting : ¬ ListingThrows p (orderBeaconUnit opts)) :
    ∃ pass, doSync mesh opts p repo = .ok pass := by
  obtain ⟨found, hfound⟩ : ∃ found, discovery mesh opts p c.tip repo = .ok found := by
    unfold discovery
    cases hholders : p.getAssetAddresses (orderBeaconUnit opts) with
    | error e => exact absurd (.inr (.inl ⟨e, hholders⟩)) hlisting
    | ok holders =>
        apply exists_forEach_ok
        intro address hmem pass
        unfold discoverAt
        cases hutxos : p.getUtxosByAddress address (orderBeaconUnit opts) with
        | error e =>
            exact absurd (.inr (.inr ⟨holders, hholders, address, hmem, e, hutxos⟩)) hlisting
        | ok utxos =>
            exact exists_forEach_ok fun utxo _ => discover_completes mesh opts hp c.tip utxo
  obtain ⟨retired, hretired, -⟩ := retired_of_retirement mesh opts hp c.tip found
  exact ⟨_, (doSync_eq_ok hp).mpr ⟨found, retired, hfound, hretired, rfl⟩⟩

theorem ChainState.provider_completes {listing : List UTxO} (repo : OrdersRepo) :
    ∃ pass, doSync mesh opts (c.provider listing) repo = .ok pass :=
  doSync_completes provider_faithful (by simp [ListingThrows, provider])

/-- The open ids of a completed pass: those discovery saw and left open, and
those surfaced from an unseen open id. -/
theorem isOpen_of_doSync (hp : Faithful p c) (h : doSync mesh opts p repo = .ok pass) :
    ∃ found, discovery mesh opts p c.tip repo = .ok found ∧
      (∀ x, (repo.statusOf x).isSome → (pass.repo.statusOf x).isSome) ∧
      ∀ x, pass.repo.IsOpen x ↔ x ∈ found.seenOpen ∧ found.repo.IsOpen x ∨
        x ∉ found.seenOpen ∧
          SurfacedFrom mesh opts c found found.repo.listOpenOrderIds x := by
  obtain ⟨found, retired, hfound, hretired, rfl⟩ := (doSync_eq_ok hp).mp h
  obtain ⟨retired', hok, hspec⟩ := retired_of_retirement mesh opts hp c.tip found
  obtain rfl := Except.ok.inj (hretired.symm.trans hok)
  refine ⟨found, hfound, ?_, ?_⟩
  · intro x hx
    exact hspec.rows x ((discovered_of_discovery hp.truthful hfound).rows x hx)
  · intro x
    rw [OrdersRepo.isOpen_setCursor, hspec.isOpen, OrdersRepo.mem_listOpenOrderIds]
    by_cases hseen : x ∈ found.seenOpen
    · simp [hseen]
    · simp [hseen]

/-- **The status of an unspent order after a pass**, whatever the listing. -/
theorem isOpen_doSync (hp : Faithful p c) (h : doSync mesh opts p repo = .ok pass)
    (hlive : c.spender ref = none) :
    pass.repo.IsOpen (orderIdOf ref) ↔
      Listed mesh opts p ref ∧ (repo.IsOpen (orderIdOf ref) ∨ Confirmed opts c ref) ∨
      ¬ Listed mesh opts p ref ∧ ∃ parent, repo.IsOpen (orderIdOf parent) ∧
        ¬ Listed mesh opts p parent ∧ Surfaces mesh opts c parent ref := by
  have ht := hp.truthful
  obtain ⟨found, hfound, -, hopen⟩ := isOpen_of_doSync hp h
  rw [hopen, mem_seenOpen_of_discovery ht hfound, isOpen_of_discovery ht hfound hlive]
  by_cases hlisted : Listed mesh opts p ref
  · simp [hlisted]
  · simp only [hlisted, false_and, not_false_eq_true, true_and, false_or, SurfacedFrom]
    constructor
    · rintro ⟨parent, child, hparent, hunseen, hsurf, heq⟩
      obtain rfl := orderIdOf_injective heq
      rw [mem_seenOpen_of_discovery ht hfound] at hunseen
      rw [OrdersRepo.mem_listOpenOrderIds,
        isOpen_parent_of_discovery ht hfound hlive hlisted hunseen hsurf.1] at hparent
      exact ⟨parent, hparent, hunseen, hsurf⟩
    · rintro ⟨parent, hparent, hunlisted, hsurf⟩
      refine ⟨parent, ref, ?_, ?_, hsurf, rfl⟩
      · rw [OrdersRepo.mem_listOpenOrderIds,
          isOpen_parent_of_discovery ht hfound hlive hlisted hunlisted hsurf.1]
        exact hparent
      · rwa [mem_seenOpen_of_discovery ht hfound]

/-- Nothing is open after a pass but what was listed or surfaced. -/
theorem listed_or_surfaced (hp : Faithful p c) (h : doSync mesh opts p repo = .ok pass) {x : Str}
    (hopen : pass.repo.IsOpen x) :
    ∃ ref, x = orderIdOf ref ∧
      (Listed mesh opts p ref ∨ ∃ parent, Surfaces mesh opts c parent ref) := by
  obtain ⟨found, hfound, -, hiff⟩ := isOpen_of_doSync hp h
  obtain ⟨hseen, -⟩ | ⟨-, parent, child, -, -, hsurf, rfl⟩ := (hiff x).mp hopen
  · have hmem := ((discovered_of_discovery hp.truthful hfound).seen x).mp hseen
    obtain ⟨u, hlists, hacc, rfl⟩ := hmem.resolve_left List.not_mem_nil
    exact ⟨u.input, rfl, .inl ⟨u, hlists, hacc, rfl⟩⟩
  · exact ⟨child, rfl, .inr ⟨parent, hsurf⟩⟩

end Pass

end BeaconDex.Backend
