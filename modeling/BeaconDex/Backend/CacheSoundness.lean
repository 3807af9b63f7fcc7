import BeaconDex.Backend.StatusSoundness

/-!
# What the cache says

`OrderIndexer` writes three kinds of things into the cache: a row for an output it
took for an order, how a row was spent, and which order continues which.  Every
write rests on an answer of the chain provider, and most answers may fail to come.

`cache_sound` says that nothing the cache ever holds is wrong.  It is over every
run of passes and of `repairLineage`, completed or thrown out of at any call, over
chain states that may be forks of one another, with listings that may show only
some of the holders.

## What a row claims

`CacheSound` is stated of a cache and a history, in terms of the chain: the row of
an output is what `validateAndMap` makes of it, a spend is the redeemer it was made
with, a lineage is a line of fills.

None of these is about the present.  A reorganisation may take a transaction off the
chain and another pass may bring it back; what is asked of the chain states of a run
is only that a hash names one transaction in all of them (`History`).

## How it is kept

There is one lemma for each write, and every loop of a pass keeps what each of its
turns keeps, so a pass that stops half way has kept it as well.
-/

namespace BeaconDex.Backend

open Library

/-! ## Truth -/

/-- A recorded lineage names the order that was filled, and one the line of fills
passed or began with. -/
def LineageTrue (opts : IndexerOptions) (history : History) (child : OutRef) (l : Lineage) : Prop :=
  ∃ parent root, l = ⟨orderIdOf parent, orderIdOf root⟩ ∧ history.Fills opts parent child ∧
    Relation.ReflTransGen (history.Fills opts) root parent

/-- **The cache is right** about the history: the rows are outputs that were created, the
spends happened as they are recorded, every lineage is one of the chain, and rows show the
lineage that is recorded for them. -/
structure CacheSound (mesh : Mesh) (opts : IndexerOptions) (history : History)
    (repo : OrdersRepo) : Prop extends StatusSound mesh opts history repo where
  lineages : ∀ id l, repo.getLineage id = some l →
    ∃ child, id = orderIdOf child ∧ LineageTrue opts history child l
  /-- Rows show the lineage recorded for them, or none. -/
  shown : ∀ id row, repo.getOrder id = some row →
    row.parentOrderId = (repo.getLineage id).map Lineage.parentOrderId ∧
      row.rootOrderId = (repo.getLineage id).map Lineage.rootOrderId

section Sound

variable {mesh : Mesh} {opts : IndexerOptions} {p : ChainProvider} {c : ChainState}
variable {history : History} {repo : OrdersRepo}

namespace CacheSound

/-- An empty cache is sound. -/
theorem empty : CacheSound mesh opts history .empty where
  toStatusSound := .empty
  lineages id l h := by cases h
  shown id row h := by cases h

/-- The cursor has no part in it. -/
theorem setCursor (h : CacheSound mesh opts history repo) (slot : ℕ) :
    CacheSound mesh opts history (repo.setCursor slot) :=
  ⟨h.toStatusSound.setCursor slot, h.lineages, h.shown⟩

/-- Caching an order as it was mapped. -/
theorem upsertOpenOrder (h : CacheSound mesh opts history repo) {row : Order}
    (hrow : Genuine mesh opts history row) (hparent : row.parentOrderId = none)
    (hroot : row.rootOrderId = none) :
    CacheSound mesh opts history (repo.upsertOpenOrder row) where
  toStatusSound := h.toStatusSound.upsertOpenOrder hrow
  lineages := h.lineages
  shown id row' h' := by
    obtain hold | ⟨-, -, hshown, hshown'⟩ := getOrder_upsertOpenOrder h'
    · exact h.shown id row' hold
    · rw [hparent, Option.or_none] at hshown
      rw [hroot, Option.or_none] at hshown'
      exact ⟨hshown, hshown'⟩

/-- Recording a spend that happened, or an unknown one. -/
theorem markSpent (h : CacheSound mesh opts history repo) {ref : OutRef} {status : SpentStatus}
    {txHash : Option Str} {slot : Option ℕ}
    (hspend : status ≠ .unknown → SpendTrue history ref status txHash) :
    CacheSound mesh opts history (repo.markSpent (orderIdOf ref) status txHash slot) where
  toStatusSound := h.toStatusSound.markSpent hspend
  lineages id l h' := by
    rw [OrdersRepo.getLineage_markSpent] at h'
    exact h.lineages id l h'
  shown id row' h' := by
    obtain ⟨row, hrow, -, hparent, hroot⟩ := getOrder_markSpent h'
    rw [OrdersRepo.getLineage_markSpent, hparent, hroot]
    exact h.shown id row hrow

/-- Recording a fill that happened. -/
theorem setLineage (h : CacheSound mesh opts history repo) {child parent root : OutRef}
    (hfill : history.Fills opts parent child)
    (hroot : Relation.ReflTransGen (history.Fills opts) root parent) :
    CacheSound mesh opts history
      (repo.setLineage (orderIdOf child) (orderIdOf parent) (orderIdOf root)) where
  toStatusSound := h.toStatusSound.setLineage _ _ _
  lineages id l h' := by
    rw [OrdersRepo.getLineage_setLineage] at h'
    split at h'
    · next heq =>
        obtain rfl := Option.some.inj h'
        exact ⟨child, heq, parent, root, rfl, hfill, hroot⟩
    · exact h.lineages id l h'
  shown id row' h' := by
    obtain ⟨row, hrow, -, hshown, hshown'⟩ := getOrder_setLineage h'
    rw [OrdersRepo.getLineage_setLineage, hshown, hshown']
    split
    · exact ⟨rfl, rfl⟩
    · exact h.shown id row hrow

/-- A mapped order is cached, at whatever slot. -/
theorem cached (h : CacheSound mesh opts history repo) {u : UTxO} {row : Order}
    (hu : history.Created u.input u) (hrow : validateAndMap mesh opts u = some row) (slot : ℕ) :
    CacheSound mesh opts history (repo.upsertOpenOrder { row with createdAtSlot := some slot }) := by
  have hbare := (bare_of_validateAndMap hrow).1
  refine h.upsertOpenOrder ((genuine_of_validateAndMap hu hrow).of_bare rfl) ?_ ?_
  · exact (congrArg Order.parentOrderId hbare).symm
  · exact (congrArg Order.rootOrderId hbare).symm

end CacheSound

/-!
## What the chain answers

Each answer that leads to a write, with the fact of the chain it is evidence of.
-/

variable (opts) in
/-- A classification that was not cut short is the one the chain gives. -/
theorem classifySpend_of_truthful (hp : Truthful p c) (order : Order) :
    classifySpend opts p order = ⟨.unknown, none, none⟩ ∨
      classifySpend opts p order = classifySpend opts (c.provider []) order := by
  have hchain : ∀ hash, (c.provider []).getTxUtxos hash = .ok (c.txUtxos hash) := fun _ => rfl
  have hchain' : ∀ hash, (c.provider []).getSpendRedeemers hash = .ok (c.spendRedeemers hash) :=
    fun _ => rfl
  simp only [classifySpend, tryClassifySpend, bind, Except.bind, hchain, hchain']
  cases hcreated : p.getTxUtxos order.txHash with
  | error e => exact .inl rfl
  | ok created =>
      obtain rfl := hp.getTxUtxos _ _ hcreated
      dsimp only
      cases ((c.txUtxos order.txHash).bind fun tx => tx.outputs[order.outputIndex]?).bind
          TxOutput.consumedByTx with
      | none => exact .inl rfl
      | some spendTx =>
          dsimp only
          cases hconsuming : p.getTxUtxos spendTx with
          | error e => exact .inl rfl
          | ok consuming =>
              obtain rfl := hp.getTxUtxos _ _ hconsuming
              dsimp only
              cases hredeemers : p.getSpendRedeemers spendTx with
              | error e => exact .inl rfl
              | ok redeemers =>
                  obtain rfl := hp.getSpendRedeemers _ _ hredeemers
                  exact .inr rfl

/-- A continuation found is one. -/
theorem continues_of_classifySpend (hp : Truthful p c) {order : Order} {id : Str}
    (h : (classifySpend opts p order).childOrderId = some id) :
    ∃ child, Continues opts c order.ref child ∧ id = orderIdOf child := by
  obtain hcut | hsame := classifySpend_of_truthful opts hp order
  · rw [hcut] at h
    cases h
  · rw [hsame] at h
    exact (classifySpend_childOrderId ChainState.provider_faithful).mp h

/-- An order the climb reaches is what its output is mapped to. -/
theorem mapped_of_climbStep (hp : Truthful p c) {node parent : Order}
    (h : climbStep mesh opts p repo node = .ok (.parent parent)) :
    ∃ u, c.utxoAt u.input = some u ∧ validateAndMap mesh opts u = some parent := by
  obtain ⟨-, -, input, u, -, -, -, hparent, hvalid⟩ := climbStep_eq_parent h
  have hu : c.utxoAt input = some u := (hp.getTxOutput _ _ hparent).symm
  exact ⟨u, by rwa [ChainState.input_of_utxoAt hu], hvalid⟩

/-- Where nothing is linked, the climb ends at the node itself. -/
theorem rootId_of_climbStep {node : Order} {rootId : Str}
    (hlineage : repo.getLineage node.orderId = none)
    (h : climbStep mesh opts p repo node = .ok (.root rootId)) : rootId = node.orderId := by
  simp only [climbStep, hlineage, bind, bind_eq_ok] at h
  obtain ⟨creatingTx, -, h⟩ := h
  split at h
  · exact (Climbed.root.inj (Except.ok.inj h)).symm
  obtain ⟨redeemers, -, h⟩ := bind_eq_ok.mp h
  split at h
  · exact (Climbed.root.inj (Except.ok.inj h)).symm
  split at h
  · exact (Climbed.root.inj (Except.ok.inj h)).symm
  obtain ⟨parentUtxo, -, h⟩ := bind_eq_ok.mp h
  split at h
  · exact (Climbed.root.inj (Except.ok.inj h)).symm
  · cases h

/-- A link the climb collects: a fill, of an order as it is mapped, that a line of
fills leads to from `origin`. -/
structure LinkTrue (mesh : Mesh) (opts : IndexerOptions) (c : ChainState) (history : History)
    (origin : OutRef) (link : Link) : Prop where
  fill : Continues opts c link.parent.ref link.child.ref
  spendTx : link.spendTx = link.child.txHash
  line : Relation.ReflTransGen (history.Fills opts) origin link.parent.ref
  mapped : ∃ u, c.utxoAt u.input = some u ∧ validateAndMap mesh opts u = some link.parent

/-- **The climb** collects fills, and the root it finds is where they began or a
point the line passed. -/
theorem linkTrue_of_climb (hp : Truthful p c) (hc : c ∈ history.chains)
    (hsound : CacheSound mesh opts history repo) {depth : ℕ} {node : Order}
    {chain chain' : List Link} {rootId : Str}
    (hclimb : climb mesh opts p repo depth node chain = .ok (chain', some rootId))
    (hchain : ∀ l ∈ chain, LinkTrue mesh opts c history node.ref l) :
    ∃ root, rootId = orderIdOf root ∧ ∀ l ∈ chain', LinkTrue mesh opts c history root l := by
  induction depth generalizing node chain with
  | zero => cases hclimb
  | succ depth ih =>
      obtain ⟨climbed, hstep, hclimb⟩ := bind_eq_ok.mp hclimb
      cases climbed with
      | parent parent =>
          have hfill := continues_of_climbStep hp hstep
          refine ih hclimb ?_
          intro l hl
          obtain hmem | rfl := List.mem_append.mp hl |>.imp_right List.mem_singleton.mp
          · obtain ⟨hcont, htx, hline, hmapped⟩ := hchain l hmem
            exact ⟨hcont, htx, .head ⟨c, hc, hfill⟩ hline, hmapped⟩
          · exact ⟨hfill, rfl, .refl, mapped_of_climbStep hp hstep⟩
      | root rootId' =>
          obtain ⟨rfl, rfl⟩ : chain = chain' ∧ rootId' = rootId := by
            simpa [pure, Except.pure] using hclimb
          cases hlineage : repo.getLineage node.orderId with
          | none =>
              -- the climb ends at the node itself
              refine ⟨node.ref, ?_, hchain⟩
              rw [← node.orderId_eq_ref]
              exact rootId_of_climbStep hlineage hstep
          | some existing =>
              -- the node is linked already, and its lineage is true
              obtain ⟨child, hchild, parent, root, hl, hfill, hroot⟩ :=
                hsound.lineages _ _ hlineage
              rw [node.orderId_eq_ref] at hchild
              obtain rfl := orderIdOf_injective hchild
              simp only [climbStep, hlineage, pure, Except.pure, Except.ok.injEq,
                Climbed.root.injEq] at hstep
              refine ⟨root, by rw [← hstep, hl], fun l hmem => ?_⟩
              obtain ⟨hcont, htx, hline, hmapped⟩ := hchain l hmem
              exact ⟨hcont, htx, (hroot.tail hfill).trans hline, hmapped⟩

/-!
## The writes

A fill that is written down, and the whole of a backfill, on the evidence of a climb.
-/

/-- The provider answers about `c`, a chain state of the history, and lists nothing
that was never there. -/
structure Observes (opts : IndexerOptions) (history : History) (p : ChainProvider)
    (c : ChainState) : Prop where
  chain : c ∈ history.chains
  truthful : Truthful p c
  listed : ∀ u, Lists p (orderBeaconUnit opts) u → history.Created u.input u

namespace CacheSound

/-- One recovered fill. -/
theorem writeLink (h : CacheSound mesh opts history repo) (hc : c ∈ history.chains) {root : OutRef}
    {link : Link} (hlink : LinkTrue mesh opts c history root link) (tipSlot : ℕ) :
    CacheSound mesh opts history (writeLink tipSlot (orderIdOf root) repo link) := by
  obtain ⟨u, hu, hrow⟩ := hlink.mapped
  rw [Backend.writeLink, link.parent.orderId_eq_ref, link.child.orderId_eq_ref]
  refine ((h.cached ⟨c, hc, hu⟩ hrow tipSlot).markSpent fun _ => ?_).setLineage
    ⟨c, hc, hlink.fill⟩ hlink.line
  obtain ⟨tx, idx, hfill⟩ := hlink.fill
  obtain ⟨idx, hidx, hredeemer⟩ := hfill.spentUnder.redeemer
  exact ⟨c, hc, tx, ⟨hfill.created, hfill.spender, idx, hidx, _, hredeemer, rfl, rfl⟩,
    congrArg some (hlink.spendTx.trans hfill.hash)⟩

/-- **Backfilling writes the truth.** -/
theorem backfillAncestry (h : CacheSound mesh opts history repo) (hp : Truthful p c)
    (hc : c ∈ history.chains) (order : Order) (tipSlot : ℕ) :
    CacheSound mesh opts history (backfillAncestry mesh opts p repo order tipSlot) := by
  unfold Backend.backfillAncestry
  split
  · next chain rootId hclimb =>
      obtain ⟨root, rfl, hlinks⟩ := linkTrue_of_climb hp hc h hclimb (by simp)
      refine List.foldlRecOn _ _ h fun repo hrepo link hmem => hrepo.writeLink hc ?_ tipSlot
      exact hlinks link (List.mem_reverse.mp hmem)
  · exact h

/-- **Every write keeps the cache right.** -/
theorem upkeep (hp : Observes opts history p c) :
    Upkeep mesh opts history p (CacheSound mesh opts history) where
  sighted := hp.truthful.honest.sighted hp.chain hp.listed
  setCursor h := h.setCursor
  cached h _ _ hu hrow := h.cached hu hrow
  backfilled h := h.backfillAncestry hp.truthful hp.chain
  retired h cached := by
    rw [cached.orderId_eq_ref]
    refine h.markSpent fun hknown => ?_
    obtain ⟨tx, hspent, htx⟩ := spentAs_of_classifySpend hp.truthful.honest hknown
    exact ⟨c, hp.chain, tx, hspent, htx⟩
  linked {repo} h cached childOrderId hchild := by
    obtain ⟨child, hfill, rfl⟩ := continues_of_classifySpend hp.truthful hchild
    rw [cached.orderId_eq_ref]
    -- the root recorded is that of the parent's own lineage, if it has one
    cases hlineage : repo.getLineage (orderIdOf cached.ref) with
    | none => exact h.setLineage ⟨c, hp.chain, hfill⟩ .refl
    | some lineage =>
        obtain ⟨ref, href, parent, root, rfl, hfill', hroot⟩ := h.lineages _ _ hlineage
        obtain rfl := orderIdOf_injective href
        exact h.setLineage ⟨c, hp.chain, hfill⟩ (hroot.tail hfill')

end CacheSound

/-!
## Runs

Any passes and repairs, one after the other, over states that may be of different forks.
-/

/-- What is done to the cache: a pass, however it ends, or a repair that completes.  Each
has a provider and a chain state of its own, which may be of any fork of the history. -/
inductive Maintains (mesh : Mesh) (opts : IndexerOptions) (history : History)
    (repo : OrdersRepo) : ChainProvider × ChainState → OrdersRepo → Prop
  | pass {p : ChainProvider} {c : ChainState} (observes : Observes opts history p c) :
      Maintains mesh opts history repo (p, c) (doSync mesh opts p repo).state.repo
  | repair {p : ChainProvider} {c : ChainState} (observes : Observes opts history p c)
      {done : Repair} (result : repairLineage mesh opts p repo = .ok done) :
      Maintains mesh opts history repo (p, c) done.repo

/-- **Step lemma.** -/
theorem CacheSound.maintained {observed : ChainProvider × ChainState} {repo' : OrdersRepo}
    (h : CacheSound mesh opts history repo)
    (hstep : Maintains mesh opts history repo observed repo') :
    CacheSound mesh opts history repo' := by
  cases hstep with
  | pass observes => exact (CacheSound.upkeep observes).doSync h
  | repair observes result => exact (CacheSound.upkeep observes).repairLineage h result

/-- **Run lemma.** -/
theorem CacheSound.run {observed : List (ChainProvider × ChainState)} {repo' : OrdersRepo}
    (h : CacheSound mesh opts history repo)
    (hrun : Run (Maintains mesh opts history) repo observed repo') :
    CacheSound mesh opts history repo' :=
  hrun.keeps (I := CacheSound mesh opts history) (fun hstep hsound => hsound.maintained hstep) h

/-- **Nothing the cache says is wrong.**  Over any run of passes and repairs on an
empty cache, whichever calls fail: every row is what `validateAndMap` makes of an
output that was created under its id, every recorded spend was made under the
redeemer its status stands for, and every recorded lineage is a line of fills. -/
theorem cache_sound {observed : List (ChainProvider × ChainState)}
    (hrun : Run (Maintains mesh opts history) .empty observed repo) :
    CacheSound mesh opts history repo :=
  CacheSound.empty.run hrun

end Sound

namespace SampleChain

set_option maxRecDepth 100000 in
/-- The chain before and after the fill. -/
def history : History where
  chains := {c | c = created ∨ c = filled}
  content := by
    have hsame : ∀ tx ∈ filled.txs.entries, ∀ tx' ∈ filled.txs.entries,
        tx.hash = tx'.hash → tx = tx' := by decide
    have hmem : ∀ c, c = created ∨ c = filled → ∀ tx ∈ c.txs.entries, tx ∈ filled.txs.entries := by
      rintro c (rfl | rfl)
      · decide
      · exact fun tx htx => htx
    exact fun c hc c' hc' tx htx tx' htx' => hsame tx (hmem c hc tx htx) tx' (hmem c' hc' tx' htx')

theorem exact_observes {c : ChainState} (hc : c ∈ history.chains) :
    Observes opts history (exact c) c where
  chain := hc
  truthful := ChainState.provider_faithful.truthful
  listed u hu := by
    have hlive := ChainState.provider_exact.1 u hu
    exact ⟨c, hc, (ChainState.liveUtxo_eq_some.mp hlive).2⟩

end SampleChain

open SampleChain in
theorem cache_sound_sample : CacheSound mesh opts history
    (doSync mesh opts (exact filled)
      (doSync mesh opts (exact created) .empty).state.repo).state.repo :=
  cache_sound (.cons (.pass (exact_observes (Or.inl rfl)))
    (.single (.pass (exact_observes (Or.inr rfl)))))

end BeaconDex.Backend
