import BeaconDex.Backend.CacheSoundness
import BeaconDex.Backend.KoiosClient

/-!
# What Koios can do to the cache

The client promises that a shape it does not know degrades an order to `unknown` and
"never misclassifies".  `koios_statuses` is that promise, over any run of passes and
repairs: whatever Koios fails to answer, leaves out or reports in another shape, every
row in the cache is an output that was created, and every status but `unknown` is the
redeemer the order was spent under.

When Koios does answer, the only thing that can be missing is the redeemers.  In
particular the walk along an address finds the spender of every spent output
(`findSpendingTx_of_spent`), so that the provider is faithful exactly if it reads the
redeemers (`koios_faithful_iff`).

## Shapes

Koios answers in JSON, and the client reads the fields it knows from values of any
shape.  The model has the shapes as data, with a case for all that the client does not
recognise, and truthfulness of the service is a relation between the chain and what the
recognised fields say.
-/

namespace BeaconDex.Backend

open Library

/-!
## Koios and a chain state

What it is for the rows of the service to be true of a chain.
-/

/-- An entry of `/tx_utxos` is the output reported as `o`, of the transaction `hash`. -/
structure EntryOf (hash : Str) (entry : KoiosTxUtxoEntry) (o : TxOutput) : Prop where
  ref : entry.toOutRef = ⟨hash, o.outputIndex⟩
  address : entry.paymentAddr = o.address
  amount : koiosAmount entry.value entry.assetList = o.amount

/-- **What Koios reports is so** on the chain `c`.  Any call may fail, and any row may
be missing; a contract may come in any shape the client does not read as a redeemer. -/
structure Koios.Reports (api : Koios) (c : ChainState) : Prop where
  utxoInfo : ∀ ref rows, api.utxoInfo (orderIdOf ref) = .ok (some rows) → ∀ row ∈ rows,
    row.toOutRef = ref ∧ row.isSpent = (c.spender ref).isSome ∧ ∃ out, c.outputAt ref = some out ∧
      row.address = out.address ∧ koiosAmount row.value row.assetList = out.amount ∧
      row.plutusData = out.plutusData
  utxoSpent : ∀ refs rows, api.utxoSpent refs = .ok (some rows) → ∀ row ∈ rows,
    row.isSpent = (c.spender row.toOutRef).isSome
  txUtxos : ∀ hash rows, api.txUtxos hash = .ok (some rows) → ∀ row ∈ rows,
    ∃ tx, c.txAt hash = some tx ∧ row.inputs = tx.inputs ∧
      List.Forall₂ (EntryOf hash) row.outputs (tx.outputs.mapIdx (c.report hash))
  txInfo : ∀ hash rows, api.txInfo hash = .ok (some rows) → ∀ row ∈ rows,
    ∃ tx, c.txAt hash = some tx ∧ (∀ height, row.blockHeight = some height → height = tx.height) ∧
      ∀ contract ∈ row.plutusContracts.getD [], ∀ r, spendRedeemer? contract = some r →
        r ∈ tx.redeemers

section

variable {api : Koios} {c : ChainState} {ref : OutRef} {tx : ChainTx} {history : History}
variable {mesh : Mesh} {opts : IndexerOptions} {repo : OrdersRepo}

theorem exists_of_firstRow {α : Type} {rows : Option (List α)} {row : α}
    (h : firstRow rows = some row) : ∃ all, rows = some all ∧ row ∈ all := by
  obtain ⟨all, rfl, hhead⟩ := Option.bind_eq_some_iff.mp h
  exact ⟨all, rfl, List.mem_of_head? hhead⟩

theorem isSome_firstRow {α : Type} {rows : List α} {row : α} (h : row ∈ rows) :
    (firstRow (some rows)).isSome := by
  cases rows with
  | nil => cases h
  | cons first rows => rfl

/-!
## Honesty

Each call of the client, on rows that are true: what it returns is true, and what it
could not read it leaves out.
-/

/-- The first candidate with the output among its inputs spent it. -/
theorem spender_of_firstSpender (hapi : api.Reports c) {candidates : List KoiosTouch}
    {spendTx : Str} (h : firstSpender api ref candidates = .ok (some spendTx)) :
    ∃ tx, c.spender ref = some tx ∧ tx.hash = spendTx := by
  induction candidates with
  | nil => cases h
  | cons t candidates ih =>
      obtain ⟨rows, hrows, h⟩ := bind_eq_ok.mp h
      split at h
      · next hspends =>
          obtain rfl : t.txHash = spendTx := Option.some.inj (Except.ok.inj h)
          obtain ⟨row, hrow, hinput⟩ := (Option.any_eq_true _ _).mp hspends
          obtain ⟨all, rfl, hmem⟩ := exists_of_firstRow hrow
          obtain ⟨tx, htx, hinputs, -⟩ := hapi.txUtxos _ _ hrows row hmem
          obtain ⟨hentry, hhash⟩ := ChainState.txAt_eq_some.mp htx
          refine ⟨tx, ChainState.spender_eq_some.mpr ⟨hentry, ?_⟩, hhash⟩
          exact hinputs ▸ of_decide_eq_true hinput
      · exact ih h

/-- What the walk finds is the spender, since it looks at the inputs of what it finds. -/
theorem spender_of_findSpendingTx (hapi : api.Reports c) {address spendTx : Str}
    (h : findSpendingTx api address ref = some spendTx) :
    ∃ tx, c.spender ref = some tx ∧ tx.hash = spendTx := by
  unfold findSpendingTx at h
  split at h
  · next found hfound =>
      obtain rfl := h
      obtain ⟨created, -, hfound⟩ := bind_eq_ok.mp hfound
      obtain ⟨touches, -, hfound⟩ := bind_eq_ok.mp hfound
      exact spender_of_firstSpender hapi hfound
  · cases h

/-- An output that was fetched, and whether it had to be unspent. -/
theorem utxoAt_of_fetchOutput (hapi : api.Reports c) {requireUnspent : Bool} {u : UTxO}
    (hfetch : fetchOutput api ref requireUnspent = .ok (some u)) :
    c.utxoAt ref = some u ∧ (requireUnspent = true → c.spender ref = none) := by
  obtain ⟨rows, hrows, h⟩ := bind_eq_ok.mp hfetch
  split at h
  · cases h
  next row hrow =>
  obtain ⟨all, rfl, hmem⟩ := exists_of_firstRow hrow
  obtain ⟨rfl, hspent, out, hout, haddress, hamount, hdatum⟩ := hapi.utxoInfo _ _ hrows row hmem
  split at h
  · cases h
  next hunspent =>
  obtain rfl : koiosUtxoToMeshUtxo row = u := Option.some.inj (Except.ok.inj h)
  constructor
  · rw [ChainState.utxoAt, hout, koiosUtxoToMeshUtxo, haddress, hamount, hdatum]
    rfl
  · rintro rfl
    rw [hspent] at hunspent
    simpa using hunspent

/-- An output of a transaction, with its spender only if that was found. -/
theorem reportsOf_koiosOutput (hapi : api.Reports c) {flags : Str → Option Bool} {hash : Str}
    {i : ℕ} {out : ChainOutput} {entry : KoiosTxUtxoEntry}
    (h : EntryOf hash entry (c.report hash i out)) :
    ReportsOf (koiosOutput api flags entry) (c.report hash i out) where
  address := h.address
  amount := h.amount
  outputIndex := congrArg OutRef.outputIndex h.ref
  consumedByTx spendTx hspent := by
    unfold koiosOutput at hspent
    dsimp only at hspent
    split at hspent
    · obtain ⟨tx, hspender, rfl⟩ := spender_of_findSpendingTx hapi hspent
      rw [h.ref] at hspender
      rw [ChainState.report]
      exact congrArg (Option.map ChainTx.hash) hspender
    · cases hspent

/-- **The client is honest**, whatever Koios does not say. -/
theorem koios_honest (hapi : api.Reports c) : Honest (koiosChainProvider api) c where
  getUtxo ref u h := by
    obtain ⟨hat, hunspent⟩ := utxoAt_of_fetchOutput hapi h
    exact ChainState.liveUtxo_eq_some.mpr ⟨hunspent rfl, hat⟩
  getTxOutput ref u h := (utxoAt_of_fetchOutput hapi h).1
  getTxUtxos hash answer h := by
    obtain ⟨rows, hrows, h⟩ := bind_eq_ok.mp h
    split at h
    · cases h
    next raw hraw =>
    obtain ⟨flags, -, h⟩ := bind_eq_ok.mp h
    obtain ⟨all, rfl, hmem⟩ := exists_of_firstRow hraw
    obtain ⟨tx, htx, hinputs, hentries⟩ := hapi.txUtxos _ _ hrows raw hmem
    obtain rfl := Option.some.inj (Except.ok.inj h)
    refine ⟨tx, htx, hinputs, List.forall₂_map_left_iff.mpr ?_⟩
    rw [List.mapIdx_eq_zipIdx_map, List.forall₂_map_right_iff] at hentries ⊢
    exact hentries.imp fun entry out hentry => reportsOf_koiosOutput hapi hentry
  getSpendRedeemers hash answer h r hr := by
    obtain rfl := Except.ok.inj h
    unfold koiosSpendRedeemers at hr
    split at hr
    · next rows hrows =>
        obtain ⟨contract, hcontract, hread⟩ := List.mem_filterMap.mp hr
        cases hrow : firstRow rows with
        | none =>
            rw [hrow] at hcontract
            cases hcontract
        | some row =>
            rw [hrow] at hcontract
            obtain ⟨all, rfl, hmem⟩ := exists_of_firstRow hrow
            obtain ⟨tx, htx, -, hredeemers⟩ := hapi.txInfo _ _ hrows row hmem
            rw [ChainState.spendRedeemers, htx]
            exact hredeemers contract hcontract r hread
    · cases hr

/-!
## Runs

An honest provider is all that the rows and spends of the cache rest on.
-/

/-- A view of the API onto the chain `c`, with listings of outputs that were created. -/
structure KoiosView (opts : IndexerOptions) (history : History) (api : Koios) (c : ChainState) :
    Prop where
  chain : c ∈ history.chains
  reports : api.Reports c
  fetched : ∀ address unit utxos, api.fetchAddressUTxOs address unit = .ok utxos →
    ∀ u ∈ utxos, history.Created u.input u

/-- What is done to the cache of a backend that runs on Koios: a pass, however it
ends, or a repair. -/
inductive KoiosMaintains (mesh : Mesh) (opts : IndexerOptions) (history : History)
    (repo : OrdersRepo) : Koios × ChainState → OrdersRepo → Prop
  | pass {api : Koios} {c : ChainState} (view : KoiosView opts history api c) :
      KoiosMaintains mesh opts history repo (api, c)
        (doSync mesh opts (koiosChainProvider api) repo).state.repo
  | repair {api : Koios} {c : ChainState} (view : KoiosView opts history api c) {done : Repair}
      (result : repairLineage mesh opts (koiosChainProvider api) repo = .ok done) :
      KoiosMaintains mesh opts history repo (api, c) done.repo

/-- Through the Koios client, all that a pass or a repair writes keeps the rows and the
recorded spends true. -/
theorem KoiosView.upkeep (h : KoiosView opts history api c) :
    Upkeep mesh opts history (koiosChainProvider api) (StatusSound mesh opts history) := by
  have hhonest := koios_honest h.reports
  refine StatusSound.upkeep hhonest h.chain (hhonest.sighted h.chain ?_)
  rintro u ⟨holders, -, address, -, utxos, hutxos, hu⟩
  cases hfetch : api.fetchAddressUTxOs address (orderBeaconUnit opts) with
  | error e =>
      -- a failed listing is an empty one
      simp only [koiosChainProvider, hfetch, Except.ok.injEq] at hutxos
      subst hutxos
      cases hu
  | ok fetched =>
      simp only [koiosChainProvider, hfetch, Except.ok.injEq] at hutxos
      exact h.fetched _ _ _ hfetch u (hutxos ▸ hu)

/-- **Step lemma.** -/
theorem StatusSound.koiosMaintained {observed : Koios × ChainState} {repo' : OrdersRepo}
    (h : StatusSound mesh opts history repo)
    (hstep : KoiosMaintains mesh opts history repo observed repo') :
    StatusSound mesh opts history repo' := by
  cases hstep with
  | pass view => exact view.upkeep.doSync h
  | repair view result => exact view.upkeep.repairLineage h result

/-- **Koios never misclassifies.**  Over any run of passes and repairs on an empty
cache, whatever Koios leaves unanswered or reports in a shape that is not read: every row
is what `validateAndMap` makes of an output that was created under its id, and every
status but `unknown` is the redeemer the order was spent under, by the transaction
recorded. -/
theorem koios_statuses {observed : List (Koios × ChainState)}
    (hrun : Run (KoiosMaintains mesh opts history) .empty observed repo) :
    StatusSound mesh opts history repo :=
  hrun.keeps (I := StatusSound mesh opts history)
    (fun hstep hsound => hsound.koiosMaintained hstep) .empty

/-!
## Exactness

If the service answers everything, the client loses nothing, but for redeemers it does
not recognise.
-/

/-- A transaction comes after those it spends from. -/
def ChainState.Ordered (c : ChainState) : Prop :=
  ∀ ref creator tx, c.txAt ref.txHash = some creator → c.spender ref = some tx →
    creator.height ≤ tx.height ∧ tx.hash ≠ creator.hash

/-- **Koios answers**, and lists every transaction that spent from an address.  What it
answers is true besides, and it knows every output and transaction of the chain; the one
thing that it may still report in a shape of its own are redeemers. -/
structure Koios.Answers (api : Koios) (c : ChainState) : Prop extends Koios.Reports api c where
  infoFound : ∀ ref, ∃ rows, api.utxoInfo (orderIdOf ref) = .ok rows ∧
    ((c.outputAt ref).isSome → (firstRow rows).isSome)
  spentFound : ∀ refs : List OutRef, ∃ rows, api.utxoSpent (refs.map orderIdOf) = .ok (some rows) ∧
    ∀ ref ∈ refs, (c.outputAt ref).isSome → ∃ row ∈ rows, row.toOutRef = ref
  utxosFound : ∀ hash, ∃ rows, api.txUtxos hash = .ok rows ∧
    ((c.txAt hash).isSome → (firstRow rows).isSome)
  txFound : ∀ hash, ∃ rows, api.txInfo hash = .ok rows ∧
    ((c.txAt hash).isSome → ((firstRow rows).bind KoiosTxInfo.blockHeight).isSome)
  touchFound : ∀ address, ∃ rows, api.addressTxs address = .ok (some rows) ∧
    ∀ ref out tx, c.outputAt ref = some out → out.address = address → c.spender ref = some tx →
      ∃ t ∈ rows, t.txHash = tx.hash ∧ t.blockHeight = tx.height
  tipFound : ∃ rows, api.tip = .ok (some (c.tip :: rows))

/-- The height Koios reports of a transaction. -/
theorem blockHeight_of_txInfo (hapi : api.Answers c) (hash : Str) :
    ∃ rows, api.txInfo hash = .ok rows ∧
      (firstRow rows).bind KoiosTxInfo.blockHeight = (c.txAt hash).map ChainTx.height := by
  obtain ⟨rows, hrows, hfound⟩ := hapi.txFound hash
  refine ⟨rows, hrows, ?_⟩
  cases hheight : (firstRow rows).bind KoiosTxInfo.blockHeight with
  | none =>
      rw [hheight] at hfound
      cases htx : c.txAt hash with
      | none => rfl
      | some tx => simp [htx] at hfound
  | some height =>
      obtain ⟨row, hrow, hreported⟩ := Option.bind_eq_some_iff.mp hheight
      obtain ⟨all, rfl, hmem⟩ := exists_of_firstRow hrow
      obtain ⟨tx, htx, hexact, -⟩ := hapi.txInfo _ _ hrows row hmem
      rw [htx, hexact height hreported]
      rfl

/-- What Koios reports of a transaction's inputs. -/
theorem mem_inputs_of_txUtxos (hapi : api.Answers c) (hash : Str) (ref : OutRef) :
    ∃ rows, api.txUtxos hash = .ok rows ∧
      (((firstRow rows).any fun tx => ref ∈ tx.inputs) = true ↔
        ∃ tx, c.txAt hash = some tx ∧ ref ∈ tx.inputs) := by
  obtain ⟨rows, hrows, hfound⟩ := hapi.utxosFound hash
  refine ⟨rows, hrows, ?_⟩
  cases hrow : firstRow rows with
  | none =>
      rw [hrow] at hfound
      cases htx : c.txAt hash with
      | none => simp
      | some tx => simp [htx] at hfound
  | some row =>
      obtain ⟨all, rfl, hmem⟩ := exists_of_firstRow hrow
      obtain ⟨tx, htx, hinputs, -⟩ := hapi.txUtxos _ _ hrows row hmem
      simp [htx, hinputs]

/-- A walk over candidates that include the spender finds it. -/
theorem firstSpender_of_mem (hapi : api.Answers c) (hspender : c.spender ref = some tx)
    {candidates : List KoiosTouch} (hmem : ∃ t ∈ candidates, t.txHash = tx.hash) :
    firstSpender api ref candidates = .ok (some tx.hash) := by
  induction candidates with
  | nil =>
      obtain ⟨t, ht, -⟩ := hmem
      cases ht
  | cons t candidates ih =>
      obtain ⟨rows, hrows, hinputs⟩ := mem_inputs_of_txUtxos hapi t.txHash ref
      have hstep : firstSpender api ref (t :: candidates) =
          if (firstRow rows).any fun tx => ref ∈ tx.inputs then .ok (some t.txHash)
          else firstSpender api ref candidates := by
        rw [firstSpender, hrows]
        rfl
      obtain ⟨hentry, hinput⟩ := ChainState.spender_eq_some.mp hspender
      rw [hstep]
      split
      · next hfound =>
          obtain ⟨tx', htx', hinput'⟩ := hinputs.mp hfound
          obtain ⟨hentry', hhash⟩ := ChainState.txAt_eq_some.mp htx'
          have hsame : some tx' = some tx :=
            (ChainState.spender_eq_some.mpr ⟨hentry', hinput'⟩).symm.trans hspender
          rw [← hhash, Option.some.inj hsame]
      · next hpassed =>
          obtain ⟨t', ht', hhash⟩ := hmem
          obtain rfl | ht' := List.mem_cons.mp ht'
          · exact absurd (hinputs.mpr ⟨tx, ChainState.txAt_eq_some.mpr ⟨hentry, hhash.symm⟩, hinput⟩)
              hpassed
          · exact ih ⟨t', ht', hhash⟩

/-- **The walk finds the spender** of every output that has one. -/
theorem findSpendingTx_of_spent (hapi : api.Answers c) (hordered : c.Ordered) {out : ChainOutput}
    (hout : c.outputAt ref = some out) (hspender : c.spender ref = some tx) :
    findSpendingTx api out.address ref = some tx.hash := by
  obtain ⟨creator, hcreator, -⟩ := Option.bind_eq_some_iff.mp hout
  obtain ⟨infos, hinfos, hheight⟩ := blockHeight_of_txInfo hapi ref.txHash
  obtain ⟨touches, htouches, hlisted⟩ := hapi.touchFound out.address
  obtain ⟨t, ht, hhash, hat⟩ := hlisted ref out tx hout rfl hspender
  obtain ⟨hle, hne⟩ := hordered ref creator tx hcreator hspender
  have hfind : tryFindSpendingTx api out.address ref = .ok (some tx.hash) := by
    rw [tryFindSpendingTx, hinfos, htouches]
    refine firstSpender_of_mem hapi hspender ⟨t, ?_, hhash⟩
    rw [List.mem_insertionSort, List.mem_filter]
    refine ⟨ht, decide_eq_true ⟨?_, ?_⟩⟩
    · rw [hhash, ← (ChainState.txAt_eq_some.mp hcreator).2]
      exact hne
    · rw [hheight, hcreator, hat]
      exact hle
  rw [findSpendingTx, hfind]

/-- The output itself. -/
theorem fetchOutput_of_answers (hapi : api.Answers c) (ref : OutRef) (requireUnspent : Bool) :
    fetchOutput api ref requireUnspent =
      .ok (if requireUnspent then c.liveUtxo ref else c.utxoAt ref) := by
  obtain ⟨rows, hrows, hfound⟩ := hapi.infoFound ref
  rw [fetchOutput, hrows]
  cases hrow : firstRow rows with
  | none =>
      rw [hrow] at hfound
      cases hout : c.outputAt ref with
      | none => simp [ChainState.liveUtxo, ChainState.utxoAt, hout, bind, Except.bind, hrow, pure,
          Except.pure]
      | some out => simp [hout] at hfound
  | some row =>
      obtain ⟨all, rfl, hmem⟩ := exists_of_firstRow hrow
      obtain ⟨href, hspent, out, hout, haddress, hamount, hdatum⟩ := hapi.utxoInfo _ _ hrows row hmem
      have hutxo : c.utxoAt ref = some (koiosUtxoToMeshUtxo row) := by
        rw [ChainState.utxoAt, hout, koiosUtxoToMeshUtxo, href, haddress, hamount, hdatum]
        rfl
      cases requireUnspent <;> cases hspender : c.spender ref <;>
        simp [ChainState.liveUtxo, hutxo, hspent, hspender, bind, Except.bind, hrow, pure, Except.pure]

/-- The flags of the outputs asked for. -/
theorem batchIsSpent_of_answers (hapi : api.Answers c) (refs : List OutRef) :
    ∃ flags, batchIsSpent api refs = .ok flags ∧ ∀ ref ∈ refs, (c.outputAt ref).isSome →
      (flags (orderIdOf ref)).getD false = (c.spender ref).isSome := by
  unfold batchIsSpent
  split
  · next hnil => exact ⟨_, rfl, fun ref href => absurd (hnil ▸ href) List.not_mem_nil⟩
  obtain ⟨rows, hrows, hfound⟩ := hapi.spentFound refs
  rw [hrows]
  refine ⟨_, rfl, fun ref href hout => ?_⟩
  obtain ⟨row, hrow, rfl⟩ := hfound ref href hout
  cases hlast : rows.reverse.find? fun r => orderIdOf r.toOutRef = orderIdOf row.toOutRef with
  | none =>
      have hall := List.find?_eq_none.mp hlast row (List.mem_reverse.mpr hrow)
      simp at hall
  | some last =>
      have hsame : last.toOutRef = row.toOutRef :=
        orderIdOf_injective (of_decide_eq_true (List.find?_some hlast :))
      have hspent := hapi.utxoSpent _ _ hrows last
        (List.mem_reverse.mp (List.mem_of_find?_eq_some hlast))
      rw [Option.getD_some, hlast, Option.map_some, Option.getD_some, hspent, hsame]

/-- One output, with its spender. -/
theorem koiosOutput_of_answers (hapi : api.Answers c) (hordered : c.Ordered)
    {flags : Str → Option Bool} {hash : Str} {i : ℕ} {out : ChainOutput} {entry : KoiosTxUtxoEntry}
    (hout : c.outputAt ⟨hash, i⟩ = some out)
    (hflags : (flags (orderIdOf ⟨hash, i⟩)).getD false = (c.spender ⟨hash, i⟩).isSome)
    (h : EntryOf hash entry (c.report hash i out)) :
    koiosOutput api flags entry = c.report hash i out := by
  have href : entry.toOutRef = ⟨hash, i⟩ := h.ref
  have haddress : entry.paymentAddr = out.address := h.address
  have hamount : koiosAmount entry.value entry.assetList = out.amount := h.amount
  rw [koiosOutput, ChainState.report, href, hflags, haddress, hamount]
  cases hspender : c.spender ⟨hash, i⟩ with
  | none => rfl
  | some tx =>
      rw [findSpendingTx_of_spent hapi hordered hout hspender]
      rfl

/-- **A transaction is reported as it is**, with the spender of every output. -/
theorem koiosTxUtxos_of_answers (hapi : api.Answers c) (hordered : c.Ordered) (hash : Str) :
    koiosTxUtxos api hash = .ok (c.txUtxos hash) := by
  obtain ⟨rows, hrows, hfound⟩ := hapi.utxosFound hash
  rw [koiosTxUtxos, hrows]
  cases hrow : firstRow rows with
  | none =>
      rw [hrow] at hfound
      cases htx : c.txAt hash with
      | none => simp [ChainState.txUtxos, htx, bind, Except.bind, hrow, pure, Except.pure]
      | some tx => simp [htx] at hfound
  | some raw =>
      obtain ⟨all, rfl, hmem⟩ := exists_of_firstRow hrow
      obtain ⟨tx, htx, hinputs, hentries⟩ := hapi.txUtxos _ _ hrows raw hmem
      obtain ⟨flags, hflags, hspent⟩ :=
        batchIsSpent_of_answers hapi (raw.outputs.map KoiosTxUtxoEntry.toOutRef)
      have houtputs : raw.outputs.map (koiosOutput api flags) =
          tx.outputs.mapIdx (c.report hash) := by
        apply List.ext_getElem?
        intro i
        rw [List.getElem?_map]
        cases hentry : raw.outputs[i]? with
        | none =>
            rw [List.getElem?_eq_none_iff] at hentry
            rw [Option.map_none, eq_comm, List.getElem?_eq_none_iff, ← hentries.length_eq]
            exact hentry
        | some entry =>
            obtain ⟨o, ho, hof⟩ := exists_of_getElem?_left hentries hentry
            rw [ho, Option.map_some]
            rw [List.getElem?_mapIdx] at ho
            obtain ⟨out, hat, rfl⟩ := Option.map_eq_some_iff.mp ho
            have hout : c.outputAt ⟨hash, i⟩ = some out := by
              rw [ChainState.outputAt, htx]
              exact hat
            have href : entry.toOutRef = ⟨hash, i⟩ := hof.ref
            have hasked : ⟨hash, i⟩ ∈ raw.outputs.map KoiosTxUtxoEntry.toOutRef :=
              href ▸ List.mem_map_of_mem (List.mem_of_getElem? hentry)
            rw [koiosOutput_of_answers hapi hordered hout
              (hspent _ hasked (Option.isSome_of_eq_some hout)) hof]
      simp [ChainState.txUtxos, htx, bind, Except.bind, hrow, hflags, pure, Except.pure, houtputs,
        hinputs]

/-- **What is left to Koios are the redeemers.**  Where it answers about a chain, the
client is faithful exactly if it reads every redeemer there is. -/
theorem koios_faithful_iff (hapi : api.Answers c) (hordered : c.Ordered) :
    Faithful (koiosChainProvider api) c ↔
      ∀ hash, koiosSpendRedeemers api hash = c.spendRedeemers hash := by
  constructor
  · intro h hash
    exact Except.ok.inj (h.getSpendRedeemers hash)
  · intro hredeemers
    refine ⟨?_, fun ref => ?_, fun ref => ?_, koiosTxUtxos_of_answers hapi hordered, fun hash => ?_,
      fun hash tipHeight => ?_⟩
    · obtain ⟨rows, hrows⟩ := hapi.tipFound
      show koiosTip api = _
      rw [koiosTip, hrows]
      rfl
    · exact fetchOutput_of_answers hapi ref true
    · exact fetchOutput_of_answers hapi ref false
    · exact congrArg Except.ok (hredeemers hash)
    · obtain ⟨rows, hrows, hheight⟩ := blockHeight_of_txInfo hapi hash
      show koiosConfirmations api hash tipHeight = _
      rw [koiosConfirmations, hrows]
      cases htx : c.txAt hash with
      | none => simp [ChainState.confirmations, htx, hheight, bind, Except.bind, pure, Except.pure]
      | some tx =>
          simp [ChainState.confirmations, htx, hheight, bind, Except.bind, pure, Except.pure]

end

/-!
## An API for every chain

The rows that a service would have for a chain state, with contracts in any shape.
-/

/-- The outputs of a chain. -/
def ChainState.refs (c : ChainState) : List OutRef :=
  c.txs.entries.flatMap fun tx => (List.range tx.outputs.length).map fun i => ⟨tx.hash, i⟩

theorem ChainState.mem_refs {c : ChainState} {ref : OutRef} :
    ref ∈ c.refs ↔ (c.outputAt ref).isSome := by
  simp only [refs, List.mem_flatMap, List.mem_map, List.mem_range]
  constructor
  · rintro ⟨tx, htx, i, hi, rfl⟩
    have hat : c.txAt tx.hash = some tx := txAt_eq_some.mpr ⟨htx, rfl⟩
    simp [outputAt, hat, hi]
  · intro h
    obtain ⟨out, hout⟩ := Option.isSome_iff_exists.mp h
    obtain ⟨tx, htx, hat⟩ := Option.bind_eq_some_iff.mp hout
    obtain ⟨hmem, hhash⟩ := txAt_eq_some.mp htx
    obtain ⟨hlt, -⟩ := List.getElem?_eq_some_iff.mp hat
    exact ⟨tx, hmem, ref.outputIndex, hlt, by rw [hhash]⟩

/-- An amount as Koios splits it: the lovelace, and the rest by policy and name. -/
def koiosValue (amount : List Asset) : ℤ := (amount.head?.map Asset.quantity).getD 0

/-- The asset list of an output as a truthful Koios has it: lovelace is reported apart. -/
def koiosAssets (amount : List Asset) : List KoiosAssetEntry :=
  amount.tail.map fun a => ⟨(splitAssetUnit a.unit).1, (splitAssetUnit a.unit).2, a.quantity⟩

/-- The API that answers from `c`, with the contracts of each transaction. -/
def ChainState.koios (c : ChainState) (contracts : ChainTx → List KoiosContract) : Koios where
  fetchAddressUTxOs address unit :=
    .ok (c.liveUtxos.filter fun u => u.address = address ∧ u.holds unit)
  assetAddresses policyId assetName :=
    .ok (some ((c.liveUtxos.filter fun u => u.holds (policyId ++ assetName)).map UTxO.address))
  utxoInfo id := .ok (some ((c.refs.filter fun ref => orderIdOf ref = id).filterMap fun ref =>
    (c.outputAt ref).map fun out => ⟨ref, out.address, koiosValue out.amount, out.plutusData,
      koiosAssets out.amount, (c.spender ref).isSome⟩))
  utxoSpent ids := .ok (some ((c.refs.filter fun ref => orderIdOf ref ∈ ids).map fun ref =>
    ⟨ref, (c.spender ref).isSome⟩))
  txUtxos hash := .ok (some ((c.txAt hash).toList.map fun tx => ⟨tx.inputs,
    tx.outputs.mapIdx fun i out =>
      ⟨⟨hash, i⟩, out.address, koiosValue out.amount, koiosAssets out.amount⟩⟩))
  txInfo hash := .ok (some ((c.txAt hash).toList.map fun tx => ⟨some tx.height, some (contracts tx)⟩))
  addressTxs address := .ok (some ((c.txs.entries.filter fun tx =>
    tx.outputs.any (fun out => out.address = address) ∨
      tx.inputs.any fun ref => (c.outputAt ref).any fun out => out.address = address).map fun tx =>
        ⟨tx.hash, tx.height⟩))
  tip := .ok (some [c.tip])

section Api

variable {c : ChainState} {contracts : ChainTx → List KoiosContract}

/-- The amounts of a chain in Koios's form, its datums not empty. -/
def ChainState.Splits (c : ChainState) : Prop :=
  ∀ tx ∈ c.txs.entries, ∀ out ∈ tx.outputs,
    koiosAmount (koiosValue out.amount) (koiosAssets out.amount) = out.amount ∧
      out.plutusData.filter (· ≠ []) = out.plutusData

theorem ChainState.Splits.outputAt (h : c.Splits) {ref : OutRef} {out : ChainOutput}
    (hout : c.outputAt ref = some out) :
    koiosAmount (koiosValue out.amount) (koiosAssets out.amount) = out.amount ∧
      out.plutusData.filter (· ≠ []) = out.plutusData := by
  obtain ⟨tx, htx, hat⟩ := Option.bind_eq_some_iff.mp hout
  exact h tx (ChainState.txAt_eq_some.mp htx).1 out (List.mem_of_getElem? hat)

/-- The service that is used in the samples tells the truth of its chain, in the contracts
it is given. -/
theorem ChainState.koios_reports (hsplits : c.Splits)
    (hcontracts : ∀ tx ∈ c.txs.entries, ∀ contract ∈ contracts tx, ∀ r,
      spendRedeemer? contract = some r → r ∈ tx.redeemers) : (c.koios contracts).Reports c where
  utxoInfo ref rows h row hmem := by
    obtain rfl := Option.some.inj (Except.ok.inj h)
    obtain ⟨ref', href', hrow⟩ := List.mem_filterMap.mp hmem
    obtain ⟨out, hout, rfl⟩ := Option.map_eq_some_iff.mp hrow
    obtain rfl := orderIdOf_injective (of_decide_eq_true (List.mem_filter.mp href').2)
    obtain ⟨hamount, hdatum⟩ := hsplits.outputAt hout
    exact ⟨rfl, rfl, out, hout, rfl, hamount, hdatum⟩
  utxoSpent refs rows h row hrow := by
    obtain rfl := Option.some.inj (Except.ok.inj h)
    obtain ⟨ref, -, rfl⟩ := List.mem_map.mp hrow
    rfl
  txUtxos hash rows h row hrow := by
    obtain rfl := Option.some.inj (Except.ok.inj h)
    obtain ⟨tx, htx, rfl⟩ := List.mem_map.mp hrow
    have hat := Option.mem_toList.mp htx
    refine ⟨tx, hat, rfl, ?_⟩
    rw [List.mapIdx_eq_zipIdx_map, List.mapIdx_eq_zipIdx_map, List.forall₂_map_left_iff,
      List.forall₂_map_right_iff, List.forall₂_same]
    rintro ⟨out, i⟩ hmem
    have hout := List.mem_zipIdx_iff_getElem?.mp hmem
    refine ⟨rfl, rfl, (hsplits tx (ChainState.txAt_eq_some.mp hat).1 out ?_).1⟩
    exact List.mem_of_getElem? hout
  txInfo hash rows h row hrow := by
    obtain rfl := Option.some.inj (Except.ok.inj h)
    obtain ⟨tx, htx, rfl⟩ := List.mem_map.mp hrow
    have hat := Option.mem_toList.mp htx
    exact ⟨tx, hat, fun height h => (Option.some.inj h).symm,
      hcontracts tx (ChainState.txAt_eq_some.mp hat).1⟩

/-- And it answers every question. -/
theorem ChainState.koios_answers (hreports : (c.koios contracts).Reports c) :
    (c.koios contracts).Answers c where
  toReports := hreports
  infoFound ref := by
    refine ⟨_, rfl, fun hout => ?_⟩
    obtain ⟨out, hat⟩ := Option.isSome_iff_exists.mp hout
    exact isSome_firstRow (List.mem_filterMap.mpr ⟨ref, List.mem_filter.mpr
      ⟨ChainState.mem_refs.mpr hout, decide_eq_true rfl⟩, congrArg (Option.map _) hat⟩)
  spentFound refs := by
    refine ⟨_, rfl, fun ref href hout => ⟨_, List.mem_map_of_mem (List.mem_filter.mpr
      ⟨ChainState.mem_refs.mpr hout, decide_eq_true (List.mem_map_of_mem href)⟩), rfl⟩⟩
  utxosFound hash := by
    refine ⟨_, rfl, fun h => ?_⟩
    obtain ⟨tx, htx⟩ := Option.isSome_iff_exists.mp h
    simp [htx, firstRow]
  txFound hash := by
    refine ⟨_, rfl, fun h => ?_⟩
    obtain ⟨tx, htx⟩ := Option.isSome_iff_exists.mp h
    simp [htx, firstRow]
  touchFound address := by
    refine ⟨_, rfl, fun ref out tx hout haddress hspender => ?_⟩
    obtain ⟨hmem, hinput⟩ := ChainState.spender_eq_some.mp hspender
    refine ⟨⟨tx.hash, tx.height⟩, List.mem_map_of_mem (List.mem_filter.mpr ⟨hmem, ?_⟩), rfl, rfl⟩
    refine decide_eq_true (.inr (List.any_eq_true.mpr ⟨ref, hinput, ?_⟩))
    simp [hout, haddress]
  tipFound := ⟨[], rfl⟩

theorem ChainState.koios_view {history : History} {opts : IndexerOptions}
    (hreports : (c.koios contracts).Reports c) (hc : c ∈ history.chains) :
    KoiosView opts history (c.koios contracts) c where
  chain := hc
  reports := hreports
  fetched address unit utxos h u hu := by
    obtain rfl := Except.ok.inj h
    have hlive := ChainState.mem_liveUtxos.mp (List.mem_of_mem_filter hu)
    exact ⟨c, hc, (ChainState.liveUtxo_eq_some.mp hlive).2⟩

end Api

/-! The sampled fill, with the redeemers where the client looks for them and with the
purpose a level deeper, where it does not. -/

namespace SampleChain

/-- A redeemer in the shape that is read. -/
def asRead (r : SpendRedeemer) : KoiosContract where
  scriptHash := some r.scriptHash
  purpose := none
  input := some ⟨some "spend".toList, .absent, .number r.txIndex, some ⟨some r.constructor⟩⟩
  value := none

/-- The same, its purpose within its redeemer. -/
def nested (r : SpendRedeemer) : KoiosContract :=
  { asRead r with input := some ⟨none, .absent, .number r.txIndex, some ⟨some r.constructor⟩⟩ }

set_option maxRecDepth 100000 in
theorem reports_asRead : (filled.koios fun tx => tx.redeemers.map asRead).Reports filled :=
  ChainState.koios_reports (by unfold ChainState.Splits; decide) (by decide)

set_option maxRecDepth 100000 in
theorem reports_nested : (filled.koios fun tx => tx.redeemers.map nested).Reports filled :=
  ChainState.koios_reports (by unfold ChainState.Splits; decide) (by decide)

set_option maxRecDepth 100000 in
theorem ordered_filled : filled.Ordered := by
  have hall : ∀ creator ∈ filled.txs.entries, ∀ tx ∈ filled.txs.entries, ∀ ref ∈ tx.inputs,
      ref.txHash = creator.hash → creator.height ≤ tx.height ∧ tx.hash ≠ creator.hash := by decide
  intro ref creator tx hcreator hspender
  obtain ⟨hmem, hhash⟩ := ChainState.txAt_eq_some.mp hcreator
  obtain ⟨hmem', hinput⟩ := ChainState.spender_eq_some.mp hspender
  exact hall creator hmem tx hmem' ref hinput hhash.symm

end SampleChain

open SampleChain in
theorem koios_statuses_sample : StatusSound mesh opts history
    (doSync mesh opts (koiosChainProvider (filled.koios fun tx => tx.redeemers.map nested))
      (doSync mesh opts (koiosChainProvider (filled.koios fun tx => tx.redeemers.map asRead))
        .empty).state.repo).state.repo :=
  koios_statuses (.cons (.pass (ChainState.koios_view reports_asRead (Or.inr rfl)))
    (.single (.pass (ChainState.koios_view reports_nested (Or.inr rfl)))))

open SampleChain in
set_option maxRecDepth 100000 in
theorem koios_faithful_iff_sample :
    Faithful (koiosChainProvider (filled.koios fun tx => tx.redeemers.map asRead)) filled ∧
      ¬Faithful (koiosChainProvider (filled.koios fun tx => tx.redeemers.map nested)) filled := by
  have hanswers := ChainState.koios_answers reports_asRead
  have hanswers' := ChainState.koios_answers reports_nested
  refine ⟨(koios_faithful_iff hanswers ordered_filled).mpr fun hash => ?_, fun hfaithful => ?_⟩
  · simp only [koiosSpendRedeemers, ChainState.koios, ChainState.spendRedeemers]
    cases htx : filled.txAt hash with
    | none => rfl
    | some tx =>
        have hall : ∀ tx ∈ filled.txs.entries,
            (tx.redeemers.map asRead).filterMap spendRedeemer? = tx.redeemers := by decide
        exact hall tx (ChainState.txAt_eq_some.mp htx).1
  · have hread := (koios_faithful_iff hanswers' ordered_filled).mp hfaithful (txId 0xd2)
    revert hread
    decide

end BeaconDex.Backend
