import BeaconDex.Backend.Protocol
import BeaconDex.Library.KeyedList

/-!
# The chain, as the backend sees it

The calls of `backend/src/services/chain-provider.ts` the backend's services
make, and the chain state they are about.

A call may throw, so what a provider is relied on for is said in degrees.
`Truthful` says that a point call which answers (a transaction, an output, the tip)
answers from the given chain state; `Faithful` says that it does answer.  Nothing is
said about the two listing calls unless `ListsOnlyLive` or `ListsAll` is assumed on
top: explorers lag behind, and what they list may be spent or incomplete.

A chain state holds the transactions of one chain, with the facts every chain has:
ids are distinct and contain no separator, an output is spent at most once, and an
input has at most one redeemer.
-/

namespace BeaconDex.Backend

open Library

/-!
## The calls

What a provider is asked, with the fields of its answers that are read.
-/

/-- A quantity of one unit; the quantity's text is read as the number it
denotes. -/
structure Asset where
  unit : Str
  quantity : ℤ
  deriving DecidableEq

/-- An output with its reference. -/
structure UTxO where
  input : OutRef
  address : Str
  amount : List Asset
  /-- The inline datum, as CBOR hex. -/
  plutusData : Option Str
  deriving DecidableEq

/-- The last block: its slot, and how many there are. -/
structure ChainTip where
  slot : ℕ
  height : ℕ
  deriving DecidableEq

/-- An output as a transaction query reports it. -/
structure TxOutput where
  address : Str
  amount : List Asset
  outputIndex : ℕ
  /-- The transaction that spent this output, if any. -/
  consumedByTx : Option Str
  deriving DecidableEq

/-- What a transaction spends and creates, with what is known of who has spent it since. -/
structure TxUtxos where
  inputs : List OutRef
  outputs : List TxOutput
  deriving DecidableEq

/-- One spend redeemer of a transaction. -/
structure SpendRedeemer where
  /-- The position of the spent input among the sorted inputs. -/
  txIndex : ℕ
  scriptHash : Str
  /-- Cancel is 0, take is 1, partial take is 2. -/
  constructor : ℕ
  deriving DecidableEq

/-- The text of a thrown error. -/
abbrev Failure := Str

/-- **The provider's calls**, each of which may fail.  What the backend knows of the chain
it knows through them. -/
structure ChainProvider where
  getTip : Except Failure ChainTip
  getAssetAddresses : Str → Except Failure (List Str)
  getUtxosByAddress : Str → Str → Except Failure (List UTxO)
  /-- An output, if it is still unspent. -/
  getUtxo : OutRef → Except Failure (Option UTxO)
  /-- An output, spent or not. -/
  getTxOutput : OutRef → Except Failure (Option UTxO)
  getTxUtxos : Str → Except Failure (Option TxUtxos)
  getSpendRedeemers : Str → Except Failure (List SpendRedeemer)
  getTxConfirmations : Str → ℕ → Except Failure (Option ℤ)

/-!
## The chain

What an explorer knows: transactions with what they spend and create.  Whether an output
is spent is not stored but looked up, so a chain state cannot contradict itself.
-/

/-- An output as its transaction created it. -/
structure ChainOutput where
  address : Str
  amount : List Asset
  plutusData : Option Str
  deriving DecidableEq

/-- A transaction on the chain, with the height of its block. -/
structure ChainTx where
  hash : Str
  height : ℕ
  inputs : List OutRef
  outputs : List ChainOutput
  redeemers : List SpendRedeemer
  deriving DecidableEq

/-- **A chain state**: the transactions of one chain up to its tip, and what holds of
every chain.  A hash is text without the separator of order ids, no output is spent twice,
and a transaction has at most one redeemer for each of its inputs. -/
structure ChainState where
  tip : ChainTip
  txs : KeyedList ChainTx.hash
  hash_text : ∀ tx ∈ txs.entries, '#' ∉ tx.hash
  inputs_nodup : (txs.entries.flatMap ChainTx.inputs).Nodup
  redeemers_nodup : ∀ tx ∈ txs.entries, (tx.redeemers.map SpendRedeemer.txIndex).Nodup

namespace ChainState

variable (c : ChainState)

/-- The transaction of a hash. -/
def txAt (hash : Str) : Option ChainTx := c.txs.find? hash

/-- The output of a reference, spent or not. -/
def outputAt (ref : OutRef) : Option ChainOutput :=
  (c.txAt ref.txHash).bind fun tx => tx.outputs[ref.outputIndex]?

/-- The transaction that spent an output. -/
def spender (ref : OutRef) : Option ChainTx := c.txs.entries.find? fun tx => ref ∈ tx.inputs

/-- The same with its reference, as the backend keeps outputs. -/
def utxoAt (ref : OutRef) : Option UTxO :=
  (c.outputAt ref).map fun out => ⟨ref, out.address, out.amount, out.plutusData⟩

/-- The output, if nothing has spent it. -/
def liveUtxo (ref : OutRef) : Option UTxO :=
  if (c.spender ref).isNone then c.utxoAt ref else none

/-- An output of the transaction `hash`, with its spender. -/
def report (hash : Str) (i : ℕ) (out : ChainOutput) : TxOutput :=
  ⟨out.address, out.amount, i, (c.spender ⟨hash, i⟩).map ChainTx.hash⟩

/-- What a truthful provider reports of a transaction. -/
def txUtxos (hash : Str) : Option TxUtxos :=
  (c.txAt hash).map fun tx => ⟨tx.inputs, tx.outputs.mapIdx (c.report hash)⟩

/-- The redeemers of the inputs it spends by script; none of a transaction that is not
there. -/
def spendRedeemers (hash : Str) : List SpendRedeemer :=
  match c.txAt hash with
  | some tx => tx.redeemers
  | none => []

/-- Blocks from the one that holds the transaction up to the tip, both
included. -/
def confirmations (hash : Str) (tipHeight : ℕ) : Option ℤ :=
  (c.txAt hash).map fun tx => max 0 ((tipHeight : ℤ) - tx.height + 1)

variable {c} {hash : Str} {ref : OutRef} {tx tx' : ChainTx}

theorem txAt_eq_some : c.txAt hash = some tx ↔ tx ∈ c.txs.entries ∧ tx.hash = hash :=
  KeyedList.find?_eq_some

/-- An output has one spender. -/
theorem spender_eq_some : c.spender ref = some tx ↔ tx ∈ c.txs.entries ∧ ref ∈ tx.inputs := by
  constructor
  · intro h
    exact ⟨List.mem_of_find?_eq_some h, by simpa using List.find?_some h⟩
  · rintro ⟨hmem, href⟩
    obtain ⟨tx', h⟩ : ∃ tx', c.spender ref = some tx' := by
      rw [← Option.isSome_iff_exists, spender, List.find?_isSome]
      exact ⟨tx, hmem, by simpa using href⟩
    have href' : ref ∈ tx'.inputs := by simpa using List.find?_some h
    by_contra hne
    have hsymm : Std.Symm (Function.onFun List.Disjoint ChainTx.inputs) :=
      ⟨fun _ _ h => List.Disjoint.symm h⟩
    have hdisjoint := (List.nodup_flatMap.mp c.inputs_nodup).2
    have htx : tx' ≠ tx := fun heq => hne (heq ▸ h)
    exact hdisjoint.forall (List.mem_of_find?_eq_some h) hmem htx href' href

theorem inputs_nodup_of_mem (h : tx ∈ c.txs.entries) : tx.inputs.Nodup :=
  (List.nodup_flatMap.mp c.inputs_nodup).1 tx h

/-- What is live are the outputs without a spender. -/
theorem liveUtxo_eq_some {u : UTxO} :
    c.liveUtxo ref = some u ↔ c.spender ref = none ∧ c.utxoAt ref = some u := by
  unfold liveUtxo
  cases c.spender ref <;> simp

theorem input_of_utxoAt {u : UTxO} (h : c.utxoAt ref = some u) : u.input = ref := by
  obtain ⟨out, -, rfl⟩ := Option.map_eq_some_iff.mp h
  rfl

/-- The spender reported for an output is its spender. -/
theorem consumedByTx_txUtxos (ref : OutRef) :
    ((c.txUtxos ref.txHash).bind fun tx => tx.outputs[ref.outputIndex]?).bind
      TxOutput.consumedByTx =
      if (c.outputAt ref).isSome then (c.spender ref).map ChainTx.hash else none := by
  cases htx : c.txAt ref.txHash with
  | none => simp [txUtxos, outputAt, htx]
  | some tx =>
      cases hout : tx.outputs[ref.outputIndex]? <;>
        simp [txUtxos, outputAt, report, htx, hout]

end ChainState

/-!
## Providers

What may be assumed of an answer, weaker and stronger.
-/

/-- A point call that answers, answers from `c`; it may also throw.  Nothing is said of
listings, which are asked for at another time and may be from another state. -/
structure Truthful (p : ChainProvider) (c : ChainState) : Prop where
  getTip : ∀ tip, p.getTip = .ok tip → tip = c.tip
  getUtxo : ∀ ref answer, p.getUtxo ref = .ok answer → answer = c.liveUtxo ref
  getTxOutput : ∀ ref answer, p.getTxOutput ref = .ok answer → answer = c.utxoAt ref
  getTxUtxos : ∀ hash answer, p.getTxUtxos hash = .ok answer → answer = c.txUtxos hash
  getSpendRedeemers : ∀ hash answer,
    p.getSpendRedeemers hash = .ok answer → answer = c.spendRedeemers hash
  getTxConfirmations : ∀ hash tipHeight answer,
    p.getTxConfirmations hash tipHeight = .ok answer → answer = c.confirmations hash tipHeight

/-- Every point call answers, from `c`.  This is what the results about what a pass
achieves ask for; those about what it does not spoil are content with `Truthful`. -/
structure Faithful (p : ChainProvider) (c : ChainState) : Prop where
  getTip : p.getTip = .ok c.tip
  getUtxo : ∀ ref, p.getUtxo ref = .ok (c.liveUtxo ref)
  getTxOutput : ∀ ref, p.getTxOutput ref = .ok (c.utxoAt ref)
  getTxUtxos : ∀ hash, p.getTxUtxos hash = .ok (c.txUtxos hash)
  getSpendRedeemers : ∀ hash, p.getSpendRedeemers hash = .ok (c.spendRedeemers hash)
  getTxConfirmations : ∀ hash tipHeight,
    p.getTxConfirmations hash tipHeight = .ok (c.confirmations hash tipHeight)

/-- A provider that leaves nothing out tells the truth. -/
theorem Faithful.truthful {p : ChainProvider} {c : ChainState} (h : Faithful p c) :
    Truthful p c where
  getTip tip h' := by rw [h.getTip] at h'; exact (Except.ok.inj h').symm
  getUtxo ref answer h' := by rw [h.getUtxo] at h'; exact (Except.ok.inj h').symm
  getTxOutput ref answer h' := by rw [h.getTxOutput] at h'; exact (Except.ok.inj h').symm
  getTxUtxos hash answer h' := by rw [h.getTxUtxos] at h'; exact (Except.ok.inj h').symm
  getSpendRedeemers hash answer h' := by
    rw [h.getSpendRedeemers] at h'
    exact (Except.ok.inj h').symm
  getTxConfirmations hash tipHeight answer h' := by
    rw [h.getTxConfirmations] at h'
    exact (Except.ok.inj h').symm

/-- What the listing reports under `unit`: the outputs listed for some holder. -/
def Lists (p : ChainProvider) (unit : Str) (u : UTxO) : Prop :=
  ∃ holders, p.getAssetAddresses unit = .ok holders ∧
    ∃ address ∈ holders, ∃ utxos, p.getUtxosByAddress address unit = .ok utxos ∧ u ∈ utxos

/-- The listing reports nothing but live outputs. -/
def ListsOnlyLive (p : ChainProvider) (c : ChainState) (unit : Str) : Prop :=
  ∀ u, Lists p unit u → c.liveUtxo u.input = some u

/-- Whether an output holds a positive quantity of `unit`. -/
def UTxO.holds (u : UTxO) (unit : Str) : Prop := ∃ a ∈ u.amount, a.unit = unit ∧ 0 < a.quantity

instance (u : UTxO) (unit : Str) : Decidable (u.holds unit) :=
  inferInstanceAs (Decidable (∃ a ∈ u.amount, a.unit = unit ∧ 0 < a.quantity))

/-- The listing reports every live output that holds `unit`. -/
def ListsAll (p : ChainProvider) (c : ChainState) (unit : Str) : Prop :=
  ∀ ref u, c.liveUtxo ref = some u → u.holds unit → Lists p unit u

/-!
## A provider for every chain

Every chain state has a provider that tells it as it is, so that the assumptions on
providers can be met.
-/

/-- All live outputs. -/
def ChainState.liveUtxos (c : ChainState) : List UTxO :=
  c.txs.entries.flatMap fun tx =>
    (List.range tx.outputs.length).filterMap fun i => c.liveUtxo ⟨tx.hash, i⟩

theorem ChainState.mem_liveUtxos {c : ChainState} {u : UTxO} :
    u ∈ c.liveUtxos ↔ c.liveUtxo u.input = some u := by
  simp only [liveUtxos, List.mem_flatMap, List.mem_filterMap, List.mem_range]
  constructor
  · rintro ⟨tx, -, i, -, h⟩
    rwa [input_of_utxoAt (liveUtxo_eq_some.mp h).2]
  · intro h
    obtain ⟨out, hout, -⟩ := Option.map_eq_some_iff.mp (liveUtxo_eq_some.mp h).2
    obtain ⟨tx, htx, hat⟩ := Option.bind_eq_some_iff.mp hout
    obtain ⟨hmem, hhash⟩ := txAt_eq_some.mp htx
    obtain ⟨hlt, -⟩ := List.getElem?_eq_some_iff.mp hat
    exact ⟨tx, hmem, _, hlt, by rwa [hhash]⟩

/-- The provider that answers from `c` and lists `listing`. -/
def ChainState.provider (c : ChainState) (listing : List UTxO) : ChainProvider where
  getTip := .ok c.tip
  getAssetAddresses _ := .ok (listing.map UTxO.address)
  getUtxosByAddress address _ := .ok (listing.filter fun u => u.address = address)
  getUtxo ref := .ok (c.liveUtxo ref)
  getTxOutput ref := .ok (c.utxoAt ref)
  getTxUtxos hash := .ok (c.txUtxos hash)
  getSpendRedeemers hash := .ok (c.spendRedeemers hash)
  getTxConfirmations hash tipHeight := .ok (c.confirmations hash tipHeight)

section Provider

variable {c : ChainState} {listing : List UTxO} {unit : Str}

/-- The provider of a chain state is faithful to it, whatever it lists. -/
theorem ChainState.provider_faithful : Faithful (c.provider listing) c :=
  ⟨rfl, fun _ => rfl, fun _ => rfl, fun _ => rfl, fun _ => rfl, fun _ _ => rfl⟩

/-- And it lists what it is given to list. -/
theorem ChainState.lists_provider {u : UTxO} :
    Lists (c.provider listing) unit u ↔ u ∈ listing := by
  constructor
  · rintro ⟨holders, -, address, -, utxos, hutxos, hu⟩
    obtain rfl := Except.ok.inj hutxos
    exact List.mem_of_mem_filter hu
  · intro hu
    exact ⟨_, rfl, u.address, List.mem_map_of_mem hu, _, rfl, by simpa using hu⟩

/-- A provider that lists the live holders lists them all, and nothing else. -/
theorem ChainState.provider_exact :
    ListsOnlyLive (c.provider (c.liveUtxos.filter fun u => u.holds unit)) c unit ∧
      ListsAll (c.provider (c.liveUtxos.filter fun u => u.holds unit)) c unit := by
  constructor
  · intro u hu
    exact mem_liveUtxos.mp (List.mem_of_mem_filter (lists_provider.mp hu))
  · intro ref u hlive hholds
    obtain rfl := input_of_utxoAt (liveUtxo_eq_some.mp hlive).2
    refine lists_provider.mpr (List.mem_filter.mpr ⟨mem_liveUtxos.mpr hlive, ?_⟩)
    simpa using hholds

end Provider

end BeaconDex.Backend
