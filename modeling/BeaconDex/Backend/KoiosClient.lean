import BeaconDex.Backend.ChainProvider
import BeaconDex.Library.Attempt

/-!
# The Koios client

`KoiosChainProvider` of `backend/src/services/chain-provider.ts`.  Koios has no
field for the transaction that spent an output, so the client looks for it: it walks
the transactions that touched the output's address, from the block of its creation
on, until one has the output among its inputs (`findSpendingTx`).  And it reads the
redeemers out of an answer whose nesting it does not rely on (`getSpendRedeemers`).

## The service

`Koios` is the API the client calls, Mesh's listing included.  A call fails, or answers
rows or `null`.  Of a row the model has the fields the client reads and a
`ChainProvider` returns.  Nothing is said here about whether the rows are true;
`BeaconDex.Backend.KoiosGuarantees` assumes what the service documents.

## Rows of unknown shape

The nesting of a redeemer is not relied on.  Where the client checks at run time what it
got (`typeof`), the field is `Loose`; a path of optional fields is one optional field.  A contract whose shape is none of the known ones is skipped, so a
redeemer may be missing from the answer without an error.

## Failures

`rest` throws on a bad status.  `findSpendingTx`, `getSpendRedeemers` and the listing by
address catch what is thrown and answer as if there were nothing; every other call
passes it on.
-/

namespace BeaconDex.Backend

open Library

/-!
## Answers

The rows of the service, as far as their fields are read.
-/

/-- A field whose type is checked when it is read. -/
inductive Loose
  | absent
  | number (n : ℕ)
  | other
  deriving DecidableEq

/-- `??`. -/
def Loose.or : Loose → Loose → Loose
  | .absent, b => b
  | a, _ => a

/-- One asset of an output as Koios lists it: policy id and name apart, the quantity read
by `BigInt`. -/
structure KoiosAssetEntry where
  policyId : Str
  assetName : Str
  quantity : ℤ

/-- A row of `/utxo_info`, asked for with its assets. -/
structure KoiosUtxoInfo extends OutRef where
  address : Str
  value : ℤ
  /-- `inline_datum?.bytes`. -/
  inlineDatum : Option Str
  assetList : List KoiosAssetEntry
  isSpent : Bool

/-- A row of `/utxo_info`, asked for without them. -/
structure KoiosSpentFlag extends OutRef where
  isSpent : Bool

/-- An output of a transaction in `/tx_utxos`.  It says neither whether it is spent nor by
what. -/
structure KoiosTxUtxoEntry extends OutRef where
  /-- `payment_addr.bech32`. -/
  paymentAddr : Str
  value : ℤ
  assetList : List KoiosAssetEntry

/-- A row of `/tx_utxos`: the references a transaction spends, and what it creates. -/
structure KoiosTxUtxos where
  inputs : List OutRef
  outputs : List KoiosTxUtxoEntry

/-- `redeemer.datum.value`. -/
structure KoiosValue where
  /-- Absent where it is no number. -/
  constructor : Option ℕ

/-- The `input` of a contract row, where Koios puts what concerns the spent output.  Either
of the two indices may be there. -/
structure KoiosContractInput where
  purpose : Option Str
  txIndex : Loose
  redeemerIndex : Loose
  /-- `redeemer?.datum?.value`. -/
  value : Option KoiosValue

/-- A script run of a transaction.  The purpose and the redeemer stand in the row itself
or in its `input`; the client looks in both. -/
structure KoiosContract where
  scriptHash : Option Str
  purpose : Option Str
  input : Option KoiosContractInput
  /-- `redeemer?.datum?.value`. -/
  value : Option KoiosValue

/-- A row of `/tx_info`, as far as the client reads it. -/
structure KoiosTxInfo where
  blockHeight : Option ℕ
  plutusContracts : Option (List KoiosContract)

/-- A row of `/address_txs`. -/
structure KoiosTouch where
  txHash : Str
  blockHeight : ℕ

/-- What `rest` returns: rows, or `null`. -/
abbrev Rest (α : Type) := Except Failure (Option (List α))

/-- **The API the client calls.** Each call may fail, answer `null`, or answer rows of its
kind. -/
structure Koios where
  /-- Mesh's `fetchAddressUTxOs`. -/
  fetchAddressUTxOs : Str → Str → Except Failure (List UTxO)
  /-- `/asset_addresses` of a policy and a name; the holders' addresses. -/
  assetAddresses : Str → Str → Rest Str
  /-- `/utxo_info` of one output, extended. -/
  utxoInfo : Str → Rest KoiosUtxoInfo
  /-- `/utxo_info` of several. -/
  utxoSpent : List Str → Rest KoiosSpentFlag
  txUtxos : Str → Rest KoiosTxUtxos
  txInfo : Str → Rest KoiosTxInfo
  addressTxs : Str → Rest KoiosTouch
  tip : Rest ChainTip

/-!
## Reading rows

From a row to what the provider's interface promises.
-/

/-- `rows?.[0]`. -/
def firstRow {α : Type} (rows : Option (List α)) : Option α := rows.bind List.head?

/-- Lovelace first, then the listed assets under their units. -/
def koiosAmount (value : ℤ) (assetList : List KoiosAssetEntry) : List Asset :=
  ⟨"lovelace".toList, value⟩ :: assetList.map fun a => ⟨a.policyId ++ a.assetName, a.quantity⟩

/-- An empty datum is no datum. -/
def KoiosUtxoInfo.plutusData (out : KoiosUtxoInfo) : Option Str := out.inlineDatum.filter (· ≠ [])

/-- What the client makes of a row of `/utxo_info`. -/
def koiosUtxoToMeshUtxo (out : KoiosUtxoInfo) : UTxO where
  input := out.toOutRef
  address := out.address
  amount := koiosAmount out.value out.assetList
  plutusData := out.plutusData

/-- A policy id is fifty-six characters. -/
def splitAssetUnit (assetUnit : Str) : Str × Str := (assetUnit.take 56, assetUnit.drop 56)

/-- One contract of a transaction, if it is a spend in a shape the client knows. -/
def spendRedeemer? (c : KoiosContract) : Option SpendRedeemer :=
  if (c.input.bind KoiosContractInput.purpose).or c.purpose ≠ some "spend".toList then none
  else
    let value := (c.input.bind KoiosContractInput.value).or c.value
    let txIndex := match c.input with
      | none => Loose.absent
      | some input => input.redeemerIndex.or input.txIndex
    match c.scriptHash.filter (· ≠ []), value.bind KoiosValue.constructor, txIndex with
    | some scriptHash, some constructor, .number txIndex => some ⟨txIndex, scriptHash, constructor⟩
    | _, _, _ => none

/-!
## The calls

Each call of the interface by the requests it makes.
-/

section Client

variable (api : Koios)

/-- An output by its reference, spent or not; with `requireUnspent`, one that is flagged
as spent is not there. -/
def fetchOutput (ref : OutRef) (requireUnspent : Bool) : Except Failure (Option UTxO) := do
  match firstRow (← api.utxoInfo (orderIdOf ref)) with
  | none => return none
  | some out => if requireUnspent && out.isSpent then return none else return koiosUtxoToMeshUtxo out

/-- The flags by output; the last row of an output counts. -/
def batchIsSpent (refs : List OutRef) : Except Failure (Str → Option Bool) :=
  if refs = [] then return fun _ => none
  else do
    let rows ← api.utxoSpent (refs.map orderIdOf)
    return fun key => ((rows.getD []).reverse.find? fun r => orderIdOf r.toOutRef = key).map
      KoiosSpentFlag.isSpent

/-- The first candidate that has the output among its inputs. -/
def firstSpender (ref : OutRef) : List KoiosTouch → Except Failure (Option Str)
  | [] => return none
  | c :: candidates => do
      let utxos ← api.txUtxos c.txHash
      if (firstRow utxos).any fun tx => ref ∈ tx.inputs then return some c.txHash
      else firstSpender ref candidates

/-- `findSpendingTx` up to its `catch`. -/
def tryFindSpendingTx (address : Str) (ref : OutRef) : Except Failure (Option Str) := do
  let created ← api.txInfo ref.txHash
  let createdHeight := ((firstRow created).bind KoiosTxInfo.blockHeight).getD 0
  let touches ← api.addressTxs address
  let candidates := ((touches.getD []).filter fun t =>
    t.txHash ≠ ref.txHash ∧ createdHeight ≤ t.blockHeight).insertionSort
      fun a b => a.blockHeight ≤ b.blockHeight
  firstSpender api ref candidates

/-- The transaction that has spent an output, or `null`, which is also the answer to a
call that fails on the way. -/
def findSpendingTx (address : Str) (ref : OutRef) : Option Str :=
  match tryFindSpendingTx api address ref with
  | .ok spendTx => spendTx
  | .error _ => none

/-- One output of a transaction, with its spender if it is flagged as spent. -/
def koiosOutput (spentFlags : Str → Option Bool) (o : KoiosTxUtxoEntry) : TxOutput where
  address := o.paymentAddr
  amount := koiosAmount o.value o.assetList
  outputIndex := o.outputIndex
  consumedByTx :=
    if (spentFlags (orderIdOf o.toOutRef)).getD false then
      findSpendingTx api o.paymentAddr o.toOutRef
    else none

/-- A transaction with its outputs.  The flags of all outputs are asked for at once, and
the spender of each that is flagged is looked for. -/
def koiosTxUtxos (txHash : Str) : Except Failure (Option TxUtxos) := do
  match firstRow (← api.txUtxos txHash) with
  | none => return none
  | some raw =>
      let spentFlags ← batchIsSpent api (raw.outputs.map KoiosTxUtxoEntry.toOutRef)
      return some ⟨raw.inputs, raw.outputs.map (koiosOutput api spentFlags)⟩

/-- `getSpendRedeemers`; what it does not recognise it skips, and it throws
nothing. -/
def koiosSpendRedeemers (txHash : Str) : List SpendRedeemer :=
  match api.txInfo txHash with
  | .ok rows =>
      (((firstRow rows).bind KoiosTxInfo.plutusContracts).getD []).filterMap spendRedeemer?
  | .error _ => []

/-- The tip; an answer without rows is an error. -/
def koiosTip : Except Failure ChainTip := do
  orThrow "koios: no tip".toList (firstRow (← api.tip))

/-- The block of a transaction counts as its first confirmation.  A transaction without a
block has none. -/
def koiosConfirmations (txHash : Str) (tipHeight : ℕ) : Except Failure (Option ℤ) := do
  match (firstRow (← api.txInfo txHash)).bind KoiosTxInfo.blockHeight with
  | none => return none
  | some block => return some (max 0 ((tipHeight : ℤ) - block + 1))

/-- **The provider the backend runs on** when `koios` is chosen. -/
def koiosChainProvider : ChainProvider where
  getTip := koiosTip api
  getAssetAddresses assetUnit := do
    let rows ← api.assetAddresses (splitAssetUnit assetUnit).1 (splitAssetUnit assetUnit).2
    return rows.getD []
  getUtxosByAddress address assetUnit :=
    match api.fetchAddressUTxOs address assetUnit with
    | .ok utxos => .ok utxos
    | .error _ => .ok []
  getUtxo ref := fetchOutput api ref true
  getTxOutput ref := fetchOutput api ref false
  getTxUtxos := koiosTxUtxos api
  getSpendRedeemers txHash := .ok (koiosSpendRedeemers api txHash)
  getTxConfirmations := koiosConfirmations api

end Client

end BeaconDex.Backend
