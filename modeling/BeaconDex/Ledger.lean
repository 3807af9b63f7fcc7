import BeaconDex.BeaconRules
import BeaconDex.Library.RankPairing
import BeaconDex.Library.Run

/-!
# The ledger

What the chain guarantees around the two scripts.  A transaction is valid when
its inputs are distinct, no value is negative, every policy but ADA balances
against the mint field, and each script that has to run approves.  Everything
else is left open: the other inputs, the other policies and the outputs are the
submitter's choice, and anyone may park any output at the order validator.

## Deployments

The order validator's hash and the beacon policy id (derived from it) are fixed
once.  Hashes have fixed lengths, which `Deployment` records, so no beacon policy is
the ADA policy.

## Runs

`Step` submits one valid transaction to a set of unspent outputs, under an id that is
new to it; a run of steps is any history of the chain, with whatever its submitters
had in mind.  Every result about runs is over all of them.

ADA is left out of the balance: fees, withdrawals and deposits move it without any
script noticing, and no result needs it.
-/

namespace BeaconDex

/-- The two scripts as deployed, with the hash the policy computes names by.  Of the hash
only the length of its output is known here; where names have to differ, a result asks for
injectivity on the preimages in question. -/
structure Deployment where
  sha2_256 : Bytes → Bytes
  sha2_256_length : ∀ b, (sha2_256 b).length = 32
  orderScriptHash : ScriptHash
  policyId : PolicyId
  policyId_length : policyId.length = 28

/-- The beacons are not ADA. -/
theorem Deployment.policyId_ne_ada (d : Deployment) : d.policyId ≠ Assets.adaPolicyId := by
  intro h
  have := d.policyId_length
  rw [h] at this
  cases this

/-!
## Script runs

The order script runs for each input at its address, with that input's datum and
redeemer; the policy runs once, if the transaction mints or burns any of its tokens.
-/

/-- The datum the ledger hands to the script of an output: inline, or the
witness of its hash. -/
def resolveDatum (self : Transaction) (output : Output) : Option Data :=
  match output.datum with
  | .noDatum => none
  | .datumHash hash => self.datums.lookup hash
  | .inlineDatum data => some data

/-- The order datum of an input, inline or by its hash, where it has one. -/
def orderDatum (self : Transaction) (input : Input) : Option OrderDatum :=
  (resolveDatum self input.output).bind ofData

/-- The run of the order validator for one input, under its own redeemer. -/
def runOrder (self : Transaction) (input : Input) : Option Bool :=
  (spendRedeemer self input.outputReference).bind fun redeemer =>
    orderSpend (orderDatum self input) redeemer input.outputReference self

/-- The run of the beacon policy. -/
def runBeacon (d : Deployment) (self : Transaction) : Option Bool :=
  ((self.redeemers.lookup (.mint d.policyId)).bind ofData).bind fun redeemer =>
    beaconMint d.sha2_256 d.orderScriptHash redeemer d.policyId self

/-- An order datum that is inline is what the script is given. -/
theorem orderDatum_of_inline {self : Transaction} {input : Input} {datum : OrderDatum}
    (h : input.output.datum = .inlineDatum (toData datum)) :
    orderDatum self input = some datum := by
  rw [orderDatum, resolveDatum, h]
  exact ofData_toData datum

/-- The datum an input is spent under is its inline datum. -/
theorem eq_of_orderDatum {self : Transaction} {input : Input} {datum datum' : OrderDatum}
    (h : input.output.datum = .inlineDatum (toData datum))
    (hdatum : orderDatum self input = some datum') : datum = datum' :=
  Option.some.inj ((orderDatum_of_inline h).symm.trans hdatum)

/-- **How an order input can be spent**: the three redeemers, each with what its rule
checked.  Everything that follows from the approval of an input is read off one of these
three records. -/
inductive Spent (orderScriptHash : ScriptHash) (tx : Transaction) (input : Input)
    (datum : OrderDatum) : Prop
  | cancelled (key : VerificationKeyHash)
      (redeemer : spendRedeemer tx input.outputReference = some .cancelOrder)
      (accepted : CancelAccepted orderScriptHash tx datum key)
  | taken (payment : Output) (refs : List OutputReference)
      (redeemer : spendRedeemer tx input.outputReference = some .takeOrder)
      (accepted : TakeAccepted orderScriptHash tx input datum payment refs)
  | partiallyTaken (takeAmount required : ℤ) (payment : Output) (refs : List OutputReference)
      (rank : ℕ) (continuation : Output)
      (redeemer : spendRedeemer tx input.outputReference = some (.takeOrderPartial takeAmount))
      (accepted : TakePartialAccepted orderScriptHash tx input datum takeAmount required payment
        refs rank continuation)

/-- The inversion every result on transactions starts from. -/
theorem runOrder_eq_some_true {orderScriptHash : ScriptHash} {tx : Transaction} {input : Input}
    (hnodup : (tx.inputs.map Input.outputReference).Nodup) (hmem : input ∈ tx.inputs)
    (hsits : sitsAt orderScriptHash input.output = true) :
    runOrder tx input = some true ↔
      ∃ datum, orderDatum tx input = some datum ∧ Spent orderScriptHash tx input datum := by
  have hown : ResolvesTo tx input.outputReference input orderScriptHash :=
    ⟨findInput_of_mem hnodup hmem, hsits⟩
  simp only [runOrder, orderSpend, Option.bind_eq_some_iff]
  constructor
  · rintro ⟨redeemer, hred, datum, hdatum, h⟩
    refine ⟨datum, hdatum, ?_⟩
    cases redeemer with
    | cancelOrder =>
        obtain ⟨key, hacc⟩ := (cancelOk_eq_some_true hown).mp h
        exact .cancelled key hred hacc
    | takeOrder =>
        obtain ⟨payment, refs, hacc⟩ := (takeOk_eq_some_true hown).mp h
        exact .taken payment refs hred hacc
    | takeOrderPartial takeAmount =>
        obtain ⟨required, payment, refs, rank, continuation, hacc⟩ :=
          (takePartialOk_eq_some_true hown).mp h
        exact .partiallyTaken takeAmount required payment refs rank continuation hred hacc
  · rintro ⟨datum, hdatum, hspent⟩
    cases hspent with
    | cancelled key hred hacc =>
        exact ⟨_, hred, datum, hdatum, (cancelOk_eq_some_true hown).mpr ⟨key, hacc⟩⟩
    | taken payment refs hred hacc =>
        exact ⟨_, hred, datum, hdatum, (takeOk_eq_some_true hown).mpr ⟨payment, refs, hacc⟩⟩
    | partiallyTaken takeAmount required payment refs rank continuation hred hacc =>
        exact ⟨_, hred, datum, hdatum, (takePartialOk_eq_some_true hown).mpr
          ⟨required, payment, refs, rank, continuation, hacc⟩⟩

/-!
## Valid transactions

What a block can hold, as far as the scripts of the protocol and the balance of assets
decide it.  Fees, sizes, execution units and the signatures of wallets are not modelled:
leaving them out allows more transactions, and what is proved of all of these holds of
the real ones.
-/

/-- What all inputs hold together. -/
def inputValue (tx : Transaction) : Value := (tx.inputs.map fun input => input.output.value).sum

/-- What all outputs hold together. -/
def outputValue (tx : Transaction) : Value := (tx.outputs.map Output.value).sum

/-- No quantity of the value is negative. -/
def Nonnegative (v : Value) : Prop := ∀ p ∈ v.support, ∀ t ∈ (v p).support, 0 ≤ v p t

instance (v : Value) : Decidable (Nonnegative v) :=
  inferInstanceAs (Decidable (∀ p ∈ v.support, ∀ t ∈ (v p).support, 0 ≤ v p t))

/-- The part of ledger validity that does not depend on any script: no output is spent
twice, no quantity is negative, and what goes in or is minted comes out.  Lovelace is left
out of the balance, as fees and deposits of the ledger are not modelled. -/
structure Balanced (tx : Transaction) : Prop where
  distinct : (tx.inputs.map Input.outputReference).Nodup
  inputs_nonneg : ∀ input ∈ tx.inputs, Nonnegative input.output.value
  outputs_nonneg : ∀ output ∈ tx.outputs, Nonnegative output.value
  conserved : Assets.withoutLovelace (inputValue tx + tx.mint) =
    Assets.withoutLovelace (outputValue tx)

/-- Every input at the order validator is approved under its own redeemer. -/
def OrdersApproved (orderScriptHash : ScriptHash) (tx : Transaction) : Prop :=
  ∀ input ∈ tx.inputs, sitsAt orderScriptHash input.output = true → runOrder tx input = some true

/-- Whether the ledger runs a minting policy. -/
def runsPolicy (tx : Transaction) (p : PolicyId) : Bool := !Assets.isEmpty (Assets.tokens tx.mint p)

/-- **A ledger-valid transaction**: it is balanced, the order script approves each of its
inputs there, and the beacon policy approves whenever it runs, which it does if any of its
tokens is minted or burned. -/
structure LedgerValid (d : Deployment) (tx : Transaction) : Prop extends Balanced tx where
  orders : OrdersApproved d.orderScriptHash tx
  beacon : runsPolicy tx d.policyId = true → runBeacon d tx = some true

theorem Nonnegative.apply {v : Value} (h : Nonnegative v) (p : PolicyId) (t : AssetName) :
    0 ≤ v p t := by
  by_cases hp : v p = 0
  · simp [hp]
  · by_cases ht : v p t = 0
    · exact ht.ge
    · exact h p (DFinsupp.mem_support_iff.mpr hp) t (DFinsupp.mem_support_iff.mpr ht)

theorem Nonnegative.tokens {v : Value} (h : Nonnegative v) (p : PolicyId) :
    0 ≤ Assets.tokens v p := fun t => h.apply p t

/-- The tokens of a sum are the sum of the tokens. -/
theorem tokens_sum {α : Type} (f : α → Value) (xs : List α) (p : PolicyId) :
    Assets.tokens (xs.map f).sum p = (xs.map fun x => Assets.tokens (f x) p).sum := by
  induction xs with
  | nil => rfl
  | cons x xs ih => simp [ih]

theorem tokens_sum_apply {α : Type} (f : α → Tokens) (xs : List α) (t : AssetName) :
    (xs.map f).sum t = (xs.map fun x => f x t).sum := by
  induction xs with
  | nil => rfl
  | cons x xs ih => simp [ih]

/-- Conservation, one policy at a time. -/
theorem Balanced.tokens {tx : Transaction} (h : Balanced tx) {p : PolicyId}
    (hada : p ≠ Assets.adaPolicyId) :
    (tx.inputs.map fun input => Assets.tokens input.output.value p).sum + Assets.tokens tx.mint p =
      (tx.outputs.map fun output => Assets.tokens output.value p).sum := by
  have hp := congrArg (fun v : Value => v p) h.conserved
  simp only [Assets.withoutLovelace, DFinsupp.erase_ne hada] at hp
  rw [← tokens_sum, ← tokens_sum]
  exact hp

/-- What an input was approved as. -/
theorem OrdersApproved.spent {orderScriptHash : ScriptHash} {tx : Transaction}
    (h : OrdersApproved orderScriptHash tx) (hnodup : (tx.inputs.map Input.outputReference).Nodup)
    {input : Input} (hmem : input ∈ tx.inputs)
    (hsits : sitsAt orderScriptHash input.output = true) :
    ∃ datum, orderDatum tx input = some datum ∧ Spent orderScriptHash tx input datum :=
  (runOrder_eq_some_true hnodup hmem hsits).mp (h input hmem hsits)

/-- The beacon policy either approves one new order or lets nothing grow. -/
theorem LedgerValid.minted {d : Deployment} {tx : Transaction} (h : LedgerValid d tx) :
    (∃ output datum owner names,
      MintAccepted d.sha2_256 d.orderScriptHash d.policyId tx output datum owner names) ∨
    Assets.tokens tx.mint d.policyId ≤ 0 := by
  cases hruns : runsPolicy tx d.policyId with
  | false =>
      right
      rw [runsPolicy, Bool.not_eq_eq_eq_not, Bool.not_false, Assets.isEmpty_eq_true] at hruns
      exact hruns.le
  | true =>
      have hrun := h.beacon hruns
      simp only [runBeacon, Option.bind_eq_some_iff] at hrun
      obtain ⟨redeemer, -, hrun⟩ := hrun
      cases redeemer with
      | mintBeacons =>
          left
          exact (mintBeaconsOk_eq_some_true d.sha2_256).mp hrun
      | burnBeacons =>
          right
          exact burnBeaconsOk_le_zero (Option.some.inj hrun)

/-!
## The UTxO set

A map from references to outputs.  A step consumes the inputs of a valid transaction,
which must be there, and adds its outputs under an id that no output has.
-/

/-- The unspent outputs. -/
abbrev Utxo := OutputReference → Option Output

/-- The output a transaction creates under a reference. -/
def createdAt (txId : Bytes) (tx : Transaction) (ref : OutputReference) : Option Output :=
  if ref.transactionId = txId ∧ 0 ≤ ref.outputIndex then tx.outputs[ref.outputIndex.toNat]?
  else none

/-- Is the reference among the inputs? -/
def spends (tx : Transaction) (ref : OutputReference) : Bool :=
  tx.inputs.any fun input => input.outputReference = ref

/-- The set after a transaction: its inputs gone, its outputs added. -/
def applyTx (utxo : Utxo) (txId : Bytes) (tx : Transaction) : Utxo := fun ref =>
  if spends tx ref then none else (createdAt txId tx ref).or (utxo ref)

/-- One transaction is accepted onto the chain.  Transaction ids are hashes, so
a new one names no unspent output yet. -/
structure Step (d : Deployment) (utxo : Utxo) (submitted : Bytes × Transaction) (utxo' : Utxo) :
    Prop where
  valid : LedgerValid d submitted.2
  resolved : ∀ input ∈ submitted.2.inputs, utxo input.outputReference = some input.output
  fresh : ∀ ref, ref.transactionId = submitted.1 → utxo ref = none
  next : utxo' = applyTx utxo submitted.1 submitted.2

/-- What a reference was created as is an output of its transaction. -/
theorem createdAt_eq_some {txId : Bytes} {tx : Transaction} {ref : OutputReference} {out : Output}
    (h : createdAt txId tx ref = some out) : out ∈ tx.outputs := by
  unfold createdAt at h
  split at h
  · exact List.mem_of_getElem? h
  · cases h

/-- An unspent output after a step was created by it or there before. -/
theorem Step.cases {d : Deployment} {utxo utxo' : Utxo} {submitted : Bytes × Transaction}
    (h : Step d utxo submitted utxo') {ref : OutputReference} {out : Output}
    (hout : utxo' ref = some out) :
    out ∈ submitted.2.outputs ∨ utxo ref = some out := by
  rw [h.next, applyTx] at hout
  split at hout
  · cases hout
  · rw [Option.or_eq_some_iff] at hout
    rcases hout with hcreated | ⟨-, hold⟩
    · exact Or.inl (createdAt_eq_some hcreated)
    · exact Or.inr hold

theorem findInput_eq_some {inputs : List Input} {ref : OutputReference} {input : Input}
    (h : findInput inputs ref = some input) : input ∈ inputs ∧ input.outputReference = ref :=
  ⟨List.mem_of_find?_eq_some h, by simpa using List.find?_some h⟩

namespace Step

variable {d : Deployment} {utxo utxo' : Utxo} {txId : Bytes} {tx : Transaction}
variable {ref : OutputReference} {out : Output}

/-- An unspent output that the transaction does not spend stays. -/
theorem kept (h : Step d utxo (txId, tx) utxo') (hout : utxo ref = some out)
    (hunspent : findInput tx.inputs ref = none) : utxo' ref = some out := by
  have hspends : spends tx ref = false := by
    rw [findInput, List.find?_eq_none] at hunspent
    rw [spends, List.any_eq_false]
    exact hunspent
  have hcreated : createdAt txId tx ref = none := by
    apply if_neg
    intro hid
    rw [h.fresh ref hid.1] at hout
    cases hout
  simp only [h.next, applyTx, hspends, hcreated, Bool.false_eq_true, if_false, Option.none_or]
  exact hout

/-- An input found under the reference of an unspent output is that output. -/
theorem output_eq (h : Step d utxo (txId, tx) utxo') (hout : utxo ref = some out) {input : Input}
    (hfound : findInput tx.inputs ref = some input) : input.output = out := by
  obtain ⟨hmem, href⟩ := findInput_eq_some hfound
  have hresolved := h.resolved input hmem
  rw [href, hout] at hresolved
  exact (Option.some.inj hresolved).symm

/-- Every output of the transaction is unspent after it. -/
theorem created (h : Step d utxo (txId, tx) utxo') {j : ℕ} (hout : tx.outputs[j]? = some out) :
    utxo' ⟨txId, j⟩ = some out := by
  have hspends : spends tx ⟨txId, j⟩ = false := by
    rw [spends, List.any_eq_false]
    intro input hinput
    rw [decide_eq_true_eq]
    intro href
    have hresolved := h.resolved input hinput
    rw [href, h.fresh _ rfl] at hresolved
    cases hresolved
  have hcreated : createdAt txId tx ⟨txId, j⟩ = some out := by
    rw [createdAt, if_pos ⟨rfl, Int.natCast_nonneg j⟩, Int.toNat_natCast, hout]
  simp only [h.next, applyTx, hspends, hcreated, Bool.false_eq_true, if_false, Option.some_or]

end Step

/-!
## A deployment to evaluate on

A hash that is short enough to compute by hand, two assets and an owner, with which the
rules can be run on concrete transactions.
-/

namespace Sample

def ada : AssetClass := ⟨Assets.adaPolicyId, Assets.adaAssetName⟩

def token : AssetClass := ⟨List.replicate 28 0xaa, [0x54]⟩

def digest (n : ℕ) : Bytes := (List.range 32).map fun i => Fin.ofNat 256 (n / 256 ^ (31 - i))

/-- SHA-256, tabulated at what the orders between `ada` and `token` hash. -/
def sha2_256 (b : Bytes) : Bytes :=
  if pairBeaconPreimage ada token = some b then
    digest 0xa9cc7e6d8bb714ac795ce50f0297c15da2b94bf9faf864b202de6544fd8e68a8
  else if b = offerBeaconPreimage ada then
    digest 0x4bf5122f344554c53bde2ebb8cd2b7e3d1600ad631c385a5d7cce23c7785459a
  else if b = askBeaconPreimage token then
    digest 0x3c4a85b68be31910cc18e7829c77ed0af03e9f559e90cf0606b74c93b675f718
  else if b = offerBeaconPreimage token then
    digest 0xe80a7efd6760e63058cc3983ff4984d223a326754cf910b2cb9226d2b92fb326
  else if b = askBeaconPreimage ada then
    digest 0xdbc1b4c900ffe48d575b5da5c638040125f65db0fe3e24494b76ea986457d986
  else List.replicate 32 0

def deployment : Deployment where
  sha2_256 := sha2_256
  sha2_256_length b := by
    unfold sha2_256
    split_ifs <;> simp [digest]
  orderScriptHash := List.replicate 28 0x0d
  policyId := List.replicate 28 0xbe
  policyId_length := rfl

def ownerKey : VerificationKeyHash := List.replicate 28 0x01

def sellerKey : VerificationKeyHash := List.replicate 28 0x02

def takerKey : VerificationKeyHash := List.replicate 28 0x03

/-- The output reference `index` of transaction `n`. -/
def ref (n : Byte) (index : ℤ) : OutputReference := ⟨List.replicate 32 n, index⟩

/-- An order of the deployment, open to partial fills, without expiry. -/
def order (offer : AssetClass) (offerAmount : ℤ) (ask : AssetClass) (askAmount : ℤ) :
    OrderDatum where
  version := 1
  beaconPolicyId := deployment.policyId
  owner := .verificationKey ownerKey
  paymentAddress := ⟨.verificationKey sellerKey, none⟩
  offer := offer
  offerAmount := offerAmount
  ask := ask
  askAmount := askAmount
  expiration := none
  allowPartialFill := true

def beacons (datum : OrderDatum) : Value :=
  oneOfEach deployment.policyId ((beaconNames sha2_256 datum.offer datum.ask ownerKey).getD [])

def orderOutput (datum : OrderDatum) (lovelace : ℤ) : Output where
  address := ⟨.script deployment.orderScriptHash, some (.inline datum.owner)⟩
  value := Assets.fromLovelace lovelace + offerValue datum + beacons datum
  datum := .inlineDatum (toData datum)
  referenceScript := none

def walletOutput (key : VerificationKeyHash) (value : Value) : Output where
  address := ⟨.verificationKey key, none⟩
  value := value
  datum := .noDatum
  referenceScript := none

def payment (datum : OrderDatum) (orderRef : OutputReference) (value : Value) : Output where
  address := datum.paymentAddress
  value := value
  datum := .inlineDatum (toData (PaymentTag.mk orderRef))
  referenceScript := none

def always : Interval := ⟨⟨.negativeInfinity, true⟩, ⟨.positiveInfinity, true⟩⟩

/-- The creation of an order with `lovelace`, out of one wallet UTxO. -/
def creation (datum : OrderDatum) (lovelace : ℤ) : Transaction where
  inputs := [⟨ref 0 0, walletOutput ownerKey (Assets.fromLovelace lovelace + offerValue datum)⟩]
  outputs := [orderOutput datum lovelace]
  mint := beacons datum
  extraSignatories := []
  validityRange := always
  redeemers := [(.mint deployment.policyId, toData BeaconRedeemer.mintBeacons)]
  datums := []

/-- Ten ADA for five tokens, with a deposit of two ADA. -/
def sale : OrderDatum := order ada 10000000 token 5

end Sample

instance (orderScriptHash : ScriptHash) (tx : Transaction) :
    Decidable (OrdersApproved orderScriptHash tx) :=
  inferInstanceAs (Decidable (∀ input ∈ tx.inputs, sitsAt orderScriptHash input.output = true →
    runOrder tx input = some true))

instance (tx : Transaction) : Decidable (Balanced tx) :=
  decidable_of_iff
    ((tx.inputs.map Input.outputReference).Nodup ∧
      (∀ input ∈ tx.inputs, Nonnegative input.output.value) ∧
      (∀ output ∈ tx.outputs, Nonnegative output.value) ∧
      Assets.withoutLovelace (inputValue tx + tx.mint) = Assets.withoutLovelace (outputValue tx))
    ⟨fun ⟨h₁, h₂, h₃, h₄⟩ => ⟨h₁, h₂, h₃, h₄⟩, fun ⟨h₁, h₂, h₃, h₄⟩ => ⟨h₁, h₂, h₃, h₄⟩⟩

instance (d : Deployment) (tx : Transaction) : Decidable (LedgerValid d tx) :=
  decidable_of_iff
    (Balanced tx ∧ OrdersApproved d.orderScriptHash tx ∧
      (runsPolicy tx d.policyId = true → runBeacon d tx = some true))
    ⟨fun ⟨h₁, h₂, h₃⟩ => ⟨h₁, h₂, h₃⟩, fun ⟨h₁, h₂, h₃⟩ => ⟨h₁, h₂, h₃⟩⟩

end BeaconDex
