import Mathlib.Data.DFinsupp.BigOperators
import Mathlib.Data.DFinsupp.Multiset
import Mathlib.Data.DFinsupp.Order
import Mathlib.Tactic.Abel
import Mathlib.Tactic.Linarith

/-!
# Plutus script contexts

The part of the Aiken standard library the contracts are written against:
bytes, Plutus `Data`, addresses, multi-asset values and the transaction a
script is shown.

## Values

An Aiken `Value` is an opaque dictionary of dictionaries without zero entries, so
two values are equal exactly when every quantity is.  Mathlib's finitely supported
functions have the same equality and still compute, so `Value` is one of them:
merging is addition, and conservation laws are equations in a group.

## Casts

`expect x: T = data` succeeds exactly when `data` is the encoding of a `T`.
`IsData` carries both directions of the codec together with that law, so a
successful cast can always be replaced by an equation on the raw data
(`ofData_eq_some`).

## What a script sees

The transaction has the fields the two validators and their rules read, in the
ledger's order where the order matters to them: inputs by reference, redeemers by
purpose.  Fields no rule reads (fees, withdrawals, certificates) are left out.
-/

namespace BeaconDex

/-- A byte of an on-chain byte string. -/
abbrev Byte := Fin 256

instance neZero_byte : NeZero 256 := ⟨by decide⟩

/-- Aiken's `ByteArray`. -/
abbrev Bytes := List Byte

/-- The 28 bytes a script is known by. -/
abbrev ScriptHash := Bytes
/-- The 28 bytes a key is known by. -/
abbrev VerificationKeyHash := Bytes
/-- The hash of a minting script, or nothing for ADA. -/
abbrev PolicyId := Bytes
/-- At most 32 bytes that the minter has chosen; the ledger sees to the length. -/
abbrev AssetName := Bytes

/-!
## Plutus data

Constructors with their index, lists and maps are what a script sees of its arguments;
equality on them is decidable.
-/

/-- Plutus `Data`: what datums and redeemers are made of. -/
inductive Data
  | constr (alternative : ℕ) (fields : List Data)
  | map (entries : List (Data × Data))
  | list (items : List Data)
  | int (value : ℤ)
  | bytes (value : Bytes)

/-- A type with a Plutus encoding.  `ofData` is `expect x: α = data`: it
succeeds on encodings and on nothing else. -/
class IsData (α : Type) where
  toData : α → Data
  ofData : Data → Option α
  ofData_eq_some : ∀ (data : Data) (a : α), ofData data = some a ↔ data = toData a

export IsData (toData ofData)

section IsData

variable {α : Type} [IsData α]

@[simp] theorem ofData_toData (a : α) : ofData (toData a) = some a :=
  (IsData.ofData_eq_some _ _).mpr rfl

/-- An encoding determines the value it encodes. -/
theorem toData_injective : Function.Injective (toData : α → Data) := by
  intro a b h
  have hb : ofData (toData b) = some a := by rw [← h, ofData_toData]
  rw [ofData_toData] at hb
  exact (Option.some.inj hb).symm

/-- Different values are encoded differently, so that comparing data is comparing values. -/
theorem toData_inj {a b : α} : toData a = toData b ↔ a = b :=
  toData_injective.eq_iff

end IsData

instance : IsData ℤ where
  toData i := .int i
  ofData
    | .int i => some i
    | _ => none
  ofData_eq_some data i := by cases data <;> simp

instance : IsData Bytes where
  toData b := .bytes b
  ofData
    | .bytes b => some b
    | _ => none
  ofData_eq_some data b := by cases data <;> simp

instance : IsData Bool where
  toData
    | false => .constr 0 []
    | true => .constr 1 []
  ofData
    | .constr 0 [] => some false
    | .constr 1 [] => some true
    | _ => none
  ofData_eq_some data b := by
    cases b <;> split <;> simp_all

instance {α : Type} [IsData α] : IsData (Option α) where
  toData
    | some a => .constr 0 [toData a]
    | none => .constr 1 []
  ofData
    | .constr 0 [a] => (ofData a).map some
    | .constr 1 [] => some none
    | _ => none
  ofData_eq_some data o := by
    cases o <;> split <;> simp_all [IsData.ofData_eq_some]

/-! ## Addresses -/

/-- `cardano/address.Credential`. -/
inductive Credential
  | verificationKey (hash : VerificationKeyHash)
  | script (hash : ScriptHash)
  deriving DecidableEq

instance : IsData Credential where
  toData
    | .verificationKey hash => .constr 0 [toData hash]
    | .script hash => .constr 1 [toData hash]
  ofData
    | .constr 0 [hash] => (ofData hash).map .verificationKey
    | .constr 1 [hash] => (ofData hash).map .script
    | _ => none
  ofData_eq_some data c := by
    cases c <;> split <;> simp_all [IsData.ofData_eq_some]

/-- `cardano/address.Referenced<Credential>`: a staking part, given inline or by
a pointer into the chain. -/
inductive StakeCredential
  | inline (credential : Credential)
  | pointer (slotNumber transactionIndex certificateIndex : ℤ)
  deriving DecidableEq

instance : IsData StakeCredential where
  toData
    | .inline credential => .constr 0 [toData credential]
    | .pointer slot tx cert => .constr 1 [toData slot, toData tx, toData cert]
  ofData
    | .constr 0 [credential] => (ofData credential).map .inline
    | .constr 1 [slot, tx, cert] => do
        return .pointer (← ofData slot) (← ofData tx) (← ofData cert)
    | _ => none
  ofData_eq_some data s := by
    cases s <;> split <;> simp_all [IsData.ofData_eq_some, Option.bind_eq_some_iff]

/-- `cardano/address.Address`. -/
structure Address where
  paymentCredential : Credential
  stakeCredential : Option StakeCredential
  deriving DecidableEq

instance : IsData Address where
  toData a := .constr 0 [toData a.paymentCredential, toData a.stakeCredential]
  ofData
    | .constr 0 [payment, stake] => do
        return ⟨← ofData payment, ← ofData stake⟩
    | _ => none
  ofData_eq_some data a := by
    cases a; split <;> simp_all [IsData.ofData_eq_some, Option.bind_eq_some_iff]

/-- `cardano/transaction.OutputReference`. -/
structure OutputReference where
  transactionId : Bytes
  outputIndex : ℤ
  deriving DecidableEq

instance : IsData OutputReference where
  toData r := .constr 0 [toData r.transactionId, toData r.outputIndex]
  ofData
    | .constr 0 [txId, index] => do
        return ⟨← ofData txId, ← ofData index⟩
    | _ => none
  ofData_eq_some data r := by
    cases r; split <;> simp_all [IsData.ofData_eq_some, Option.bind_eq_some_iff]

/-!
## Values

A value is a map from policies to tokens, which is zero almost everywhere, so that two
values that hold the same are equal.  ADA is the empty policy with the empty name, as
the standard library of the contracts has it.
-/

/-- The tokens of one policy, `Dict<AssetName, Int>`. -/
abbrev Tokens := Π₀ _ : AssetName, ℤ

/-- `cardano/assets.Value`. -/
abbrev Value := Π₀ _ : PolicyId, Tokens

namespace Assets

/-- ADA is the asset without a policy -/
def adaPolicyId : PolicyId := []

/-- and without a name. -/
def adaAssetName : AssetName := []

/-- So much of one asset. -/
def fromAsset (policyId : PolicyId) (assetName : AssetName) (quantity : ℤ) : Value :=
  DFinsupp.single policyId (DFinsupp.single assetName quantity)

/-- So much of ADA. -/
def fromLovelace (quantity : ℤ) : Value :=
  fromAsset adaPolicyId adaAssetName quantity

def zero : Value := 0

def add (self : Value) (policyId : PolicyId) (assetName : AssetName) (quantity : ℤ) : Value :=
  self + fromAsset policyId assetName quantity

/-- Merging is addition. -/
def merge (left right : Value) : Value := left + right

/-- The part of a value that is under one policy. -/
def tokens (self : Value) (policyId : PolicyId) : Tokens := self policyId

/-- How much of one asset is in a value. -/
def quantityOf (self : Value) (policyId : PolicyId) (assetName : AssetName) : ℤ :=
  self policyId assetName

/-- How much ADA is in it. -/
def lovelaceOf (self : Value) : ℤ := quantityOf self adaPolicyId adaAssetName

/-- Everything but ADA. -/
def withoutLovelace (self : Value) : Value := self.erase adaPolicyId

/-- Nothing is in it. -/
def isZero (self : Value) : Bool := self = 0

/-- `aiken/collection/dict.is_empty`, on the tokens of a policy. -/
def isEmpty (self : Tokens) : Bool := self = 0

/-- `dict.to_pairs` followed by `list.all`, on the tokens of a policy: the
entries are the names with a nonzero quantity. -/
def allPairs (self : Tokens) (p : ℤ → Bool) : Bool :=
  ∀ name ∈ self.support, p (self name)

/-- The tokens under a policy add up with their values. -/
@[simp] theorem tokens_add (v w : Value) (p : PolicyId) :
    tokens (v + w) p = tokens v p + tokens w p := rfl

/-- One asset is tokens under its own policy only. -/
theorem tokens_fromAsset (p p' : PolicyId) (n : AssetName) (q : ℤ) :
    tokens (fromAsset p n q) p' = if p' = p then DFinsupp.single n q else 0 := by
  by_cases h : p' = p
  · subst h; simp [tokens, fromAsset]
  · simp [tokens, fromAsset, h, DFinsupp.single_eq_of_ne h]

@[simp] theorem tokens_fromAsset_self (p : PolicyId) (n : AssetName) (q : ℤ) :
    tokens (fromAsset p n q) p = DFinsupp.single n q := by
  simp [tokens_fromAsset]

theorem tokens_fromAsset_of_ne {p p' : PolicyId} (h : p' ≠ p) (n : AssetName) (q : ℤ) :
    tokens (fromAsset p n q) p' = 0 := by
  simp [tokens_fromAsset, h]

theorem fromAsset_add (p : PolicyId) (n : AssetName) (q r : ℤ) :
    fromAsset p n (q + r) = fromAsset p n q + fromAsset p n r := by
  simp [fromAsset, DFinsupp.single_add]

theorem fromLovelace_add (q r : ℤ) : fromLovelace (q + r) = fromLovelace q + fromLovelace r :=
  fromAsset_add _ _ q r

/-- And of its own name only. -/
theorem quantityOf_fromAsset (p p' : PolicyId) (n n' : AssetName) (q : ℤ) :
    quantityOf (fromAsset p n q) p' n' = if p' = p ∧ n' = n then q else 0 := by
  unfold quantityOf fromAsset
  by_cases hp : p' = p
  · subst hp
    by_cases hn : n' = n
    · subst hn; simp
    · simp [hn, DFinsupp.single_eq_of_ne hn]
  · simp [hp, DFinsupp.single_eq_of_ne hp]

@[simp] theorem lovelaceOf_add (v w : Value) : lovelaceOf (v + w) = lovelaceOf v + lovelaceOf w :=
  rfl

@[simp] theorem lovelaceOf_fromLovelace (q : ℤ) : lovelaceOf (fromLovelace q) = q := by
  simp [lovelaceOf, fromLovelace, quantityOf_fromAsset]

@[simp] theorem isEmpty_eq_true {t : Tokens} : isEmpty t = true ↔ t = 0 := by
  simp [isEmpty]

@[simp] theorem isEmpty_eq_false {t : Tokens} : isEmpty t = false ↔ t ≠ 0 := by
  simp [isEmpty]

end Assets

/-!
## Transactions

The fields of a transaction that the two scripts read, under the names of the standard
library.
-/

/-- `cardano/transaction.Datum`. -/
inductive Datum
  | noDatum
  | datumHash (hash : Bytes)
  | inlineDatum (data : Data)

/-- `cardano/transaction.Output`. -/
structure Output where
  address : Address
  value : Value
  datum : Datum
  referenceScript : Option ScriptHash

/-- `cardano/transaction.Input`. -/
@[ext] structure Input where
  outputReference : OutputReference
  output : Output

/-- `cardano/transaction.ScriptPurpose`; the purposes neither contract serves
are one constructor. -/
inductive ScriptPurpose
  | mint (policyId : PolicyId)
  | spend (outputReference : OutputReference)
  | other (index : ℕ)
  deriving DecidableEq

/-- `aiken/interval.IntervalBoundType<Int>`. -/
inductive IntervalBoundType
  | negativeInfinity
  | finite (time : ℤ)
  | positiveInfinity

/-- `aiken/interval.IntervalBound<Int>`. -/
structure IntervalBound where
  boundType : IntervalBoundType
  isInclusive : Bool

/-- `aiken/interval.Interval<Int>`. -/
structure Interval where
  lowerBound : IntervalBound
  upperBound : IntervalBound

/-- `cardano/transaction.Transaction`: the fields the contracts read, with the
redeemers and the datum witnesses the ledger hands to the scripts. -/
structure Transaction where
  inputs : List Input
  outputs : List Output
  mint : Value
  extraSignatories : List VerificationKeyHash
  validityRange : Interval
  redeemers : List (ScriptPurpose × Data)
  datums : List (Bytes × Data)

/-- `transaction.find_input`. -/
def findInput (inputs : List Input) (ref : OutputReference) : Option Input :=
  inputs.find? fun input => input.outputReference = ref

end BeaconDex
