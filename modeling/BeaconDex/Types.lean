import BeaconDex.Plutus

/-!
# Protocol types

`contracts/lib/p2p_dex/types.ak`: the order datum, the payment tag and the
redeemers of the two scripts, each with the encoding Aiken gives it.  The
constructor indices are load-bearing off-chain (the indexer classifies a spend
by them), so they are spelled out here rather than derived.

## Reading data back

On the chain everything is `Data`.  `toData` is the encoding, and each type has a reader
that accepts exactly what was so encoded; that a reader inverts its encoding is all that
later files use of either.
-/

namespace BeaconDex

/-- A native asset, or ADA as the empty policy id and the empty name. -/
structure AssetClass where
  policyId : PolicyId
  assetName : AssetName
  deriving DecidableEq

instance : IsData AssetClass where
  toData a := .constr 0 [toData a.policyId, toData a.assetName]
  ofData
    | .constr 0 [policyId, assetName] => do
        return ⟨← ofData policyId, ← ofData assetName⟩
    | _ => none
  ofData_eq_some data a := by
    cases a; split <;> simp_all [IsData.ofData_eq_some, Option.bind_eq_some_iff]

/-- Inline datum attached to every order UTxO. -/
structure OrderDatum where
  version : ℤ
  beaconPolicyId : PolicyId
  /-- The owner's staking credential. -/
  owner : Credential
  /-- Where the ask payment must go on `TakeOrder`. -/
  paymentAddress : Address
  offer : AssetClass
  offerAmount : ℤ
  ask : AssetClass
  askAmount : ℤ
  /-- Optional expiry as POSIX time in ms. -/
  expiration : Option ℤ
  allowPartialFill : Bool
  deriving DecidableEq

instance : IsData OrderDatum where
  toData d := .constr 0
    [toData d.version, toData d.beaconPolicyId, toData d.owner, toData d.paymentAddress,
      toData d.offer, toData d.offerAmount, toData d.ask, toData d.askAmount,
      toData d.expiration, toData d.allowPartialFill]
  ofData
    | .constr 0 [version, beaconPolicyId, owner, paymentAddress, offer, offerAmount, ask,
        askAmount, expiration, allowPartialFill] => do
        return {
          version := ← ofData version
          beaconPolicyId := ← ofData beaconPolicyId
          owner := ← ofData owner
          paymentAddress := ← ofData paymentAddress
          offer := ← ofData offer
          offerAmount := ← ofData offerAmount
          ask := ← ofData ask
          askAmount := ← ofData askAmount
          expiration := ← ofData expiration
          allowPartialFill := ← ofData allowPartialFill }
    | _ => none
  ofData_eq_some data d := by
    constructor
    · intro h
      split at h
      · simp only [Option.bind_eq_bind, Option.bind_eq_some_iff, IsData.ofData_eq_some,
          Option.pure_def, Option.some.injEq] at h
        obtain ⟨_, rfl, _, rfl, _, rfl, _, rfl, _, rfl, _, rfl, _, rfl, _, rfl, _, rfl, _, rfl,
          rfl⟩ := h
        rfl
      · cases h
    · rintro rfl
      simp

/-- Inline datum required on every seller payment: it names the order UTxO the
output settles. -/
structure PaymentTag where
  orderRef : OutputReference
  deriving DecidableEq

instance : IsData PaymentTag where
  toData t := .constr 0 [toData t.orderRef]
  ofData
    | .constr 0 [orderRef] => (ofData orderRef).map .mk
    | _ => none
  ofData_eq_some data t := by
    cases t; split <;> simp_all [IsData.ofData_eq_some]

/-- Spending redeemers of the order validator. -/
inductive OrderRedeemer
  | cancelOrder
  | takeOrder
  | takeOrderPartial (takeAmount : ℤ)
  deriving DecidableEq

instance : IsData OrderRedeemer where
  toData
    | .cancelOrder => .constr 0 []
    | .takeOrder => .constr 1 []
    | .takeOrderPartial takeAmount => .constr 2 [toData takeAmount]
  ofData
    | .constr 0 [] => some .cancelOrder
    | .constr 1 [] => some .takeOrder
    | .constr 2 [takeAmount] => (ofData takeAmount).map .takeOrderPartial
    | _ => none
  ofData_eq_some data r := by
    cases r <;> split <;> simp_all [IsData.ofData_eq_some]

/-- Minting redeemers of the beacon policy. -/
inductive BeaconRedeemer
  | mintBeacons
  | burnBeacons
  deriving DecidableEq

instance : IsData BeaconRedeemer where
  toData
    | .mintBeacons => .constr 0 []
    | .burnBeacons => .constr 1 []
  ofData
    | .constr 0 [] => some .mintBeacons
    | .constr 1 [] => some .burnBeacons
    | _ => none
  ofData_eq_some data r := by
    cases r <;> split <;> simp_all

/-- An output cannot be a seller payment and an order at once: the two datums
share a constructor index but not a number of fields. -/
theorem ofData_paymentTag_toData_orderDatum (d : OrderDatum) :
    (ofData (toData d) : Option PaymentTag) = none := rfl

end BeaconDex
