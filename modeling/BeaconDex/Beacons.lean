import BeaconDex.Types

/-!
# Beacon token names

`contracts/lib/p2p_dex/beacons.ak`: the five token names an order carries, as a
function of its assets and its owner.

The hash is a Plutus builtin, so it is a parameter throughout.  What a result
needs of it is stated as a hypothesis at that result.

## What a name identifies

Three of the five names are hashes, of the pair, the offer and the ask, each after a
byte of its own so that preimages of different kinds differ.  The owner's is the key
hash as it is, and the fifth is the same for all orders.  Readers of the chain find
orders by the names.  That two orders with different assets have different names thus
needs the preimages to differ, which concatenation does not give for free
(`NameIdentity`).
-/

namespace BeaconDex

/-- ASCII `"order"`. -/
def orderBeaconName : AssetName := [0x6f, 0x72, 0x64, 0x65, 0x72]

/-- ADA is the empty policy id with the empty asset name. -/
def isAda (a : AssetClass) : Bool :=
  a.policyId = Assets.adaPolicyId && a.assetName = Assets.adaAssetName

theorem isAda_eq_true {a : AssetClass} :
    isAda a = true ↔ a.policyId = Assets.adaPolicyId ∧ a.assetName = Assets.adaAssetName := by
  simp [isAda]

/-- `a` in quantity `q`. -/
def AssetClass.amount (a : AssetClass) (q : ℤ) : Value := Assets.fromAsset a.policyId a.assetName q

theorem AssetClass.amount_add (a : AssetClass) (q r : ℤ) :
    a.amount (q + r) = a.amount q + a.amount r :=
  Assets.fromAsset_add _ _ q r

/-- An amount of ADA is lovelace, as the contracts test for ADA by the two empty ids. -/
theorem AssetClass.amount_of_isAda {a : AssetClass} (h : isAda a = true) (q : ℤ) :
    a.amount q = Assets.fromLovelace q := by
  obtain ⟨hp, hn⟩ := isAda_eq_true.mp h
  rw [amount, hp, hn, Assets.fromLovelace]

theorem AssetClass.lovelaceOf_amount (a : AssetClass) (q : ℤ) :
    Assets.lovelaceOf (a.amount q) = if isAda a then q else 0 := by
  rw [amount, Assets.lovelaceOf, Assets.quantityOf_fromAsset]
  congr 1
  rw [isAda_eq_true, @eq_comm _ a.policyId, @eq_comm _ a.assetName]

/-- The quantity of `asset` in a value. -/
def held (asset : AssetClass) (v : Value) : ℤ :=
  Assets.quantityOf v asset.policyId asset.assetName

@[simp] theorem held_add (asset : AssetClass) (v w : Value) :
    held asset (v + w) = held asset v + held asset w := rfl

/-- An amount of an asset holds this asset only. -/
theorem held_amount (asset ask : AssetClass) (q : ℤ) :
    held asset (ask.amount q) = if asset = ask then q else 0 := by
  rw [held, AssetClass.amount, Assets.quantityOf_fromAsset]
  cases asset
  cases ask
  simp

theorem held_fromLovelace (asset : AssetClass) (q : ℤ) :
    held asset (Assets.fromLovelace q) = if isAda asset then q else 0 := by
  rw [held, Assets.fromLovelace, Assets.quantityOf_fromAsset]
  congr 1
  rw [isAda_eq_true]

/-- A payment in lovelace and one token holds the token exactly. -/
theorem held_payment {ask : AssetClass} (hask : isAda ask = false) (lovelace q : ℤ) :
    held ask (Assets.fromLovelace lovelace + ask.amount q) = q := by
  rw [held_add, held_fromLovelace, held_amount, hask, if_neg (by simp), if_pos rfl, zero_add]

theorem held_of_isAda {asset : AssetClass} (h : isAda asset = true) (v : Value) :
    held asset v = Assets.lovelaceOf v := by
  obtain ⟨hp, hn⟩ := isAda_eq_true.mp h
  rw [held, hp, hn, Assets.lovelaceOf]

/-- There is one ADA. -/
theorem AssetClass.eq_of_isAda {a b : AssetClass} (ha : isAda a = true) (hb : isAda b = true) :
    a = b := by
  obtain ⟨hp, hn⟩ := isAda_eq_true.mp ha
  obtain ⟨hp', hn'⟩ := isAda_eq_true.mp hb
  cases a
  cases b
  simp_all

/-- Raw asset id. -/
def assetId (a : AssetClass) : Bytes := a.policyId ++ a.assetName

/-- `bytearray.push` with a computed byte: the builtin under it fails outside
`0..255`. -/
def push (self : Bytes) (byte : ℕ) : Option Bytes :=
  if h : byte < 256 then some (⟨byte, h⟩ :: self) else none

/-- Length-prefixed asset id. -/
def lengthPrefixed (id : Bytes) : Option Bytes := push id id.length

section Names

variable (sha2_256 : Bytes → Bytes)

/-- Two length-prefixed ids, one after the other. -/
def concatPrefixed (lo hi : Bytes) : Option Bytes := do
  return (← lengthPrefixed lo) ++ (← lengthPrefixed hi)

/-- What the pair beacon hashes: the two prefixed ids, `b`'s first unless `a`'s
is strictly smaller. -/
def pairBeaconPreimage (a b : AssetClass) : Option Bytes :=
  let ia := assetId a
  let ib := assetId b
  let body := if ia < ib then concatPrefixed ia ib else concatPrefixed ib ia
  body.bind fun body => push body 0x00

/-- What is hashed for an offer: its asset, after a byte that no other preimage begins
with. -/
def offerBeaconPreimage (offer : AssetClass) : Bytes := (0x01 : Byte) :: assetId offer

/-- The same for an ask. -/
def askBeaconPreimage (ask : AssetClass) : Bytes := (0x02 : Byte) :: assetId ask

/-- Undirected pair beacon: the same name whichever side is offered. -/
def pairBeaconName (a b : AssetClass) : Option AssetName :=
  (pairBeaconPreimage a b).map sha2_256

/-- The name that marks all orders with this offer. -/
def offerBeaconName (offer : AssetClass) : AssetName := sha2_256 (offerBeaconPreimage offer)

/-- The name that marks all orders with this ask. -/
def askBeaconName (ask : AssetClass) : AssetName := sha2_256 (askBeaconPreimage ask)

/-- The owner's staking key hash, verbatim. -/
def ownerBeaconName (ownerKeyHash : VerificationKeyHash) : AssetName := ownerKeyHash

/-- The five names an order of `ownerKeyHash` carries, in the order
`beacon_set` adds them. -/
def beaconNames (offer ask : AssetClass) (ownerKeyHash : VerificationKeyHash) :
    Option (List AssetName) := do
  let pair ← pairBeaconName sha2_256 offer ask
  return [orderBeaconName, pair, offerBeaconName sha2_256 offer, askBeaconName sha2_256 ask,
    ownerBeaconName ownerKeyHash]

/-- What one order's names hash. -/
def beaconPreimages (offer ask : AssetClass) : Set Bytes :=
  {p | pairBeaconPreimage offer ask = some p} ∪ {offerBeaconPreimage offer, askBeaconPreimage ask}

/-- The preimage of a pair begins with a byte that no other preimage begins with. -/
theorem pairBeaconPreimage_head {a b : AssetClass} {p : Bytes}
    (h : pairBeaconPreimage a b = some p) : p.head? = some 0 := by
  simp only [pairBeaconPreimage, Option.bind_eq_some_iff] at h
  obtain ⟨body, -, hpush⟩ := h
  simp only [push, Nat.zero_lt_succ, dite_true, Option.some.injEq] at hpush
  rw [← hpush]
  rfl

/-- **The five names never collide**: the domain bytes separate the three
hashes, and their length separates them from the other two. -/
theorem beaconNames_nodup {offer ask : AssetClass} {ownerKeyHash : VerificationKeyHash}
    {names : List AssetName} (hlen : ∀ b, (sha2_256 b).length = 32)
    (hinj : Set.InjOn sha2_256 (beaconPreimages offer ask)) (howner : ownerKeyHash.length = 28)
    (h : beaconNames sha2_256 offer ask ownerKeyHash = some names) : names.Nodup := by
  simp only [beaconNames, pairBeaconName, Option.bind_eq_bind, Option.bind_eq_some_iff,
    Option.map_eq_some_iff, Option.pure_def, Option.some.injEq] at h
  obtain ⟨pair, ⟨p, hp, rfl⟩, rfl⟩ := h
  have hhead := pairBeaconPreimage_head hp
  have hpMem : p ∈ beaconPreimages offer ask := Or.inl hp
  have hoMem : offerBeaconPreimage offer ∈ beaconPreimages offer ask := Or.inr (Or.inl rfl)
  have haMem : askBeaconPreimage ask ∈ beaconPreimages offer ask := Or.inr (Or.inr rfl)
  have hpo : sha2_256 p ≠ offerBeaconName sha2_256 offer := by
    intro heq
    rw [hinj hpMem hoMem heq] at hhead
    simp [offerBeaconPreimage] at hhead
  have hpa : sha2_256 p ≠ askBeaconName sha2_256 ask := by
    intro heq
    rw [hinj hpMem haMem heq] at hhead
    simp [askBeaconPreimage] at hhead
  have hoa : offerBeaconName sha2_256 offer ≠ askBeaconName sha2_256 ask := by
    intro heq
    have := hinj hoMem haMem heq
    simp [offerBeaconPreimage, askBeaconPreimage] at this
  have hne : ∀ {x y : Bytes}, x.length ≠ y.length → x ≠ y := fun hxy heq => hxy (heq ▸ rfl)
  have horder : orderBeaconName.length = 5 := rfl
  have hhash : ∀ b, orderBeaconName ≠ sha2_256 b := fun b => hne (by rw [horder, hlen]; decide)
  have hkey : ∀ b, sha2_256 b ≠ ownerKeyHash := fun b => hne (by rw [howner, hlen]; decide)
  have horderOwner : orderBeaconName ≠ ownerKeyHash := hne (by rw [horder, howner]; decide)
  simp only [List.nodup_cons, List.mem_cons, List.not_mem_nil, or_false, not_or, not_false_eq_true,
    List.nodup_nil, and_true, ownerBeaconName]
  exact ⟨⟨hhash _, hhash _, hhash _, horderOwner⟩, ⟨hpo, hpa, hkey _⟩, ⟨hoa, hkey _⟩, hkey _⟩

end Names

end BeaconDex
