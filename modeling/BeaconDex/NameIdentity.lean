import BeaconDex.BeaconFlow
import Mathlib.Data.Sym.Sym2.Order

/-!
# What a beacon name says

The names of an order hash its two asset ids, a policy id followed by an asset
name.  Below the hash the pair is recovered as a pair of ids: each id is prefixed
with its length (`pairBeaconPreimage_inj`).  An id is recovered as an asset class
only where the length of the policy id is known.

The offer is held in the order, so the ledger vouches for the 28 bytes of its
policy id.  Nothing vouches for the ask.  `namesIdentify_iff` says exactly when
the names of two orders identify their assets, and `names_confuse` shows two
orders on different markets with one PairBeacon and one AskBeacon.

## Below the hash and above it

That different preimages have different names is an assumption on the hash, made only
for the preimages in question.  What is proved is about the preimages: which pairs of
assets can be recovered from them, and by whom.
-/

namespace BeaconDex

/-!
## Asset ids

An id is a policy id followed by a name.  On the ledger policy ids have 28 bytes, except
for ADA's, so there the cut can be found again.
-/

/-- An asset a ledger value can hold: ADA, or a name of at most 32 bytes under
the hash of a policy. -/
def Native (a : AssetClass) : Prop :=
  isAda a = true ∨ a.policyId.length = 28 ∧ a.assetName.length ≤ 32

instance (a : AssetClass) : Decidable (Native a) := inferInstanceAs (Decidable (_ ∨ _ ∧ _))

/-- `a` and `b` are the same bytes, cut differently into policy id and name. -/
def CutDifferently (a b : AssetClass) : Prop :=
  assetId a = assetId b ∧ a.policyId.length ≠ b.policyId.length

instance (a b : AssetClass) : Decidable (CutDifferently a b) :=
  inferInstanceAs (Decidable (_ ∧ _))

/-- An id and the length of its policy id make an asset. -/
theorem eq_of_assetId_eq {a b : AssetClass} (hid : assetId a = assetId b)
    (hcut : ¬CutDifferently a b) : a = b := by
  have hlen : a.policyId.length = b.policyId.length := by
    by_contra hne
    exact hcut ⟨hid, hne⟩
  obtain ⟨hpolicy, hname⟩ := List.append_inj hid hlen
  cases a
  cases b
  exact congrArg₂ AssetClass.mk hpolicy hname

/-- Assets the ledger knows are never cut differently: the id of ADA is empty, any
other begins with 28 bytes of policy id. -/
theorem Native.not_cutDifferently {a b : AssetClass} (ha : Native a) (hb : Native b) :
    ¬CutDifferently a b := by
  rintro ⟨hid, hne⟩
  have hlen := congrArg List.length hid
  simp only [assetId, List.length_append] at hlen
  rcases ha with ha | ⟨ha, -⟩ <;> rcases hb with hb | ⟨hb, -⟩
  · exact hne (by rw [AssetClass.eq_of_isAda ha hb])
  · obtain ⟨hpolicy, hname⟩ := isAda_eq_true.mp ha
    rw [hpolicy, hname] at hlen
    simp only [Assets.adaPolicyId, Assets.adaAssetName, List.length_nil] at hlen
    omega
  · obtain ⟨hpolicy, hname⟩ := isAda_eq_true.mp hb
    rw [hpolicy, hname] at hlen
    simp only [Assets.adaPolicyId, Assets.adaAssetName, List.length_nil] at hlen
    omega
  · exact hne (ha.trans hb.symm)

/-- Assets of the ledger are told apart by their ids, as their policy ids have one length. -/
theorem Native.eq_of_assetId_eq {a b : AssetClass} (ha : Native a) (hb : Native b)
    (hid : assetId a = assetId b) : a = b :=
  BeaconDex.eq_of_assetId_eq hid (ha.not_cutDifferently hb)

/-!
## Preimages

The preimage of a pair has its two ids with their lengths, smaller one first, so that it
determines the set of the two.
-/

theorem lengthPrefixed_eq_some_iff {id encoded : Bytes} :
    lengthPrefixed id = some encoded ↔ ∃ h : id.length < 256, encoded = ⟨id.length, h⟩ :: id := by
  unfold lengthPrefixed push
  split
  · next hlt =>
    rw [Option.some.injEq, eq_comm]
    exact ⟨fun h => ⟨hlt, h⟩, fun ⟨_, h⟩ => h⟩
  · next hge => exact ⟨fun h => (by cases h), fun ⟨hlt, _⟩ => absurd hlt hge⟩

/-- Two prefixed ids in a row are read back one after the other. -/
theorem concatPrefixed_inj {lo hi lo' hi' body : Bytes} (h : concatPrefixed lo hi = some body)
    (h' : concatPrefixed lo' hi' = some body) : lo = lo' ∧ hi = hi' := by
  simp only [concatPrefixed, Option.bind_eq_bind, Option.bind_eq_some_iff, Option.pure_def,
    Option.some.injEq, lengthPrefixed_eq_some_iff] at h h'
  obtain ⟨_, ⟨_, rfl⟩, _, ⟨_, rfl⟩, rfl⟩ := h
  obtain ⟨_, ⟨_, rfl⟩, _, ⟨_, rfl⟩, heq⟩ := h'
  rw [List.cons_append, List.cons_append, List.cons.injEq, Fin.mk.injEq] at heq
  obtain ⟨hlo, hrest⟩ := List.append_inj heq.2 heq.1
  exact ⟨hlo.symm, (List.cons.inj hrest).2.symm⟩

/-- The pair beacon hashes the smaller id and the larger one. -/
theorem pairBeaconPreimage_eq (a b : AssetClass) :
    pairBeaconPreimage a b =
      (concatPrefixed s(assetId a, assetId b).inf s(assetId a, assetId b).sup).bind
        fun body => push body 0x00 := by
  simp only [pairBeaconPreimage, Sym2.inf_mk, Sym2.sup_mk]
  split
  · next hlt => rw [min_eq_left hlt.le, max_eq_right hlt.le]
  · next hge =>
    rw [not_lt] at hge
    rw [min_eq_right hge, max_eq_left hge]

/-- **What the pair beacon hashes determines the two ids**, and nothing else
goes into it. -/
theorem pairBeaconPreimage_inj {a b a' b' : AssetClass} {preimage preimage' : Bytes}
    (h : pairBeaconPreimage a b = some preimage) (h' : pairBeaconPreimage a' b' = some preimage') :
    preimage = preimage' ↔ s(assetId a, assetId b) = s(assetId a', assetId b') := by
  constructor
  · rintro rfl
    rw [pairBeaconPreimage_eq, Option.bind_eq_some_iff] at h h'
    obtain ⟨body, hbody, hpush⟩ := h
    obtain ⟨body', hbody', hpush'⟩ := h'
    simp only [push, Nat.zero_lt_succ, dite_true, Option.some.injEq] at hpush hpush'
    obtain rfl : body = body' := (List.cons.inj (hpush.trans hpush'.symm)).2
    exact Sym2.inf_eq_inf_and_sup_eq_sup.mp (concatPrefixed_inj hbody hbody')
  · intro hids
    rw [pairBeaconPreimage_eq, hids, ← pairBeaconPreimage_eq, h', Option.some.injEq] at h
    exact h.symm

/-- What an order's names hash are its preimages. -/
theorem mem_beaconPreimages (offer ask : AssetClass) :
    (∀ p, pairBeaconPreimage offer ask = some p → p ∈ beaconPreimages offer ask) ∧
      offerBeaconPreimage offer ∈ beaconPreimages offer ask ∧
      askBeaconPreimage ask ∈ beaconPreimages offer ask :=
  ⟨fun _ h => Or.inl h, Or.inr (Or.inl rfl), Or.inr (Or.inr rfl)⟩

/-!
## Accepted orders

What a mint has checked of a datum, and what the ledger has by letting the output exist.
-/

/-- A value of the ledger: it holds native assets. -/
def LedgerValue (v : Value) : Prop := ∀ p ∈ v.support, ∀ t ∈ (v p).support, Native ⟨p, t⟩

instance (v : Value) : Decidable (LedgerValue v) :=
  inferInstanceAs (Decidable (∀ p ∈ v.support, ∀ t ∈ (v p).support, Native ⟨p, t⟩))

/-- What is held is an asset of the ledger. -/
theorem LedgerValue.native_of_held {v : Value} (h : LedgerValue v) {asset : AssetClass}
    (hheld : held asset v ≠ 0) : Native asset := by
  have hpolicy : v asset.policyId ≠ 0 := by
    intro hzero
    apply hheld
    rw [held, Assets.quantityOf, hzero]
    rfl
  exact h _ (DFinsupp.mem_support_iff.mpr hpolicy) _ (DFinsupp.mem_support_iff.mpr hheld)

/-- **The names of `x` and `y` identify their assets**: where an offer, an ask or a pair
has the same name in both, it is the same offer, the same ask, or the same pair in one of
the two orders. -/
structure NamesIdentify (sha2_256 : Bytes → Bytes) (x y : OrderDatum) : Prop where
  offer : offerBeaconName sha2_256 x.offer = offerBeaconName sha2_256 y.offer → x.offer = y.offer
  ask : askBeaconName sha2_256 x.ask = askBeaconName sha2_256 y.ask → x.ask = y.ask
  pair : pairBeaconName sha2_256 x.offer x.ask = pairBeaconName sha2_256 y.offer y.ask →
    s(x.offer, x.ask) = s(y.offer, y.ask)

/-- No ask of the two orders is the same bytes as the other's ask, or crosswise as
the other's offer, cut differently. -/
def AsksUnambiguous (x y : OrderDatum) : Prop :=
  ¬CutDifferently x.ask y.ask ∧
    (assetId x.offer = assetId y.ask → assetId x.ask = assetId y.offer →
      assetId x.offer ≠ assetId x.ask →
      ¬CutDifferently x.offer y.ask ∧ ¬CutDifferently x.ask y.offer)

instance (x y : OrderDatum) : Decidable (AsksUnambiguous x y) :=
  inferInstanceAs (Decidable (_ ∧ (_ → _ → _ → _ ∧ _)))

/-- Asks the ledger knows are not confused with anything. -/
theorem AsksUnambiguous.of_native {x y : OrderDatum} (hoffer : Native x.offer)
    (hoffer' : Native y.offer) (hask : Native x.ask) (hask' : Native y.ask) :
    AsksUnambiguous x y :=
  ⟨hask.not_cutDifferently hask', fun _ _ _ =>
    ⟨hoffer.not_cutDifferently hask', hask.not_cutDifferently hoffer'⟩⟩

section Names

variable {sha2_256 : Bytes → Bytes} {x y : OrderDatum}

/-- Below the hash: the names identify the assets if the ids do. -/
theorem namesIdentify_iff_ids
    (hinj : Set.InjOn sha2_256 (beaconPreimages x.offer x.ask ∪ beaconPreimages y.offer y.ask))
    {p q : Bytes} (hp : pairBeaconPreimage x.offer x.ask = some p)
    (hq : pairBeaconPreimage y.offer y.ask = some q) :
    NamesIdentify sha2_256 x y ↔
      (assetId x.offer = assetId y.offer → x.offer = y.offer) ∧
      (assetId x.ask = assetId y.ask → x.ask = y.ask) ∧
      (s(assetId x.offer, assetId x.ask) = s(assetId y.offer, assetId y.ask) →
        s(x.offer, x.ask) = s(y.offer, y.ask)) := by
  have hx := mem_beaconPreimages x.offer x.ask
  have hy := mem_beaconPreimages y.offer y.ask
  have hoffer : offerBeaconName sha2_256 x.offer = offerBeaconName sha2_256 y.offer ↔
      assetId x.offer = assetId y.offer := by
    rw [offerBeaconName, offerBeaconName, hinj.eq_iff (Or.inl hx.2.1) (Or.inr hy.2.1)]
    exact List.cons_inj_right _
  have hask : askBeaconName sha2_256 x.ask = askBeaconName sha2_256 y.ask ↔
      assetId x.ask = assetId y.ask := by
    rw [askBeaconName, askBeaconName, hinj.eq_iff (Or.inl hx.2.2) (Or.inr hy.2.2)]
    exact List.cons_inj_right _
  have hpair : pairBeaconName sha2_256 x.offer x.ask = pairBeaconName sha2_256 y.offer y.ask ↔
      s(assetId x.offer, assetId x.ask) = s(assetId y.offer, assetId y.ask) := by
    rw [pairBeaconName, pairBeaconName, hp, hq, Option.map_some, Option.map_some, Option.some.injEq,
      hinj.eq_iff (Or.inl (hx.1 p hp)) (Or.inr (hy.1 q hq)), pairBeaconPreimage_inj hp hq]
  rw [← hoffer, ← hask, ← hpair]
  exact ⟨fun h => ⟨h.offer, h.ask, h.pair⟩, fun h => ⟨h.1, h.2.1, h.2.2⟩⟩

/-- Between orders with native offers the ids determine the assets unless an ask
is cut differently. -/
theorem ids_determine_iff (hoffer : Native x.offer) (hoffer' : Native y.offer) :
    ((assetId x.ask = assetId y.ask → x.ask = y.ask) ∧
      (s(assetId x.offer, assetId x.ask) = s(assetId y.offer, assetId y.ask) →
        s(x.offer, x.ask) = s(y.offer, y.ask))) ↔ AsksUnambiguous x y := by
  constructor
  · rintro ⟨hask, hpair⟩
    refine ⟨fun hcut => hcut.2 (by rw [hask hcut.1]), ?_⟩
    intro hcross hcross' hne
    have hsame := hpair (Sym2.eq_iff.mpr (Or.inr ⟨hcross, hcross'⟩))
    rcases Sym2.eq_iff.mp hsame with ⟨hx, -⟩ | ⟨hx, hy⟩
    · -- the offers agree, so their ids would be the ask's
      exact absurd ((congrArg assetId hx).trans hcross'.symm) hne
    · rw [hx, hy]
      exact ⟨fun hcut => hcut.2 rfl, fun hcut => hcut.2 rfl⟩
  · rintro ⟨hask, hcross⟩
    have hasks : assetId x.ask = assetId y.ask → x.ask = y.ask := fun hid =>
      eq_of_assetId_eq hid hask
    refine ⟨hasks, ?_⟩
    intro hids
    rcases Sym2.eq_iff.mp hids with ⟨ho, ha⟩ | ⟨ho, ha⟩
    · rw [hoffer.eq_of_assetId_eq hoffer' ho, hasks ha]
    · by_cases hne : assetId x.offer = assetId x.ask
      · -- all four ids are one
        rw [hoffer.eq_of_assetId_eq hoffer' (hne.trans ha), hasks (hne.symm.trans ho)]
      · obtain ⟨hcut, hcut'⟩ := hcross ho ha hne
        rw [eq_of_assetId_eq ho hcut, eq_of_assetId_eq ha hcut', Sym2.eq_swap]

end Names

section Accepted

variable {d : Deployment} {tx tx' : Transaction} {out out' : Output} {x y : OrderDatum}

/-- What a creation accepts for the datum of its order. -/
theorem accepted_of_mint
    (hmint : mintBeaconsOk d.sha2_256 d.orderScriptHash d.policyId tx = some true)
    (hout : out ∈ beaconBearingOutputs tx d.policyId)
    (hinline : out.datum = .inlineDatum (toData x)) :
    ∃ owner names, MintAccepted d.sha2_256 d.orderScriptHash d.policyId tx out x owner names := by
  obtain ⟨out', datum, owner, names, haccepted⟩ := (mintBeaconsOk_eq_some_true _).mp hmint
  rw [haccepted.only, List.mem_singleton] at hout
  subst hout
  obtain rfl : datum = x :=
    toData_injective (Datum.inlineDatum.inj (haccepted.order.inline.symm.trans hinline))
  exact ⟨owner, names, haccepted⟩

/-- The ledger vouches for the offer of an accepted order. -/
theorem MintAccepted.native_offer {owner : VerificationKeyHash} {names : List AssetName}
    (h : MintAccepted d.sha2_256 d.orderScriptHash d.policyId tx out x owner names)
    (hvalue : LedgerValue out.value) : Native x.offer :=
  hvalue.native_of_held (h.order.offerAmount_pos.trans_le h.order.offerAmount_le_held).ne'

/-- An order that was minted has a preimage for its pair: both ids were short enough. -/
theorem MintAccepted.exists_preimage {owner : VerificationKeyHash} {names : List AssetName}
    (h : MintAccepted d.sha2_256 d.orderScriptHash d.policyId tx out x owner names) :
    ∃ p, pairBeaconPreimage x.offer x.ask = some p := by
  have hnames := h.order.names_eq
  simp only [beaconNames, pairBeaconName, Option.bind_eq_bind, Option.bind_eq_some_iff,
    Option.map_eq_some_iff] at hnames
  obtain ⟨-, ⟨p, hp, -⟩, -⟩ := hnames
  exact ⟨p, hp⟩

/-- **When beacon names identify the assets of two accepted orders**: exactly if
no ask is cut differently from an asset of the other order with the same id.
OfferBeacons always do. -/
theorem namesIdentify_iff
    (hmint : mintBeaconsOk d.sha2_256 d.orderScriptHash d.policyId tx = some true)
    (hout : out ∈ beaconBearingOutputs tx d.policyId) (hvalue : LedgerValue out.value)
    (hinline : out.datum = .inlineDatum (toData x))
    (hmint' : mintBeaconsOk d.sha2_256 d.orderScriptHash d.policyId tx' = some true)
    (hout' : out' ∈ beaconBearingOutputs tx' d.policyId) (hvalue' : LedgerValue out'.value)
    (hinline' : out'.datum = .inlineDatum (toData y))
    (hinj : Set.InjOn d.sha2_256 (beaconPreimages x.offer x.ask ∪ beaconPreimages y.offer y.ask)) :
    (offerBeaconName d.sha2_256 x.offer = offerBeaconName d.sha2_256 y.offer → x.offer = y.offer) ∧
      (NamesIdentify d.sha2_256 x y ↔ AsksUnambiguous x y) ∧
      (Native x.ask → Native y.ask → NamesIdentify d.sha2_256 x y) := by
  obtain ⟨owner, names, haccepted⟩ := accepted_of_mint hmint hout hinline
  obtain ⟨owner', names', haccepted'⟩ := accepted_of_mint hmint' hout' hinline'
  obtain ⟨p, hp⟩ := haccepted.exists_preimage
  obtain ⟨q, hq⟩ := haccepted'.exists_preimage
  have hoffer := haccepted.native_offer hvalue
  have hoffer' := haccepted'.native_offer hvalue'
  have hiff : NamesIdentify d.sha2_256 x y ↔ AsksUnambiguous x y := by
    rw [namesIdentify_iff_ids hinj hp hq, ← ids_determine_iff hoffer hoffer']
    exact and_iff_right (hoffer.eq_of_assetId_eq hoffer')
  refine ⟨?_, hiff, fun hask hask' => hiff.mpr (.of_native hoffer hoffer' hask hask')⟩
  intro hname
  have hid := hinj (Or.inl (mem_beaconPreimages x.offer x.ask).2.1)
    (Or.inr (mem_beaconPreimages y.offer y.ask).2.1) hname
  exact hoffer.eq_of_assetId_eq hoffer' ((List.cons_inj_right _).mp hid)

end Accepted

/-! Two sales of ten ADA whose asks are cut differently. -/

namespace SampleNames

open Sample

/-- The bytes of the token, all of them as a policy id. -/
def recut : AssetClass := ⟨token.policyId ++ token.assetName, []⟩

/-- The sale of ten ADA, asking for five of those. -/
def resale : OrderDatum := order ada 10000000 recut 5

theorem accepted : ∀ datum ∈ [sale, resale],
    LedgerValid deployment (creation datum 12000000) ∧
      mintBeaconsOk deployment.sha2_256 deployment.orderScriptHash deployment.policyId
        (creation datum 12000000) = some true ∧
      LedgerValue (orderOutput datum 12000000).value := by
  decide +kernel

theorem orderOutput_mem {datum : OrderDatum} (h : datum ∈ [sale, resale]) :
    orderOutput datum 12000000 ∈
      beaconBearingOutputs (creation datum 12000000) deployment.policyId := by
  rw [mem_beaconBearingOutputs]
  refine ⟨List.mem_cons_self, ?_⟩
  revert datum
  decide

theorem injOn : Set.InjOn deployment.sha2_256
    (beaconPreimages sale.offer sale.ask ∪ beaconPreimages resale.offer resale.ask) := by
  have hsame : beaconPreimages resale.offer resale.ask = beaconPreimages sale.offer sale.ask := rfl
  rw [hsame, Set.union_self]
  exact sale_injOn

end SampleNames

section

open Sample SampleNames

theorem namesIdentify_iff_sample :
    (NamesIdentify deployment.sha2_256 sale sale ↔ AsksUnambiguous sale sale) ∧
      (NamesIdentify deployment.sha2_256 sale resale ↔ AsksUnambiguous sale resale) := by
  have hsale : sale ∈ [sale, resale] := List.mem_cons_self
  have hresale : resale ∈ [sale, resale] := List.mem_cons_of_mem _ List.mem_cons_self
  obtain ⟨-, hmint, hvalue⟩ := accepted sale hsale
  obtain ⟨-, hmint', hvalue'⟩ := accepted resale hresale
  refine ⟨(namesIdentify_iff hmint (orderOutput_mem hsale) hvalue rfl hmint (orderOutput_mem hsale)
    hvalue rfl ?_).2.1, (namesIdentify_iff hmint (orderOutput_mem hsale) hvalue rfl hmint'
    (orderOutput_mem hresale) hvalue' rfl injOn).2.1⟩
  rw [Set.union_self]
  exact sale_injOn

/-- **Two markets, one PairBeacon.**  Both sales are created in ledger-valid
transactions.  They ask for different assets under the same names. -/
theorem names_confuse :
    (∀ datum ∈ [sale, resale], LedgerValid deployment (creation datum 12000000) ∧
      mintBeaconsOk deployment.sha2_256 deployment.orderScriptHash deployment.policyId
        (creation datum 12000000) = some true ∧
      LedgerValue (orderOutput datum 12000000).value) ∧
    (orderOutput sale 12000000).datum = .inlineDatum (toData sale) ∧
    (orderOutput resale 12000000).datum = .inlineDatum (toData resale) ∧
    Set.InjOn deployment.sha2_256
      (beaconPreimages sale.offer sale.ask ∪ beaconPreimages resale.offer resale.ask) ∧
    askBeaconName deployment.sha2_256 sale.ask = askBeaconName deployment.sha2_256 resale.ask ∧
    sale.ask ≠ resale.ask ∧
    pairBeaconName deployment.sha2_256 sale.offer sale.ask =
      pairBeaconName deployment.sha2_256 resale.offer resale.ask ∧
    s(sale.offer, sale.ask) ≠ s(resale.offer, resale.ask) :=
  ⟨accepted, rfl, rfl, injOn, rfl, by decide, rfl, by decide⟩

end

end BeaconDex
