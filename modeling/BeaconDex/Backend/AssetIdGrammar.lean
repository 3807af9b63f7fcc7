import BeaconDex.Backend.CreateAgreement

/-!
# The grammar of asset ids

An asset id is `lovelace`, or a policy id and an asset name in lower-case hex with a
dot between them.  `fromApiAssetId` splits at the dots, takes the first two parts and
checks the digits of each: it also takes a policy id without a dot, text after a
second dot, and a name that ends in half a byte (`Malformed`).  Every other text it
reads exactly, and between such texts `buildCreateOrder` may compare the ids instead
of the assets (`readsExactly_iff`).

## Reading guide

`Spells` is the one relation between ids and parts: it lists the texts whose first two
parts are given.  Acceptance (`fromApiAssetId_eq_some`), the grammar and the failing
texts are all read off it.

The grammar itself is stated in bytes.  `IsAssetId` speaks of 28 bytes and at most 32
bytes written in hex, not of digits: half a byte is not an asset.
-/

namespace BeaconDex.Backend

open Library

/-!
## Texts of an asset

The texts the backend itself would write for an asset of the ledger, in lower case and
with the point in its place.
-/

/-- The digits of a policy id. -/
def IsPolicyHex (text : Str) : Prop := text.length = 56 ∧ text.all isLowerHex = true
  deriving Decidable

/-- The digits of an asset name, half a byte included. -/
def IsNameHex (text : Str) : Prop := text.all isLowerHex = true ∧ text.length ≤ 64
  deriving Decidable

/-- The texts whose first two parts between dots are a policy id and a name; a
missing part is empty. -/
inductive Spells (policyId assetNameHex : Str) : Str → Prop
  | joined : Spells policyId assetNameHex (policyId ++ '.' :: assetNameHex)
  | alone (h : assetNameHex = []) : Spells policyId assetNameHex policyId
  | further (rest : Str) :
      Spells policyId assetNameHex (policyId ++ '.' :: (assetNameHex ++ '.' :: rest))

/-- **The grammar**: `lovelace`, or 28 bytes, a dot and at most 32 bytes. -/
def IsAssetId (id : Str) : Prop :=
  id = "lovelace".toList ∨ ∃ policyId assetName : Bytes,
    policyId.length = 28 ∧ assetName.length ≤ 32 ∧ id = hexOf policyId ++ '.' :: hexOf assetName

/-- The texts outside the grammar that are read all the same: no separator, a second
one, half a byte. -/
inductive Malformed : Str → Prop
  | noSeparator {policyId : Str} : IsPolicyHex policyId → Malformed policyId
  | secondSeparator {policyId assetNameHex : Str} (rest : Str) : IsPolicyHex policyId →
      IsNameHex assetNameHex → Malformed (policyId ++ '.' :: (assetNameHex ++ '.' :: rest))
  | halfByte {policyId assetNameHex : Str} : IsPolicyHex policyId → IsNameHex assetNameHex →
      ¬2 ∣ assetNameHex.length → Malformed (policyId ++ '.' :: assetNameHex)

variable {id policyId assetNameHex : Str} {a : AssetClassHex}

theorem dot_notMem_of_all {text : Str} (h : text.all isLowerHex = true) : '.' ∉ text := by
  intro hmem
  exact absurd (List.all_eq_true.mp h _ hmem) (by decide)

theorem isPolicyHex_hexOf {bytes : Bytes} (h : bytes.length = 28) : IsPolicyHex (hexOf bytes) := by
  refine ⟨?_, all_isLowerHex_hexOf bytes⟩
  rw [length_hexOf, h]

theorem isNameHex_hexOf {bytes : Bytes} (h : bytes.length ≤ 32) : IsNameHex (hexOf bytes) := by
  refine ⟨all_isLowerHex_hexOf bytes, ?_⟩
  rw [length_hexOf]
  omega

/-- `lovelace` has no dot, and its letters are not digits. -/
theorem Spells.ne_lovelace (h : Spells policyId assetNameHex id) (hpolicy : IsPolicyHex policyId) :
    id ≠ "lovelace".toList := by
  intro hid
  have hlength : 56 ≤ id.length := by
    cases h <;> simp [hpolicy.1]
  rw [hid] at hlength
  exact absurd hlength (by decide)

/-!
## What is accepted

The checks are looser than the grammar: some are on the text, some on its parts, and
each leaves something through.
-/

/-- The first two parts of a text between dots. -/
theorem exists_parts (id : Str) :
    (∃ policyId, id.splitOn '.' = [policyId] ∧ id = policyId) ∨
    ∃ policyId assetNameHex parts, id.splitOn '.' = policyId :: assetNameHex :: parts ∧
      (id = policyId ++ '.' :: assetNameHex ∨
        ∃ rest, id = policyId ++ '.' :: (assetNameHex ++ '.' :: rest)) := by
  by_cases hdot : '.' ∈ id
  · obtain ⟨policyId, tail, rfl, hpolicy⟩ := List.eq_append_cons_of_mem hdot
    right
    by_cases hdot' : '.' ∈ tail
    · obtain ⟨assetNameHex, rest, rfl, hname⟩ := List.eq_append_cons_of_mem hdot'
      refine ⟨policyId, assetNameHex, rest.splitOn '.', ?_, Or.inr ⟨rest, rfl⟩⟩
      rw [List.splitOn_append_cons_self, List.splitOn_append_cons_self,
        List.splitOn_eq_singleton hpolicy, List.splitOn_eq_singleton hname]
      rfl
    · refine ⟨policyId, tail, [], ?_, Or.inl rfl⟩
      rw [List.splitOn_append_cons_self, List.splitOn_eq_singleton hpolicy,
        List.splitOn_eq_singleton hdot']
      rfl
  · exact Or.inl ⟨id, List.splitOn_eq_singleton hdot, rfl⟩

/-- The parts a text is split into are the ones it spells. -/
theorem Spells.splitOn_eq (h : Spells policyId assetNameHex id) (hpolicy : '.' ∉ policyId)
    (hname : '.' ∉ assetNameHex) :
    (id.splitOn '.' = [policyId] ∧ assetNameHex = []) ∨
      ∃ parts, id.splitOn '.' = policyId :: assetNameHex :: parts := by
  cases h with
  | joined =>
      right
      refine ⟨[], ?_⟩
      rw [List.splitOn_append_cons_self, List.splitOn_eq_singleton hpolicy,
        List.splitOn_eq_singleton hname]
      rfl
  | alone hempty => exact Or.inl ⟨List.splitOn_eq_singleton hpolicy, hempty⟩
  | further rest =>
      right
      refine ⟨rest.splitOn '.', ?_⟩
      rw [List.splitOn_append_cons_self, List.splitOn_append_cons_self,
        List.splitOn_eq_singleton hpolicy, List.splitOn_eq_singleton hname]
      rfl

/-- **What `fromApiAssetId` accepts**, and what it answers. -/
theorem fromApiAssetId_eq_some : fromApiAssetId id = some a ↔
    id = "lovelace".toList ∧ a = ADA ∨
      IsPolicyHex a.policyId ∧ IsNameHex a.assetNameHex ∧
        Spells a.policyId a.assetNameHex id := by
  constructor
  · intro h
    unfold fromApiAssetId at h
    split at h
    · exact Or.inl ⟨by assumption, (Option.some.inj h).symm⟩
    · right
      rcases exists_parts id with ⟨policyId, hsplit, hid⟩ | ⟨policyId, name, parts, hsplit, hid⟩
      all_goals
        rw [hsplit] at h
        simp only [Option.ite_none_right_eq_some, Option.some.injEq] at h
        obtain ⟨⟨hlen, hpolicy, hname, hnameLen⟩, rfl⟩ := h
        refine ⟨⟨hlen, hpolicy⟩, ⟨hname, hnameLen⟩, ?_⟩
      · rw [hid]
        exact .alone rfl
      · rcases hid with rfl | ⟨rest, rfl⟩
        · exact .joined
        · exact .further rest
  · rintro (⟨rfl, rfl⟩ | ⟨hpolicy, hname, hspells⟩)
    · rfl
    · have hchecks : a.policyId.length = 56 ∧ a.policyId.all isLowerHex = true ∧
          a.assetNameHex.all isLowerHex = true ∧ a.assetNameHex.length ≤ 64 :=
        ⟨hpolicy.1, hpolicy.2, hname.1, hname.2⟩
      rw [fromApiAssetId, if_neg (hspells.ne_lovelace hpolicy)]
      rcases hspells.splitOn_eq (dot_notMem_of_all hpolicy.2) (dot_notMem_of_all hname.1) with
        ⟨hsplit, hempty⟩ | ⟨parts, hsplit⟩
      · rw [hsplit]
        rw [hempty] at hchecks
        show (if _ then some (⟨a.policyId, []⟩ : AssetClassHex) else none) = some a
        rw [if_pos hchecks, ← hempty]
      · rw [hsplit]
        exact if_pos hchecks

/-!
## Reading exactly

A text is read exactly if it is accepted just where the grammar has it, and what it is read
as is written back as the same text.  Which texts are not is a list of shapes
(`Malformed`).
-/

/-- A text is accepted exactly if the grammar has it, and what it is read as is
written back as the same text. -/
def ReadsExactly (id : Str) : Prop :=
  ((∃ a, fromApiAssetId id = some a) ↔ IsAssetId id) ∧
    ∀ a, fromApiAssetId id = some a → toApiAssetId a = id

/-- An asset with a policy id is written with a point between policy id and name. -/
theorem toApiAssetId_of_isPolicyHex (h : IsPolicyHex a.policyId) :
    toApiAssetId a = a.policyId ++ '.' :: a.assetNameHex := by
  refine if_neg ?_
  have hne : a.policyId ≠ [] := by
    intro hempty
    have hlen := h.1
    rw [hempty] at hlen
    exact absurd hlen (by decide)
  simp [isAda, hne]

/-- The grammar is accepted. -/
theorem IsAssetId.accepted (h : IsAssetId id) : ∃ a, fromApiAssetId id = some a := by
  rcases h with rfl | ⟨policyId, assetName, hpolicy, hname, rfl⟩
  · exact ⟨ADA, rfl⟩
  · exact ⟨⟨hexOf policyId, hexOf assetName⟩, fromApiAssetId_eq_some.mpr <|
      Or.inr ⟨isPolicyHex_hexOf hpolicy, isNameHex_hexOf hname, .joined⟩⟩

/-- Joined parts of whole bytes are in the grammar. -/
theorem isAssetId_of_joined (hpolicy : IsPolicyHex policyId) (hname : IsNameHex assetNameHex)
    (heven : 2 ∣ assetNameHex.length) : IsAssetId (policyId ++ '.' :: assetNameHex) := by
  have hpolicyHex := hexOf_bytesOfHex hpolicy.2 (by rw [hpolicy.1]; decide)
  have hnameHex := hexOf_bytesOfHex hname.1 heven
  have hpolicyLen := length_hexOf (bytesOfHex policyId)
  have hnameLen := length_hexOf (bytesOfHex assetNameHex)
  rw [hpolicyHex, hpolicy.1] at hpolicyLen
  rw [hnameHex] at hnameLen
  have hnameMax := hname.2
  exact Or.inr ⟨bytesOfHex policyId, bytesOfHex assetNameHex, by omega, by omega, by
    rw [hpolicyHex, hnameHex]⟩

/-- An accepted text that is not malformed is `lovelace` or has its two parts of
whole bytes. -/
theorem accepted_cases (h : fromApiAssetId id = some a) (hid : ¬Malformed id) :
    id = "lovelace".toList ∧ a = ADA ∨
      IsPolicyHex a.policyId ∧ IsNameHex a.assetNameHex ∧ 2 ∣ a.assetNameHex.length ∧
        id = a.policyId ++ '.' :: a.assetNameHex := by
  rcases fromApiAssetId_eq_some.mp h with hada | ⟨hpolicy, hname, hspells⟩
  · exact Or.inl hada
  · right
    generalize hp : a.policyId = policyId at *
    generalize hn : a.assetNameHex = assetNameHex at *
    cases hspells with
    | joined =>
        have heven : 2 ∣ assetNameHex.length := by
          by_contra hodd
          exact hid (.halfByte hpolicy hname hodd)
        exact ⟨hpolicy, hname, heven, rfl⟩
    | alone hempty => exact absurd (Malformed.noSeparator hpolicy) hid
    | further rest => exact absurd (Malformed.secondSeparator rest hpolicy hname) hid

/-- A malformed text is accepted, and then one of the two promises is broken. -/
theorem Malformed.not_readsExactly (h : Malformed id) : ¬ReadsExactly id := by
  rintro ⟨hgrammar, hroundtrip⟩
  cases h with
  | noSeparator hpolicy =>
      have hread : fromApiAssetId id = some ⟨id, []⟩ :=
        fromApiAssetId_eq_some.mpr <| Or.inr ⟨hpolicy, ⟨rfl, Nat.zero_le 64⟩, .alone rfl⟩
      have hback := hroundtrip _ hread
      rw [toApiAssetId_of_isPolicyHex hpolicy] at hback
      simpa using congrArg List.length hback
  | @secondSeparator policyId assetNameHex rest hpolicy hname =>
      have hback := hroundtrip ⟨policyId, assetNameHex⟩ <| fromApiAssetId_eq_some.mpr <|
        Or.inr ⟨hpolicy, hname, .further rest⟩
      rw [toApiAssetId_of_isPolicyHex hpolicy] at hback
      simpa using congrArg List.length hback
  | @halfByte policyId assetNameHex hpolicy hname hodd =>
      have hread : fromApiAssetId (policyId ++ '.' :: assetNameHex) =
          some ⟨policyId, assetNameHex⟩ :=
        fromApiAssetId_eq_some.mpr <| Or.inr ⟨hpolicy, hname, .joined⟩
      rcases hgrammar.mp ⟨_, hread⟩ with hada | ⟨bytes, name, hbytes, hnameLen, hid⟩
      · exact Spells.ne_lovelace .joined hpolicy hada
      · -- The grammar's two parts are the ones read.
        have hread' : fromApiAssetId (policyId ++ '.' :: assetNameHex) =
            some ⟨hexOf bytes, hexOf name⟩ := by
          rw [hid]
          exact fromApiAssetId_eq_some.mpr <|
            Or.inr ⟨isPolicyHex_hexOf hbytes, isNameHex_hexOf hnameLen, .joined⟩
        rw [hread, Option.some.injEq, AssetClassHex.mk.injEq] at hread'
        apply hodd
        rw [hread'.2, length_hexOf]
        exact dvd_mul_right 2 _

/-- An id that is not malformed is read exactly, -/
theorem readsExactly_of_not_malformed (hid : ¬Malformed id) : ReadsExactly id := by
  refine ⟨⟨?_, IsAssetId.accepted⟩, ?_⟩
  · rintro ⟨a, ha⟩
    rcases accepted_cases ha hid with ⟨rfl, -⟩ | ⟨hpolicy, hname, heven, hjoined⟩
    · exact Or.inl rfl
    · rw [hjoined]
      exact isAssetId_of_joined hpolicy hname heven
  · intro a ha
    rcases accepted_cases ha hid with ⟨rfl, rfl⟩ | ⟨hpolicy, hname, heven, hjoined⟩
    · rfl
    · rw [toApiAssetId_of_isPolicyHex hpolicy, hjoined]

/-- and no other is. -/
theorem readsExactly_iff_not_malformed : ReadsExactly id ↔ ¬Malformed id :=
  ⟨fun hread hid => hid.not_readsExactly hread, readsExactly_of_not_malformed⟩

/-!
## Comparing ids

The two ids of a request are compared as texts.  On ids that are read exactly this is
the comparison of the assets.
-/

/-- The two names stand for one asset: the same bytes. -/
def SameAsset (a b : AssetClassHex) : Prop :=
  bytesOfHex a.policyId = bytesOfHex b.policyId ∧
    bytesOfHex a.assetNameHex = bytesOfHex b.assetNameHex

/-- What a build throws if it takes the two sides for one asset. -/
def mustDiffer : Thrown := invalidRequest "offer and ask must differ"

/-- `buildCreateOrder` turns a request down for its two assets exactly if they are
one asset. -/
def ComparesExactly (mesh : Mesh) (scripts : ProtocolScripts) (opts : BuilderOptions) (now : ℤ)
    (params : CreateOrderParams) : Prop :=
  buildCreateOrder mesh scripts opts now params = .error mustDiffer ↔
    ∃ offer ask, fromApiAssetId params.offerAsset = some offer ∧
      fromApiAssetId params.askAsset = some ask ∧ SameAsset offer ask

section Comparison

variable {mesh : Mesh} {scripts : ProtocolScripts} {opts : BuilderOptions} {now : ℤ}
variable {params : CreateOrderParams}

/-- Errors of other texts are other errors. -/
theorem invalidRequest_ne_mustDiffer {message : String}
    (h : message ≠ "offer and ask must differ") : invalidRequest message ≠ mustDiffer := by
  intro heq
  apply h
  rw [invalidRequest, mustDiffer, invalidRequest, Thrown.buildError.injEq] at heq
  exact String.toList_injective heq.2

/-- A check of another kind does not throw it. -/
theorem bind_throwIf_ne_mustDiffer {β : Type} {message : String} {p : Prop} [Decidable p]
    {rest : Except Thrown β} (hmessage : message ≠ "offer and ask must differ")
    (hrest : rest ≠ .error mustDiffer) :
    ((throwIf p (invalidRequest message)).bind fun _ => rest) ≠ .error mustDiffer :=
  bind_ne_error (throwIf_ne_error (invalidRequest_ne_mustDiffer hmessage)) fun _ => hrest

/-- Nor does a part that is missing. -/
theorem bind_orThrow_ne_mustDiffer {α β : Type} {message : String} {o : Option α}
    {f : α → Except Thrown β} (hmessage : message ≠ "offer and ask must differ")
    (hf : ∀ a, f a ≠ .error mustDiffer) :
    (orThrow (invalidRequest message) o).bind f ≠ .error mustDiffer :=
  bind_ne_error (orThrow_ne_error (invalidRequest_ne_mustDiffer hmessage)) hf

theorem attachCommon_ne_mustDiffer (wallet : WalletContext) :
    attachCommon wallet ≠ .error mustDiffer := by
  refine bind_throwIf_ne_mustDiffer (by decide) ?_
  refine bind_orThrow_ne_mustDiffer (by decide) fun collateral => ?_
  exact bind_throwIf_ne_mustDiffer (by decide) ok_ne_error

/-- Only the comparison of the two texts throws it. -/
theorem buildCreateOrder_eq_mustDiffer :
    buildCreateOrder mesh scripts opts now params = .error mustDiffer ↔
      (∃ a, fromApiAssetId params.offerAsset = some a) ∧ params.offerAsset = params.askAsset := by
  constructor
  · intro h
    cases hoffer : fromApiAssetId params.offerAsset with
    | none =>
        rw [buildCreateOrder, hoffer] at h
        exact absurd (Except.error.inj h) (by decide)
    | some offer =>
        refine ⟨⟨offer, rfl⟩, ?_⟩
        by_contra hne
        refine absurd h ?_
        rw [buildCreateOrder, hoffer]
        refine bind_ne_error (orThrow_ne_error (by decide)) fun offer => ?_
        refine bind_ne_error (orThrow_ne_error (by decide)) fun ask => ?_
        refine bind_ne_error (by rw [throwIf, if_neg hne]; exact ok_ne_error)
          fun _ => ?_
        refine bind_throwIf_ne_mustDiffer (by decide) ?_
        refine bind_throwIf_ne_mustDiffer (by decide) ?_
        refine bind_throwIf_ne_mustDiffer (by decide) ?_
        refine bind_orThrow_ne_mustDiffer (by decide) fun change => ?_
        refine bind_throwIf_ne_mustDiffer (by decide) ?_
        refine bind_throwIf_ne_mustDiffer (by decide) ?_
        refine bind_orThrow_ne_mustDiffer (by decide) fun pay => ?_
        refine bind_throwIf_ne_mustDiffer (by decide) ?_
        refine bind_ne_error (orThrow_ne_error (by decide)) fun orderAddress => ?_
        exact bind_ne_error (attachCommon_ne_mustDiffer _) fun _ => ok_ne_error
  · rintro ⟨⟨a, ha⟩, heq⟩
    have hask : fromApiAssetId params.askAsset = some a := heq ▸ ha
    rw [buildCreateOrder, ha, hask, heq]
    show (throwIf (params.askAsset = params.askAsset) mustDiffer).bind _ = _
    rw [throwIf, if_pos rfl]
    rfl

/-- Parts of whole bytes in hex are told apart by their bytes. -/
theorem eq_of_sameAsset {offer ask : AssetClassHex} {x y : Str}
    (hoffer : fromApiAssetId x = some offer) (hask : fromApiAssetId y = some ask)
    (hx : ¬Malformed x) (hy : ¬Malformed y) (hsame : SameAsset offer ask) : offer = ask := by
  have hwhole : ∀ {id : Str} {a : AssetClassHex}, fromApiAssetId id = some a → ¬Malformed id →
      hexOf (bytesOfHex a.policyId) = a.policyId ∧
        hexOf (bytesOfHex a.assetNameHex) = a.assetNameHex := by
    intro id a ha hid
    rcases accepted_cases ha hid with ⟨-, rfl⟩ | ⟨hpolicy, hname, heven, -⟩
    · exact ⟨rfl, rfl⟩
    · exact ⟨hexOf_bytesOfHex hpolicy.2 (by rw [hpolicy.1]; decide),
        hexOf_bytesOfHex hname.1 heven⟩
  obtain ⟨hoffer₁, hoffer₂⟩ := hwhole hoffer hx
  obtain ⟨hask₁, hask₂⟩ := hwhole hask hy
  obtain ⟨hpolicy, hname⟩ := hsame
  rw [hpolicy, hask₁] at hoffer₁
  rw [hname, hask₂] at hoffer₂
  cases offer
  cases ask
  rw [AssetClassHex.mk.injEq]
  exact ⟨hoffer₁.symm, hoffer₂.symm⟩

/-- Between texts that are read exactly, comparing the texts compares the assets. -/
theorem comparesExactly_of_not_malformed (hoffer : ¬Malformed params.offerAsset)
    (hask : ¬Malformed params.askAsset) : ComparesExactly mesh scripts opts now params := by
  unfold ComparesExactly
  rw [buildCreateOrder_eq_mustDiffer]
  constructor
  · rintro ⟨⟨a, ha⟩, heq⟩
    exact ⟨a, a, ha, heq ▸ ha, rfl, rfl⟩
  · rintro ⟨offer, ask, ho, ha, hsame⟩
    obtain rfl := eq_of_sameAsset ho ha hoffer hask hsame
    refine ⟨⟨offer, ho⟩, ?_⟩
    rw [← (readsExactly_of_not_malformed hoffer).2 offer ho,
      ← (readsExactly_of_not_malformed hask).2 offer ha]

end Comparison

/-- **Exactly the texts that are not malformed are read exactly**; and of a request
both ids are, with the comparison of the two texts turning down exactly the requests
for one asset on both sides, if and only if neither id is malformed. -/
theorem readsExactly_iff (mesh : Mesh) (scripts : ProtocolScripts) (opts : BuilderOptions)
    (now : ℤ) :
    (∀ id, ReadsExactly id ↔ ¬Malformed id) ∧
    ∀ params : CreateOrderParams,
      ((ReadsExactly params.offerAsset ∧ ReadsExactly params.askAsset ∧
          ComparesExactly mesh scripts opts now params) ↔
        ¬Malformed params.offerAsset ∧ ¬Malformed params.askAsset) := by
  refine ⟨fun id => readsExactly_iff_not_malformed, ?_⟩
  intro params
  rw [readsExactly_iff_not_malformed, readsExactly_iff_not_malformed, ← and_assoc]
  exact and_iff_left_of_imp fun h => comparesExactly_of_not_malformed h.1 h.2

namespace SampleIds

def policyHex : Str := List.replicate 56 'a'

/-- An asset for itself, its id written without the dot and with it. -/
def sameSides : CreateOrderParams :=
  { SampleBatch.creation with offerAsset := policyHex, askAsset := policyHex ++ ".".toList }

theorem isPolicyHex_policyHex : IsPolicyHex policyHex := by decide

end SampleIds

open SampleIds in
/-- **Three texts that are not asset ids are read as assets**, and a request of an
asset for itself passes the comparison. -/
theorem malformed_ids_read :
    ¬ReadsExactly policyHex ∧ ¬ReadsExactly (policyHex ++ ".00.zz".toList) ∧
      ¬ReadsExactly (policyHex ++ ".0".toList) ∧
      ¬ComparesExactly SampleBatch.mesh SampleBatch.scripts SampleBatch.opts SampleBatch.now
        sameSides := by
  have hname : IsNameHex "00".toList ∧ IsNameHex "0".toList := by decide
  refine ⟨?_, ?_, ?_, ?_⟩
  · exact (Malformed.noSeparator isPolicyHex_policyHex).not_readsExactly
  · exact (Malformed.secondSeparator "zz".toList isPolicyHex_policyHex hname.1).not_readsExactly
  · exact (Malformed.halfByte isPolicyHex_policyHex hname.2 (by decide)).not_readsExactly
  · intro hcompares
    have hread : fromApiAssetId sameSides.offerAsset = some ⟨policyHex, []⟩ ∧
        fromApiAssetId sameSides.askAsset = some ⟨policyHex, []⟩ := by decide
    have hrejected := hcompares.mpr ⟨_, _, hread.1, hread.2, rfl, rfl⟩
    exact absurd (buildCreateOrder_eq_mustDiffer.mp hrejected).2 (by decide)

end BeaconDex.Backend
