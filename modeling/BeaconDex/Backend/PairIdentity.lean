import BeaconDex.Backend.OrderCreation
import BeaconDex.Backend.OrderIndexer
import BeaconDex.NameIdentity

/-!
# Markets

A market has two names off the chain: its pair id, the two asset ids in order and
joined by `_`, and its PairBeacon, a hash of the two ids in bytes, in order and
each prefixed with its length.  The two orders need not agree on a pair.  Both
names forget nothing but the order, so they name the same markets
(`markets_agree`).

## Markets without a side

An order on a market may sell either of its two assets, so a market is a pair of assets
without an order.  Each of the two names is made by sorting first, but by different
sorts: characters of hex in the one case and bytes in the other.  Hex keeps the order of
bytes, though ADA is a word in the one and an empty text in the other.
-/

namespace BeaconDex.Backend

/-!
## Pair ids

The separator occurs in no asset id, so a pair id has its two ids back.
-/

theorem hexDigit_ne_separator : ∀ n < 16, hexDigit n ≠ '_' := by decide

/-- An asset id has no `_` in it. -/
theorem separator_notMem_toApiAssetId (a : AssetClass) : '_' ∉ toApiAssetId (assetHex a) := by
  have hhex : ∀ b : Bytes, '_' ∉ hexOf b := by
    intro b hmem
    obtain ⟨n, hn, hc⟩ := mem_hexOf hmem
    exact hexDigit_ne_separator n hn hc.symm
  unfold toApiAssetId
  split
  · decide
  · rw [List.mem_append, List.mem_cons]
    rintro (hmem | hdot | hmem)
    · exact hhex _ hmem
    · exact absurd hdot (by decide)
    · exact hhex _ hmem

/-- The smaller id comes first. -/
theorem toPairId_eq (a b : AssetClassHex) :
    toPairId a b = s(toApiAssetId a, toApiAssetId b).inf ++
      '_' :: s(toApiAssetId a, toApiAssetId b).sup := by
  simp only [toPairId, Sym2.inf_mk, Sym2.sup_mk]
  split
  · next hlt => rw [min_eq_right hlt.le, max_eq_left hlt.le]
  · next hge =>
    rw [not_lt] at hge
    rw [min_eq_left hge, max_eq_right hge]

/-- **A pair id is its two asset ids, whatever the order.** -/
theorem toPairId_eq_iff (a b c d : AssetClass) :
    toPairId (assetHex a) (assetHex b) = toPairId (assetHex c) (assetHex d) ↔
      s(toApiAssetId (assetHex a), toApiAssetId (assetHex b)) =
        s(toApiAssetId (assetHex c), toApiAssetId (assetHex d)) := by
  have hinf : '_' ∉ s(toApiAssetId (assetHex a), toApiAssetId (assetHex b)).inf := by
    rw [Sym2.inf_mk]
    rcases min_choice (toApiAssetId (assetHex a)) (toApiAssetId (assetHex b)) with h | h
    · rw [h]
      exact separator_notMem_toApiAssetId a
    · rw [h]
      exact separator_notMem_toApiAssetId b
  have hsup : '_' ∉ s(toApiAssetId (assetHex a), toApiAssetId (assetHex b)).sup := by
    rw [Sym2.sup_mk]
    rcases max_choice (toApiAssetId (assetHex a)) (toApiAssetId (assetHex b)) with h | h
    · rw [h]
      exact separator_notMem_toApiAssetId a
    · rw [h]
      exact separator_notMem_toApiAssetId b
  rw [toPairId_eq, toPairId_eq, List.append_cons_inj_of_notMem hinf hsup,
    ← Sym2.inf_eq_inf_and_sup_eq_sup]
  simp only [true_and]

/-!
## Pair beacons

The preimage has its two ids back, as each is after its length.
-/

/-- What the backend hashes for a pair. -/
def pairPreimage (a b : AssetClassHex) : Bytes :=
  (0x00 : Byte) ::
    if assetId a ≤ assetId b then lengthPrefixed (assetId a) ++ lengthPrefixed (assetId b)
    else lengthPrefixed (assetId b) ++ lengthPrefixed (assetId a)

theorem pairBeaconName_eq (mesh : Mesh) (a b : AssetClassHex) :
    pairBeaconName mesh a b = sha256Hex mesh (pairPreimage a b) := by
  simp only [pairBeaconName, pairPreimage]
  split <;> rfl

/-- Assets of the ledger can be named by a unit. -/
theorem nameable_of_native {a : AssetClass} (h : Native a) : Nameable a := h.imp_right And.left

theorem assetId_length_of_native {a : AssetClass} (h : Native a) :
    (BeaconDex.assetId a).length < 256 := by
  rw [BeaconDex.assetId, List.length_append]
  rcases h with hada | ⟨hpolicy, hname⟩
  · obtain ⟨hpolicy, hname⟩ := isAda_eq_true.mp hada
    rw [hpolicy, hname]
    decide
  · omega

/-- Of native assets the backend hashes what the chain does. -/
theorem pairBeaconPreimage_of_native {a b : AssetClass} (ha : Native a) (hb : Native b) :
    pairBeaconPreimage a b = some (pairPreimage (assetHex a) (assetHex b)) := by
  rw [pairBeaconPreimage_eq_some, pairPreimage, assetId_assetHex, assetId_assetHex]
  exact ⟨⟨assetId_length_of_native ha, assetId_length_of_native hb⟩, rfl⟩

/-! ## One market, two names -/

/-- Unordered pairs of images are equal only if the pairs are, where the map is injective
on the four. -/
theorem sym2_map_eq_iff {α β : Type*} {f : α → β} {a b c d : α}
    (hf : ∀ x ∈ [a, b], ∀ y ∈ [c, d], f x = f y → x = y) :
    s(f a, f b) = s(f c, f d) ↔ s(a, b) = s(c, d) := by
  simp only [List.mem_cons, List.not_mem_nil, or_false, forall_eq_or_imp, forall_eq] at hf
  obtain ⟨⟨hac, had⟩, hbc, hbd⟩ := hf
  rw [Sym2.eq_iff, Sym2.eq_iff]
  constructor
  · exact Or.imp (fun h => ⟨hac h.1, hbd h.2⟩) (fun h => ⟨had h.1, hbc h.2⟩)
  · exact Or.imp (fun h => ⟨congrArg f h.1, congrArg f h.2⟩)
      (fun h => ⟨congrArg f h.1, congrArg f h.2⟩)

/-- **Pair ids and PairBeacons name the same markets**: either agrees exactly if the two
assets do, in whatever order.  For the hash it is enough that it tells the two preimages
in question apart. -/
theorem markets_agree {mesh : Mesh} {a b c d : AssetClass} (ha : Native a) (hb : Native b)
    (hc : Native c) (hd : Native d)
    (hinj : Set.InjOn mesh.sha256
      {pairPreimage (assetHex a) (assetHex b), pairPreimage (assetHex c) (assetHex d)}) :
    (toPairId (assetHex a) (assetHex b) = toPairId (assetHex c) (assetHex d) ↔
      s(a, b) = s(c, d)) ∧
    (pairBeaconName mesh (assetHex a) (assetHex b) = pairBeaconName mesh (assetHex c) (assetHex d) ↔
      s(a, b) = s(c, d)) := by
  have hnative : ∀ x ∈ [a, b], Native x := by simp [ha, hb]
  have hnative' : ∀ x ∈ [c, d], Native x := by simp [hc, hd]
  constructor
  · rw [toPairId_eq_iff]
    apply sym2_map_eq_iff (f := fun x => toApiAssetId (assetHex x))
    intro x hx y hy
    exact (toApiAssetId_inj (nameable_of_native (hnative x hx))
      (nameable_of_native (hnative' y hy))).mp
  · rw [pairBeaconName_eq, pairBeaconName_eq, sha256Hex, sha256Hex, hexOf_injective.eq_iff,
      hinj.eq_iff (Set.mem_insert _ _) (Set.mem_insert_of_mem _ rfl),
      pairBeaconPreimage_inj (pairBeaconPreimage_of_native ha hb)
        (pairBeaconPreimage_of_native hc hd)]
    apply sym2_map_eq_iff
    intro x hx y hy
    exact (hnative x hx).eq_of_assetId_eq (hnative' y hy)

theorem markets_agree_sample :
    (toPairId (assetHex Sample.ada) (assetHex Sample.token) =
        toPairId (assetHex Sample.token) (assetHex Sample.ada) ↔
      s(Sample.ada, Sample.token) = s(Sample.token, Sample.ada)) ∧
    (pairBeaconName SampleChain.mesh (assetHex Sample.ada) (assetHex Sample.token) =
        pairBeaconName SampleChain.mesh (assetHex Sample.token) (assetHex Sample.ada) ↔
      s(Sample.ada, Sample.token) = s(Sample.token, Sample.ada)) := by
  have hada : Native Sample.ada := by decide
  have htoken : Native Sample.token := by decide
  apply markets_agree hada htoken htoken hada
  have hsame : pairPreimage (assetHex Sample.token) (assetHex Sample.ada) =
      pairPreimage (assetHex Sample.ada) (assetHex Sample.token) := by decide
  rw [hsame, Set.pair_eq_singleton]
  exact Set.injOn_singleton _ _

end BeaconDex.Backend
