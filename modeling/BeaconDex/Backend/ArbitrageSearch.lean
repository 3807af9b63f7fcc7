import BeaconDex.Backend.ArbitrageGuarantees
import BeaconDex.Library.Ranking
import Mathlib.Data.Prod.Lex

/-!
# The arbitrage scan as a search

`findArbitrage` finds what a search through all cycles finds
(`search_eq_bruteForce`).  The search knows no assets to start from, no order of
enumeration, no pre-filter, no sorting and no ids: it looks at every closed cycle over
the best orders of each edge, and at every sizing of it (`Candidate`,
`RisklessSizing`).  An order is among the best `k` of its edge if fewer than `k` are
cheaper, or as cheap with a smaller id (`AmongBest`).

What separates the two are the anchoring at the smallest asset
(`Candidate.exists_rotate`), the sorted edge lists (`mem_slice_edge`) and the ids
that cycles are found under (`cycleId_inj`).
-/

namespace BeaconDex.Backend

open Library

variable {now : JsNumber}

/-!
## The best orders of an edge

By rank: how many orders of the edge come before, which is a matter of prices and ids
and not of any list.
-/

/-- The key an edge's orders are sorted by: the price, then the id. -/
def rateKey (o : OpenOrder now) : ℚ ×ₗ Str := toLex (o.price, o.orderId)

/-- The sort of an edge compares keys: price first, then id. -/
theorem rateBefore_iff {a b : OpenOrder now} : rateBefore a b ↔ rateKey a ≤ rateKey b := by
  have hbetter : ∀ a b : OpenOrder now, betterRate a b = true ↔ a.price < b.price := by
    intro a b
    rw [OpenOrder.price_lt, betterRate, decide_eq_true_eq, gt_iff_lt, mul_comm b.offeredAmount,
      mul_comm a.offeredAmount]
  simp only [rateKey, Prod.Lex.toLex_le_toLex, rateBefore, hbetter]
  exact lt_or_not_lt_and

instance : Std.Total (rateBefore : OpenOrder now → _ → Prop) where
  total a b := by
    rw [rateBefore_iff, rateBefore_iff]
    exact le_total (rateKey a) (rateKey b)

instance : IsTrans (OpenOrder now) rateBefore where
  trans a b c := by
    rw [rateBefore_iff, rateBefore_iff, rateBefore_iff]
    exact le_trans (a := rateKey a)

/-- The orders that trade what `o` trades. -/
def edgeOf (book : Set (OpenOrder now)) (o : OpenOrder now) : Set (OpenOrder now) :=
  {o' ∈ book | requestedAssetId o'.toOrder = requestedAssetId o.toOrder ∧
    offeredAssetId o'.toOrder = offeredAssetId o.toOrder}

/-- `o` is one of the best `k` orders of its edge, by the price and then by the id. -/
def AmongBest (k : ℤ) (book : Set (OpenOrder now)) (o : OpenOrder now) : Prop :=
  o ∈ book ∧ {o' ∈ edgeOf book o | rateKey o' < rateKey o}.ncard <
    sliceEnd k (edgeOf book o).ncard

section

variable {book : List (OpenOrder now)} {o : OpenOrder now} {a b : Str} {k : ℤ}

/-- It is placed among the first `k` of the list of its edge. -/
theorem amongBest_iff (hids : (book.map fun o => o.orderId).Nodup) :
    AmongBest k {o | o ∈ book} o ↔ o ∈ book ∧
      rankIn rateBefore (ordersFrom book (requestedAssetId o.toOrder) (offeredAssetId o.toOrder)) o <
        sliceEnd k (ordersFrom book (requestedAssetId o.toOrder)
          (offeredAssetId o.toOrder)).length := by
  set edge := ordersFrom book (requestedAssetId o.toOrder) (offeredAssetId o.toOrder) with hedge
  have hnodup : edge.Nodup := (List.Nodup.of_map _ hids).filter _
  have hmem : edgeOf {o | o ∈ book} o = {o' | o' ∈ edge} := by
    ext o'
    rw [hedge, Set.mem_ofPred_eq, mem_ordersFrom]
    rfl
  have hbefore : {o' ∈ edgeOf {o | o ∈ book} o | rateKey o' < rateKey o} =
      {o' | o' ∈ edge ∧ ¬rateBefore o o'} := by
    ext o'
    rw [hmem, Set.mem_ofPred_eq, Set.mem_ofPred_eq, Set.mem_ofPred_eq, rateBefore_iff, not_le]
  rw [AmongBest, hbefore, hmem, ← rankIn_eq_ncard hnodup, ncard_setOf_mem hnodup, Set.mem_ofPred_eq]

/-- **The enumeration takes the best orders of each edge.** -/
theorem mem_slice_edge (hids : (book.map fun o => o.orderId).Nodup) (hab : a ≠ b) :
    o ∈ slice k ((edgesOf book).edge a b) ↔
      requestedAssetId o.toOrder = a ∧ offeredAssetId o.toOrder = b ∧
        AmongBest k {o | o ∈ book} o := by
  have hlist : (edgesOf book).list a b = ordersFrom book a b := (onEdge_edgesOf book hab).1
  have hnodup : (ordersFrom book a b).Nodup := (List.Nodup.of_map _ hids).filter _
  have hantisymm : ∀ x ∈ ordersFrom book a b, ∀ y ∈ ordersFrom book a b,
      rateBefore x y → rateBefore y x → x = y := by
    intro x hx y hy hxy hyx
    have hkey := le_antisymm (rateBefore_iff.mp hxy) (rateBefore_iff.mp hyx)
    have hid : x.orderId = y.orderId := congrArg (fun key => (ofLex key).2) hkey
    exact List.inj_on_of_nodup_map hids (mem_ordersFrom.mp hx).1 (mem_ordersFrom.mp hy).1 hid
  rw [slice, Edges.edge, List.length_insertionSort, hlist,
    mem_take_insertionSort hnodup hantisymm, mem_ordersFrom, amongBest_iff hids]
  constructor
  · rintro ⟨⟨hbook, rfl, rfl⟩, hrank⟩
    exact ⟨rfl, rfl, hbook, hrank⟩
  · rintro ⟨rfl, rfl, hbook, hrank⟩
    exact ⟨⟨hbook, rfl, rfl⟩, hrank⟩

end

/-!
## Brute force

All closed cycles over the best orders.  The scan enumerates each of them in one of its
rotations, the one that begins at the least asset.
-/

/-- How many orders of each edge cycles of this length are built from. -/
def ArbitrageParams.topK (params : ArbitrageParams) (cycle : List (OpenOrder now)) : ℤ :=
  if cycle.length = 2 then params.directTopK else params.triangularTopK

/-- **A cycle to be searched**: two or three orders over distinct assets, each of which
asks for what the one before it offers, and each among the best orders of its edge. -/
structure Candidate (params : ArbitrageParams) (book : Set (OpenOrder now))
    (cycle : List (OpenOrder now)) : Prop where
  closed : ClosedCycle cycle
  best : ∀ o ∈ cycle, AmongBest (params.topK cycle) book o

section

variable {params : ArbitrageParams} {book cycle : List (OpenOrder now)}

/-- Every cycle the scan enumerates is one the search looks at. -/
theorem candidate_of_mem_enumerated (hids : (book.map fun o => o.orderId).Nodup)
    (h : cycle ∈ enumerated params book) : Candidate params {o | o ∈ book} cycle := by
  refine ⟨(closed_of_mem_enumerated h).1, ?_⟩
  rcases List.mem_append.mp h with h | h
  · obtain ⟨a, b, o₁, o₂, hab, rfl, h₁, h₂⟩ := mem_directCycles.mp h
    obtain ⟨-, -, hbest₁⟩ := (mem_slice_edge hids hab.ne).mp h₁
    obtain ⟨-, -, hbest₂⟩ := (mem_slice_edge hids hab.ne').mp h₂
    intro o ho
    rcases List.mem_pair.mp ho with rfl | rfl
    · exact hbest₁
    · exact hbest₂
  · obtain ⟨a, b, c, o₁, o₂, o₃, hab, hac, hcb, rfl, h₁, h₂, h₃⟩ := mem_triangularCycles.mp h
    obtain ⟨-, -, hbest₁⟩ := (mem_slice_edge hids hab.ne).mp h₁
    obtain ⟨-, -, hbest₂⟩ := (mem_slice_edge hids hcb.symm).mp h₂
    obtain ⟨-, -, hbest₃⟩ := (mem_slice_edge hids hac.ne').mp h₃
    intro o ho
    simp only [List.mem_cons, List.not_mem_nil, or_false] at ho
    rcases ho with rfl | rfl | rfl
    · exact hbest₁
    · exact hbest₂
    · exact hbest₃

/-- A candidate stays one from each of its orders on. -/
theorem Candidate.rotate {book : Set (OpenOrder now)} (h : Candidate params book cycle) (r : ℕ) :
    Candidate params book (cycle.rotate r) := by
  refine ⟨h.closed.rotate r, ?_⟩
  intro o ho
  rw [ArbitrageParams.topK, List.length_rotate]
  exact h.best o (List.mem_rotate.mp ho)

/-- A two-order candidate is enumerated from its smaller asset. -/
theorem mem_enumerated_direct (hids : (book.map fun o => o.orderId).Nodup)
    {o₁ o₂ : OpenOrder now} (h : Candidate params {o | o ∈ book} [o₁, o₂])
    (hlt : requestedAssetId o₁.toOrder < requestedAssetId o₂.toOrder) :
    [o₁, o₂] ∈ enumerated params book := by
  cases h.closed with
  | direct h₁ h₂ _ =>
      refine List.mem_append_left _ (mem_directCycles.mpr
        ⟨_, _, o₁, o₂, hlt, rfl, (mem_slice_edge hids hlt.ne).mpr ⟨rfl, h₁, ?_⟩,
          (mem_slice_edge hids hlt.ne').mpr ⟨rfl, h₂, ?_⟩⟩)
      · exact h.best o₁ (by simp)
      · exact h.best o₂ (by simp)

/-- A three-order candidate is enumerated from its smallest asset. -/
theorem mem_enumerated_triangular (hids : (book.map fun o => o.orderId).Nodup)
    {o₁ o₂ o₃ : OpenOrder now} (h : Candidate params {o | o ∈ book} [o₁, o₂, o₃])
    (hlt₂ : requestedAssetId o₁.toOrder < requestedAssetId o₂.toOrder)
    (hlt₃ : requestedAssetId o₁.toOrder < requestedAssetId o₃.toOrder) :
    [o₁, o₂, o₃] ∈ enumerated params book := by
  cases h.closed with
  | triangular h₁ h₂ h₃ distinct =>
      have hne : requestedAssetId o₂.toOrder ≠ requestedAssetId o₃.toOrder := by
        simp only [List.nodup_cons, List.mem_singleton] at distinct
        exact distinct.2.1
      refine List.mem_append_right _ (mem_triangularCycles.mpr
        ⟨_, _, _, o₁, o₂, o₃, hlt₂, hlt₃, hne.symm, rfl,
          (mem_slice_edge hids hlt₂.ne).mpr ⟨rfl, h₁, ?_⟩,
          (mem_slice_edge hids hne).mpr ⟨rfl, h₂, ?_⟩,
          (mem_slice_edge hids hlt₃.ne').mpr ⟨rfl, h₃, ?_⟩⟩)
      · exact h.best o₁ (by simp)
      · exact h.best o₂ (by simp)
      · exact h.best o₃ (by simp)

/-- **The anchoring misses no cycle.** -/
theorem Candidate.exists_rotate (hids : (book.map fun o => o.orderId).Nodup)
    (h : Candidate params {o | o ∈ book} cycle) :
    ∃ r, cycle.rotate r ∈ enumerated params book := by
  cases h.closed with
  | @direct o₁ o₂ h₁ h₂ distinct =>
      have hne : requestedAssetId o₁.toOrder ≠ requestedAssetId o₂.toOrder := by
        simpa using distinct
      rcases lt_or_gt_of_ne hne with hlt | hgt
      · exact ⟨0, mem_enumerated_direct hids (h.rotate 0) hlt⟩
      · exact ⟨1, mem_enumerated_direct hids (h.rotate 1) hgt⟩
  | @triangular o₁ o₂ o₃ h₁ h₂ h₃ distinct =>
      simp only [List.nodup_cons, List.mem_cons, List.not_mem_nil, or_false, not_or,
        not_false_eq_true, List.nodup_nil, and_true] at distinct
      obtain ⟨⟨h₁₂, h₁₃⟩, h₂₃⟩ := distinct
      -- the smallest asset is that of one of the three
      rcases lt_or_gt_of_ne h₁₂ with hlt₁₂ | hgt₁₂
      · rcases lt_or_gt_of_ne h₁₃ with hlt₁₃ | hgt₁₃
        · exact ⟨0, mem_enumerated_triangular hids (h.rotate 0) hlt₁₂ hlt₁₃⟩
        · exact ⟨2, mem_enumerated_triangular hids (h.rotate 2) hgt₁₃ (hgt₁₃.trans hlt₁₂)⟩
      · rcases lt_or_gt_of_ne h₂₃ with hlt₂₃ | hgt₂₃
        · exact ⟨1, mem_enumerated_triangular hids (h.rotate 1) hlt₂₃ hgt₁₂⟩
        · exact ⟨2, mem_enumerated_triangular hids (h.rotate 2) (hgt₂₃.trans hgt₁₂) hgt₂₃⟩

end

/-!
## Sizings of one cycle

A sizing without loss of any rotation passes the filter on the rates, which does not
look at rotations.
-/

section

variable {cycle other : List (OpenOrder now)} {legs : List ArbitrageLeg}

/-- A cycle has the same sizings from each of its orders on. -/
theorem RisklessSizing.rotate (h : RisklessSizing cycle legs) (r : ℕ) :
    RisklessSizing (cycle.rotate r) legs := by
  obtain ⟨n, hsize, hriskless⟩ := h
  obtain ⟨m, hm⟩ := (List.IsRotated.forall cycle r).trans ⟨n, rfl⟩
  refine ⟨m, ?_, hriskless⟩
  rw [hm]
  exact hsize

/-- The pre-filter does not depend on where a cycle is begun. -/
theorem rateProductPositive_perm (h : cycle.Perm other) :
    rateProductPositive cycle = rateProductPositive other := by
  have hoffer := (h.map fun o => o.offeredAmount).prod_eq
  have hask := (h.map fun o => o.requestedAmount).prod_eq
  rw [rateProductPositive, rateProductPositive, marginOf, marginOf, hoffer, hask]

/-- **No riskless cycle is filtered out.** -/
theorem RisklessSizing.rateProductPositive (hclosed : ClosedCycle cycle)
    (h : RisklessSizing cycle legs) : rateProductPositive cycle = true := by
  obtain ⟨r, hsize, hriskless⟩ := h
  obtain ⟨hnets, hgain⟩ := isRiskless_netsOf.mp hriskless
  rw [← rateProductPositive_perm (List.rotate_perm cycle r)]
  exact (hclosed.rotate r).rateProductPositive (sizeRotation_spec hsize).1 hnets hgain

end

/-!
## Order sets

Two cycles with one id have the same orders, because ids of orders have no separator in
them.
-/

/-- The orders of a cycle. -/
def orderSet (cycle : List (OpenOrder now)) : Set (OpenOrder now) := {o | o ∈ cycle}

theorem orderSet_perm {cycle other : List (OpenOrder now)} (h : cycle.Perm other) :
    orderSet cycle = orderSet other := by
  ext o
  exact h.mem_iff

/-- Sorting forgets the order, and joining forgets nothing. -/
theorem perm_of_joinIds_eq {ids ids' : List Str} (hne : ids ≠ []) (hne' : ids' ≠ [])
    (hids : ∀ id ∈ ids, '+' ∉ id) (hids' : ∀ id ∈ ids', '+' ∉ id)
    (h : joinIds ids = joinIds ids') : ids.Perm ids' := by
  have hsplit : ∀ {ids : List Str}, ids ≠ [] → (∀ id ∈ ids, '+' ∉ id) →
      (joinIds ids).splitOn '+' = ids.insertionSort (· ≤ ·) := by
    intro ids hne hids
    refine List.splitOn_intercalate '+' ?_ ?_
    · intro id hid
      exact hids id ((List.mem_insertionSort _).mp hid)
    · intro hnil
      have hlength := List.length_insertionSort (· ≤ ·) ids
      rw [hnil] at hlength
      exact hne (List.length_eq_zero_iff.mp hlength.symm)
  have hsorted : ids.insertionSort (· ≤ ·) = ids'.insertionSort (· ≤ ·) := by
    rw [← hsplit hne hids, ← hsplit hne' hids', h]
  exact (List.perm_insertionSort _ ids).symm.trans (hsorted ▸ List.perm_insertionSort _ ids')

/-- Nor does its id. -/
theorem joinIds_perm {ids ids' : List Str} (h : ids.Perm ids') : joinIds ids = joinIds ids' := by
  have hperm : (ids.insertionSort (· ≤ ·)).Perm (ids'.insertionSort (· ≤ ·)) :=
    ((List.perm_insertionSort _ ids).trans h).trans (List.perm_insertionSort _ ids').symm
  have hsorted : ids.insertionSort (· ≤ ·) = ids'.insertionSort (· ≤ ·) :=
    hperm.eq_of_pairwise' (List.pairwise_insertionSort _ ids) (List.pairwise_insertionSort _ ids')
  rw [joinIds, joinIds, hsorted]

/-- An order id is a transaction hash and an index. -/
theorem plus_notMem_orderId {row : Order} (h : '+' ∉ row.txHash) : '+' ∉ row.orderId := by
  rw [row.orderId_eq, orderIdOf]
  intro hmem
  rcases List.mem_append.mp hmem with hhash | hindex
  · exact h hhash
  · rcases List.mem_cons.mp hindex with heq | hdecimal
    · cases heq
    · have hdigit := isDigit_of_mem_decimal hdecimal
      cases hdigit

section

variable {params : ArbitrageParams} {orders : List Order}
variable {cycle other : List (OpenOrder params.nowPosixMs)}

/-- **The ids of cycles tell order sets apart.** -/
theorem cycleId_inj (hids : (orders.map Order.orderId).Nodup)
    (hplus : ∀ row ∈ orders, '+' ∉ row.txHash) (hcycle : ClosedCycle cycle)
    (hother : ClosedCycle other) (hbook : ∀ o ∈ cycle, o ∈ openOrders params.nowPosixMs orders)
    (hbook' : ∀ o ∈ other, o ∈ openOrders params.nowPosixMs orders) :
    cycleId cycle = cycleId other ↔ orderSet cycle = orderSet other := by
  have hopen := openOrders_nodup params.nowPosixMs hids
  constructor
  · intro h
    have hne : ∀ {cycle : List (OpenOrder params.nowPosixMs)}, ClosedCycle cycle →
        (cycle.map fun o => o.orderId) ≠ [] := by
      intro cycle hcycle hnil
      cases hcycle <;> cases hnil
    have hfree : ∀ {cycle : List (OpenOrder params.nowPosixMs)},
        (∀ o ∈ cycle, o ∈ openOrders params.nowPosixMs orders) →
        ∀ id ∈ cycle.map fun o => o.orderId, '+' ∉ id := by
      intro cycle hbook id hid
      obtain ⟨o, ho, rfl⟩ := List.mem_map.mp hid
      exact plus_notMem_orderId (hplus _ (mem_openOrders.mp (hbook o ho)))
    have hperm := perm_of_joinIds_eq (hne hcycle) (hne hother) (hfree hbook) (hfree hbook') h
    ext o
    constructor
    · intro ho
      obtain ⟨o', ho', hid⟩ := List.mem_map.mp (hperm.mem_iff.mp (List.mem_map_of_mem ho))
      rwa [← List.inj_on_of_nodup_map hopen (hbook' o' ho') (hbook o ho) hid]
    · intro ho
      obtain ⟨o', ho', hid⟩ := List.mem_map.mp (hperm.mem_iff.mpr (List.mem_map_of_mem ho))
      rwa [← List.inj_on_of_nodup_map hopen (hbook o' ho') (hbook' o ho) hid]
  · intro h
    have hperm : cycle.Perm other := by
      rw [List.perm_ext_iff_of_nodup hcycle.nodup hother.nodup]
      intro o
      exact Set.ext_iff.mp h o
    exact joinIds_perm (hperm.map _)

/-- **The scan equals brute force.**  The order sets found, before the cut to
`maxOpportunities`, are those of the candidates with a riskless sizing, each found
once.  A transaction hash is hex, so it does not contain the separator of the
cycle ids. -/
theorem search_eq_bruteForce (hids : (orders.map Order.orderId).Nodup)
    (hplus : ∀ row ∈ orders, '+' ∉ row.txHash) :
    (∀ S : Set (OpenOrder params.nowPosixMs),
      (∃ entry ∈ (foundCycles params orders).entries, orderSet entry.orders = S) ↔
        ∃ cycle, Candidate params {o | o.toOrder ∈ orders} cycle ∧
          (∃ legs, RisklessSizing cycle legs) ∧ orderSet cycle = S) ∧
    ((foundCycles params orders).entries.map fun entry => orderSet entry.orders).Nodup ∧
    ∃ ranked, ranked.Perm (foundCycles params orders).entries ∧
      (findArbitrage orders params).opportunities = (slice params.maxOpportunities ranked).map
        fun entry => toOpportunity entry.orders entry.ev params.feeEstimateLovelace := by
  have hopen := openOrders_nodup params.nowPosixMs hids
  have hbook : {o : OpenOrder params.nowPosixMs | o.toOrder ∈ orders} =
      {o | o ∈ openOrders params.nowPosixMs orders} := Set.ext fun o => mem_openOrders.symm
  have hfound := foundAmong_foundCycles params orders
  rw [hbook]
  refine ⟨?_, ?_, _, List.perm_insertionSort rankedBefore _, rfl⟩
  · intro S
    constructor
    · rintro ⟨entry, hentry, rfl⟩
      obtain ⟨henumerated, -, hev⟩ := hfound.sound entry hentry
      exact ⟨entry.orders, candidate_of_mem_enumerated hopen henumerated,
        ⟨entry.ev.legs, (evaluateCycle_eq_some hev).1⟩, rfl⟩
    · rintro ⟨cycle, hcandidate, ⟨legs, hsizing⟩, rfl⟩
      obtain ⟨r, henumerated⟩ := hcandidate.exists_rotate hopen
      obtain ⟨hclosed, hbook⟩ := closed_of_mem_enumerated henumerated
      have hsome := hfound.complete _ henumerated
        ((hsizing.rotate r).rateProductPositive hclosed)
        (isSome_evaluateCycle hclosed.ne_nil (hsizing.rotate r))
      -- what is found under the cycle's id is a cycle of the same orders
      obtain ⟨entry, hentry⟩ := Option.isSome_iff_exists.mp hsome
      obtain ⟨hmem, hid⟩ := KeyedList.find?_eq_some.mp hentry
      obtain ⟨henumerated', hid', -⟩ := hfound.sound entry hmem
      obtain ⟨hclosed', hbook'⟩ := closed_of_mem_enumerated henumerated'
      refine ⟨entry, hmem, ?_⟩
      rw [(cycleId_inj hids hplus hclosed' hclosed hbook' hbook).mp (hid'.symm.trans hid)]
      exact orderSet_perm (List.rotate_perm cycle r)
  · refine List.Nodup.map_on ?_ (List.Nodup.of_map _ (foundCycles params orders).nodup)
    intro entry hentry entry' hentry' hsets
    obtain ⟨henumerated, hid, -⟩ := hfound.sound entry hentry
    obtain ⟨henumerated', hid', -⟩ := hfound.sound entry' hentry'
    obtain ⟨hclosed, hbook⟩ := closed_of_mem_enumerated henumerated
    obtain ⟨hclosed', hbook'⟩ := closed_of_mem_enumerated henumerated'
    refine List.inj_on_of_nodup_map (foundCycles params orders).nodup hentry hentry' ?_
    rw [hid, hid', cycleId_inj hids hplus hclosed hclosed' hbook hbook']
    exact hsets

end

open SampleBook in
/-- The crossed pair is found, from its smaller asset on, and nothing else. -/
theorem search_eq_bruteForce_sample :
    ((foundCycles scan crossed).entries.map fun entry => entry.orders.map fun o => o.orderId) =
        [[orderIdOf ⟨"02".toList, 0⟩, orderIdOf ⟨"01".toList, 0⟩]] ∧
      ∃ cycle : List (OpenOrder scan.nowPosixMs), Candidate scan {o | o.toOrder ∈ crossed} cycle ∧
        (∃ legs, RisklessSizing cycle legs) ∧
        ∀ id, id ∈ cycle.map (fun o => o.orderId) ↔
          id = orderIdOf ⟨"01".toList, 0⟩ ∨ id = orderIdOf ⟨"02".toList, 0⟩ := by
  have hfound : ((foundCycles scan crossed).entries.map fun entry =>
      entry.orders.map fun o => o.orderId) =
        [[orderIdOf ⟨"02".toList, 0⟩, orderIdOf ⟨"01".toList, 0⟩]] := by decide
  obtain ⟨entry, hentry, horders⟩ := List.mem_map.mp (hfound.symm ▸ List.mem_singleton_self _)
  obtain ⟨hsearch, -⟩ := @search_eq_bruteForce scan crossed (by decide) (by decide)
  obtain ⟨cycle, hcandidate, hsizing, hset⟩ :=
    (hsearch (orderSet entry.orders)).mp ⟨entry, hentry, rfl⟩
  refine ⟨hfound, cycle, hcandidate, hsizing, fun id => ?_⟩
  have hmem : ∀ o, o ∈ cycle ↔ o ∈ entry.orders := Set.ext_iff.mp hset
  have hids : id ∈ cycle.map (fun o => o.orderId) ↔ id ∈ entry.orders.map fun o => o.orderId := by
    simp only [List.mem_map, hmem]
  rw [hids, horders, List.mem_pair, or_comm]

end BeaconDex.Backend
