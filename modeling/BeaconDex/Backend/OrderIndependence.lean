import BeaconDex.Backend.ArbitrageSearch
import BeaconDex.Backend.SmartFillGuarantees

/-!
# The planners and the order of the book

The same rows in another order give the same route and the same scan
(`planners_eq_of_perm`).

The route planner sorts first and looks at the sorted candidates only, and the
sort forgets the order of the rows (`candidatesOf_eq_of_perm`).  The scan sorts
twice, an edge's orders and the cycles found, and in between the order of the rows
decides in which order assets are visited, and with it cycles.  What is found
under an id is the same all the same: no two enumerated cycles are of the same
orders (`ClosedCycle.eq_of_anchored`).

## Why it matters

A repository promises nothing about the order of its rows, and the two that there are
give different ones.  A user who asks twice should not be quoted two routes, and a test
that passes with one repository should pass with the other.
-/

namespace BeaconDex.Backend

open Library

variable {now : JsNumber} {orders orders' : List Order}

/-- The open rows of a permuted book are a permutation of the open rows. -/
theorem openOrders_perm (h : orders.Perm orders') :
    (openOrders now orders).Perm (openOrders now orders') :=
  h.filterMap _

/-!
## Routes

The planner sorts at once, by a key that no two rows share.
-/

section

variable {params : SmartFillParams}

/-- The sorted candidates are the same list. -/
theorem candidatesOf_eq_of_perm (h : orders.Perm orders')
    (hids : (orders.map Order.orderId).Nodup) :
    candidatesOf params orders = candidatesOf params orders' := by
  have hnodup : ((eligible params orders).map fun o => o.orderId).Nodup :=
    (candidatesOf_perm.map _).nodup_iff.mp (candidatesOf_nodup hids)
  refine insertionSort_eq_of_perm (fun _ _ => takenBefore_iff) ?_ ((openOrders_perm h).filter _)
  -- a key ends with the id
  apply List.Nodup.of_map fun key => (ofLex (ofLex key).2).2
  rw [List.map_map]
  exact hnodup

/-- So a route does not depend on the order of the book. -/
theorem planSmartFill_eq_of_perm (h : orders.Perm orders')
    (hids : (orders.map Order.orderId).Nodup) :
    planSmartFill orders params = planSmartFill orders' params := by
  unfold planSmartFill
  rw [candidatesOf_eq_of_perm h hids]

end

/-!
## The cycles enumerated

As a set, they depend on the set of the rows only.
-/

section

variable {book book' cycle other : List (OpenOrder now)} {params : ArbitrageParams}

/-- The sorted orders of an edge are the same list. -/
theorem edge_eq_of_perm (h : book.Perm book') (hids : (book.map fun o => o.orderId).Nodup)
    {a b : Str} (hab : a ≠ b) : (edgesOf book).edge a b = (edgesOf book').edge a b := by
  have hlist : (edgesOf book).list a b = ordersFrom book a b := (onEdge_edgesOf book hab).1
  have hlist' : (edgesOf book').list a b = ordersFrom book' a b := (onEdge_edgesOf book' hab).1
  rw [Edges.edge, Edges.edge, hlist, hlist']
  refine insertionSort_eq_of_perm (fun _ _ => rateBefore_iff) ?_ (h.filter _)
  apply List.Nodup.of_map fun key => (ofLex key).2
  rw [List.map_map]
  exact hids.sublist (List.filter_sublist.map _)

/-- The same cycles are enumerated, in whatever order. -/
theorem mem_enumerated_of_perm (h : book.Perm book')
    (hids : (book.map fun o => o.orderId).Nodup) (hmem : cycle ∈ enumerated params book) :
    cycle ∈ enumerated params book' := by
  rcases List.mem_append.mp hmem with hmem | hmem
  · obtain ⟨a, b, o₁, o₂, hab, rfl, h₁, h₂⟩ := mem_directCycles.mp hmem
    rw [edge_eq_of_perm h hids hab.ne] at h₁
    rw [edge_eq_of_perm h hids hab.ne'] at h₂
    exact List.mem_append_left _ (mem_directCycles.mpr ⟨a, b, o₁, o₂, hab, rfl, h₁, h₂⟩)
  · obtain ⟨a, b, c, o₁, o₂, o₃, hab, hac, hcb, rfl, h₁, h₂, h₃⟩ := mem_triangularCycles.mp hmem
    rw [edge_eq_of_perm h hids hab.ne] at h₁
    rw [edge_eq_of_perm h hids hcb.symm] at h₂
    rw [edge_eq_of_perm h hids hac.ne'] at h₃
    exact List.mem_append_right _ (mem_triangularCycles.mpr
      ⟨a, b, c, o₁, o₂, o₃, hab, hac, hcb, rfl, h₁, h₂, h₃⟩)

/-- The first order asks for the smallest asset. -/
def Anchored : List (OpenOrder now) → Prop
  | [] => True
  | anchor :: rest => ∀ o ∈ rest, requestedAssetId anchor.toOrder < requestedAssetId o.toOrder

/-- An enumerated cycle begins at the least of its assets. -/
theorem anchored_of_mem_enumerated (h : cycle ∈ enumerated params book) : Anchored cycle := by
  have hrequested : ∀ {k : ℤ} {a b : Str} {o : OpenOrder now}, a ≠ b →
      o ∈ slice k ((edgesOf book).edge a b) → requestedAssetId o.toOrder = a :=
    fun hab ho => (mem_ordersFrom.mp ((mem_edge hab).mp (mem_slice ho))).2.1
  rcases List.mem_append.mp h with h | h
  · obtain ⟨a, b, o₁, o₂, hab, rfl, h₁, h₂⟩ := mem_directCycles.mp h
    intro o ho
    rw [List.mem_singleton.mp ho, hrequested hab.ne h₁, hrequested hab.ne' h₂]
    exact hab
  · obtain ⟨a, b, c, o₁, o₂, o₃, hab, hac, hcb, rfl, h₁, h₂, h₃⟩ := mem_triangularCycles.mp h
    intro o ho
    rw [hrequested hab.ne h₁]
    rcases List.mem_pair.mp ho with rfl | rfl
    · rw [hrequested hcb.symm h₂]
      exact hab
    · rw [hrequested hac.ne' h₃]
      exact hac

/-- Two anchored lists of the same orders begin with the same order. -/
theorem Anchored.head_eq {x y : OpenOrder now} (hx : Anchored (x :: cycle))
    (hy : Anchored (y :: other)) (hsets : orderSet (x :: cycle) = orderSet (y :: other)) :
    x = y := by
  have hmem : x ∈ y :: other := (Set.ext_iff.mp hsets x).mp List.mem_cons_self
  have hmem' : y ∈ x :: cycle := (Set.ext_iff.mp hsets y).mpr List.mem_cons_self
  rcases List.mem_cons.mp hmem with heq | hother
  · exact heq
  · rcases List.mem_cons.mp hmem' with heq | hcycle
    · exact heq.symm
    · exact absurd (hx y hcycle) (hy x hother).asymm

/-- **The anchoring repeats no cycle.**  From the common anchor on, each order is
the one that asks for what the order before offers. -/
theorem ClosedCycle.eq_of_anchored (hcycle : ClosedCycle cycle) (hother : ClosedCycle other)
    (hanchor : Anchored cycle) (hanchor' : Anchored other)
    (hsets : orderSet cycle = orderSet other) : cycle = other := by
  have hmem : ∀ o ∈ other, o ∈ cycle := fun o => (Set.ext_iff.mp hsets o).mpr
  have hlength : cycle.length = other.length :=
    ((List.perm_ext_iff_of_nodup hcycle.nodup hother.nodup).mpr (Set.ext_iff.mp hsets)).length_eq
  have hnext : ∀ {o x y : OpenOrder now}, x ∈ cycle → y ∈ cycle → LeadsTo o x → LeadsTo o y →
      x = y := by
    intro o x y hx hy hox hoy
    exact List.inj_on_of_nodup_map hcycle.distinct hx hy (hox.symm.trans hoy)
  cases hcycle with
  | @direct o₁ o₂ h₁ h₂ _ =>
      cases hother with
      | @direct p₁ p₂ h₁' h₂' _ =>
          obtain rfl := hanchor.head_eq hanchor' hsets
          obtain rfl := hnext (by simp) (hmem p₂ (by simp)) h₁ h₁'
          rfl
      | triangular => cases hlength
  | @triangular o₁ o₂ o₃ h₁ h₂ h₃ _ =>
      cases hother with
      | direct => cases hlength
      | @triangular p₁ p₂ p₃ h₁' h₂' h₃' _ =>
          obtain rfl := hanchor.head_eq hanchor' hsets
          obtain rfl := hnext (by simp) (hmem p₂ (by simp)) h₁ h₁'
          obtain rfl := hnext (by simp) (hmem p₃ (by simp)) h₂ h₂'
          rfl

end

/-!
## Ranking

The list that is returned is sorted by a key that no two cycles share.
-/

theorem marginOf_den_pos (cycle : List (OpenOrder now)) : 0 < (marginOf cycle).den := by
  refine List.prod_pos ?_
  intro amount hamount
  obtain ⟨o, -, rfl⟩ := List.mem_map.mp hamount
  exact o.requested_pos

/-- The key the found cycles are sorted by: the larger margin, then the id. -/
def rankKey (entry : FoundCycle now) : ℚᵒᵈ ×ₗ Str :=
  toLex (OrderDual.toDual ((marginOf entry.orders).num / (marginOf entry.orders).den : ℚ), entry.id)

/-- Opportunities are compared by a key: the larger margin, then the id. -/
theorem rankedBefore_iff {a b : FoundCycle now} : rankedBefore a b ↔ rankKey a ≤ rankKey b := by
  have ha : (0 : ℚ) < (marginOf a.orders).den := by exact_mod_cast marginOf_den_pos a.orders
  have hb : (0 : ℚ) < (marginOf b.orders).den := by exact_mod_cast marginOf_den_pos b.orders
  simp only [rankKey, Prod.Lex.toLex_le_toLex, OrderDual.toDual_lt_toDual, OrderDual.toDual_inj,
    div_lt_div_iff₀ hb ha, div_eq_div_iff ha.ne' hb.ne', rankedBefore, sub_pos, sub_eq_zero]
  norm_cast

theorem ranked_eq_of_perm {found found' : Found now} (h : found.entries.Perm found'.entries) :
    found.entries.insertionSort rankedBefore = found'.entries.insertionSort rankedBefore := by
  refine insertionSort_eq_of_perm (fun _ _ => rankedBefore_iff) ?_ h
  apply List.Nodup.of_map fun key => (ofLex key).2
  rw [List.map_map]
  exact found.nodup

/-!
## Scans

What is found is the same under each id, and it is ranked the same.
-/

section

variable {params : ArbitrageParams}

/-- What is found in a book is found in it in any order. -/
theorem mem_foundCycles_of_perm (h : orders.Perm orders')
    (hids : (orders.map Order.orderId).Nodup) (hplus : ∀ row ∈ orders, '+' ∉ row.txHash)
    {entry : FoundCycle params.nowPosixMs} (hentry : entry ∈ (foundCycles params orders).entries) :
    entry ∈ (foundCycles params orders').entries := by
  have hids' : (orders'.map Order.orderId).Nodup := (h.map _).nodup_iff.mp hids
  have hplus' : ∀ row ∈ orders', '+' ∉ row.txHash := fun row hrow =>
    hplus row (h.mem_iff.mpr hrow)
  have hfound := foundAmong_foundCycles params orders'
  obtain ⟨hmem, hid, hev⟩ := (foundAmong_foundCycles params orders).sound entry hentry
  have hmem := mem_enumerated_of_perm (openOrders_perm h)
    (openOrders_nodup params.nowPosixMs hids) hmem
  obtain ⟨hclosed, hbook⟩ := closed_of_mem_enumerated hmem
  have hrate := (evaluateCycle_eq_some hev).1.rateProductPositive hclosed
  have hsome := hfound.complete entry.orders hmem hrate (by rw [hev]; rfl)
  -- an entry is there under the cycle's id, and it is of the same cycle
  obtain ⟨entry', hfind⟩ := Option.isSome_iff_exists.mp hsome
  obtain ⟨hentry', hid₁⟩ := KeyedList.find?_eq_some.mp hfind
  obtain ⟨hmem', hid₂, hev'⟩ := hfound.sound entry' hentry'
  obtain ⟨hclosed', hbook'⟩ := closed_of_mem_enumerated hmem'
  have hsets := (cycleId_inj hids' hplus' hclosed hclosed' hbook hbook').mp (hid₁.symm.trans hid₂)
  have horders : entry.orders = entry'.orders :=
    hclosed.eq_of_anchored hclosed' (anchored_of_mem_enumerated hmem)
      (anchored_of_mem_enumerated hmem') hsets
  have hevs : entry.ev = entry'.ev := by
    rw [horders, hev'] at hev
    exact (Option.some.inj hev).symm
  have heq : entry = entry' := by
    rw [FoundCycle.mk.injEq]
    exact ⟨hid.trans hid₁.symm, horders, hevs⟩
  rwa [heq]

/-- What is found is the same, up to the order in which it was found. -/
theorem foundCycles_perm (h : orders.Perm orders') (hids : (orders.map Order.orderId).Nodup)
    (hplus : ∀ row ∈ orders, '+' ∉ row.txHash) :
    (foundCycles params orders).entries.Perm (foundCycles params orders').entries := by
  rw [List.perm_ext_iff_of_nodup (List.Nodup.of_map _ (foundCycles params orders).nodup)
    (List.Nodup.of_map _ (foundCycles params orders').nodup)]
  intro entry
  constructor
  · exact mem_foundCycles_of_perm h hids hplus
  · refine mem_foundCycles_of_perm h.symm ((h.map _).nodup_iff.mp hids) ?_
    intro row hrow
    exact hplus row (h.mem_iff.mpr hrow)

/-- So a scan does not depend on the order of the book either: ranking forgets the order
of what was found. -/
theorem findArbitrage_eq_of_perm (h : orders.Perm orders')
    (hids : (orders.map Order.orderId).Nodup) (hplus : ∀ row ∈ orders, '+' ∉ row.txHash) :
    findArbitrage orders params = findArbitrage orders' params := by
  have hopen : (openOrders params.nowPosixMs orders).Perm (openOrders params.nowPosixMs orders') :=
    openOrders_perm h
  have hpairs := (hopen.map fun o => o.pairId).dedup.length_eq
  unfold findArbitrage
  simp only [ranked_eq_of_perm (foundCycles_perm h hids hplus), hopen.length_eq, hpairs]

/-- **The planners depend on the set of orders only.**  Rows without a positive
amount are filtered out, so none is asked for here; a transaction hash is hex, so
it does not contain the separator of the cycle ids. -/
theorem planners_eq_of_perm (h : orders.Perm orders') (hids : (orders.map Order.orderId).Nodup)
    (hplus : ∀ row ∈ orders, '+' ∉ row.txHash) (request : SmartFillParams)
    (params : ArbitrageParams) :
    planSmartFill orders request = planSmartFill orders' request ∧
      findArbitrage orders params = findArbitrage orders' params :=
  ⟨planSmartFill_eq_of_perm h hids, findArbitrage_eq_of_perm h hids hplus⟩

end

open SampleBook in
theorem planners_eq_of_perm_sample :
    planSmartFill crossed (request .spend 30) =
        planSmartFill crossed.reverse (request .spend 30) ∧
      findArbitrage crossed scan = findArbitrage crossed.reverse scan :=
  planners_eq_of_perm (List.reverse_perm crossed).symm (by decide) (by decide) _ _

end BeaconDex.Backend
