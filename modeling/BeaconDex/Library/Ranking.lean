import Mathlib.Data.List.Pairwise
import Mathlib.Data.List.Sort
import Mathlib.Data.Set.Card

/-!
# Sorting and ranking

Three facts about lists that are put in order by a comparator `r`.

Sorting by distinct keys forgets the order a list came in
(`insertionSort_eq_of_perm`): two lists of the same elements are sorted alike.  The
first `k` of a sorted list are the elements that fewer than `k` others come before
(`mem_take_insertionSort`), so that what a ranked slice contains can be said without
mentioning the sorting.

A comparator that leaves ties need not decide the order.  `Arranged` is what a query
that only promises to order by `r` may answer, with ties in any order, and
`arranged_unique_iff` says when this leaves no choice: exactly if the rows are in strictly
increasing order as they stand.
-/

namespace BeaconDex.Library

variable {α : Type*} {r : α → α → Prop} [DecidableRel r] {l : List α} {x : α}

/-- A comparator that asks which comes first, both ways, and then breaks the tie. -/
theorem lt_or_not_lt_and {κ : Type*} [LinearOrder κ] {a b : κ} {tie : Prop} :
    a < b ∨ ¬b < a ∧ tie ↔ a < b ∨ a = b ∧ tie := by
  constructor
  · rintro (h | ⟨h, h'⟩)
    · exact .inl h
    · rcases (not_lt.mp h).lt_or_eq with hlt | heq
      · exact .inl hlt
      · exact .inr ⟨heq, h'⟩
  · rintro (h | ⟨h, h'⟩)
    · exact .inl h
    · exact .inr ⟨h.le.not_gt, h'⟩

/-- **Sorting forgets the order.**  When a comparator compares by a key, the keys of
a list decide in which order it is sorted. -/
theorem insertionSort_eq_of_perm {κ : Type*} [LinearOrder κ] {key : α → κ} {l' : List α}
    (hr : ∀ a b, r a b ↔ key a ≤ key b) (hkeys : (l.map key).Nodup) (h : l.Perm l') :
    l.insertionSort r = l'.insertionSort r := by
  have htotal : Std.Total r := ⟨fun a b => by
    rw [hr, hr]
    exact le_total _ _⟩
  have htrans : IsTrans α r := ⟨fun a b c => by
    rw [hr, hr, hr]
    exact le_trans⟩
  have hperm : (l.insertionSort r).Perm (l'.insertionSort r) :=
    ((List.perm_insertionSort r l).trans h).trans (List.perm_insertionSort r l').symm
  refine List.Perm.eq_of_pairwise ?_ (List.pairwise_insertionSort r l)
    (List.pairwise_insertionSort r l') hperm
  intro a b ha hb hab hba
  have hb' : b ∈ l.insertionSort r := hperm.mem_iff.mpr hb
  have hkey : key a = key b := le_antisymm ((hr a b).mp hab) ((hr b a).mp hba)
  exact List.inj_on_of_nodup_map hkeys ((List.mem_insertionSort r).mp ha)
    ((List.mem_insertionSort r).mp hb') hkey

/-- How many elements of `l` come before `x`. -/
def rankIn (r : α → α → Prop) [DecidableRel r] (l : List α) (x : α) : ℕ :=
  l.countP fun y => ¬r x y

theorem rankIn_perm {l' : List α} (h : l.Perm l') : rankIn r l x = rankIn r l' x :=
  h.countP_eq _

theorem ncard_setOf_mem (hnodup : l.Nodup) : {y | y ∈ l}.ncard = l.length := by
  classical
  rw [← List.coe_toFinset, Set.ncard_coe_finset, List.toFinset_card_of_nodup hnodup]

/-- Without repetitions the rank is the number of those that come before. -/
theorem rankIn_eq_ncard (hnodup : l.Nodup) : rankIn r l x = {y | y ∈ l ∧ ¬r x y}.ncard := by
  have hfilter : {y | y ∈ l ∧ ¬r x y} = {y | y ∈ l.filter fun y => ¬r x y} := by
    ext y
    simp only [Set.mem_ofPred_eq, List.mem_filter, decide_eq_true_eq]
  rw [hfilter, ncard_setOf_mem (hnodup.filter _), rankIn, List.countP_eq_length_filter]

/-- In a sorted list the rank of an element is its position. -/
theorem rankIn_of_sorted [Std.Total r] {before after : List α}
    (hsorted : (before ++ x :: after).Pairwise r) (hne : ∀ y ∈ before, ¬r x y) :
    rankIn r (before ++ x :: after) x = before.length := by
  obtain ⟨-, hafter, -⟩ := List.pairwise_append.mp hsorted
  have hrefl : r x x := (Std.Total.total x x).elim id id
  have hbefore : before.countP (fun y => ¬r x y) = before.length := by
    rw [List.countP_eq_length]
    intro y hy
    exact decide_eq_true (hne y hy)
  have hrest : (x :: after).countP (fun y => ¬r x y) = 0 := by
    rw [List.countP_eq_zero]
    intro y hy
    rcases List.mem_cons.mp hy with rfl | hy
    · simpa using hrefl
    · simpa using List.rel_of_pairwise_cons hafter hy
  rw [rankIn, List.countP_append, hbefore, hrest, Nat.add_zero]

/-- **The best `k`.** -/
theorem mem_take_insertionSort [Std.Total r] [IsTrans α r] (hnodup : l.Nodup)
    (hantisymm : ∀ a ∈ l, ∀ b ∈ l, r a b → r b a → a = b) {k : ℕ} :
    x ∈ (l.insertionSort r).take k ↔ x ∈ l ∧ rankIn r l x < k := by
  have hperm : (l.insertionSort r).Perm l := List.perm_insertionSort r l
  have hsorted : (l.insertionSort r).Pairwise r := List.pairwise_insertionSort r l
  by_cases hx : x ∈ l
  · obtain ⟨before, after, hsplit⟩ := List.append_of_mem (hperm.mem_iff.mpr hx)
    have hnodup' : (before ++ x :: after).Nodup := hsplit ▸ hperm.nodup_iff.mpr hnodup
    rw [and_iff_right hx, ← rankIn_perm hperm, hsplit]
    rw [hsplit] at hsorted hperm
    have hfresh : x ∉ before := fun hmem =>
      (List.nodup_append.mp hnodup').2.2 x hmem x List.mem_cons_self rfl
    rw [rankIn_of_sorted hsorted]
    · constructor
      · intro hmem
        by_contra hle
        rw [List.take_append_of_le_length (not_lt.mp hle)] at hmem
        exact hfresh (List.mem_of_mem_take hmem)
      · intro hlt
        rw [List.mem_take_iff_getElem]
        refine ⟨before.length, by simp [hlt], by simp⟩
    · intro y hy hxy
      have hyx : r y x := (List.pairwise_append.mp hsorted).2.2 y hy x List.mem_cons_self
      have hyl : y ∈ l := hperm.mem_iff.mp (List.mem_append_left _ hy)
      exact hfresh (hantisymm x hx y hyl hxy hyx ▸ hy)
  · refine ⟨fun hmem => ?_, fun h => absurd h.1 hx⟩
    exact absurd (hperm.mem_iff.mp (List.mem_of_mem_take hmem)) hx

/-- What a query that orders the rows of `l` by `r` may answer: all of them, in an order
that `r` allows.  Rows that tie may come in any order, as in SQL's `ORDER BY`. -/
def Arranged (r : α → α → Prop) (l rows : List α) : Prop := rows.Perm l ∧ rows.Pairwise r

theorem arranged_insertionSort [Std.Total r] [IsTrans α r] (l : List α) :
    Arranged r l (l.insertionSort r) :=
  ⟨List.perm_insertionSort r l, List.pairwise_insertionSort r l⟩

/-- **When the order leaves no choice.**  The rows can be answered as they stand and in no
other way exactly if each comes strictly before the ones after it. -/
theorem arranged_unique_iff [Std.Total r] [IsTrans α r] (hnodup : l.Nodup) :
    (∀ rows, Arranged r l rows → rows = l) ↔ l.Pairwise fun a b => ¬r b a := by
  classical
  constructor
  · intro h
    rw [List.pairwise_iff_forall_sublist]
    intro a b hab hba
    -- sorted from behind, the two would come out the other way round
    have hback : l.reverse.insertionSort r = l := by
      obtain ⟨hperm, hsorted⟩ := arranged_insertionSort (r := r) l.reverse
      exact h _ ⟨hperm.trans l.reverse_perm, hsorted⟩
    have hswapped : [b, a].Sublist l := by
      rw [← hback]
      exact List.pair_sublist_insertionSort hba (by simpa using hab.reverse)
    have hidx : l.Pairwise fun a b => l.idxOf a < l.idxOf b := by
      refine List.pairwise_iff_getElem.mpr fun i j hi hj hij => ?_
      rwa [hnodup.idxOf_getElem, hnodup.idxOf_getElem]
    rw [List.pairwise_iff_forall_sublist] at hidx
    exact lt_asymm (hidx hab) (hidx hswapped)
  · rintro h rows ⟨hperm, hsorted⟩
    have hsorted' : l.Pairwise r := h.imp fun {a b} hba => (Std.Total.total a b).resolve_right hba
    refine hperm.eq_of_pairwise ?_ hsorted hsorted'
    intro a b ha hb hab hba
    by_contra hne
    have hsymm : l.Pairwise fun a b => ¬(r a b ∧ r b a) := h.imp fun hba hboth => hba hboth.2
    have : Std.Symm fun a b => ¬(r a b ∧ r b a) := ⟨fun a b h h' => h h'.symm⟩
    exact hsymm.forall (hperm.mem_iff.mp ha) hb hne ⟨hab, hba⟩

end BeaconDex.Library
