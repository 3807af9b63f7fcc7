import Mathlib.Algebra.BigOperators.Group.List.Basic
import Mathlib.Algebra.Order.BigOperators.Group.List
import Mathlib.Algebra.Ring.Int.Defs
import Mathlib.Data.List.Forall2
import Mathlib.Data.List.NodupEquivFin

/-!
# Rank pairing

A list of keys and a list of candidates are paired position by position: the key
of rank `k` gets candidate `k`.  Each key checks only its own candidate, and
everyone checks that the lists are equally long.

On distinct keys this is zipping the lists (`pinned_iff_mem_zip`), so if every
key makes its check the lists agree from end to end.  If only some keys do, a
bound on the total still forces the candidates of the others to be worth nothing
(`eq_zero_of_sum_le`).

## Who checks what

The pattern is that of a validator that runs once for each key and sees all keys and all
candidates, but knows only its own terms.  What makes the pairing safe is that the rank
of a key is the same whoever computes it, and that the lists are known to be of one
length to whoever computes it.
-/

namespace BeaconDex.Library

variable {α β γ : Type*}

section Pinned

variable [BEq α] [LawfulBEq α] {keys : List α} {candidates : List β} {a a' : α} {b : β}

/-- `b` is the candidate at the rank of `a`. -/
def Pinned (keys : List α) (candidates : List β) (a : α) (b : β) : Prop :=
  ∃ rank, keys.idxOf? a = some rank ∧ candidates[rank]? = some b

/-- Distinct keys have distinct ranks. -/
theorem idxOf?_inj {rank : ℕ} (h : keys.idxOf? a = some rank) (h' : keys.idxOf? a' = some rank) :
    a = a' := by
  rw [List.idxOf?_eq_some_iff] at h h'
  obtain ⟨_, ha, -⟩ := h
  obtain ⟨_, ha', -⟩ := h'
  exact ha.symm.trans ha'

/-- In a list without repetition a key's rank is its position. -/
theorem idxOf?_of_nodup (hkeys : keys.Nodup) {i : ℕ} (h : keys[i]? = some a) :
    keys.idxOf? a = some i := by
  obtain ⟨hi, rfl⟩ := List.getElem?_eq_some_iff.mp h
  rw [List.idxOf?_eq_some_iff]
  refine ⟨hi, rfl, ?_⟩
  intro j hj heq
  exact absurd ((List.Nodup.getElem_inj_iff hkeys).mp heq) (by omega)

omit [LawfulBEq α] in
/-- A key is paired with one candidate, -/
theorem Pinned.right_unique {b' : β} (h : Pinned keys candidates a b)
    (h' : Pinned keys candidates a b') : b = b' := by
  obtain ⟨rank, hrank, hb⟩ := h
  obtain ⟨rank', hrank', hb'⟩ := h'
  obtain rfl := Option.some.inj (hrank.symm.trans hrank')
  exact Option.some.inj (hb.symm.trans hb')

/-- and a candidate with one key. -/
theorem Pinned.left_unique (hcandidates : candidates.Nodup) (h : Pinned keys candidates a b)
    (h' : Pinned keys candidates a' b) : a = a' := by
  obtain ⟨rank, hrank, hb⟩ := h
  obtain ⟨rank', hrank', hb'⟩ := h'
  obtain ⟨hlt, -⟩ := List.getElem?_eq_some_iff.mp hb
  obtain rfl := (List.getElem?_inj hlt hcandidates).mp (hb.trans hb'.symm)
  exact idxOf?_inj hrank hrank'

/-- On distinct keys, pairing by rank is zipping. -/
theorem pinned_iff_mem_zip (hkeys : keys.Nodup) :
    Pinned keys candidates a b ↔ (a, b) ∈ keys.zip candidates := by
  rw [List.mem_iff_getElem?]
  constructor
  · rintro ⟨rank, hrank, hb⟩
    obtain ⟨hlt, ha, -⟩ := List.idxOf?_eq_some_iff.mp hrank
    exact ⟨rank, List.getElem?_zip_eq_some.mpr ⟨List.getElem?_eq_some_iff.mpr ⟨hlt, ha⟩, hb⟩⟩
  · rintro ⟨i, hi⟩
    obtain ⟨ha, hb⟩ := List.getElem?_zip_eq_some.mp hi
    exact ⟨i, idxOf?_of_nodup hkeys ha, hb⟩

end Pinned

/-! ## Ranks by position

The same pairing with the position of an element in its list as the key. -/

section FindIdxs

variable {p : α → Bool} {xs : List α} {x : α} {rank i : ℕ}

/-- The elements that satisfy `p`, and their positions, correspond. -/
theorem exists_getElem?_findIdxs (h : (xs.filter p)[rank]? = some x) :
    ∃ i, (xs.findIdxs p)[rank]? = some i ∧ xs[i]? = some x := by
  obtain ⟨hlt, rfl⟩ := List.getElem?_eq_some_iff.mp h
  have hlt' : rank < (xs.findIdxs p).length := by
    rwa [List.length_findIdxs, List.countP_eq_length_filter]
  refine ⟨(xs.findIdxs p)[rank], List.getElem?_eq_getElem hlt', ?_⟩
  rw [List.getElem_filter_eq_getElem_getElem_findIdxs hlt]
  exact List.getElem?_eq_getElem _

theorem exists_getElem?_filter (h : (xs.findIdxs p)[rank]? = some i) :
    ∃ x, (xs.filter p)[rank]? = some x ∧ xs[i]? = some x := by
  obtain ⟨hlt, rfl⟩ := List.getElem?_eq_some_iff.mp h
  have hlt' : rank < (xs.filter p).length := by
    rwa [← List.countP_eq_length_filter, ← List.length_findIdxs]
  refine ⟨(xs.filter p)[rank], List.getElem?_eq_getElem hlt', ?_⟩
  rw [List.getElem_filter_eq_getElem_getElem_findIdxs hlt']
  exact List.getElem?_eq_getElem _

/-- The positions of a predicate are those of elements that satisfy it. -/
theorem mem_findIdxs : i ∈ xs.findIdxs p ↔ ∃ x, xs[i]? = some x ∧ p x = true := by
  rw [List.mem_findIdxs_iff_exists_getElem_pos]
  constructor
  · rintro ⟨hlt, hp⟩
    exact ⟨xs[i], List.getElem?_eq_getElem hlt, hp⟩
  · rintro ⟨x, hx, hp⟩
    obtain ⟨hlt, rfl⟩ := List.getElem?_eq_some_iff.mp hx
    exact ⟨hlt, hp⟩

/-- A sorted list of positions is determined by its members. -/
theorem eq_findIdxs {idxs : List ℕ} (hsorted : idxs.Pairwise (· < ·))
    (hmem : ∀ i, i ∈ idxs ↔ ∃ x, xs[i]? = some x ∧ p x = true) : idxs = xs.findIdxs p :=
  hsorted.eq_of_mem_iff List.pairwise_findIdxs fun i => (hmem i).trans mem_findIdxs.symm

/-- The rank of an element is the rank of its position, under any distinct keys. -/
theorem idxOf?_findIdxs [BEq γ] [LawfulBEq γ] {key : α → γ} (hnodup : (xs.map key).Nodup)
    (hx : xs[i]? = some x) :
    (xs.findIdxs p).idxOf? i = some rank ↔ ((xs.filter p).map key).idxOf? (key x) = some rank := by
  constructor
  · intro h
    obtain ⟨hlt, hi, -⟩ := List.idxOf?_eq_some_iff.mp h
    obtain ⟨y, hfilter, hy⟩ := exists_getElem?_filter
      (List.getElem?_eq_some_iff.mpr ⟨hlt, hi⟩)
    obtain rfl := Option.some.inj (hx.symm.trans hy)
    refine idxOf?_of_nodup (hnodup.sublist (List.filter_sublist.map key)) ?_
    rw [List.getElem?_map, hfilter, Option.map_some]
  · intro h
    obtain ⟨hlt, hkey, -⟩ := List.idxOf?_eq_some_iff.mp h
    have hat : ((xs.filter p).map key)[rank]? = some (key x) :=
      List.getElem?_eq_some_iff.mpr ⟨hlt, hkey⟩
    rw [List.getElem?_map, Option.map_eq_some_iff] at hat
    obtain ⟨y, hfilter, hkeys⟩ := hat
    obtain ⟨j, hj, hy⟩ := exists_getElem?_findIdxs hfilter
    -- equal keys are at one position
    have hpos : j = i := by
      have hlt' : j < (xs.map key).length := by
        rw [List.length_map]
        exact (List.getElem?_eq_some_iff.mp hy).1
      refine (List.getElem?_inj hlt' hnodup).mp ?_
      rw [List.getElem?_map, List.getElem?_map, hy, hx, Option.map_some, Option.map_some, hkeys]
    exact idxOf?_of_nodup List.nodup_findIdxs (hpos ▸ hj)

end FindIdxs

/-- Distinct keys select at most one element. -/
theorem filter_key_eq_singleton {key : α → β} {p : α → Bool} {l : List α}
    (hnodup : (l.map key).Nodup) {a : α} (ha : a ∈ l) (hp : ∀ b ∈ l, p b = true ↔ key b = key a) :
    l.filter p = [a] := by
  induction l with
  | nil => cases ha
  | cons b l ih =>
      rw [List.map_cons, List.nodup_cons] at hnodup
      by_cases hkey : key b = key a
      · have hrest : l.filter p = [] := by
          rw [List.filter_eq_nil_iff]
          intro c hc hpc
          have hkeyc := (hp c (List.mem_cons_of_mem _ hc)).mp hpc
          exact hnodup.1 (List.mem_map.mpr ⟨c, hc, hkeyc.trans hkey.symm⟩)
        rw [List.filter_cons_of_pos ((hp b List.mem_cons_self).mpr hkey), hrest]
        rcases List.mem_cons.mp ha with rfl | hmem
        · rfl
        · exact absurd (List.mem_map.mpr ⟨a, hmem, hkey.symm⟩) hnodup.1
      · rw [List.filter_cons_of_neg fun h => hkey ((hp b List.mem_cons_self).mp h)]
        rcases List.mem_cons.mp ha with rfl | hmem
        · exact absurd rfl hkey
        · exact ih hnodup.2 hmem fun c hc => hp c (List.mem_cons_of_mem _ hc)

/-- Every candidate is at the rank of some key when there are as many. -/
theorem exists_mem_zip_of_mem_right {keys : List α} {candidates : List β} {b : β}
    (hlen : candidates.length ≤ keys.length) (hb : b ∈ candidates) :
    ∃ a, (a, b) ∈ keys.zip candidates := by
  rw [← List.map_snd_zip hlen, List.mem_map] at hb
  obtain ⟨⟨a, b⟩, hab, rfl⟩ := hb
  exact ⟨a, hab⟩

section Sums

variable {M : Type*} [AddCommGroup M] {p : α → Prop} [DecidablePred p]

/-- Summing over a filter is enough when the rest is worth nothing. -/
theorem sum_map_filter_of_eq_zero {f : α → M} {l : List α} (h : ∀ x ∈ l, ¬ p x → f x = 0) :
    ((l.filter fun x => decide (p x)).map f).sum = (l.map f).sum := by
  rw [← List.sum_map_filter_add_sum_map_filter_not p f l, left_eq_add]
  apply List.sum_eq_zero
  intro y hy
  obtain ⟨x, hx, rfl⟩ := List.mem_map.mp hy
  rw [List.mem_filter, decide_eq_true_eq] at hx
  exact h x hx.1 hx.2

/-- Lists that agree from end to end have the same total. -/
theorem sum_map_eq_of_forall₂ {f : α → M} {g : β → M} {l : List α} {l' : List β}
    (h : List.Forall₂ (fun a b => f a = g b) l l') : (l.map f).sum = (l'.map g).sum := by
  induction h with
  | nil => rfl
  | cons hab _ ih => rw [List.map_cons, List.map_cons, List.sum_cons, List.sum_cons, hab, ih]

variable [PartialOrder M] [IsOrderedAddMonoid M]

theorem sum_map_nonneg {f : α → M} {l : List α} (h : ∀ x ∈ l, 0 ≤ f x) : 0 ≤ (l.map f).sum :=
  List.sum_nonneg (by simpa using h)

/-- Nonnegative terms with a sum of at most zero all vanish. -/
theorem eq_zero_of_sum_map_le_zero {f : α → M} {l : List α} (hnonneg : ∀ x ∈ l, 0 ≤ f x)
    (hsum : (l.map f).sum ≤ 0) {x : α} (hx : x ∈ l) : f x = 0 :=
  List.all_zero_of_le_zero_le_of_sum_eq_zero (by simpa using hnonneg)
    (le_antisymm hsum (sum_map_nonneg hnonneg)) (List.mem_map_of_mem hx)

/-- **Only some check**: when the candidates together are worth no more than
what the checking keys `p` account for, every other key's candidate is worth
nothing. -/
theorem eq_zero_of_sum_le {keys : List α} {candidates : List β} {f : β → M} {g : α → M}
    (hlen : keys.length = candidates.length)
    (hchecked : ∀ a b, (a, b) ∈ keys.zip candidates → p a → f b = g a)
    (hnonneg : ∀ b ∈ candidates, 0 ≤ f b)
    (hsum : (candidates.map f).sum ≤ ((keys.filter fun a => decide (p a)).map g).sum)
    {a : α} {b : β} (hab : (a, b) ∈ keys.zip candidates) (ha : ¬ p a) : f b = 0 := by
  have hdue : ((keys.filter fun a => decide (p a)).map g).sum =
      (((keys.zip candidates).filter fun ab => decide (p ab.1)).map fun ab => f ab.2).sum := by
    conv_lhs => rw [← List.map_fst_zip hlen.le, List.filter_map, List.map_map]
    congr 1
    apply List.map_congr_left
    intro ab hab
    simp only [Function.comp_apply, List.mem_filter, decide_eq_true_eq] at hab ⊢
    exact (hchecked ab.1 ab.2 hab.1 hab.2).symm
  have htotal : (candidates.map f).sum = ((keys.zip candidates).map fun ab => f ab.2).sum := by
    conv_lhs => rw [← List.map_snd_zip hlen.ge, List.map_map]
    rfl
  rw [htotal, hdue, ← List.sum_map_filter_add_sum_map_filter_not fun ab : α × β => p ab.1] at hsum
  refine eq_zero_of_sum_map_le_zero (f := fun ab : α × β => f ab.2)
    (l := (keys.zip candidates).filter fun ab => ¬ p ab.1) (fun ab hab => ?_) (by simpa using hsum)
    (x := (a, b)) (by simpa using ⟨hab, ha⟩)
  exact hnonneg _ (List.of_mem_zip (List.mem_filter.mp hab).1).2

/-- A total of indicators is a count. -/
theorem sum_map_filter_eq_countP {p r : α → Bool} {f : α → ℤ} {l : List α}
    (hkept : ∀ x ∈ l, p x = true → f x = if r x then 1 else 0)
    (hrest : ∀ x ∈ l, p x = false → r x = false) :
    ((l.filter p).map f).sum = (l.countP r : ℕ) := by
  induction l with
  | nil => rfl
  | cons x l ih =>
      have ih := ih (fun y hy => hkept y (List.mem_cons_of_mem _ hy))
        (fun y hy => hrest y (List.mem_cons_of_mem _ hy))
      cases hp : p x with
      | true =>
          rw [List.filter_cons_of_pos hp, List.map_cons, List.sum_cons, ih, List.countP_cons,
            hkept x List.mem_cons_self hp]
          cases r x <;> simp [add_comm]
      | false =>
          rw [List.filter_cons_of_neg (by simp [hp]), ih, List.countP_cons,
            hrest x List.mem_cons_self hp]
          simp

end Sums

/-- The positions of a filtered list within the list. -/
theorem exists_strictMono_filter (p : β → Bool) (xs : List β) :
    ∃ position : ℕ → ℕ, StrictMono position ∧ ∀ i, (xs.filter p)[i]? = xs[position i]? := by
  obtain ⟨f, hf⟩ := List.sublist_iff_exists_orderEmbedding_getElem?_eq.mp
    (List.filter_sublist (p := p) (l := xs))
  exact ⟨f, f.strictMono, hf⟩

section Positions

variable {M : Type*} [AddCommMonoid M]

/-- A sum over positions is the sum over the list. -/
theorem sum_map_range_getElem? (f : β → M) (l : List β) :
    ((List.range l.length).map fun n => (l[n]?).elim 0 f).sum = (l.map f).sum := by
  congr 1
  refine List.ext_getElem (by simp) ?_
  intro n h h'
  rw [List.length_map] at h'
  simp [List.getElem?_eq_getElem h']

variable [PartialOrder M] [IsOrderedAddMonoid M]

/-- **Distinct positions do not share**: claims served at pairwise distinct
positions of a list are together covered by the list. -/
theorem sum_map_le_of_injOn {claims : List α} {l : List β} {f : α → M} {g : β → M}
    {position : α → ℕ} (hclaims : claims.Nodup)
    (hinj : Set.InjOn position {a | a ∈ claims})
    (hserved : ∀ a ∈ claims, ∃ b, l[position a]? = some b ∧ f a ≤ g b)
    (hnonneg : ∀ b ∈ l, 0 ≤ g b) : (claims.map f).sum ≤ (l.map g).sum := by
  have hnodup : (claims.map position).Nodup :=
    List.Nodup.map_on (fun a ha b hb h => hinj ha hb h) hclaims
  have hsubset : claims.map position ⊆ List.range l.length := by
    intro n hn
    obtain ⟨a, ha, rfl⟩ := List.mem_map.mp hn
    obtain ⟨b, hb, -⟩ := hserved a ha
    exact List.mem_range.mpr (List.getElem?_eq_some_iff.mp hb).1
  obtain ⟨kept, hperm, hsub⟩ := List.subperm_of_subset hnodup hsubset
  calc (claims.map f).sum
      ≤ (claims.map fun a => (l[position a]?).elim 0 g).sum := by
        apply List.sum_le_sum
        intro a ha
        obtain ⟨b, hb, hle⟩ := hserved a ha
        rw [hb]
        exact hle
    _ = (kept.map fun n => (l[n]?).elim 0 g).sum := by
        rw [(hperm.map _).sum_eq, List.map_map]
        rfl
    _ ≤ ((List.range l.length).map fun n => (l[n]?).elim 0 g).sum := by
        refine (hsub.map _).sum_le_sum ?_
        intro x hx
        obtain ⟨n, hn, rfl⟩ := List.mem_map.mp hx
        rw [List.getElem?_eq_getElem (List.mem_range.mp hn)]
        exact hnonneg _ (List.getElem_mem _)
    _ = (l.map g).sum := sum_map_range_getElem? g l

end Positions

end BeaconDex.Library
