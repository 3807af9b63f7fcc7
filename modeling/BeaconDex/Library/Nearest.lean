import Mathlib.Algebra.Order.Group.Unbundled.Abs
import Mathlib.Algebra.Order.Group.Defs
import Mathlib.Order.Interval.Set.ProjIcc

/-!
# Nearest points

Clamping to an interval is the projection onto it (`Set.projIcc`).  In an ordered
group it moves a point no further than it has to: to the one nearest point of the
interval.
-/

namespace BeaconDex.Library

variable {α : Type*} [AddCommGroup α] [LinearOrder α]

/-- The point of a set that is nearer than every other. -/
def IsNearest (s : Set α) (x y : α) : Prop :=
  y ∈ s ∧ ∀ z ∈ s, z ≠ y → |x - y| < |x - z|

variable [IsOrderedAddMonoid α] {s : Set α} {x y : α}

/-- A point of the set is its own nearest point. -/
theorem IsNearest.eq_of_mem (hy : IsNearest s x y) (hx : x ∈ s) : y = x := by
  by_contra hne
  have hlt : |x - y| < |x - x| := hy.2 x hx (Ne.symm hne)
  rw [sub_self, abs_zero] at hlt
  exact hlt.not_ge (abs_nonneg _)

/-- **The projection onto an interval is the nearest point.** -/
theorem isNearest_projIcc {a b : α} (h : a ≤ b) (x : α) :
    IsNearest (Set.Icc a b) x (Set.projIcc a b h x) := by
  refine ⟨(Set.projIcc a b h x).2, ?_⟩
  rintro z ⟨haz, hzb⟩ hne
  rcases lt_or_ge x a with hxa | hax
  · -- Below the interval everything but `a` is further up.
    rw [Set.projIcc_of_le_left h hxa.le] at hne ⊢
    have hlt : a < z := lt_of_le_of_ne haz (Ne.symm hne)
    rw [abs_of_neg (sub_neg.mpr hxa), abs_of_neg (sub_neg.mpr (hxa.trans hlt)), neg_sub, neg_sub]
    exact sub_lt_sub_right hlt x
  · rcases lt_or_ge b x with hbx | hxb
    · rw [Set.projIcc_of_right_le h hbx.le] at hne ⊢
      have hlt : z < b := lt_of_le_of_ne hzb hne
      rw [abs_of_pos (sub_pos.mpr hbx), abs_of_pos (sub_pos.mpr (hlt.trans hbx))]
      exact sub_lt_sub_left hlt x
    · rw [Set.projIcc_of_mem h ⟨hax, hxb⟩] at hne ⊢
      show |x - x| < |x - z|
      rw [sub_self, abs_zero]
      exact abs_pos.mpr (sub_ne_zero.mpr (Ne.symm hne))

end BeaconDex.Library
