import Mathlib.Data.Int.ConditionallyCompleteOrder
import Mathlib.Data.Rat.Floor
import Mathlib.Order.GaloisConnection.Basic

/-!
# Prices in whole units

At a price of `a` for `b`, what `t` units cost is rounded up and what `s` buys is
rounded down.  The two are adjoint (`gc_ceilShare_floorShare`): a quantity is
affordable exactly if it is no more than what the budget buys.
-/

namespace BeaconDex.Library

/-- What `t` units cost at `a` for `b`, rounded up. -/
def ceilShare (t a b : ℤ) : ℤ := (t * a + b - 1) / b

/-- What `s` buys at `a` for `b`, rounded down. -/
def floorShare (s a b : ℤ) : ℤ := s * b / a

variable {t s a b : ℤ}

/-- The share that is rounded up is the least that covers its price. -/
theorem ceilShare_le_iff (hb : 0 < b) : ceilShare t a b ≤ s ↔ t * a ≤ s * b := by
  rw [ceilShare, ← Int.lt_add_one_iff, Int.ediv_lt_iff_lt_mul hb, add_mul, one_mul]
  constructor
  · intro h
    linarith
  · intro h
    linarith

/-- The share that is rounded down is the largest that its price covers. -/
theorem le_floorShare_iff (ha : 0 < a) : t ≤ floorShare s a b ↔ t * a ≤ s * b :=
  Int.le_ediv_iff_mul_le ha

/-- **Affordable is no more than the budget buys.** -/
theorem gc_ceilShare_floorShare (ha : 0 < a) (hb : 0 < b) :
    GaloisConnection (fun t => ceilShare t a b) (fun s => floorShare s a b) := by
  intro t s
  rw [ceilShare_le_iff hb, le_floorShare_iff ha]

/-- The cost covers the share exactly owed. -/
theorem mul_le_ceilShare_mul (hb : 0 < b) : t * a ≤ ceilShare t a b * b :=
  (ceilShare_le_iff hb).mp le_rfl

theorem ceilShare_pos (ht : 0 < t) (ha : 0 < a) (hb : 0 < b) : 0 < ceilShare t a b := by
  have hcover : t * a ≤ ceilShare t a b * b := mul_le_ceilShare_mul hb
  have hshare : 0 < t * a := mul_pos ht ha
  exact pos_of_mul_pos_left (hshare.trans_le hcover) hb.le

theorem ceilShare_eq_ceil (hb : 0 < b) : ceilShare t a b = ⌈(t * a : ℚ) / b⌉ := by
  have hb' : (0 : ℚ) < b := by exact_mod_cast hb
  apply eq_of_forall_ge_iff
  intro s
  rw [ceilShare_le_iff hb, Int.ceil_le, div_le_iff₀ hb']
  exact_mod_cast Iff.rfl

end BeaconDex.Library
