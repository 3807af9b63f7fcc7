import Mathlib.Algebra.BigOperators.Group.List.Basic
import Mathlib.Algebra.Order.BigOperators.GroupWithZero.List
import Mathlib.Algebra.Order.Ring.Defs
import Mathlib.Data.List.Forall2

/-!
# Cycles of exchanges

An exchange gives up one amount for another, at no better a rate than was quoted
for it.  When the exchanges of a cycle each fund the next and something is left
over, the quoted rates multiply to more than one (`prod_ask_lt_prod_offer`).

## What it is for

A search for profitable cycles can discard those whose quoted rates do not multiply to
more than one without sizing them.  The result says that nothing is lost by it, in any
ordered ring, whatever the rounding of single exchanges is, as long as it is never in
favour of the one who exchanges.
-/

namespace BeaconDex.Library

variable {R : Type*} [CommRing R] [LinearOrder R] [IsStrictOrderedRing R]

/-- Factor by factor larger, and somewhere strictly. -/
theorem prod_lt_prod_of_forall₂ {paid received : List R} (hpos : ∀ a ∈ paid, 0 < a)
    (hle : List.Forall₂ (· ≤ ·) paid received) (hne : paid ≠ received) :
    paid.prod < received.prod := by
  induction hle with
  | nil => exact absurd rfl hne
  | @cons a b paid received hab hle ih =>
      have ha : 0 < a := hpos a List.mem_cons_self
      have hpos' : ∀ c ∈ paid, 0 < c := fun c hc => hpos c (List.mem_cons_of_mem _ hc)
      have hpaid : 0 < paid.prod := List.prod_pos hpos'
      rw [List.prod_cons, List.prod_cons]
      by_cases htail : paid = received
      · rw [htail] at hpaid ⊢
        have hlt : a < b := hab.lt_of_ne fun h => hne (by rw [h, htail])
        exact mul_lt_mul_of_pos_right hlt hpaid
      · calc a * paid.prod < a * received.prod := mul_lt_mul_of_pos_left (ih hpos' htail) ha
          _ ≤ b * received.prod :=
            mul_le_mul_of_nonneg_right hab (hpaid.trans (ih hpos' htail)).le

/-- Give up `pay` and receive `receive`, where `offer` for `ask` was quoted. -/
structure Exchange (R : Type*) where
  pay : R
  receive : R
  ask : R
  offer : R

/-- The exchange is no better than its quote. -/
structure Exchange.Quoted (e : Exchange R) : Prop where
  pay_pos : 0 < e.pay
  ask_pos : 0 < e.ask
  rate : e.receive * e.ask ≤ e.pay * e.offer
  receive_pos : 0 < e.receive

variable {es : List (Exchange R)}

theorem prod_receive_mul_prod_ask_le (h : ∀ e ∈ es, e.Quoted) :
    (es.map Exchange.receive).prod * (es.map Exchange.ask).prod ≤
      (es.map Exchange.pay).prod * (es.map Exchange.offer).prod := by
  induction es with
  | nil => simp
  | cons e es ih =>
      have he := h e List.mem_cons_self
      have hes : ∀ e ∈ es, e.Quoted := fun e' he' => h e' (List.mem_cons_of_mem _ he')
      have hreceive : 0 ≤ (es.map Exchange.receive).prod := by
        apply List.prod_nonneg
        intro a ha
        obtain ⟨e', he', rfl⟩ := List.mem_map.mp ha
        exact (hes e' he').receive_pos.le
      have hask : 0 ≤ (es.map Exchange.ask).prod := by
        apply List.prod_nonneg
        intro a ha
        obtain ⟨e', he', rfl⟩ := List.mem_map.mp ha
        exact (hes e' he').ask_pos.le
      have hrate : 0 ≤ e.pay * e.offer := (mul_pos he.receive_pos he.ask_pos).le.trans he.rate
      simp only [List.map_cons, List.prod_cons]
      rw [mul_mul_mul_comm, mul_mul_mul_comm e.pay]
      exact mul_le_mul he.rate (ih hes) (mul_nonneg hreceive hask) hrate

/-- **A funded cycle beats its quotes.**  `funded` is what the exchanges receive,
listed under the exchange that spends it next. -/
theorem prod_ask_lt_prod_offer (es : List (Exchange R)) (funded : List R)
    (h : ∀ e ∈ es, e.Quoted)
    (hcycle : funded.Perm (es.map Exchange.receive))
    (hfunded : List.Forall₂ (· ≤ ·) (es.map Exchange.pay) funded)
    (hgain : es.map Exchange.pay ≠ funded) :
    (es.map Exchange.ask).prod < (es.map Exchange.offer).prod := by
  have hpay : ∀ a ∈ es.map Exchange.pay, 0 < a := by
    intro a ha
    obtain ⟨e, he, rfl⟩ := List.mem_map.mp ha
    exact (h e he).pay_pos
  have hask : 0 < (es.map Exchange.ask).prod := by
    apply List.prod_pos
    intro a ha
    obtain ⟨e, he, rfl⟩ := List.mem_map.mp ha
    exact (h e he).ask_pos
  have hspread : (es.map Exchange.pay).prod < (es.map Exchange.receive).prod := by
    rw [← hcycle.prod_eq]
    exact prod_lt_prod_of_forall₂ hpay hfunded hgain
  have hquote : (es.map Exchange.pay).prod * (es.map Exchange.ask).prod <
      (es.map Exchange.pay).prod * (es.map Exchange.offer).prod :=
    (mul_lt_mul_of_pos_right hspread hask).trans_le (prod_receive_mul_prod_ask_le h)
  exact lt_of_mul_lt_mul_left hquote (List.prod_pos hpay).le

end BeaconDex.Library
