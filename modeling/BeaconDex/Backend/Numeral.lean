import BeaconDex.Backend.Text
import Mathlib.Data.List.DropRight
import Mathlib.Data.Nat.Digits.Lemmas

/-!
# Numerals

Texts of decimal digits and the numbers they are read as.  Leading zeros are all
that a number forgets of its numeral (`ofDigitChars_inj`): the one numeral without
them is the one that is written (`decimal_ofDigitChars`), and among numerals of one
length every number has at most one (`eq_of_ofDigitChars_eq`).

## For whom this is

The index of an order id and the slot numbers of a provider are numerals that others may
have written.  `BatchDistinct` asks when two of them are read alike, and the codecs ask
that what is written is read back.
-/

namespace BeaconDex.Backend

/-- The digits of a numeral without its leading zeros. -/
def significant (numeral : Str) : Str := numeral.dropWhile (· = '0')

/-- The value of a decimal digit. -/
def digitValue (c : Char) : ℕ := c.toNat - '0'.toNat

theorem digitValue_lt {c : Char} (h : c.isDigit = true) : digitValue c < 10 := by
  rw [Char.isDigit, Bool.and_eq_true, decide_eq_true_eq, decide_eq_true_eq] at h
  have hle : c.toNat ≤ 57 := h.2
  show c.toNat - 48 < 10
  omega

/-- A digit is read off its value. -/
theorem ofNat_digitValue {c : Char} (h : c.isDigit = true) :
    Char.ofNat (digitValue c + '0'.toNat) = c := by
  rw [Char.isDigit, Bool.and_eq_true, decide_eq_true_eq, decide_eq_true_eq] at h
  have hle : 48 ≤ c.toNat := h.1
  rw [show digitValue c + '0'.toNat = c.toNat from Nat.sub_add_cancel hle, Char.ofNat_toNat]

/-- Digits are told apart by their values. -/
theorem map_digitValue_inj {a b : Str} (ha : ∀ c ∈ a, c.isDigit = true)
    (hb : ∀ c ∈ b, c.isDigit = true) (h : a.map digitValue = b.map digitValue) : a = b := by
  have hread : ∀ numeral : Str, (∀ c ∈ numeral, c.isDigit = true) →
      (numeral.map digitValue).map (fun n => Char.ofNat (n + '0'.toNat)) = numeral := by
    intro numeral hdigits
    rw [List.map_map]
    conv_rhs => rw [← List.map_id numeral]
    exact List.map_congr_left fun c hc => ofNat_digitValue (hdigits c hc)
  rw [← hread a ha, h, hread b hb]

/-- A numeral is read as its digits say, the last one first. -/
theorem ofDigitChars_eq_ofDigits (numeral : Str) :
    Nat.ofDigitChars 10 numeral 0 = Nat.ofDigits 10 (numeral.map digitValue).reverse := by
  induction numeral with
  | nil => rfl
  | cons c numeral ih =>
      rw [Nat.ofDigitChars_cons, Nat.ofDigitChars_eq_ofDigitChars_zero, ih, List.map_cons,
        List.reverse_cons, Nat.ofDigits_append, List.length_reverse, List.length_map,
        Nat.ofDigits_singleton, mul_zero, zero_add, add_comm]
      rfl

/-- Dropping leading zeros does not change the number. -/
theorem ofDigitChars_significant (numeral : Str) :
    Nat.ofDigitChars 10 (significant numeral) 0 = Nat.ofDigitChars 10 numeral 0 := by
  induction numeral with
  | nil => rfl
  | cons c numeral ih =>
      rw [significant, List.dropWhile_cons]
      split
      · next hzero =>
        obtain rfl := of_decide_eq_true hzero
        exact ih
      · rfl

theorem head_significant_ne {numeral : Str} (h : significant numeral ≠ []) :
    (significant numeral).head h ≠ '0' := by
  exact of_decide_eq_false (List.head_dropWhile_not (fun c : Char => decide (c = '0')) h)

theorem isDigit_significant {numeral : Str} (h : numeral.all Char.isDigit = true) :
    ∀ c ∈ significant numeral, c.isDigit = true := by
  intro c hc
  exact List.all_eq_true.mp h c ((List.dropWhile_sublist _).subset hc)

/-- The significant digits are those of the number. -/
theorem digits_ofDigitChars {numeral : Str} (h : numeral.all Char.isDigit = true) :
    Nat.digits 10 (Nat.ofDigitChars 10 numeral 0) =
      ((significant numeral).map digitValue).reverse := by
  have hdigit := isDigit_significant h
  rw [← ofDigitChars_significant, ofDigitChars_eq_ofDigits]
  apply Nat.digits_ofDigits 10 (by decide)
  · intro n hn
    rw [List.mem_reverse, List.mem_map] at hn
    obtain ⟨c, hc, rfl⟩ := hn
    exact digitValue_lt (hdigit c hc)
  · intro hne
    have hsig : significant numeral ≠ [] := by
      rintro hnil
      simp [hnil] at hne
    rw [List.getLast_reverse, List.head_map]
    intro hzero
    -- the only digit of value zero
    have hhead := ofNat_digitValue (hdigit _ (List.head_mem hsig))
    rw [hzero] at hhead
    exact head_significant_ne hsig hhead.symm

/-- **Two numerals are one number** exactly if they differ by leading zeros. -/
theorem ofDigitChars_inj {a b : Str} (ha : a.all Char.isDigit = true)
    (hb : b.all Char.isDigit = true) :
    Nat.ofDigitChars 10 a 0 = Nat.ofDigitChars 10 b 0 ↔ significant a = significant b := by
  constructor
  · intro h
    have hdigits := congrArg (Nat.digits 10) h
    rw [digits_ofDigitChars ha, digits_ofDigitChars hb, List.reverse_inj] at hdigits
    exact map_digitValue_inj (isDigit_significant ha) (isDigit_significant hb) hdigits
  · intro h
    rw [← ofDigitChars_significant a, h, ofDigitChars_significant]

/-!
## Positions

The value of a numeral by the place of its digits.
-/

variable {numeral a b : Str} {n : ℕ}

/-- A numeral that is continued is scaled by the digits that follow. -/
theorem ofDigitChars_append (a b : Str) : Nat.ofDigitChars 10 (a ++ b) 0 =
    Nat.ofDigitChars 10 a 0 * 10 ^ b.length + Nat.ofDigitChars 10 b 0 := by
  rw [Nat.ofDigitChars_append, Nat.ofDigitChars_eq_ofDigitChars_zero, mul_comm]

/-- So many digits, so large a number. -/
theorem ofDigitChars_lt (h : numeral.all Char.isDigit = true) :
    Nat.ofDigitChars 10 numeral 0 < 10 ^ numeral.length := by
  have hlt : Nat.ofDigits 10 (numeral.map digitValue).reverse <
      10 ^ (numeral.map digitValue).reverse.length := by
    apply Nat.ofDigits_lt_base_pow_length (by decide)
    intro d hd
    rw [List.mem_reverse, List.mem_map] at hd
    obtain ⟨c, hc, rfl⟩ := hd
    exact digitValue_lt (List.all_eq_true.mp h c hc)
  rwa [ofDigitChars_eq_ofDigits, ← List.length_map digitValue, ← List.length_reverse]

/-- A numeral is its leading zeros and then its significant digits. -/
theorem replicate_append_significant (numeral : Str) :
    List.replicate (numeral.length - (significant numeral).length) '0' ++ significant numeral =
      numeral := by
  have hsplit := List.takeWhile_append_dropWhile (p := (· = '0')) (l := numeral)
  have hzeros : numeral.takeWhile (· = '0') =
      List.replicate (numeral.takeWhile (· = '0')).length '0' := by
    rw [List.eq_replicate_iff]
    refine ⟨rfl, ?_⟩
    intro c hc
    exact of_decide_eq_true (List.mem_takeWhile_imp (p := fun c : Char => decide (c = '0')) hc)
  have hlength := congrArg List.length hsplit
  rw [List.length_append] at hlength
  conv_rhs => rw [← hsplit, hzeros]
  rw [significant]
  congr 2
  omega

/-- Numerals of one length differ if their numbers do. -/
theorem eq_of_ofDigitChars_eq (ha : a.all Char.isDigit = true) (hb : b.all Char.isDigit = true)
    (hlength : a.length = b.length)
    (h : Nat.ofDigitChars 10 a 0 = Nat.ofDigitChars 10 b 0) : a = b := by
  rw [← replicate_append_significant a, ← replicate_append_significant b, hlength,
    (ofDigitChars_inj ha hb).mp h]

/-- What is written for a number is a numeral. -/
theorem all_isDigit_decimal (n : ℕ) : (decimal n).all Char.isDigit = true :=
  List.all_eq_true.mpr fun _ => isDigit_of_mem_decimal

/-- And it is read as this number. -/
theorem ofDigitChars_decimal (n : ℕ) : Nat.ofDigitChars 10 (decimal n) 0 = n :=
  Nat.ofDigitChars_ten_toDigits

/-- A number is written without leading zeros. -/
theorem significant_decimal (hn : n ≠ 0) : significant (decimal n) = decimal n := by
  have hvalue : Nat.ofDigitChars 10 (significant (decimal n)) 0 = n := by
    rw [ofDigitChars_significant, ofDigitChars_decimal]
  have hne : significant (decimal n) ≠ [] := by
    intro hempty
    rw [hempty] at hvalue
    exact hn hvalue.symm
  have hdigits : (significant (decimal n)).all Char.isDigit = true :=
    List.all_eq_true.mpr (isDigit_significant (all_isDigit_decimal n))
  -- It has no more digits than its size asks for, so none of them is dropped.
  have hlength : (decimal n).length ≤ (significant (decimal n)).length := by
    have hlt := ofDigitChars_lt hdigits
    rw [hvalue] at hlt
    exact (Nat.length_toDigits_le_iff (by decide) (List.length_pos_iff.mpr hne)).mpr hlt
  exact (List.dropWhile_suffix _).eq_of_length_le hlength

/-- The numeral without leading zeros, the last one of zero apart. -/
def plain (numeral : Str) : Str :=
  if significant numeral = [] then ['0'] else significant numeral

theorem ofDigitChars_plain (numeral : Str) :
    Nat.ofDigitChars 10 (plain numeral) 0 = Nat.ofDigitChars 10 numeral 0 := by
  unfold plain
  split
  · next hempty =>
    rw [← ofDigitChars_significant numeral, hempty]
    rfl
  · exact ofDigitChars_significant numeral

theorem all_isDigit_plain (h : numeral.all Char.isDigit = true) :
    (plain numeral).all Char.isDigit = true := by
  unfold plain
  split
  · rfl
  · exact List.all_eq_true.mpr (isDigit_significant h)

theorem plain_ne_nil (numeral : Str) : plain numeral ≠ [] := by
  unfold plain
  split
  · exact List.cons_ne_nil _ _
  · assumption

/-- **A number is written as its plain numeral.** -/
theorem decimal_ofDigitChars (h : numeral.all Char.isDigit = true) :
    decimal (Nat.ofDigitChars 10 numeral 0) = plain numeral := by
  have hsame : significant (decimal (Nat.ofDigitChars 10 numeral 0)) = significant numeral :=
    (ofDigitChars_inj (all_isDigit_decimal _) h).mp (ofDigitChars_decimal _)
  unfold plain
  split
  · next hempty =>
    rw [← ofDigitChars_significant numeral, hempty]
    rfl
  · next hne =>
    rw [← hsame]
    refine (significant_decimal ?_).symm
    intro hzero
    rw [hzero] at hsame
    exact hne hsame.symm

end BeaconDex.Backend
