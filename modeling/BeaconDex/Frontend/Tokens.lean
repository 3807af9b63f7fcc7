import BeaconDex.Backend.Numeral
import BeaconDex.Library.Attempt
import Mathlib.Algebra.Field.Rat
import Mathlib.Tactic.FieldSimp

/-!
# Amounts as they are entered and shown

`toRawAmount` and `fromRawAmount` of `frontend/lib/tokens.ts`.  A raw amount is an
integer; what a user reads and types is that integer over a power of ten, the number
of decimals being the asset's.  An amount that is shown and entered again is the same;
an amount that is entered is worth what was entered, and is shown again without the
blanks around it and without redundant zeros (`conversions_inverse`).

## Two numerals and one

An amount is two numerals.  `joinParts` writes them with a point between them, or
without a point if there is no fraction.  Both functions are read through it: one
accepts exactly the joined numerals (`matchesAmount_iff`), the other writes only such.

Filled up to the number of decimals, the fraction and the whole part before it are one
numeral, that of the raw amount.  Nothing here is computed in floating point, in the
source as in the model, so no amount is too large.
-/

namespace BeaconDex.Frontend

open Library
open Backend (Str decimal showInt significant plain)

/-! ## Strings of the runtime -/

/-- `WhiteSpace` and `LineTerminator`, the characters that `trim` removes. -/
def isBlank (c : Char) : Bool :=
  c.toNat ∈ [0x9, 0xa, 0xb, 0xc, 0xd, 0x20, 0xa0, 0x1680, 0x2028, 0x2029, 0x202f, 0x205f, 0x3000,
    0xfeff] || (0x2000 ≤ c.toNat && c.toNat ≤ 0x200a)

/-- `String.prototype.trim`. -/
def trim (text : Str) : Str := (text.dropWhile isBlank).rdropWhile isBlank

/-- `text.padEnd(n, "0")`. -/
def padEnd (text : Str) (n : ℕ) : Str := text ++ List.replicate (n - text.length) '0'

/-- `text.padStart(n, "0")`. -/
def padStart (text : Str) (n : ℕ) : Str := List.replicate (n - text.length) '0' ++ text

/-- `text.replace(/0+$/, "")`. -/
def stripZeros (text : Str) : Str := text.rdropWhile (· = '0')

/-- `BigInt(text)` on decimal digits. -/
def bigInt (text : Str) : ℤ := Nat.ofDigitChars 10 text 0

/-! ## The two conversions -/

/-- `/^\\d+(\\.\\d+)?$/`. -/
def matchesAmount (text : Str) : Bool :=
  !(text.takeWhile Char.isDigit).isEmpty &&
    match text.dropWhile Char.isDigit with
    | [] => true
    | c :: frac => c = '.' && !frac.isEmpty && frac.all Char.isDigit

/-- `const [whole = "0", frac = ""] = text.split(".")`. -/
def amountParts (text : Str) : Str × Str :=
  match text.splitOn '.' with
  | whole :: frac :: _ => (whole, frac)
  | whole :: [] => (whole, [])
  | [] => ("0".toList, [])

/-- The raw amount of an amount as entered. -/
def toRawAmount (human : Str) (decimals : ℕ) : Except Str ℤ := do
  let trimmed := trim human
  throwIf (matchesAmount trimmed = false) "not a number".toList
  let (whole, frac) := amountParts trimmed
  throwIf (decimals < frac.length) ("max ".toList ++ decimal decimals ++ " decimal place".toList ++
    (if decimals = 1 then [] else "s".toList) ++ " for this asset".toList)
  let padded := padEnd frac decimals
  return bigInt whole * 10 ^ decimals + bigInt (if padded = [] then "0".toList else padded)

/-- A raw amount as shown; bigint division truncates. -/
def fromRawAmount (raw : ℤ) (decimals : ℕ) : Str :=
  if decimals = 0 then showInt raw
  else
    let base := 10 ^ decimals
    let whole := raw.tdiv base
    let frac := stripZeros (padStart (showInt (raw.tmod base)) decimals)
    if frac = [] then showInt whole else showInt whole ++ '.' :: frac

/-!
## What the texts mean

The number a text stands for, and the text without what does not matter to it.
-/

/-- The part before the point. -/
def wholePart (text : Str) : Str := text.takeWhile (· ≠ '.')

/-- The part after the point, empty without one. -/
def fraction (text : Str) : Str := (text.dropWhile (· ≠ '.')).tail

/-- **The number a decimal text denotes.** -/
def decimalValue (text : Str) : ℚ :=
  Nat.ofDigitChars 10 (wholePart text) 0 +
    Nat.ofDigitChars 10 (fraction text) 0 / 10 ^ (fraction text).length

/-- Two numerals with a point between them; none without a fraction. -/
def joinParts (whole frac : Str) : Str := if frac = [] then whole else whole ++ '.' :: frac

/-- The same number without redundant zeros: none ahead of the whole part but the
zero that stands alone, none at the end of the fraction, and no point if nothing is
left after it. -/
def withoutRedundantZeros (text : Str) : Str :=
  joinParts (plain (wholePart text)) (stripZeros (fraction text))

/-! ## Joined numerals -/

/-- A text of digits. -/
def Digits (text : Str) : Prop := text.all Char.isDigit = true

variable {text whole frac padded : Str} {decimals : ℕ}

/-- Digits contain no point. -/
theorem Digits.dot_notMem (h : Digits text) : '.' ∉ text := by
  intro hmem
  exact absurd (List.all_eq_true.mp h _ hmem) (by decide)

theorem Digits.append (h : Digits whole) (h' : Digits frac) : Digits (whole ++ frac) := by
  unfold Digits
  rw [List.all_append, Bool.and_eq_true]
  exact ⟨h, h'⟩

theorem digits_replicate (n : ℕ) : Digits (List.replicate n '0') := by
  unfold Digits
  rw [List.all_replicate]
  split <;> rfl

/-- A digit is not a blank. -/
theorem isBlank_of_isDigit {c : Char} (h : c.isDigit = true) : isBlank c = false := by
  rw [Char.isDigit, Bool.and_eq_true, decide_eq_true_eq, decide_eq_true_eq] at h
  have hlow : 48 ≤ c.toNat := h.1
  have hhigh : c.toNat ≤ 57 := h.2
  simp only [isBlank, List.mem_cons, List.not_mem_nil, or_false, Bool.or_eq_false_iff,
    decide_eq_false_iff_not, Bool.and_eq_false_imp, decide_eq_true_eq]
  omega

/-- The characters of joined numerals. -/
theorem isBlank_of_mem_joinParts (hwhole : Digits whole) (hfrac : Digits frac) {c : Char}
    (hc : c ∈ joinParts whole frac) : isBlank c = false := by
  unfold joinParts at hc
  split at hc
  · exact isBlank_of_isDigit (List.all_eq_true.mp hwhole c hc)
  · rcases List.mem_append.mp hc with hc | hc
    · exact isBlank_of_isDigit (List.all_eq_true.mp hwhole c hc)
    · rcases List.mem_cons.mp hc with rfl | hc
      · decide
      · exact isBlank_of_isDigit (List.all_eq_true.mp hfrac c hc)

/-- There is nothing to trim. -/
theorem trim_eq_self (h : ∀ c ∈ text, isBlank c = false) : trim text = text := by
  have hfront : text.dropWhile isBlank = text := by
    rw [List.dropWhile_eq_self_iff]
    intro hlt
    rw [h _ (List.getElem_mem hlt)]
    exact Bool.false_ne_true
  rw [trim, hfront, List.rdropWhile_eq_self_iff]
  intro hne
  rw [h _ (List.getLast_mem hne)]
  exact Bool.false_ne_true

/-- There are no blanks around a number in digits. -/
theorem trim_joinParts (hwhole : Digits whole) (hfrac : Digits frac) :
    trim (joinParts whole frac) = joinParts whole frac :=
  trim_eq_self fun _ => isBlank_of_mem_joinParts hwhole hfrac

/-- The point divides a number into the parts it was joined of. -/
theorem parts_of_joinParts (hwhole : Digits whole) (frac : Str) :
    wholePart (joinParts whole frac) = whole ∧ fraction (joinParts whole frac) = frac := by
  have hkept : ∀ c ∈ whole, decide (c ≠ '.') = true := by
    intro c hc
    exact decide_eq_true fun heq => hwhole.dot_notMem (heq ▸ hc)
  unfold joinParts wholePart fraction
  split
  · next hempty =>
    rw [List.takeWhile_eq_self_iff.mpr hkept, List.dropWhile_eq_nil_iff.mpr hkept, hempty]
    exact ⟨rfl, rfl⟩
  · rw [List.takeWhile_append_of_pos hkept, List.dropWhile_append_of_pos hkept]
    exact ⟨List.append_nil whole, rfl⟩

/-- **What the pattern accepts**: a numeral, or two with a point between them. -/
theorem matchesAmount_iff : matchesAmount text = true ↔
    ∃ whole frac, Digits whole ∧ Digits frac ∧ whole ≠ [] ∧ text = joinParts whole frac := by
  constructor
  · intro h
    rw [matchesAmount, Bool.and_eq_true, Bool.not_eq_true', List.isEmpty_eq_false_iff] at h
    obtain ⟨hwhole, hrest⟩ := h
    have hdigits : Digits (text.takeWhile Char.isDigit) :=
      List.all_eq_true.mpr fun c hc => List.mem_takeWhile_imp hc
    have hsplit := List.takeWhile_append_dropWhile (p := Char.isDigit) (l := text)
    refine ⟨text.takeWhile Char.isDigit, (text.dropWhile Char.isDigit).tail, hdigits, ?_,
      hwhole, ?_⟩
    all_goals
      generalize text.dropWhile Char.isDigit = rest at hrest hsplit ⊢
      cases rest with
      | nil => first | rfl | simpa [joinParts] using hsplit.symm
      | cons c frac =>
          simp only [Bool.and_eq_true, decide_eq_true_eq, Bool.not_eq_true',
            List.isEmpty_eq_false_iff] at hrest
          obtain ⟨⟨rfl, hne⟩, hfrac⟩ := hrest
          first
          | exact hfrac
          | rw [joinParts, List.tail_cons, if_neg hne, hsplit]
  · rintro ⟨whole, frac, hwhole, hfrac, hne, rfl⟩
    have hkept : ∀ c ∈ whole, Char.isDigit c = true := List.all_eq_true.mp hwhole
    unfold joinParts matchesAmount
    split
    · rw [List.takeWhile_eq_self_iff.mpr hkept, List.dropWhile_eq_nil_iff.mpr hkept]
      simp [hne]
    · next hfracNe =>
      rw [List.takeWhile_append_of_pos hkept, List.dropWhile_append_of_pos hkept]
      have hfrac' : frac.all Char.isDigit = true := hfrac
      simp [hne, hfracNe, hfrac']

/-- The parts of a number in digits, as `split` gives them: one part where there is no
point. -/
theorem splitOn_joinParts (hwhole : Digits whole) (hfrac : Digits frac) :
    (joinParts whole frac).splitOn '.' = whole :: (if frac = [] then [] else [frac]) := by
  unfold joinParts
  split
  · exact List.splitOn_eq_singleton hwhole.dot_notMem
  · rw [List.splitOn_append_cons_self, List.splitOn_eq_singleton hwhole.dot_notMem,
      List.splitOn_eq_singleton hfrac.dot_notMem]
    rfl

/-! ## Filling up -/

/-- Padding reaches its width exactly where the text was not longer. -/
theorem length_padEnd (h : frac.length ≤ decimals) : (padEnd frac decimals).length = decimals := by
  rw [padEnd, List.length_append, List.length_replicate]
  omega

theorem length_padStart (h : frac.length ≤ decimals) :
    (padStart frac decimals).length = decimals := by
  rw [padStart, List.length_append, List.length_replicate]
  omega

theorem Digits.padEnd (h : Digits frac) (n : ℕ) : Digits (padEnd frac n) :=
  h.append (digits_replicate _)

theorem Digits.padStart (h : Digits frac) (n : ℕ) : Digits (padStart frac n) :=
  (digits_replicate _).append h

theorem Digits.stripZeros (h : Digits text) : Digits (stripZeros text) :=
  List.all_eq_true.mpr fun c hc => List.all_eq_true.mp h c ((List.rdropWhile_prefix _ _).subset hc)

/-- Zeros at the end are taken off again. -/
theorem stripZeros_padEnd (frac : Str) (n : ℕ) : stripZeros (padEnd frac n) = stripZeros frac := by
  rw [padEnd]
  induction n - frac.length with
  | zero => rw [List.replicate_zero, List.append_nil]
  | succ k ih =>
      rw [List.replicate_succ', ← List.append_assoc, stripZeros,
        List.rdropWhile_concat_pos _ _ _ rfl]
      exact ih

/-- What is taken off is filled up again. -/
theorem padEnd_stripZeros (text : Str) : padEnd (stripZeros text) text.length = text := by
  have hsplit := List.rdropWhile_append_rtakeWhile (p := (· = '0')) (l := text)
  have hzeros : text.rtakeWhile (· = '0') =
      List.replicate (text.rtakeWhile (· = '0')).length '0' := by
    rw [List.eq_replicate_iff]
    refine ⟨rfl, ?_⟩
    intro c hc
    exact of_decide_eq_true (List.mem_rtakeWhile_imp (p := fun c : Char => decide (c = '0')) hc)
  have hlength := congrArg List.length hsplit
  rw [List.length_append] at hlength
  conv_rhs => rw [← hsplit, hzeros]
  rw [padEnd, stripZeros]
  congr 2
  omega

theorem ofDigitChars_padEnd (frac : Str) (n : ℕ) : Nat.ofDigitChars 10 (padEnd frac n) 0 =
    Nat.ofDigitChars 10 frac 0 * 10 ^ (n - frac.length) := by
  rw [padEnd, Nat.ofDigitChars_append, Nat.ofDigitChars_replicate_zero, mul_comm]

theorem ofDigitChars_padStart (text : Str) (n : ℕ) :
    Nat.ofDigitChars 10 (padStart text n) 0 = Nat.ofDigitChars 10 text 0 := by
  rw [padStart, Nat.ofDigitChars_append, Nat.ofDigitChars_replicate_zero, mul_zero]

theorem showInt_natCast (n : ℕ) : showInt n = decimal n := by
  rw [showInt, decimal]
  exact Nat.toList_repr

/-!
## What the conversions do

On numerals with a point, from which both directions follow.
-/

theorem amountParts_joinParts (hwhole : Digits whole) (hfrac : Digits frac) :
    amountParts (joinParts whole frac) = (whole, frac) := by
  rw [amountParts, splitOn_joinParts hwhole hfrac]
  by_cases hempty : frac = []
  · rw [if_pos hempty, hempty]
  · rw [if_neg hempty]

/-- **What `toRawAmount` accepts and answers**: joined numerals with at most so many
digits after the point, read as one numeral after filling up. -/
theorem toRawAmount_eq_ok {human : Str} {raw : ℤ} : toRawAmount human decimals = .ok raw ↔
    ∃ whole frac, Digits whole ∧ Digits frac ∧ whole ≠ [] ∧ trim human = joinParts whole frac ∧
      frac.length ≤ decimals ∧ raw = Nat.ofDigitChars 10 (whole ++ padEnd frac decimals) 0 := by
  -- of joined numerals, and a fraction that is short enough
  have hsum : ∀ whole frac : Str, frac.length ≤ decimals →
      bigInt whole * 10 ^ decimals + bigInt (if padEnd frac decimals = [] then "0".toList
        else padEnd frac decimals) = Nat.ofDigitChars 10 (whole ++ padEnd frac decimals) 0 := by
    intro whole frac hlength
    rw [Backend.ofDigitChars_append, length_padEnd hlength]
    push_cast
    congr 1
    split
    · next hempty =>
      rw [hempty]
      rfl
    · rfl
  simp only [toRawAmount, bind, bind_eq_ok, throwIf_eq_ok, Bool.not_eq_false, pure, Except.pure,
    exists_const, not_lt]
  constructor
  · rintro ⟨hmatches, hlength, hraw⟩
    obtain ⟨whole, frac, hwhole, hfrac, hne, htrim⟩ := matchesAmount_iff.mp hmatches
    rw [htrim, amountParts_joinParts hwhole hfrac] at hlength hraw
    refine ⟨whole, frac, hwhole, hfrac, hne, htrim, hlength, ?_⟩
    rw [← hsum whole frac hlength]
    exact (Except.ok.inj hraw).symm
  · rintro ⟨whole, frac, hwhole, hfrac, hne, htrim, hlength, rfl⟩
    rw [htrim, amountParts_joinParts hwhole hfrac]
    refine ⟨matchesAmount_iff.mpr ⟨whole, frac, hwhole, hfrac, hne, rfl⟩, hlength, ?_⟩
    rw [← hsum whole frac hlength]

/-- **What `fromRawAmount` writes** of a whole part and a filled-up fraction. -/
theorem fromRawAmount_numeral (hwhole : Digits whole) (hpadded : Digits padded)
    (hlength : padded.length = decimals) :
    fromRawAmount (Nat.ofDigitChars 10 (whole ++ padded) 0 : ℕ) decimals =
      joinParts (plain whole) (stripZeros padded) := by
  have hvalue := Backend.ofDigitChars_append whole padded
  have hlt := Backend.ofDigitChars_lt hpadded
  rw [hlength] at hvalue hlt
  unfold fromRawAmount
  split
  · next hzero =>
    obtain rfl : padded = [] := List.length_eq_zero_iff.mp (hlength.trans hzero)
    rw [List.append_nil, showInt_natCast, Backend.decimal_ofDigitChars hwhole]
    rfl
  · next hpos =>
    have hbase : 0 < 10 ^ decimals := by positivity
    have hdiv : ((Nat.ofDigitChars 10 (whole ++ padded) 0 : ℕ) : ℤ).tdiv (10 ^ decimals) =
        (Nat.ofDigitChars 10 whole 0 : ℕ) := by
      rw [hvalue, mul_comm, ← Nat.cast_ofNat (R := ℤ), ← Nat.cast_pow, ← Int.ofNat_tdiv,
        Nat.mul_add_div hbase, Nat.div_eq_of_lt hlt, add_zero]
    have hmod : ((Nat.ofDigitChars 10 (whole ++ padded) 0 : ℕ) : ℤ).tmod (10 ^ decimals) =
        (Nat.ofDigitChars 10 padded 0 : ℕ) := by
      rw [hvalue, mul_comm, ← Nat.cast_ofNat (R := ℤ), ← Nat.cast_pow, ← Int.ofNat_tmod,
        Nat.mul_add_mod, Nat.mod_eq_of_lt hlt]
    -- The remainder is written with its leading zeros.
    have hfilled : padStart (decimal (Nat.ofDigitChars 10 padded 0)) decimals = padded := by
      have hshort : (decimal (Nat.ofDigitChars 10 padded 0)).length ≤ decimals :=
        (Nat.length_toDigits_le_iff (by decide) (Nat.pos_of_ne_zero hpos)).mpr hlt
      apply Backend.eq_of_ofDigitChars_eq
        (Digits.padStart (Backend.all_isDigit_decimal _) decimals) hpadded
      · rw [length_padStart hshort, hlength]
      · rw [ofDigitChars_padStart, Backend.ofDigitChars_decimal]
    simp only [hdiv, hmod, showInt_natCast, hfilled, Backend.decimal_ofDigitChars hwhole]
    rfl

/-- Every amount is a whole part and a filled-up fraction. -/
theorem exists_numeral (raw decimals : ℕ) : ∃ whole padded, Digits whole ∧ Digits padded ∧
    padded.length = decimals ∧ raw = Nat.ofDigitChars 10 (whole ++ padded) 0 := by
  have hlt : raw % 10 ^ decimals < 10 ^ decimals := Nat.mod_lt _ (by positivity)
  rcases Nat.eq_zero_or_pos decimals with rfl | hpos
  · refine ⟨decimal raw, [], Backend.all_isDigit_decimal raw, rfl, rfl, ?_⟩
    rw [List.append_nil, Backend.ofDigitChars_decimal]
  · have hshort : (decimal (raw % 10 ^ decimals)).length ≤ decimals :=
      (Nat.length_toDigits_le_iff (by decide) hpos).mpr hlt
    refine ⟨decimal (raw / 10 ^ decimals), padStart (decimal (raw % 10 ^ decimals)) decimals,
      Backend.all_isDigit_decimal _, Digits.padStart (Backend.all_isDigit_decimal _) _,
      length_padStart hshort, ?_⟩
    rw [Backend.ofDigitChars_append, length_padStart hshort, ofDigitChars_padStart,
      Backend.ofDigitChars_decimal, Backend.ofDigitChars_decimal]
    exact (Nat.div_add_mod' raw _).symm

/-- **What is shown and entered again is the same amount.** -/
theorem toRawAmount_fromRawAmount_natCast (raw decimals : ℕ) :
    toRawAmount (fromRawAmount raw decimals) decimals = .ok (raw : ℤ) := by
  obtain ⟨whole, padded, hwhole, hpadded, rfl, rfl⟩ := exists_numeral raw decimals
  rw [fromRawAmount_numeral hwhole hpadded rfl]
  have hplain : Digits (plain whole) := Backend.all_isDigit_plain hwhole
  refine toRawAmount_eq_ok.mpr ⟨plain whole, stripZeros padded, hplain, hpadded.stripZeros,
    Backend.plain_ne_nil whole, trim_joinParts hplain hpadded.stripZeros,
    (List.rdropWhile_prefix _ _).length_le, ?_⟩
  rw [padEnd_stripZeros, Backend.ofDigitChars_append, Backend.ofDigitChars_append,
    Backend.ofDigitChars_plain]

/-- What is entered is worth its decimal value, and is shown again without blanks and
redundant zeros. -/
theorem fromRawAmount_toRawAmount {human : Str} {raw : ℤ}
    (h : toRawAmount human decimals = .ok raw) :
    (raw : ℚ) = decimalValue (trim human) * 10 ^ decimals ∧
      fromRawAmount raw decimals = withoutRedundantZeros (trim human) := by
  obtain ⟨whole, frac, hwhole, hfrac, -, htrim, hlength, rfl⟩ := toRawAmount_eq_ok.mp h
  obtain ⟨hwholePart, hfraction⟩ := parts_of_joinParts hwhole frac
  rw [htrim]
  constructor
  · have hpow : (10 : ℚ) ^ decimals = 10 ^ frac.length * 10 ^ (decimals - frac.length) := by
      rw [← pow_add, Nat.add_sub_cancel' hlength]
    rw [decimalValue, hwholePart, hfraction, Backend.ofDigitChars_append, length_padEnd hlength,
      ofDigitChars_padEnd]
    push_cast
    rw [add_mul, hpow]
    congr 1
    field_simp
  · rw [withoutRedundantZeros, hwholePart, hfraction,
      fromRawAmount_numeral hwhole (hfrac.padEnd decimals) (length_padEnd hlength),
      stripZeros_padEnd]

/-- **Entering and showing are inverse**: an amount in units is shown as a text that is
read as the same amount, and a text that is read is shown again as it was, up to the
blanks around it and its redundant zeros.  Neither direction rounds, for any number of
decimals. -/
theorem conversions_inverse (decimals : ℕ) :
    (∀ raw : ℤ, 0 ≤ raw → toRawAmount (fromRawAmount raw decimals) decimals = .ok raw) ∧
    ∀ (human : Str) (raw : ℤ), toRawAmount human decimals = .ok raw →
      (raw : ℚ) = decimalValue (trim human) * 10 ^ decimals ∧
        fromRawAmount raw decimals = withoutRedundantZeros (trim human) := by
  refine ⟨?_, fun human raw h => fromRawAmount_toRawAmount h⟩
  intro raw hraw
  obtain ⟨n, rfl⟩ := Int.eq_ofNat_of_zero_le hraw
  exact toRawAmount_fromRawAmount_natCast n decimals

theorem conversions_inverse_sample :
    toRawAmount (fromRawAmount 94556710 6) 6 = .ok 94556710 ∧
      fromRawAmount 1500000 6 = withoutRedundantZeros (trim " 01.50 ".toList) := by
  have hread : toRawAmount " 01.50 ".toList 6 = .ok 1500000 := by decide
  exact ⟨(conversions_inverse 6).1 94556710 (by decide),
    ((conversions_inverse 6).2 _ _ hread).2⟩

/-- The blanks around an amount are not shown again. -/
theorem blanks_not_shown :
    toRawAmount " 1.5 ".toList 6 = .ok 1500000 ∧
      fromRawAmount 1500000 6 ≠ withoutRedundantZeros " 1.5 ".toList := by
  decide

end BeaconDex.Frontend
