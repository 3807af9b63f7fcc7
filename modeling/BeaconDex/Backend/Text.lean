import BeaconDex.Plutus
import Mathlib.Data.Char
import Mathlib.Data.List.Lex
import Mathlib.Tactic.IntervalCases

/-!
# Text

The backend works on text: ids, hex strings, units.  A text is a list of
characters here.  Two encodings matter, and both can be read back: an order id is
`txHash#index` with the index in decimal (`orderIdOf_injective`,
`parseOrderId_orderIdOf`), and byte strings travel as lowercase hex
(`bytesOfHex_hexOf`).

## Texts that are read back

Nothing in the backend checks a text against a grammar; it cuts, concatenates and
compares.  What can be said of an id is therefore what reading does to what writing
wrote, and every result below is of this kind.  Reading a text that was not written so
is a subject of its own (`BatchDistinct`, `AssetIdGrammar`).
-/

namespace BeaconDex.Backend

/-- A JavaScript string. -/
abbrev Str := List Char

instance lawfulBEq_str : LawfulBEq Str := inferInstance

/-- Where an output was created, as the backend names it. -/
structure OutRef where
  txHash : Str
  outputIndex : ℕ
  deriving DecidableEq

/-! ## Order ids -/

/-- The decimal numeral of an index. -/
def decimal (n : ℕ) : Str := Nat.toDigits 10 n

/-- `String(n)` of a bigint. -/
def showInt (n : ℤ) : Str := (toString n).toList

/-- `Number(text)` where the text is a decimal numeral; any other text is not a
number an id carries. -/
def number (text : Str) : Option ℕ :=
  if text.all Char.isDigit then some (Nat.ofDigitChars 10 text 0) else none

/-- The template `txHash#outputIndex`. -/
def orderIdOf (ref : OutRef) : Str := ref.txHash ++ '#' :: decimal ref.outputIndex

/-- `const [txHash, index] = id.split("#")`, the index read as a number. -/
def parseOrderId (id : Str) : Option OutRef :=
  match id.splitOn '#' with
  | txHash :: index :: _ => (number index).map (OutRef.mk txHash)
  | _ => none

theorem isDigit_of_mem_decimal {c : Char} {n : ℕ} (h : c ∈ decimal n) : c.isDigit = true :=
  Nat.isDigit_of_mem_toDigits (by decide) (by decide) h

/-- No numeral contains the separator of an order id. -/
theorem hash_notMem_decimal (n : ℕ) : '#' ∉ decimal n := by
  intro h
  have := isDigit_of_mem_decimal h
  simp at this

/-- A numeral is read as the number it was written for. -/
theorem number_decimal (n : ℕ) : number (decimal n) = some n := by
  rw [number, if_pos (List.all_eq_true.mpr fun _ => isDigit_of_mem_decimal), decimal,
    Nat.ofDigitChars_ten_toDigits]

/-- Different numbers are written differently. -/
theorem decimal_injective : Function.Injective decimal := by
  intro m n h
  have := congrArg number h
  rwa [number_decimal, number_decimal, Option.some.injEq] at this

/-- An id names one output: the index is what follows the last `#`. -/
theorem orderIdOf_injective : Function.Injective orderIdOf := by
  rintro ⟨hash, i⟩ ⟨hash', i'⟩ h
  have hrev : (decimal i).reverse ++ '#' :: hash.reverse
      = (decimal i').reverse ++ '#' :: hash'.reverse := by
    simpa [orderIdOf] using congrArg List.reverse h
  -- both numerals are the part before the first separator of the reversed id
  have hsplit : ∀ (n : ℕ) (rest : Str), ((decimal n).reverse ++ '#' :: rest).splitOn '#'
      = (decimal n).reverse :: rest.splitOn '#' := fun n rest => by
    rw [List.splitOn_append_cons_self, List.splitOn_eq_singleton
      (by simpa using hash_notMem_decimal n), List.singleton_append]
  have hparts := congrArg (fun text => text.splitOn '#') hrev
  simp only [hsplit, List.cons.injEq, List.reverse_inj] at hparts
  obtain rfl := decimal_injective hparts.1
  rw [List.append_cancel_left_eq, List.cons.injEq, List.reverse_inj] at hrev
  rw [hrev.2]

/-- An order id is read as the reference it was made of, where the hash has no separator
in it. -/
theorem parseOrderId_orderIdOf {ref : OutRef} (h : '#' ∉ ref.txHash) :
    parseOrderId (orderIdOf ref) = some ref := by
  rw [parseOrderId, orderIdOf, List.splitOn_append_cons_self, List.splitOn_eq_singleton h,
    List.splitOn_eq_singleton (hash_notMem_decimal _), List.singleton_append]
  simp [number_decimal]

/-! ## Hex -/

/-- The sixteen digits. -/
def hexDigit (n : ℕ) : Char := Nat.digitChar n

/-- The value of a hex digit of either case. -/
def hexValue (c : Char) : Option ℕ :=
  if c.isDigit then some (c.toNat - '0'.toNat)
  else if 'a' ≤ c ∧ c ≤ 'f' then some (c.toNat - 'a'.toNat + 10)
  else if 'A' ≤ c ∧ c ≤ 'F' then some (c.toNat - 'A'.toNat + 10)
  else none

/-- A character of `[0-9a-f]`. -/
def isLowerHex (c : Char) : Bool := c.isDigit || ('a' ≤ c && c ≤ 'f')

/-- `Buffer#toString("hex")`. -/
def hexOf (b : Bytes) : Str :=
  b.flatMap fun (byte : Byte) => [hexDigit (byte.val / 16), hexDigit (byte.val % 16)]

/-- `Buffer.from(text, "hex")`: whole pairs of digits, up to the first pair that
is not hex.  A trailing odd digit is dropped. -/
def bytesOfHex : Str → Bytes
  | high :: low :: rest =>
      match hexValue high, hexValue low with
      | some h, some l => Fin.ofNat 256 (16 * h + l) :: bytesOfHex rest
      | _, _ => []
  | _ => []

/-- `text.toLowerCase()`. -/
def toLowerCase (text : Str) : Str := text.map Char.toLower

theorem hexValue_hexDigit : ∀ n < 16, hexValue (hexDigit n) = some n := by decide

theorem toLower_hexDigit : ∀ n < 16, (hexDigit n).toLower = hexDigit n := by decide

@[simp] theorem hexOf_nil : hexOf [] = [] := rfl

theorem hexOf_cons (byte : Byte) (b : Bytes) :
    hexOf (byte :: b) = hexDigit (byte.val / 16) :: hexDigit (byte.val % 16) :: hexOf b := rfl

theorem hexOf_append (a b : Bytes) : hexOf (a ++ b) = hexOf a ++ hexOf b :=
  List.flatMap_append

theorem mem_hexOf {b : Bytes} {c : Char} (h : c ∈ hexOf b) : ∃ n < 16, c = hexDigit n := by
  rw [hexOf, List.mem_flatMap] at h
  obtain ⟨byte, -, hc⟩ := h
  simp only [List.mem_cons, List.not_mem_nil, or_false] at hc
  rcases hc with rfl | rfl
  · exact ⟨_, by omega, rfl⟩
  · exact ⟨_, by omega, rfl⟩

/-- Hex is read back as the bytes it was written for. -/
theorem bytesOfHex_hexOf (b : Bytes) : bytesOfHex (hexOf b) = b := by
  induction b with
  | nil => rfl
  | cons byte b ih =>
      have hhigh : byte.val / 16 < 16 := by omega
      have hlow : byte.val % 16 < 16 := by omega
      have hbyte : Fin.ofNat 256 (16 * (byte.val / 16) + byte.val % 16) = byte := by
        apply Fin.ext
        rw [Fin.val_ofNat]
        omega
      rw [hexOf_cons, bytesOfHex, hexValue_hexDigit _ hhigh, hexValue_hexDigit _ hlow]
      simp only [hbyte, ih]

/-- Different bytes are written differently. -/
theorem hexOf_injective : Function.Injective hexOf :=
  Function.LeftInverse.injective bytesOfHex_hexOf

/-- Hex is written in lower case, so that normalising an id of hex changes nothing. -/
theorem toLowerCase_hexOf (b : Bytes) : toLowerCase (hexOf b) = hexOf b := by
  induction b with
  | nil => rfl
  | cons byte b ih =>
      have hhigh : byte.val / 16 < 16 := by omega
      have hlow : byte.val % 16 < 16 := by omega
      rw [hexOf_cons, toLowerCase, List.map_cons, List.map_cons, toLower_hexDigit _ hhigh,
        toLower_hexDigit _ hlow]
      exact congrArg _ (congrArg _ ih)

@[simp] theorem hexOf_eq_nil {b : Bytes} : hexOf b = [] ↔ b = [] := by
  cases b <;> simp [hexOf_cons]

/-- Two digits are written for each byte. -/
theorem length_hexOf (b : Bytes) : (hexOf b).length = 2 * b.length := by
  induction b with
  | nil => rfl
  | cons byte b ih =>
      rw [hexOf_cons, List.length_cons, List.length_cons, ih, List.length_cons]
      omega

/-- Digits of hex compare as characters as they do as numbers. -/
theorem hexDigit_lt_hexDigit : ∀ m < 16, ∀ n < 16, hexDigit m < hexDigit n ↔ m < n := by decide

theorem hexDigit_inj : ∀ m < 16, ∀ n < 16, hexDigit m = hexDigit n ↔ m = n := by decide

/-- **Hex keeps the order of bytes.** -/
theorem hexOf_lt_hexOf {a b : Bytes} : hexOf a < hexOf b ↔ a < b := by
  induction a generalizing b with
  | nil => cases b <;> simp [hexOf_cons]
  | cons x a ih =>
      cases b with
      | nil => simp
      | cons y b =>
          have hx : x.val / 16 < 16 ∧ x.val % 16 < 16 := by omega
          have hy : y.val / 16 < 16 ∧ y.val % 16 < 16 := by omega
          rw [hexOf_cons, hexOf_cons, List.cons_lt_cons_iff, List.cons_lt_cons_iff,
            List.cons_lt_cons_iff, ih, hexDigit_lt_hexDigit _ hx.1 _ hy.1,
            hexDigit_lt_hexDigit _ hx.2 _ hy.2, hexDigit_inj _ hx.1 _ hy.1,
            hexDigit_inj _ hx.2 _ hy.2, Fin.lt_def, Fin.ext_iff]
          by_cases hab : a < b
          · simp only [hab, and_true]
            omega
          · simp only [hab, and_false, or_false]
            omega

/-- The lower-case digits are the ones `hexOf` writes. -/
theorem exists_hexDigit {c : Char} (h : isLowerHex c = true) : ∃ n < 16, c = hexDigit n := by
  have hc : c = Char.ofNat c.toNat := (Char.ofNat_toNat c).symm
  have hrange : 48 ≤ c.toNat ∧ c.toNat ≤ 57 ∨ 97 ≤ c.toNat ∧ c.toNat ≤ 102 := by
    rw [isLowerHex, Bool.or_eq_true, Bool.and_eq_true, decide_eq_true_eq, decide_eq_true_eq] at h
    rcases h with h | h
    · rw [Char.isDigit, Bool.and_eq_true, decide_eq_true_eq, decide_eq_true_eq] at h
      exact Or.inl h
    · exact Or.inr h
  generalize c.toNat = n at hc hrange
  subst hc
  rcases hrange with ⟨h₁, h₂⟩ | ⟨h₁, h₂⟩
  · exact ⟨n - 48, by omega, by interval_cases n <;> rfl⟩
  · exact ⟨n - 87, by omega, by interval_cases n <;> rfl⟩

/-- Lower-case hex of whole bytes reads back as written. -/
theorem hexOf_bytesOfHex {text : Str} (hhex : text.all isLowerHex = true)
    (heven : 2 ∣ text.length) : hexOf (bytesOfHex text) = text := by
  match text, hhex, heven with
  | [], _, _ => rfl
  | [_], _, heven => simp at heven
  | high :: low :: rest, hhex, heven =>
      rw [List.all_cons, List.all_cons, Bool.and_eq_true, Bool.and_eq_true] at hhex
      obtain ⟨h, hh, rfl⟩ := exists_hexDigit hhex.1
      obtain ⟨l, hl, rfl⟩ := exists_hexDigit hhex.2.1
      have ih := hexOf_bytesOfHex hhex.2.2 (by simpa using heven)
      have hval : (Fin.ofNat 256 (16 * h + l)).val = 16 * h + l := by
        rw [Fin.val_ofNat]
        omega
      rw [bytesOfHex, hexValue_hexDigit _ hh, hexValue_hexDigit _ hl]
      simp only
      rw [hexOf_cons, ih, hval]
      congr 2
      · omega
      · congr 1
        omega

end BeaconDex.Backend
