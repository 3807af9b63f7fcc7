import BeaconDex.Backend.BuilderRefinement
import BeaconDex.Backend.Numeral

/-!
# One order, two ids

`buildTakeManyOrders` refuses a batch that lists an id twice.  What it spends are
the outputs the ids name, and an output has more ids than one: `[0-9]+` admits
leading zeros, and an index is read as a double.  So the outputs of an accepted
batch are distinct exactly when no two of its ids differ in these ways alone
(`batch_refs_nodup_iff`).

## What is at stake

The promise of the route is that a batch consumes distinct orders.  An order that is
listed twice would be a transaction that spends one output for two payments; Mesh or the
ledger would turn it away, but the summary would have been shown.
-/

namespace BeaconDex.Backend

open Library

/-!
## Doubles

An index beyond 2^53 is rounded to a double, so that two indices may be read as one.
-/

/-- Beyond the exact integers rounding stays beyond them. -/
theorem le_roundDouble {m : ℕ} (h : 2 ^ 53 ≤ m) : 2 ^ 53 ≤ roundDouble m := by
  have hlog : 53 ≤ m.log2 := (Nat.le_log2 (by omega)).mpr h
  have hkept : 2 ^ 52 ≤ m / 2 ^ (m.log2 - 52) := by
    rw [Nat.le_div_iff_mul_le (by positivity), ← pow_add]
    have hpow : 2 ^ m.log2 ≤ m := Nat.log2_self_le (by omega)
    rwa [show 52 + (m.log2 - 52) = m.log2 by omega]
  have hulp : 2 ≤ 2 ^ (m.log2 - 52) := by
    calc 2 = 2 ^ 1 := rfl
      _ ≤ 2 ^ (m.log2 - 52) := Nat.pow_le_pow_right (by decide) (by omega)
  have hrounded : ∀ kept, 2 ^ 52 ≤ kept → 2 ^ 53 ≤ kept * 2 ^ (m.log2 - 52) := by
    intro kept hle
    calc 2 ^ 53 = 2 ^ 52 * 2 := rfl
      _ ≤ kept * 2 ^ (m.log2 - 52) := Nat.mul_le_mul hle hulp
  rw [roundDouble, if_neg (by omega)]
  dsimp only
  split
  · exact hrounded _ (by omega)
  · exact hrounded _ hkept

/-- Two integers round alike if they are equal, or both beyond the exact ones. -/
theorem roundDouble_eq_iff {m n : ℕ} :
    roundDouble m = roundDouble n ↔
      m = n ∨ 2 ^ 53 ≤ m ∧ 2 ^ 53 ≤ n ∧ roundDouble m = roundDouble n := by
  constructor
  · intro h
    rcases Nat.lt_or_ge m (2 ^ 53) with hm | hm <;> rcases Nat.lt_or_ge n (2 ^ 53) with hn | hn
    · rw [roundDouble_of_lt hm, roundDouble_of_lt hn] at h
      exact Or.inl h
    · have := le_roundDouble hn
      rw [roundDouble_of_lt hm] at h
      omega
    · have := le_roundDouble hm
      rw [roundDouble_of_lt hn] at h
      omega
    · exact Or.inr ⟨hm, hn, h⟩
  · rintro (rfl | ⟨-, -, h⟩)
    · rfl
    · exact h

/-- An index that is a finite number is the rounded one. -/
theorem outRefAt_toNumber {txHash : Str} {n : ℕ} {ref : OutRef}
    (h : outRefAt (txHash, toNumber n) = some ref) : ref = ⟨txHash, roundDouble n⟩ := by
  have hvalue : ((n : ℤ).sign * (roundDouble n : ℤ)).toNat = roundDouble n := by
    rcases Nat.eq_zero_or_pos n with rfl | hpos
    · rfl
    · rw [Int.sign_eq_one_of_pos (by exact_mod_cast hpos), one_mul, Int.toNat_natCast]
  unfold toNumber at h
  rw [Int.natAbs_natCast] at h
  dsimp only at h
  split at h
  · rw [outRefAt, Option.some.injEq, hvalue] at h
    exact h.symm
  · cases h

/-!
## Ids of one output

The hash as it is, and the numerals as they are read.
-/

/-- **Two ids of one output**: the same transaction, and two numerals of one
index.  They differ by leading zeros, or both are beyond the integers a double
tells apart and round alike. -/
def SameOutput (a b : Str) : Prop :=
  a.take 64 = b.take 64 ∧
    (significant (a.drop 65) = significant (b.drop 65) ∨
      2 ^ 53 ≤ Nat.ofDigitChars 10 (a.drop 65) 0 ∧ 2 ^ 53 ≤ Nat.ofDigitChars 10 (b.drop 65) 0 ∧
        roundDouble (Nat.ofDigitChars 10 (a.drop 65) 0) =
          roundDouble (Nat.ofDigitChars 10 (b.drop 65) 0))

instance : DecidableRel SameOutput := fun _ _ => inferInstanceAs (Decidable (_ ∧ (_ ∨ _)))

/-- What an id names: its first 64 characters as the hash, and the number of the rest,
rounded to a double, as the index. -/
theorem orderTarget_eq_some {orderId : Str} {ref : OutRef} (h : orderTarget orderId = some ref) :
    (orderId.drop 65).all Char.isDigit = true ∧
      ref = ⟨orderId.take 64, roundDouble (Nat.ofDigitChars 10 (orderId.drop 65) 0)⟩ := by
  obtain ⟨matched, hmatch, href⟩ := Option.bind_eq_some_iff.mp h
  unfold matchOrderId at hmatch
  split at hmatch
  · next digit digits hdrop =>
    have hindex : orderId.drop 65 = digit :: digits := by
      rw [show 65 = 64 + 1 from rfl, ← List.drop_drop, hdrop]
      rfl
    rw [Option.ite_none_right_eq_some, Option.some.injEq] at hmatch
    obtain ⟨⟨-, -, hdigits⟩, rfl⟩ := hmatch
    rw [hindex]
    exact ⟨hdigits, outRefAt_toNumber href⟩
  · cases hmatch

/-- Two ids name one output exactly if they are of one hash and their numerals are read
alike. -/
theorem orderTarget_inj {a b : Str} {r s : OutRef} (ha : orderTarget a = some r)
    (hb : orderTarget b = some s) : r = s ↔ SameOutput a b := by
  obtain ⟨hdigits, rfl⟩ := orderTarget_eq_some ha
  obtain ⟨hdigits', rfl⟩ := orderTarget_eq_some hb
  rw [OutRef.mk.injEq, roundDouble_eq_iff, ofDigitChars_inj hdigits hdigits']
  rfl

/-!
## The batch

The resolved legs of an accepted batch spend what their ids name.
-/

section Batch

variable {mesh : Mesh} {scripts : ProtocolScripts} {opts : BuilderOptions} {p : ChainProvider}
variable {now : ℤ} {params : TakeManyOrdersParams} {draft : TxDraft}

/-- A leg spends the output it was resolved to. -/
theorem input_of_buildLeg {leg : ResolvedLeg} {draft : LegDraft}
    (h : buildLeg mesh scripts opts leg = .ok draft) : draft.spend.input = leg.ref := by
  unfold buildLeg at h
  split at h
  · simp only [buildFullLeg, bind, bind_eq_ok, pure, Except.pure, Except.ok.injEq] at h
    obtain ⟨-, -, rfl⟩ := h
    rfl
  · simp only [buildPartialLeg, bind, bind_eq_ok, pure, Except.pure, Except.ok.injEq] at h
    obtain ⟨-, -, -, -, -, -, -, -, -, -, -, -, rfl⟩ := h
    rfl

/-- **When a batch spends distinct outputs.**  The legs of an accepted batch
resolve to outputs that its transaction then spends, and these are distinct
exactly if no two of the ids name one output. -/
theorem batch_refs_nodup_iff
    (h : buildTakeManyOrders mesh scripts opts p now params = .ok draft) :
    ∃ refs, List.Forall₂ (fun leg ref => orderTarget (TakeLeg.orderId leg) = some ref)
        params.orders refs ∧
      (draft.spends.map DraftSpend.input).Perm refs ∧
      (refs.Nodup ↔ params.orders.Pairwise fun a b => ¬SameOutput a.orderId b.orderId) := by
  obtain ⟨unsorted, drafts, hbatch⟩ := buildTakeManyOrders_eq_ok h
  have htargets : List.Forall₂ (fun leg ref => orderTarget (TakeLeg.orderId leg) = some ref)
      params.orders (unsorted.map fun leg => leg.ref) := by
    rw [List.forall₂_map_right_iff]
    exact hbatch.resolved.imp fun _ _ hresolve => (resolveLeg_eq_ok hresolve).1.target
  refine ⟨_, htargets, ?_, ?_⟩
  · have hspends : (drafts.map LegDraft.spend).map DraftSpend.input =
        (unsorted.insertionSort inInputOrder).map fun leg => leg.ref := by
      rw [List.map_map]
      exact (map_eq_of_forall₂ (hbatch.built.imp fun _ _ hbuilt =>
        (input_of_buildLeg hbuilt).symm)).symm
    rw [hbatch.spends, hspends]
    exact (List.perm_insertionSort _ _).map _
  · exact (pairwise_iff_of_forall₂ htargets fun ha hb =>
      not_congr (orderTarget_inj ha hb).symm).symm

end Batch

/-! One order, asked for twice. -/

namespace SampleTwice

open SampleBatch
open SampleChain (txId sellerAddress takerAddress)

/-- Output zero of the first transaction, with its index spelled twice. -/
def takes : TakeManyOrdersParams where
  wallet := SampleBatch.takes.wallet
  orders := [⟨txId 1 ++ "#0".toList, none⟩, ⟨txId 1 ++ "#00".toList, none⟩]

def resolved (orderId : Str) : ResolvedLeg :=
  { SampleBatch.resolved 1 none with orderId }

def legs : List ResolvedLeg :=
  [resolved (txId 1 ++ "#0".toList), resolved (txId 1 ++ "#00".toList)]

def draft : TxDraft where
  spends := [fullDraft.spend, fullDraft.spend]
  mints := mintBeacons scripts (names.map hexOf ++ names.map hexOf) (-1)
  outputs := fullDraft.outputs ++ fullDraft.outputs
  requiredSigners := []
  invalidHereafter := none
  wallet := ⟨takerAddress, [takerFunds], collateral⟩

set_option maxRecDepth 100000 in
theorem built : buildTakeManyOrders mesh scripts opts provider now takes = .ok draft := by
  have hpayment : mesh.serializeKeyAddress (hexOf Sample.sellerKey) none = some sellerAddress := by
    decide
  have hresolve : resolveLeg mesh scripts provider ⟨txId 1 ++ "#0".toList, none⟩ =
        .ok (resolved (txId 1 ++ "#0".toList)) ∧
      resolveLeg mesh scripts provider ⟨txId 1 ++ "#00".toList, none⟩ =
        .ok (resolved (txId 1 ++ "#00".toList)) := by decide
  have hsort : legs.insertionSort inInputOrder = legs := by decide
  have hleg : ∀ orderId, buildLeg mesh scripts opts (resolved orderId) = .ok fullDraft := by
    intro orderId
    simp only [buildLeg, resolved, SampleBatch.resolved, buildFullLeg, bind, bind_eq_ok,
      paymentAddress, orThrow_eq_ok, pure, Except.pure]
    exact ⟨_, hpayment, rfl⟩
  simp only [buildTakeManyOrders, bind, bind_eq_ok, throwIf_eq_ok, mapM_eq_ok, forM_eq_ok, pure,
    Except.pure]
  refine ⟨(), by decide, (), by decide, (), by decide, legs,
    .cons hresolve.1 (.cons hresolve.2 .nil), (), ?_, [fullDraft, fullDraft], ?_,
    ⟨takerAddress, [takerFunds], collateral⟩, by decide, rfl⟩
  · rw [hsort]
    decide
  · rw [hsort]
    exact .cons (hleg _) (.cons (hleg _) .nil)

end SampleTwice

theorem batch_refs_nodup_iff_sample :
    ∃ refs, List.Forall₂ (fun leg ref => orderTarget (TakeLeg.orderId leg) = some ref)
        SampleBatch.takes.orders refs ∧
      (SampleBatch.draft.spends.map DraftSpend.input).Perm refs ∧ refs.Nodup := by
  obtain ⟨refs, htargets, hperm, hiff⟩ := batch_refs_nodup_iff SampleBatch.built
  exact ⟨refs, htargets, hperm, hiff.mpr (by decide)⟩

/-- **Two ids for one order.**  Both match the grammar, they differ, and the
batch is accepted: its draft spends one output twice and pays for it twice. -/
theorem batch_spends_twice :
    ∃ draft, buildTakeManyOrders SampleBatch.mesh SampleBatch.scripts SampleBatch.opts
        SampleBatch.provider SampleBatch.now SampleTwice.takes = .ok draft ∧
      draft.spends.map DraftSpend.input = [⟨SampleChain.txId 1, 0⟩, ⟨SampleChain.txId 1, 0⟩] ∧
      ∃ refs, List.Forall₂ (fun leg ref => orderTarget (TakeLeg.orderId leg) = some ref)
        SampleTwice.takes.orders refs ∧ ¬refs.Nodup := by
  refine ⟨_, SampleTwice.built, rfl, [⟨SampleChain.txId 1, 0⟩, ⟨SampleChain.txId 1, 0⟩], ?_, ?_⟩
  · exact .cons (by decide) (.cons (by decide) .nil)
  · decide

end BeaconDex.Backend
