import BeaconDex.Backend.TxBuilder
import Mathlib.Data.Int.ConditionallyCompleteOrder
import Mathlib.Data.List.MinMax

/-!
# The wallet behind the frontend

Two parts of `frontend/lib/walletAdapter.ts`: the collateral that a transaction is
given, and the pages in which a wallet hands over its outputs.

Collateral is kept from being spent, so it should be small.  `pickCollateral` keeps a
reported one of up to 20 ADA and otherwise takes the smallest of pure ADA in the
wallet, without asking whether that one is smaller (`collateralChoice_iff`).

`fetchAllUtxoCborPaginated` asks for one page after another.  It takes a page with
fewer outputs than it asked for to be the last one, and stops after 200 pages with what
it has (`fetchAll_eq_readPages`).

## What a wallet may answer

A wallet is an interface of the browser.  It may fail, return nothing, or hand over its
outputs in pages of a size of its own, and it is not asked to be consistent from call to
call.  The functions here are total on all such answers; what is proved of them is about
the answers, and the condition under which the result is what the comment beside the
code promises is stated in the same terms.
-/

namespace BeaconDex.Frontend

open Backend (Str OutRef Asset lovelaceUnit)

/-! ## Collateral -/

/-- An output of the wallet. -/
structure WalletUtxo where
  input : OutRef
  address : Str
  amount : List Asset
  deriving DecidableEq

/-- The lovelace an output holds: its first entry of that unit. -/
def lovelaceOf (u : WalletUtxo) : ℤ :=
  ((u.amount.find? fun a => a.unit = lovelaceUnit).map Asset.quantity).getD 0

/-- The quantity of the first entry. -/
def firstQuantity (u : WalletUtxo) : ℤ := (u.amount.head?.map Asset.quantity).getD 0

/-- Nothing but lovelace, and at least 5 ADA of it. -/
def eligible (u : WalletUtxo) : Bool :=
  match u.amount with
  | [a] => a.unit = lovelaceUnit && 5000000 ≤ a.quantity
  | _ => false

/-- The smallest output of pure ADA; of equally small ones the first. -/
def findPureAdaUtxo (utxos : List WalletUtxo) : Option WalletUtxo :=
  (utxos.filter eligible).foldl (fun smallest u =>
    match smallest with
    | none => some u
    | some least => if firstQuantity u < firstQuantity least then some u else some least) none

/-- 20 ADA; a reported collateral above it is called oversized. -/
def MAX_REASONABLE_COLLATERAL_LOVELACE : ℤ := 20000000

/-- The collateral to use, the one the wallet reports if it is not oversized. -/
def pickCollateral (walletReported : Option WalletUtxo) (utxos : List WalletUtxo) :
    Option WalletUtxo :=
  match walletReported with
  | none => findPureAdaUtxo utxos
  | some reported =>
      if lovelaceOf reported ≤ MAX_REASONABLE_COLLATERAL_LOVELACE then some reported
      else (findPureAdaUtxo utxos).getD reported

variable {u reported picked : WalletUtxo} {walletReported : Option WalletUtxo}
variable {utxos : List WalletUtxo}

/-- An eligible output holds the quantity of its only entry, 5 ADA or more. -/
theorem lovelaceOf_of_eligible (h : eligible u = true) :
    lovelaceOf u = firstQuantity u ∧ 5000000 ≤ lovelaceOf u := by
  unfold eligible at h
  split at h
  · next a hamount =>
    rw [Bool.and_eq_true, decide_eq_true_eq, decide_eq_true_eq] at h
    simp [lovelaceOf, firstQuantity, hamount, h]
  · exact absurd h Bool.false_ne_true

/-- The loop finds the smallest of the eligible outputs, the first where there are
several. -/
theorem findPureAdaUtxo_eq_argmin (utxos : List WalletUtxo) :
    findPureAdaUtxo utxos = (utxos.filter eligible).argmin firstQuantity := by
  rw [findPureAdaUtxo, List.argmin]
  congr 1
  funext smallest u
  cases smallest <;> rfl

/-- It finds none if none is eligible. -/
theorem findPureAdaUtxo_eq_none :
    findPureAdaUtxo utxos = none ↔ ∀ u ∈ utxos, ¬eligible u = true := by
  rw [findPureAdaUtxo_eq_argmin, List.argmin_eq_none, List.filter_eq_nil_iff]

/-- **The smallest one is found.** -/
theorem findPureAdaUtxo_spec (h : findPureAdaUtxo utxos = some picked) :
    picked ∈ utxos ∧ eligible picked = true ∧
      ∀ u ∈ utxos, eligible u = true → lovelaceOf picked ≤ lovelaceOf u := by
  rw [findPureAdaUtxo_eq_argmin] at h
  obtain ⟨hmem, helig⟩ := List.mem_filter.mp (List.argmin_mem h)
  refine ⟨hmem, helig, ?_⟩
  intro u hu huelig
  rw [(lovelaceOf_of_eligible helig).1, (lovelaceOf_of_eligible huelig).1]
  exact List.le_of_mem_argmin (List.mem_filter.mpr ⟨hu, huelig⟩) h

/-- **The choice makes nothing worse**: what is used instead of a reported collateral
holds no more than that, and a collateral of at most 20 ADA is used if the wallet has
one and reports none as small. -/
structure CollateralChoice (walletReported : Option WalletUtxo) (utxos : List WalletUtxo) :
    Prop where
  not_larger : ∀ reported, walletReported = some reported →
    ∃ picked, pickCollateral walletReported utxos = some picked ∧
      lovelaceOf picked ≤ lovelaceOf reported
  small : (∀ reported, walletReported = some reported → 20000000 < lovelaceOf reported) →
    (∃ u ∈ utxos, eligible u = true ∧ lovelaceOf u ≤ 20000000) →
    ∃ picked, pickCollateral walletReported utxos = some picked ∧ lovelaceOf picked ≤ 20000000

/-- If an oversized collateral is reported and there is one of pure ADA in the wallet,
there is one that is not larger. -/
def OneNotLarger (walletReported : Option WalletUtxo) (utxos : List WalletUtxo) : Prop :=
  ∀ reported, walletReported = some reported → 20000000 < lovelaceOf reported →
    (∃ u ∈ utxos, eligible u = true) →
    ∃ u ∈ utxos, eligible u = true ∧ lovelaceOf u ≤ lovelaceOf reported

/-- What is picked instead of an oversized collateral. -/
theorem pickCollateral_oversized (h : 20000000 < lovelaceOf reported) :
    pickCollateral (some reported) utxos = some ((findPureAdaUtxo utxos).getD reported) := by
  show (if lovelaceOf reported ≤ MAX_REASONABLE_COLLATERAL_LOVELACE then _ else _) = _
  exact if_neg (not_le.mpr h)

/-- A reported output of up to 20 ADA is kept, whatever else there is. -/
theorem pickCollateral_reasonable (h : lovelaceOf reported ≤ 20000000) :
    pickCollateral (some reported) utxos = some reported := by
  show (if lovelaceOf reported ≤ MAX_REASONABLE_COLLATERAL_LOVELACE then _ else _) = _
  exact if_pos h

/-- A small one in the wallet is found, or one that is smaller still. -/
theorem pickCollateral_small
    (hreported : ∀ reported, walletReported = some reported → 20000000 < lovelaceOf reported)
    (hsmall : ∃ u ∈ utxos, eligible u = true ∧ lovelaceOf u ≤ 20000000) :
    ∃ picked, pickCollateral walletReported utxos = some picked ∧
      lovelaceOf picked ≤ 20000000 := by
  obtain ⟨u, hu, helig, hle⟩ := hsmall
  cases hfind : findPureAdaUtxo utxos with
  | none => exact absurd helig (findPureAdaUtxo_eq_none.mp hfind u hu)
  | some picked =>
      have hpicked : lovelaceOf picked ≤ lovelaceOf u :=
        (findPureAdaUtxo_spec hfind).2.2 u hu helig
      refine ⟨picked, ?_, hpicked.trans hle⟩
      cases walletReported with
      | none => exact hfind
      | some reported => rw [pickCollateral_oversized (hreported reported rfl), hfind]; rfl

/-- **When the choice makes nothing worse**: exactly if no oversized collateral is
reported, or one of pure ADA in the wallet is not larger, or there is none. -/
theorem collateralChoice_iff (walletReported : Option WalletUtxo) (utxos : List WalletUtxo) :
    CollateralChoice walletReported utxos ↔ OneNotLarger walletReported utxos := by
  constructor
  · rintro ⟨hnotLarger, -⟩ reported rfl hover ⟨u, hu, helig⟩
    obtain ⟨picked, hpicked, hle⟩ := hnotLarger reported rfl
    rw [pickCollateral_oversized hover, Option.some.injEq] at hpicked
    cases hfind : findPureAdaUtxo utxos with
    | none => exact absurd helig (findPureAdaUtxo_eq_none.mp hfind u hu)
    | some least =>
        rw [hfind, Option.getD_some] at hpicked
        obtain ⟨hmem, hleast, -⟩ := findPureAdaUtxo_spec hfind
        exact ⟨least, hmem, hleast, hpicked ▸ hle⟩
  · intro hone
    refine ⟨?_, pickCollateral_small⟩
    rintro reported rfl
    rcases le_or_gt (lovelaceOf reported) 20000000 with hle | hover
    · exact ⟨reported, pickCollateral_reasonable hle, le_rfl⟩
    · refine ⟨_, pickCollateral_oversized hover, ?_⟩
      cases hfind : findPureAdaUtxo utxos with
      | none => exact le_rfl
      | some least =>
          obtain ⟨hmem, hleast, hminimal⟩ := findPureAdaUtxo_spec hfind
          obtain ⟨u, hu, helig, hle⟩ := hone reported rfl hover ⟨least, hmem, hleast⟩
          exact (hminimal u hu helig).trans hle

namespace SampleWallet

def output (outputIndex : ℕ) (amount : List Asset) : WalletUtxo :=
  ⟨⟨"d1".toList, outputIndex⟩, "addr_test1".toList, amount⟩

/-- 25 ADA next to a token. -/
def mixed : WalletUtxo := output 0 [⟨lovelaceUnit, 25000000⟩, ⟨"aa".toList, 1⟩]

/-- 10 000 ADA. -/
def whale : WalletUtxo := output 1 [⟨lovelaceUnit, 10000000000⟩]

end SampleWallet

open SampleWallet in
/-- **A larger collateral is picked**: 10 000 ADA instead of 25. -/
theorem whale_picked :
    pickCollateral (some mixed) [mixed, whale] = some whale ∧
      ¬CollateralChoice (some mixed) [mixed, whale] := by
  have hpicked : pickCollateral (some mixed) [mixed, whale] = some whale := by decide
  refine ⟨hpicked, ?_⟩
  rintro ⟨hnotLarger, -⟩
  obtain ⟨picked, hpicked', hle⟩ := hnotLarger mixed rfl
  rw [hpicked, Option.some.injEq] at hpicked'
  subst hpicked'
  exact absurd hle (by decide)

/-! ## Pages of outputs -/

/-- The one call of the wallet that is used: `getUtxos(undefined, { page, limit })`,
answered with outputs in CBOR hex, or with null. -/
structure Cip30Api where
  getUtxos : (page limit : ℕ) → Option (List Str)

/-- How many outputs are asked for at a time. -/
def UTXO_PAGE_LIMIT : ℕ := 100

/-- After so many pages the loop ends, whatever has come. -/
def MAX_UTXO_PAGES : ℕ := 200

/-- The loop over the pages, `turns` of them left.  Null, here `none`, is the answer to
a page that starts as the one before. -/
def fetchFrom (raw : Cip30Api) : (turns page : ℕ) → (prevFirst : Option Str) →
    (out : List Str) → Option (List Str)
  | 0, _, _, out => some out
  | turns + 1, page, prevFirst, out =>
      match raw.getUtxos page UTXO_PAGE_LIMIT with
      | none => some out
      | some [] => some out
      | some (first :: rest) =>
          if 0 < page ∧ some first = prevFirst then none
          else if (first :: rest).length < UTXO_PAGE_LIMIT then some (out ++ first :: rest)
          else fetchFrom raw turns (page + 1) (some first) (out ++ first :: rest)

/-- **All outputs of the wallet**, page by page, as the source means it. -/
def fetchAllUtxoCborPaginated (raw : Cip30Api) : Option (List Str) :=
  fetchFrom raw MAX_UTXO_PAGES 0 none []

/-- A wallet that serves its outputs as consecutive pages, none of them empty and none
longer than the limit, and then nothing. -/
structure Serves (raw : Cip30Api) (pages : List (List Str)) : Prop where
  page_of_lt : ∀ (p : ℕ) (hp : p < pages.length),
    raw.getUtxos p UTXO_PAGE_LIMIT = some (pages.get ⟨p, hp⟩)
  page_of_ge : ∀ p, pages.length ≤ p →
    raw.getUtxos p UTXO_PAGE_LIMIT = none ∨ raw.getUtxos p UTXO_PAGE_LIMIT = some []
  page_ne_nil : ∀ page ∈ pages, page ≠ []
  page_length_le : ∀ page ∈ pages, page.length ≤ UTXO_PAGE_LIMIT
  nodup : pages.flatten.Nodup

/-- The pages that are asked for: at most `turns`, up to the first short one. -/
def readPages : ℕ → List (List Str) → List (List Str)
  | 0, _ => []
  | _ + 1, [] => []
  | turns + 1, page :: pages =>
      if page.length < UTXO_PAGE_LIMIT then [page] else page :: readPages turns pages

variable {raw : Cip30Api} {pages done rest : List (List Str)} {turns : ℕ}

/-- **One turn after another**: with the pages of `done` behind it, the loop answers
with the outputs so far and those of the pages it still asks for. -/
theorem fetchFrom_eq_readPages (h : Serves raw (done ++ rest)) {prevFirst : Option Str}
    (hprev : ∀ first, prevFirst = some first → first ∈ done.flatten) (out : List Str) :
    fetchFrom raw turns done.length prevFirst out =
      some (out ++ (readPages turns rest).flatten) := by
  induction turns generalizing done rest prevFirst out with
  | zero =>
      show some out = some (out ++ [])
      rw [List.append_nil]
  | succ turns ih =>
      cases rest with
      | nil =>
          have hpast := h.page_of_ge done.length (by simp)
          show fetchFrom raw (turns + 1) _ _ _ = some (out ++ [])
          rw [List.append_nil, fetchFrom]
          rcases hpast with hnone | hempty
          · rw [hnone]
          · rw [hempty]
      | cons page rest =>
          have hpage : raw.getUtxos done.length UTXO_PAGE_LIMIT = some page := by
            rw [h.page_of_lt done.length (by simp)]
            simp
          cases page with
          | nil => exact absurd rfl (h.page_ne_nil [] (by simp))
          | cons first more =>
              -- No output is served twice, so this page starts with another one.
              have hfresh : ¬(0 < done.length ∧ some first = prevFirst) := by
                rintro ⟨-, hstuck⟩
                have hnodup := h.nodup
                rw [List.flatten_append, List.nodup_append] at hnodup
                exact hnodup.2.2 first (hprev first hstuck.symm) first (by simp) rfl
              rw [fetchFrom, hpage]
              show (if 0 < done.length ∧ some first = prevFirst then none else _) = _
              rw [if_neg hfresh, readPages]
              split
              · simp
              · have happend : done ++ (first :: more) :: rest =
                    (done ++ [first :: more]) ++ rest := List.append_cons _ _ _
                have hlength : done.length + 1 = (done ++ [first :: more]).length := by simp
                rw [hlength, ih (happend ▸ h) (by simp)]
                simp

/-- **What the paging answers**: never null to such a wallet, but the pages up to the
first short one. -/
theorem fetchAll_eq_readPages (h : Serves raw pages) :
    fetchAllUtxoCborPaginated raw = some (readPages MAX_UTXO_PAGES pages).flatten := by
  have hserves : Serves raw ([] ++ pages) := h
  show fetchFrom raw MAX_UTXO_PAGES ([] : List (List Str)).length none [] = some ([] ++ _)
  exact fetchFrom_eq_readPages hserves (fun _ hnone => by cases hnone) []

/-- The pages that are read are the first ones. -/
theorem isPrefix_readPages (turns : ℕ) (pages : List (List Str)) :
    readPages turns pages <+: pages := by
  induction turns generalizing pages with
  | zero => exact List.nil_prefix
  | succ turns ih =>
      cases pages with
      | nil => exact List.nil_prefix
      | cons page pages =>
          rw [readPages]
          split
          · exact (List.prefix_cons_inj page).mpr List.nil_prefix
          · exact (List.prefix_cons_inj page).mpr (ih pages)

/-- All pages are asked for if no page but the last is short, and there are turns
enough. -/
theorem readPages_eq_self_iff (hne : ∀ page ∈ pages, page ≠ [])
    (hle : ∀ page ∈ pages, page.length ≤ UTXO_PAGE_LIMIT) : readPages turns pages = pages ↔
      (∀ page ∈ pages.dropLast, page.length = UTXO_PAGE_LIMIT) ∧ pages.length ≤ turns := by
  induction turns generalizing pages with
  | zero =>
      cases pages with
      | nil => simp [readPages]
      | cons page pages => simp [readPages]
  | succ turns ih =>
      cases pages with
      | nil => simp [readPages]
      | cons page pages =>
          have ih' : readPages turns pages = pages ↔ _ := ih
            (fun p hp => hne p (List.mem_cons_of_mem _ hp))
            (fun p hp => hle p (List.mem_cons_of_mem _ hp))
          have hfull := hle page List.mem_cons_self
          rw [readPages]
          cases pages with
          | nil =>
              split
              · simp
              · cases turns <;> simp [readPages]
          | cons next pages =>
              rw [List.dropLast_cons_cons, List.forall_mem_cons, List.length_cons,
                Nat.add_le_add_iff_right, and_assoc, ← ih']
              split
              · next hshort =>
                constructor
                · intro heq
                  exact absurd heq (by simp)
                · rintro ⟨hlength, -⟩
                  omega
              · next hlong =>
                rw [List.cons.injEq, and_iff_right rfl, and_iff_right (by omega)]

/-- What is left out is not empty. -/
theorem flatten_eq_iff_of_prefix {asked all : List (List Str)} (h : asked <+: all)
    (hne : ∀ page ∈ all, page ≠ []) : asked.flatten = all.flatten ↔ asked = all := by
  constructor
  · intro heq
    obtain ⟨left, rfl⟩ := h
    rw [List.flatten_append, List.self_eq_append_right, List.flatten_eq_nil_iff] at heq
    cases left with
    | nil => exact (List.append_nil _).symm
    | cons page left =>
        exact absurd (heq page List.mem_cons_self) (hne page (by simp))
  · intro heq
    rw [heq]

/-- **When paging is all or nothing**: exactly if every page but the last one is full and
there are at most 200.  Otherwise a truncated list is returned as if it were all: a short
page is taken for the last one, and so is the two-hundredth. -/
theorem paging_complete_iff (h : Serves raw pages) :
    (fetchAllUtxoCborPaginated raw = none ∨
        fetchAllUtxoCborPaginated raw = some pages.flatten) ↔
      (∀ page ∈ pages.dropLast, page.length = UTXO_PAGE_LIMIT) ∧
        pages.length ≤ MAX_UTXO_PAGES := by
  rw [fetchAll_eq_readPages h, ← readPages_eq_self_iff h.page_ne_nil h.page_length_le,
    Option.some.injEq, flatten_eq_iff_of_prefix (isPrefix_readPages _ _) h.page_ne_nil]
  exact or_iff_right (Option.some_ne_none _)

namespace SampleWallet

/-- A wallet that hands over a list of pages. -/
def paged (pages : List (List Str)) : Cip30Api where
  getUtxos page _ := pages[page]?

theorem serves_paged {pages : List (List Str)} (hne : ∀ page ∈ pages, page ≠ [])
    (hlength : ∀ page ∈ pages, page.length ≤ UTXO_PAGE_LIMIT) (hnodup : pages.flatten.Nodup) :
    Serves (paged pages) pages where
  page_of_lt p hp := by
    show pages[p]? = _
    rw [List.getElem?_eq_getElem hp]
    rfl
  page_of_ge p hp := Or.inl (List.getElem?_eq_none hp)
  page_ne_nil := hne
  page_length_le := hlength
  nodup := hnodup

/-- Two outputs on a page each. -/
def twoPages : Cip30Api := paged [["82".toList], ["83".toList]]

theorem serves_twoPages : Serves twoPages [["82".toList], ["83".toList]] :=
  serves_paged (by decide) (by decide) (by decide)

/-- A hundred and one outputs, the last of them on a page of its own. -/
def fullPages : List (List Str) := [(List.range 100).map Backend.decimal, [Backend.decimal 100]]

theorem serves_fullPages : Serves (paged fullPages) fullPages := by
  refine serves_paged (by simp [fullPages]) (by simp [fullPages, UTXO_PAGE_LIMIT]) ?_
  have hflatten : fullPages.flatten = (List.range 101).map Backend.decimal := by
    rw [List.range_succ, List.map_append]
    rfl
  rw [hflatten]
  exact List.nodup_range.map Backend.decimal_injective

end SampleWallet

open SampleWallet in
/-- Pages of one and one output are not read to the end; pages of a hundred and one are. -/
theorem paging_complete_iff_sample :
    ¬(fetchAllUtxoCborPaginated twoPages = none ∨
      fetchAllUtxoCborPaginated twoPages = some ["82".toList, "83".toList]) ∧
    (fetchAllUtxoCborPaginated (paged fullPages) = none ∨
      fetchAllUtxoCborPaginated (paged fullPages) = some fullPages.flatten) := by
  constructor
  · intro h
    have hpages := (paging_complete_iff serves_twoPages).mp h
    exact absurd (hpages.1 ["82".toList] (by decide)) (by decide)
  · refine (paging_complete_iff serves_fullPages).mpr ⟨?_, by decide⟩
    intro page hpage
    obtain rfl := List.mem_singleton.mp hpage
    rw [List.length_map, List.length_range]
    rfl

open SampleWallet in
/-- **Half a wallet**: the second page is not asked for. -/
theorem second_page_not_read :
    fetchAllUtxoCborPaginated twoPages = some ["82".toList] ∧
      ["82".toList] ≠ ([["82".toList], ["83".toList]] : List (List Str)).flatten := by
  decide

end BeaconDex.Frontend
