import Mathlib.Data.List.Forall2
import Mathlib.Data.List.Induction
import Mathlib.Data.List.Nodup

/-!
# Maps that remember insertion order

A list of entries with distinct keys, where an entry carries its own key.
Writing an entry replaces the one with its key in place, or appends it, as
JavaScript's `Map` does and as the rows of a table are numbered.  What is found under
a key is an entry with that key (`find?_eq_some`), so reading after writing is settled
by membership (`find?_set`).

The order of the entries is that in which their keys were first written.  Writing
under a key that is there leaves everything in place that the new entry shares with the
old one (`map_entries_set`), and two maps with the same keys in the same order are alike
in every view in which they are read alike (`map_entries_eq`).
-/

namespace BeaconDex.Library

/-- Entries of type `α`, each under its key `key a`. -/
structure KeyedList {κ α : Type*} (key : α → κ) where
  entries : List α
  nodup : (entries.map key).Nodup

namespace KeyedList

variable {κ α : Type*} [DecidableEq κ] {key : α → κ} {m : KeyedList key} {k : κ} {a b : α}

def empty : KeyedList key := ⟨[], List.nodup_nil⟩

def find? (m : KeyedList key) (k : κ) : Option α := m.entries.find? fun a => key a = k

/-- The entries after `a` is written. -/
def written (m : KeyedList key) (a : α) : List α :=
  if (m.find? (key a)).isSome then m.entries.map fun b => if key b = key a then a else b
  else m.entries ++ [a]

theorem find?_eq_none : m.find? k = none ↔ k ∉ m.entries.map key := by
  simp [find?]

/-- What is found under a key is the element with this key. -/
theorem find?_eq_some : m.find? k = some a ↔ a ∈ m.entries ∧ key a = k := by
  constructor
  · intro h
    exact ⟨List.mem_of_find?_eq_some h, by simpa using List.find?_some h⟩
  · rintro ⟨ha, rfl⟩
    cases hfind : m.find? (key a) with
    | none => exact absurd (List.mem_map_of_mem ha) (find?_eq_none.mp hfind)
    | some b =>
        have hb := List.mem_of_find?_eq_some hfind
        have hkey : key b = key a := by simpa using List.find?_some hfind
        rw [List.inj_on_of_nodup_map m.nodup hb ha hkey]

/-- Replacing an entry by one with its own key changes no key. -/
theorem map_key_replace (entries : List α) (a : α) :
    (entries.map fun b => if key b = key a then a else b).map key = entries.map key := by
  rw [List.map_map]
  apply List.map_congr_left
  intro b _
  by_cases h : key b = key a <;> simp [h]

theorem written_nodup (m : KeyedList key) (a : α) : ((m.written a).map key).Nodup := by
  unfold written
  split
  · rw [map_key_replace]
    exact m.nodup
  · next hnone =>
      rw [Option.not_isSome_iff_eq_none, find?_eq_none] at hnone
      rw [List.map_append, List.map_singleton, List.nodup_append]
      refine ⟨m.nodup, List.nodup_singleton _, ?_⟩
      rintro k hk k' hk' rfl
      rw [List.mem_singleton] at hk'
      exact hnone (hk' ▸ hk)

/-- A written element replaces the one with its key. -/
theorem mem_written : b ∈ m.written a ↔ b = a ∨ b ∈ m.entries ∧ key b ≠ key a := by
  unfold written
  split
  · next hsome =>
      obtain ⟨old, hfind⟩ := Option.isSome_iff_exists.mp hsome
      obtain ⟨hold, hkey⟩ := find?_eq_some.mp hfind
      rw [List.mem_map]
      constructor
      · rintro ⟨c, hc, rfl⟩
        by_cases hca : key c = key a
        · exact .inl (if_pos hca)
        · rw [if_neg hca]
          exact .inr ⟨hc, hca⟩
      · rintro (rfl | ⟨hb, hba⟩)
        · exact ⟨old, hold, if_pos hkey⟩
        · exact ⟨b, hb, if_neg hba⟩
  · next hnone =>
      rw [Option.not_isSome_iff_eq_none, find?_eq_none] at hnone
      have hfresh : ∀ c ∈ m.entries, key c ≠ key a := fun c hc heq =>
        hnone (heq ▸ List.mem_map_of_mem hc)
      rw [List.mem_append, List.mem_singleton, or_comm]
      exact or_congr_right ⟨fun hb => ⟨hb, hfresh b hb⟩, And.left⟩

/-- Write `a` under its key. -/
def set (m : KeyedList key) (a : α) : KeyedList key := ⟨m.written a, m.written_nodup a⟩

/-- Writing changes what is found under one key. -/
theorem find?_set (m : KeyedList key) (a : α) (k : κ) :
    (m.set a).find? k = if k = key a then some a else m.find? k := by
  ext b
  have hmem : (m.set a).find? k = some b ↔ b ∈ m.written a ∧ key b = k := find?_eq_some
  rw [hmem, mem_written]
  by_cases hk : k = key a
  · rw [if_pos hk, Option.some.injEq, hk]
    constructor
    · rintro ⟨rfl | ⟨-, hne⟩, heq⟩
      · rfl
      · exact absurd heq hne
    · rintro rfl
      exact ⟨.inl rfl, rfl⟩
  · rw [if_neg hk, find?_eq_some]
    constructor
    · rintro ⟨rfl | ⟨hb, -⟩, heq⟩
      · exact absurd heq.symm hk
      · exact ⟨hb, heq⟩
    · rintro ⟨hb, rfl⟩
      exact ⟨.inr ⟨hb, hk⟩, rfl⟩

/-- A new key comes last, as in a map of the language. -/
theorem entries_set_of_none (h : m.find? (key a) = none) : (m.set a).entries = m.entries ++ [a] :=
  if_neg (by rw [h]; exact Bool.false_ne_true)

/-- What an entry shares with the one it replaces stays where it was. -/
theorem map_entries_set {γ : Type*} {f : α → γ} (h : m.find? (key a) = some b) (hf : f b = f a) :
    (m.set a).entries.map f = m.entries.map f := by
  have hentries : (m.set a).entries = m.entries.map fun c => if key c = key a then a else c :=
    if_pos (by rw [h]; rfl)
  obtain ⟨hb, hkey⟩ := find?_eq_some.mp h
  rw [hentries, List.map_map]
  refine List.map_congr_left fun c hc => ?_
  rw [Function.comp_apply]
  split
  · next hcb =>
    rw [← hf, List.inj_on_of_nodup_map m.nodup hc hb (hcb.trans hkey.symm)]
  · rfl

/-- A new key comes last. -/
theorem map_key_set (m : KeyedList key) (a : α) : (m.set a).entries.map key =
    if (m.find? (key a)).isSome then m.entries.map key else m.entries.map key ++ [key a] := by
  cases h : m.find? (key a) with
  | none => rw [entries_set_of_none h, List.map_append]; rfl
  | some b => exact map_entries_set h (find?_eq_some.mp h).2

omit [DecidableEq κ] in
/-- Lists of entries are told apart by their keys. -/
theorem eq_of_map_key_eq {l l' : List α} (hl : l ⊆ m.entries) (hl' : l' ⊆ m.entries)
    (h : l.map key = l'.map key) : l = l' := by
  rw [← List.forall₂_eq_eq_eq, List.forall₂_map_left_iff, List.forall₂_map_right_iff] at h
  rw [← List.forall₂_eq_eq_eq]
  refine List.forall₂_iff_zip.mpr ⟨h.length_eq, fun {a b} hmem => ?_⟩
  obtain ⟨ha, hb⟩ := List.of_mem_zip hmem
  exact List.inj_on_of_nodup_map m.nodup (hl ha) (hl' hb) ((List.forall₂_iff_zip.mp h).2 hmem)

/-- **Read alike, listed alike**: two maps with the same keys in the same order. -/
theorem map_entries_eq {β γ : Type*} {key' : β → κ} {m' : KeyedList key'} {f : α → γ} {g : β → γ}
    (hkeys : m.entries.map key = m'.entries.map key')
    (h : ∀ k, (m.find? k).map f = (m'.find? k).map g) : m.entries.map f = m'.entries.map g := by
  have hzip : List.Forall₂ (fun a b => key a = key' b) m.entries m'.entries := by
    rw [← List.forall₂_eq_eq_eq, List.forall₂_map_left_iff, List.forall₂_map_right_iff] at hkeys
    exact hkeys
  have hviews : List.Forall₂ (fun a b => f a = g b) m.entries m'.entries := by
    refine List.forall₂_iff_zip.mpr ⟨hzip.length_eq, fun {a b} hmem => ?_⟩
    obtain ⟨ha, hb⟩ := List.of_mem_zip hmem
    have hread := h (key a)
    rw [find?_eq_some.mpr ⟨ha, rfl⟩, (List.forall₂_iff_zip.mp hzip).2 hmem,
      find?_eq_some.mpr ⟨hb, rfl⟩] at hread
    exact Option.some.inj hread
  rw [← List.forall₂_eq_eq_eq, List.forall₂_map_left_iff, List.forall₂_map_right_iff]
  exact hviews

end KeyedList

/-! ## A run of writes -/

/-- What is read under a key after a run of writes, when the writes to it agree. -/
theorem read_foldl_write {σ α κ β : Type*} [DecidableEq κ] {write : σ → α → σ} {read : σ → κ → β}
    {key : α → κ} {value : α → β}
    (hwrite : ∀ s a k, read (write s a) k = if k = key a then value a else read s k)
    {writes : List α} {s : σ} {k : κ} {v : β} (hmem : ∃ a ∈ writes, key a = k)
    (hvalue : ∀ a ∈ writes, key a = k → value a = v) : read (writes.foldl write s) k = v := by
  induction writes using List.reverseRecOn with
  | nil =>
      obtain ⟨a, ha, -⟩ := hmem
      exact absurd ha List.not_mem_nil
  | append_singleton writes last ih =>
      rw [List.foldl_append, List.foldl_cons, List.foldl_nil, hwrite]
      split
      · next heq => exact hvalue last (by simp) heq.symm
      · next hne =>
          -- the last write is to another key
          obtain ⟨a, ha, hkey⟩ := hmem
          refine ih ⟨a, ?_, hkey⟩ fun a ha => hvalue a (List.mem_append_left _ ha)
          obtain ha | ha := List.mem_append.mp ha
          · exact ha
          · obtain rfl := List.mem_singleton.mp ha
            exact absurd hkey.symm hne

end BeaconDex.Library
