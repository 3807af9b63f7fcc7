import BeaconDex.Library.KeyedList
import Mathlib.Data.List.Chain
import Mathlib.Data.List.Perm.Basic

/-!
# Groups and trails

Two ways to arrange a list.  Grouping puts together what has one key, the groups in
the order in which their keys first occur (`grouped`): the group of a key is the
sublist of what has it (`find?_grouped`), and nothing is lost (`perm_flatMap_grouped`).

A trail follows links from element to element until they end or come back
(`trail`).  It ends whatever the links are, passes no element twice
(`nodup_trail`), and where the links are those of one path it is that path
(`trail_eq_path`).

## Links that are not a path

Links may come from stored rows, which nothing forces to be a path: they may branch,
meet or go round.  A trail is therefore defined by recursion on what has not been
visited, and what holds of it without assumptions is kept apart from what holds of it on
a path.
-/

namespace BeaconDex.Library

variable {κ α : Type*} [DecidableEq κ]

/-!
## Groups

Elements are added to the group of their key, or begin one.  Groups keep the order in
which they were begun, elements the order of the list.
-/

/-- The elements of one key, at least one. -/
structure Group (κ α : Type*) where
  name : κ
  members : List α
  members_ne_nil : members ≠ []

/-- Put `a` at the end of its group. -/
def addTo (key : α → κ) (groups : KeyedList (Group.name (κ := κ) (α := α))) (a : α) :
    KeyedList (Group.name (κ := κ) (α := α)) :=
  match groups.find? (key a) with
  | some g => groups.set ⟨key a, g.members ++ [a], by simp⟩
  | none => groups.set ⟨key a, [a], by simp⟩

/-- The groups of a list. -/
def grouped (key : α → κ) (xs : List α) : KeyedList (Group.name (κ := κ) (α := α)) :=
  xs.foldl (addTo key) .empty

variable {key : α → κ} {xs : List α} {k : κ}

/-- **A group is what has its key.** -/
theorem find?_grouped (key : α → κ) (xs : List α) (k : κ) :
    ((grouped key xs).find? k).elim [] Group.members = xs.filter fun a => key a = k := by
  induction xs using List.reverseRecOn with
  | nil => rfl
  | append_singleton xs a ih =>
      rw [grouped, List.foldl_append, List.foldl_cons, List.foldl_nil, List.filter_append,
        ← ih]
      show ((addTo key (grouped key xs) a).find? k).elim [] Group.members = _
      unfold addTo
      by_cases hk : k = key a
      · subst hk
        split
        · next g hg => simp [KeyedList.find?_set, hg]
        · next hnone => simp [KeyedList.find?_set, hnone]
      · have hother : [a].filter (fun a => decide (key a = k)) = [] := by simp [Ne.symm hk]
        rw [hother, List.append_nil]
        split <;> rw [KeyedList.find?_set, if_neg hk]

theorem members_of_mem_grouped {g : Group κ α} (h : g ∈ (grouped key xs).entries) :
    g.members = xs.filter fun a => key a = g.name := by
  have hfind : (grouped key xs).find? g.name = some g := KeyedList.find?_eq_some.mpr ⟨h, rfl⟩
  rw [← find?_grouped key xs g.name, hfind]
  rfl

/-- Every element is in a group, that of its key. -/
theorem exists_group_of_mem (key : α → κ) {a : α} (h : a ∈ xs) :
    ∃ g ∈ (grouped key xs).entries, g.name = key a ∧ a ∈ g.members := by
  have hmem : a ∈ xs.filter fun b => key b = key a := List.mem_filter.mpr ⟨h, by simp⟩
  rw [← find?_grouped key xs (key a)] at hmem
  cases hfind : (grouped key xs).find? (key a) with
  | none =>
      rw [hfind] at hmem
      exact absurd hmem List.not_mem_nil
  | some g =>
      rw [hfind] at hmem
      obtain ⟨hg, hname⟩ := KeyedList.find?_eq_some.mp hfind
      exact ⟨g, hg, hname, hmem⟩

/-- Everything in the list is in some group, and nothing else. -/
theorem exists_group_iff (key : α → κ) {a : α} :
    (∃ g ∈ (grouped key xs).entries, a ∈ g.members) ↔ a ∈ xs := by
  constructor
  · rintro ⟨g, hg, ha⟩
    rw [members_of_mem_grouped hg] at ha
    exact (List.mem_filter.mp ha).1
  · intro ha
    obtain ⟨g, hg, -, hmem⟩ := exists_group_of_mem key ha
    exact ⟨g, hg, hmem⟩

/-- **Grouping loses nothing and repeats nothing**, also if each group is arranged
anew. -/
theorem perm_flatMap_grouped (hnodup : xs.Nodup) {arrange : Group κ α → List α}
    (harrange : ∀ g ∈ (grouped key xs).entries, (arrange g).Perm g.members) :
    ((grouped key xs).entries.flatMap arrange).Perm xs := by
  have hmember : ∀ g ∈ (grouped key xs).entries, ∀ a ∈ arrange g, key a = g.name := by
    intro g hg a ha
    have hfilter : a ∈ xs.filter fun b => key b = g.name := by
      rw [← members_of_mem_grouped hg]
      exact (harrange g hg).mem_iff.mp ha
    exact of_decide_eq_true (List.mem_filter.mp hfilter).2
  have hflat : ((grouped key xs).entries.flatMap arrange).Nodup := by
    rw [List.nodup_flatMap]
    refine ⟨?_, ?_⟩
    · intro g hg
      rw [(harrange g hg).nodup_iff, members_of_mem_grouped hg]
      exact hnodup.filter _
    · -- Two groups share no element, having different keys.
      have hnames := List.pairwise_map.mp (grouped key xs).nodup
      refine hnames.imp_of_mem ?_
      intro g g' hg hg' hne a ha ha'
      exact hne ((hmember g hg a ha).symm.trans (hmember g' hg' a ha'))
  rw [List.perm_ext_iff_of_nodup hflat hnodup]
  intro a
  rw [List.mem_flatMap, ← exists_group_iff key]
  constructor
  · rintro ⟨g, hg, ha⟩
    exact ⟨g, hg, (harrange g hg).mem_iff.mp ha⟩
  · rintro ⟨g, hg, ha⟩
    exact ⟨g, hg, (harrange g hg).mem_iff.mpr ha⟩

/-!
## Trails

The recursion is on the elements that have not been passed, so a trail along a circle
ends where it comes back.
-/

/-- A link to `α` under each of some keys. -/
abbrev Links (κ α : Type*) := KeyedList (Prod.fst : κ × α → κ)

/-- Where the link of `k` leads. -/
def Links.next (links : Links κ α) (k : κ) : Option α := (links.find? k).map Prod.snd

/-- The links not used yet. -/
def unused (links : Links κ α) (seen : List κ) : List (κ × α) :=
  links.entries.filter fun link => link.1 ∉ seen

theorem length_unused_le (links : Links κ α) (seen : List κ) (k : κ) :
    (unused links (k :: seen)).length ≤ (unused links seen).length := by
  refine (List.monotone_filter_right links.entries ?_).length_le
  intro link h
  rw [decide_eq_true_eq, List.mem_cons, not_or] at h
  exact decide_eq_true h.2

/-- Using a link leaves one fewer. -/
theorem length_unused_lt {links : Links κ α} {seen : List κ} {k : κ} {b : α} (hk : k ∉ seen)
    (h : links.next k = some b) :
    (unused links (k :: seen)).length < (unused links seen).length := by
  obtain ⟨⟨k', b'⟩, hfind, -⟩ := Option.map_eq_some_iff.mp h
  obtain ⟨hmem, rfl⟩ := KeyedList.find?_eq_some.mp hfind
  have hsplit : unused links (k' :: seen) =
      (unused links seen).filter fun link => link.1 ≠ k' := by
    rw [unused, unused, List.filter_filter]
    refine List.filter_congr fun link _ => ?_
    simp only [List.mem_cons, not_or, Bool.decide_and]
  rw [hsplit, List.length_filter_lt_length_iff_exists]
  exact ⟨(k', b'), List.mem_filter.mpr ⟨hmem, decide_eq_true hk⟩, by simp⟩

/-- Follow the links from `cur`, until they end or lead to a key of `seen`. -/
def trail (id : α → κ) (links : Links κ α) (cur : Option α) (seen : List κ) : List α :=
  match cur with
  | none => []
  | some a => if id a ∈ seen then [] else a :: trail id links (links.next (id a)) (id a :: seen)
termination_by 2 * (unused links seen).length + (if cur.isSome then 1 else 0)
decreasing_by
  next hseen =>
    cases hnext : links.next (id a) with
    | none =>
        have := length_unused_le links seen (id a)
        simp
        omega
    | some b =>
        have := length_unused_lt hseen hnext
        simp
        omega

variable {id : α → κ} {links : Links κ α} {cur : Option α} {seen : List κ} {a b : α}

@[simp] theorem trail_none : trail id links none seen = [] := by
  rw [trail]

/-- A trail ends at what it has passed. -/
theorem trail_of_mem (h : id a ∈ seen) : trail id links (some a) seen = [] := by
  rw [trail, if_pos h]

/-- And goes on from what it has not. -/
theorem trail_of_notMem (h : id a ∉ seen) :
    trail id links (some a) seen = a :: trail id links (links.next (id a)) (id a :: seen) := by
  rw [trail, if_neg h]

/-- A trail passes no key twice, and none that was seen before. -/
theorem nodup_trail (id : α → κ) (links : Links κ α) (cur : Option α) (seen : List κ) :
    ((trail id links cur seen).map id).Nodup ∧
    ∀ a ∈ trail id links cur seen, id a ∉ seen := by
  induction cur, seen using trail.induct id links with
  | case1 seen => simp
  | case2 seen a hseen => simp [trail_of_mem hseen]
  | case3 seen a hseen ih =>
      rw [trail_of_notMem hseen]
      refine ⟨?_, ?_⟩
      · rw [List.map_cons, List.nodup_cons]
        refine ⟨?_, ih.1⟩
        intro hmem
        obtain ⟨b, hb, heq⟩ := List.mem_map.mp hmem
        exact ih.2 b hb (heq ▸ List.mem_cons_self)
      · intro b hb
        rcases List.mem_cons.mp hb with rfl | hb
        · exact hseen
        · exact fun hmem => ih.2 b hb (List.mem_cons_of_mem _ hmem)

/-- What a trail passes is where it starts, or the end of a link. -/
theorem trail_subset {s : List α} (hcur : ∀ a, cur = some a → a ∈ s)
    (hlinks : ∀ k b, links.next k = some b → b ∈ s) : trail id links cur seen ⊆ s := by
  induction cur, seen using trail.induct id links with
  | case1 seen => simp
  | case2 seen a hseen => simp [trail_of_mem hseen]
  | case3 seen a hseen ih =>
      rw [trail_of_notMem hseen]
      exact List.cons_subset.mpr ⟨hcur a rfl, ih (hlinks (id a))⟩

theorem trail_ne_nil : trail id links (some a) [] ≠ [] := by
  rw [trail_of_notMem List.not_mem_nil]
  exact List.cons_ne_nil _ _

/-- **The trail of a path** is the path: where each element's link leads to the next
one, and the last one has no link. -/
theorem trail_eq_path {rest : List α} (hnodup : ((a :: rest).map id).Nodup)
    (hseen : ∀ b ∈ a :: rest, id b ∉ seen)
    (hlinks : List.IsChain (fun a b => links.next (id a) = some b) (a :: rest))
    (hend : links.next (id ((a :: rest).getLast (by simp))) = none) :
    trail id links (some a) seen = a :: rest := by
  induction rest generalizing a seen with
  | nil =>
      rw [List.getLast_singleton] at hend
      rw [trail_of_notMem (hseen a List.mem_cons_self), hend, trail_none]
  | cons b rest ih =>
      rw [List.map_cons, List.nodup_cons] at hnodup
      rw [List.isChain_cons_cons] at hlinks
      rw [trail_of_notMem (hseen a List.mem_cons_self), hlinks.1]
      congr 1
      refine ih hnodup.2 ?_ hlinks.2 ?_
      · intro c hc hmem
        rcases List.mem_cons.mp hmem with heq | hmem
        · exact hnodup.1 (heq ▸ List.mem_map_of_mem hc)
        · exact hseen c (List.mem_cons_of_mem _ hc) hmem
      · rwa [List.getLast_cons (by simp)] at hend

end BeaconDex.Library
