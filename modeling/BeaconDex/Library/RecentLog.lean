import Mathlib.Data.List.Induction
import Mathlib.Data.List.Nodup

/-!
# Logs of recent entries

A log lists its entries newest first, one under each key, and is cut to a capacity
after every edit: an entry is pushed in front, in place of the one with its key, or all
entries of a kind are dropped.

An entry leaves the log in three ways: another takes its key, it is dropped, or it is
cut off.  `mem_recent_iff` says exactly when none of them has happened.  The entries in
front of one are those of the log that starts after it, so it is cut off where that log
would not fit.

## An account of the past

The list of edits determines the log, but not the other way around.  The main result
therefore looks at the edits that came after the one which pushed an entry, and asks
three questions of them, which the log alone does not answer.
-/

namespace BeaconDex.Library

/-- **An edit of a log**: an entry is pushed on its front, or all entries of a kind are
dropped. -/
inductive LogEdit (α : Type*)
  | push (a : α)
  | drop (gone : α → Bool)

namespace LogEdit

variable {κ α : Type*} [DecidableEq κ]

/-- What an edit adds. -/
def pushed : LogEdit α → List α
  | push a => [a]
  | drop _ => []

/-- What was there and stays. -/
def spares (key : α → κ) : LogEdit α → α → Bool
  | push a, b => key b ≠ key a
  | drop gone, b => !gone b

/-- An edit takes out what it does not spare, and adds in front what it pushes. -/
def apply (key : α → κ) (log : List α) (edit : LogEdit α) : List α :=
  edit.pushed ++ log.filter (edit.spares key)

variable {key : α → κ} {edit : LogEdit α} {log : List α} {a : α}

/-- An edit acts on the front of a log as on a log, and takes out of the rest what it does
not spare. -/
theorem apply_append (log rest : List α) (edit : LogEdit α) :
    edit.apply key (log ++ rest) = edit.apply key log ++ rest.filter (edit.spares key) := by
  rw [apply, apply, List.filter_append, List.append_assoc]

/-- After an edit, an entry is there if it was pushed, or was there and is spared. -/
theorem mem_apply : a ∈ edit.apply key log ↔
    edit = push a ∨ a ∈ log ∧ edit.spares key a = true := by
  rw [apply, List.mem_append, List.mem_filter]
  cases edit with
  | push b => simp only [pushed, List.mem_singleton, push.injEq, eq_comm]
  | drop gone => simp [pushed]

/-- An edit that spares an entry pushes another one. -/
theorem not_mem_apply (hspares : edit.spares key a = true) (h : a ∉ log) :
    a ∉ edit.apply key log := by
  rw [mem_apply]
  rintro (rfl | ⟨ha, -⟩)
  · simp [spares] at hspares
  · exact h ha

theorem apply_nodup (h : (log.map key).Nodup) : ((edit.apply key log).map key).Nodup := by
  have hrest : ((log.filter (edit.spares key)).map key).Nodup :=
    h.sublist (List.filter_sublist.map key)
  cases edit with
  | push b =>
      refine List.nodup_cons.mpr ⟨?_, hrest⟩
      rintro hmem
      obtain ⟨c, hc, hkey⟩ := List.mem_map.mp hmem
      have hne : key c ≠ key b := by simpa [spares] using List.of_mem_filter hc
      exact hne hkey
  | drop gone => exact hrest

end LogEdit

section

variable {κ α : Type*} [DecidableEq κ]

/-- The log after some edits, cut to `cap` entries each time. -/
def recent (key : α → κ) (cap : ℕ) (log : List α) (edits : List (LogEdit α)) : List α :=
  edits.foldl (fun log edit => (edit.apply key log).take cap) log

/-- The same without a capacity, from the empty log. -/
def uncut (key : α → κ) (edits : List (LogEdit α)) : List α :=
  edits.foldl (LogEdit.apply key) []

variable {key : α → κ} {cap : ℕ} {log rest : List α} {edits : List (LogEdit α)} {a : α}

theorem recent_concat (log : List α) (edits : List (LogEdit α)) (edit : LogEdit α) :
    recent key cap log (edits ++ [edit]) = (edit.apply key (recent key cap log edits)).take cap := by
  rw [recent, List.foldl_append]
  rfl

/-- Edits can be made in two goes. -/
theorem recent_append (log : List α) (edits edits' : List (LogEdit α)) :
    recent key cap log (edits ++ edits') = recent key cap (recent key cap log edits) edits' :=
  List.foldl_append

theorem uncut_concat (edits : List (LogEdit α)) (edit : LogEdit α) :
    uncut key (edits ++ [edit]) = edit.apply key (uncut key edits) := by
  rw [uncut, List.foldl_append]
  rfl

/-- A log has at most its capacity. -/
theorem length_recent (edits : List (LogEdit α)) : (recent key cap [] edits).length ≤ cap := by
  induction edits using List.reverseRecOn with
  | nil => exact cap.zero_le
  | append_singleton edits edit _ =>
      rw [recent_concat]
      exact List.length_take_le _ _

/-- It has one entry under each key. -/
theorem recent_nodup (edits : List (LogEdit α)) : ((recent key cap [] edits).map key).Nodup := by
  induction edits using List.reverseRecOn with
  | nil => exact List.nodup_nil
  | append_singleton edits edit ih =>
      rw [recent_concat]
      exact (LogEdit.apply_nodup ih).sublist ((List.take_sublist _ _).map key)

/-- What is in the log was pushed, and spared since. -/
theorem exists_push_of_mem (h : a ∈ recent key cap [] edits) : ∃ before after,
    edits = before ++ .push a :: after ∧ ∀ edit ∈ after, edit.spares key a = true := by
  induction edits using List.reverseRecOn with
  | nil => cases h
  | append_singleton edits edit ih =>
      rw [recent_concat] at h
      rcases LogEdit.mem_apply.mp (List.mem_of_mem_take h) with rfl | ⟨ha, hspares⟩
      · exact ⟨edits, [], rfl, by simp⟩
      · obtain ⟨before, after, rfl, hafter⟩ := ih ha
        refine ⟨before, after ++ [edit], by simp, ?_⟩
        intro e he
        rcases List.mem_append.mp he with he | he
        · exact hafter e he
        · rwa [List.mem_singleton.mp he]

/-- What edits spare, they do not push. -/
theorem not_mem_uncut (hspared : ∀ edit ∈ edits, edit.spares key a = true) :
    a ∉ uncut key edits := by
  induction edits using List.reverseRecOn with
  | nil => simp [uncut]
  | append_singleton edits edit ih =>
      rw [uncut_concat]
      exact LogEdit.not_mem_apply (hspared edit (by simp))
        (ih fun e he => hspared e (List.mem_append_left _ he))

/-- As long as they fit, the entries that are pushed after one stand in front of it. -/
theorem exists_recent_eq (hspared : ∀ edit ∈ edits, edit.spares key a = true)
    (hfits : ∀ done, done <+: edits → (uncut key done).length < cap) :
    ∃ rest', recent key cap (a :: rest) edits = uncut key edits ++ a :: rest' := by
  induction edits using List.reverseRecOn with
  | nil => exact ⟨rest, rfl⟩
  | append_singleton edits edit ih =>
      obtain ⟨rest', hrecent⟩ := ih (fun e he => hspared e (List.mem_append_left _ he))
        fun done hdone => hfits done (hdone.trans (List.prefix_append _ _))
      have hlength := hfits _ List.prefix_rfl
      rw [uncut_concat] at hlength
      have hkept : (a :: rest').filter (edit.spares key) = a :: rest'.filter (edit.spares key) :=
        List.filter_cons_of_pos (hspared edit (by simp))
      obtain ⟨room, hroom⟩ : ∃ room, cap = (edit.apply key (uncut key edits)).length + (room + 1) :=
        ⟨cap - (edit.apply key (uncut key edits)).length - 1, by omega⟩
      refine ⟨(rest'.filter (edit.spares key)).take room, ?_⟩
      rw [recent_concat, hrecent, LogEdit.apply_append, hkept, uncut_concat, hroom,
        List.take_length_add_append, List.take_succ_cons]

/-- An entry is cut off where those in front of it do not fit. -/
theorem mem_recent_cons_iff (hcap : 0 < cap)
    (hspared : ∀ edit ∈ edits, edit.spares key a = true) :
    a ∈ recent key cap (a :: rest) edits ↔
      ∀ done, done <+: edits → (uncut key done).length < cap := by
  induction edits using List.reverseRecOn with
  | nil => simpa [recent, uncut] using hcap
  | append_singleton edits edit ih =>
      have hbefore : ∀ e ∈ edits, e.spares key a = true :=
        fun e he => hspared e (List.mem_append_left _ he)
      have hspares : edit.spares key a = true := hspared edit (by simp)
      have hbegins : (∀ done, done <+: edits ++ [edit] → (uncut key done).length < cap) ↔
          (∀ done, done <+: edits → (uncut key done).length < cap) ∧
            (edit.apply key (uncut key edits)).length < cap := by
        simp only [List.prefix_concat_iff, or_imp, forall_and, forall_eq, uncut_concat, and_comm]
      rw [hbegins]
      by_cases hfits : ∀ done, done <+: edits → (uncut key done).length < cap
      · refine ⟨fun h => ⟨hfits, ?_⟩, fun ⟨_, hlength⟩ => ?_⟩
        · -- the entries in front leave no room for it
          by_contra hover
          obtain ⟨rest', hrecent⟩ := exists_recent_eq hbefore hfits
          rw [recent_concat, hrecent, LogEdit.apply_append,
            List.take_append_of_le_length (Nat.not_lt.mp hover)] at h
          exact LogEdit.not_mem_apply hspares (not_mem_uncut hbefore) (List.mem_of_mem_take h)
        · obtain ⟨rest', hrecent⟩ := exists_recent_eq hspared (hbegins.mpr ⟨hfits, hlength⟩)
          rw [hrecent]
          exact List.mem_append_right _ List.mem_cons_self
      · refine ⟨fun h => ?_, fun h => absurd h.1 hfits⟩
        rw [recent_concat] at h
        exact absurd (List.mem_of_mem_take h)
          (LogEdit.not_mem_apply hspares fun ha => hfits ((ih hbefore).mp ha))

/-- **What a log of recent entries has**: what was pushed and has been spared since,
as long as the entries that were pushed after it have left it room. -/
theorem mem_recent_iff : a ∈ recent key cap [] edits ↔ ∃ before after,
    edits = before ++ .push a :: after ∧ (∀ edit ∈ after, edit.spares key a = true) ∧
      ∀ done, done <+: after → (uncut key done).length < cap := by
  have hstart : ∀ before after : List (LogEdit α), 0 < cap → ∃ rest,
      recent key cap [] (before ++ .push a :: after) = recent key cap (a :: rest) after := by
    intro before after hcap
    obtain ⟨room, rfl⟩ := Nat.exists_eq_add_of_lt hcap
    exact ⟨_, by rw [recent_append]; rfl⟩
  constructor
  · intro h
    have hcap : 0 < cap := Nat.lt_of_lt_of_le (List.length_pos_of_mem h) (length_recent edits)
    obtain ⟨before, after, rfl, hafter⟩ := exists_push_of_mem h
    obtain ⟨rest, hrest⟩ := hstart before after hcap
    exact ⟨before, after, rfl, hafter, (mem_recent_cons_iff hcap hafter).mp (hrest ▸ h)⟩
  · rintro ⟨before, after, rfl, hafter, hfits⟩
    have hcap : 0 < cap := Nat.lt_of_le_of_lt (Nat.zero_le _) (hfits [] List.nil_prefix)
    obtain ⟨rest, hrest⟩ := hstart before after hcap
    exact hrest ▸ (mem_recent_cons_iff hcap hafter).mpr hfits

end

end BeaconDex.Library
