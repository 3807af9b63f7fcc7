import BeaconDex.Backend.TakeSummary
import BeaconDex.Library.RecentLog
import Mathlib.Data.List.Sort

/-!
# The transaction history

`frontend/lib/history.ts`.  The browser keeps what it has submitted: the newest 200
entries, one for each transaction, which an owner can clear.  Nothing else removes
them, so `historyForOwner_shown` says exactly which entries an owner sees: those that
were recorded for them or for nobody, have not been recorded again or cleared since, and
have never had 200 others before them.

What is stored is a list of entries; where nothing is stored, or what is stored is no
list, it is read as the empty one.  A call whose write the browser refuses changes
nothing and is left out of `calls`.
-/

namespace BeaconDex.Frontend

open Library
open Backend (Str)

/-- A submitted transaction, as the history lists it. -/
structure HistoryEntry (Summary : Type*) where
  txHash : Str
  timestamp : ℤ
  /-- The staking key the transaction is listed under, if it could be told. -/
  owner : Option Str
  summary : Summary

/-- How many entries are kept. -/
def MAX_ENTRIES : ℕ := 200

section Store

variable {Summary : Type*}

/-- What is stored is cut off after the newest entries. -/
def write (entries : List (HistoryEntry Summary)) : List (HistoryEntry Summary) :=
  entries.take MAX_ENTRIES

/-- A new entry comes first.  One of the same transaction is replaced. -/
def recordHistory (stored : List (HistoryEntry Summary)) (entry : HistoryEntry Summary) :
    List (HistoryEntry Summary) :=
  write (entry :: stored.filter fun e => e.txHash ≠ entry.txHash)

/-- `none` stands for the call without an argument, which wipes all. -/
def clearHistory (stored : List (HistoryEntry Summary)) (owner : Option (Option Str)) :
    List (HistoryEntry Summary) :=
  match owner with
  | none => write []
  | some owner => write (stored.filter fun e => e.owner ≠ owner ∧ e.owner ≠ none)

/-- All entries, newest first. -/
def loadHistory (stored : List (HistoryEntry Summary)) : List (HistoryEntry Summary) :=
  stored.insertionSort fun a b => b.timestamp ≤ a.timestamp

/-- Those of one owner and of nobody. -/
def historyForOwner (stored : List (HistoryEntry Summary)) (owner : Option Str) :
    List (HistoryEntry Summary) :=
  (loadHistory stored).filter fun e => e.owner = owner ∨ e.owner = none

/-- Recording adds its entry and no other. -/
theorem mem_recordHistory {stored : List (HistoryEntry Summary)} {entry e : HistoryEntry Summary}
    (h : e ∈ recordHistory stored entry) : e = entry ∨ e ∈ stored :=
  (List.mem_cons.mp (List.mem_of_mem_take h)).imp_right List.mem_of_mem_filter

/-- Clearing adds none. -/
theorem mem_clearHistory {stored : List (HistoryEntry Summary)} {owner : Option (Option Str)}
    {e : HistoryEntry Summary} (h : e ∈ clearHistory stored owner) : e ∈ stored := by
  cases owner with
  | none => cases List.mem_of_mem_take h
  | some owner => exact List.mem_of_mem_filter (List.mem_of_mem_take h)

/-! ## Calls -/

/-- The two calls that write the history. -/
inductive HistoryCall (Summary : Type*)
  | recordHistory (entry : HistoryEntry Summary)
  | clearHistory (owner : Option (Option Str))

/-- What is stored after a call. -/
def HistoryCall.run (stored : List (HistoryEntry Summary)) :
    HistoryCall Summary → List (HistoryEntry Summary)
  | recordHistory entry => Frontend.recordHistory stored entry
  | clearHistory owner => Frontend.clearHistory stored owner

/-- What is stored after some calls. -/
def storedAfter (calls : List (HistoryCall Summary)) : List (HistoryEntry Summary) :=
  calls.foldl HistoryCall.run []

/-- Does clearing for `owner` remove the entry? -/
def clears (owner : Option (Option Str)) (e : HistoryEntry Summary) : Bool :=
  owner.all fun owner => e.owner = owner ∨ e.owner = none

/-- The entry stays: it is not recorded again, and not cleared. -/
def HistoryCall.Keeps (e : HistoryEntry Summary) : HistoryCall Summary → Prop
  | recordHistory entry => entry.txHash ≠ e.txHash
  | clearHistory owner => clears owner e = false

/-- A call as an edit of a log: an entry is pushed, or an owner's are dropped. -/
def HistoryCall.edit : HistoryCall Summary → LogEdit (HistoryEntry Summary)
  | recordHistory entry => .push entry
  | clearHistory owner => .drop (clears owner)

/-- What would be stored without a limit. -/
def allAfter (calls : List (HistoryCall Summary)) : List (HistoryEntry Summary) :=
  uncut HistoryEntry.txHash (calls.map HistoryCall.edit)

/-!
## What is stored

The calls as edits of a log, so that what is stored is what `Library.RecentLog` says,
and what an owner sees of it.
-/

variable {calls : List (HistoryCall Summary)} {call : HistoryCall Summary}
variable {e : HistoryEntry Summary} {owner : Option Str}

/-- Each call is an edit of a log that is cut to its capacity, -/
theorem HistoryCall.run_eq (stored : List (HistoryEntry Summary)) (call : HistoryCall Summary) :
    call.run stored = (call.edit.apply HistoryEntry.txHash stored).take MAX_ENTRIES := by
  cases call with
  | recordHistory entry => rfl
  | clearHistory owner =>
      cases owner with
      | none =>
          have hnone : stored.filter (fun _ => false) = [] := List.filter_false stored
          show [].take MAX_ENTRIES = (stored.filter fun _ => false).take MAX_ENTRIES
          rw [hnone]
      | some owner =>
          refine congrArg (List.take MAX_ENTRIES) (List.filter_congr fun e _ => ?_)
          simp [HistoryCall.edit, LogEdit.spares, clears]

/-- so what is stored after any calls is the log of their edits. -/
theorem storedAfter_eq (calls : List (HistoryCall Summary)) :
    storedAfter calls =
      recent HistoryEntry.txHash MAX_ENTRIES [] (calls.map HistoryCall.edit) := by
  rw [storedAfter, recent, List.foldl_map]
  congr 1
  funext stored call
  exact call.run_eq stored

theorem spares_edit : call.edit.spares HistoryEntry.txHash e = true ↔ call.Keeps e := by
  cases call with
  | recordHistory entry =>
      rw [HistoryCall.edit, LogEdit.spares, decide_eq_true_eq]
      exact ne_comm
  | clearHistory owner =>
      rw [HistoryCall.edit, LogEdit.spares, Bool.not_eq_true']
      rfl

/-- **What is stored**: the entries that were recorded and kept, as long as there
were not too many after them. -/
theorem mem_storedAfter : e ∈ storedAfter calls ↔ ∃ before after,
    calls = before ++ .recordHistory e :: after ∧ (∀ call ∈ after, call.Keeps e) ∧
      ∀ done, done <+: after → (allAfter done).length < MAX_ENTRIES := by
  rw [storedAfter_eq, mem_recent_iff]
  constructor
  · rintro ⟨_, _, hcalls, hspared, hfits⟩
    obtain ⟨before, rest, rfl, rfl, hrest⟩ := List.map_eq_append_iff.mp hcalls
    obtain ⟨call, after, rfl, hcall, rfl⟩ := List.map_eq_cons_iff.mp hrest
    cases call with
    | clearHistory owner => cases hcall
    | recordHistory entry =>
        obtain rfl : entry = e := LogEdit.push.inj hcall
        refine ⟨before, after, rfl, fun call h => ?_, fun done hdone => hfits _ (hdone.map _)⟩
        exact spares_edit.mp (hspared _ (List.mem_map_of_mem h))
  · rintro ⟨before, after, rfl, hkept, hfits⟩
    refine ⟨before.map HistoryCall.edit, after.map HistoryCall.edit, by simp [HistoryCall.edit],
      ?_, ?_⟩
    · intro edit hedit
      obtain ⟨call, hcall, rfl⟩ := List.mem_map.mp hedit
      exact spares_edit.mpr (hkept call hcall)
    · intro done hdone
      obtain ⟨done', hdone', rfl⟩ := List.prefix_map_iff.mp hdone
      exact hfits done' hdone'

/-- What an owner sees after some calls: the newest entries first, no transaction twice,
and exactly those entries, their own or nobody's, that were recorded, not replaced or
cleared since, and not pushed out by newer ones. -/
structure ShownAfter (calls : List (HistoryCall Summary)) (owner : Option Str)
    (shown : List (HistoryEntry Summary)) : Prop where
  newestFirst : shown.Pairwise fun a b => b.timestamp ≤ a.timestamp
  distinct : (shown.map HistoryEntry.txHash).Nodup
  entries : ∀ e, e ∈ shown ↔ (e.owner = owner ∨ e.owner = none) ∧ ∃ before after,
    calls = before ++ .recordHistory e :: after ∧ (∀ call ∈ after, call.Keeps e) ∧
      ∀ done, done <+: after → (allAfter done).length < MAX_ENTRIES

/-- **What an owner sees**, after any calls in any order: each transaction once,
newest first, and exactly what was recorded for the owner or for nobody, was neither
recorded again nor cleared since, and has never had 200 entries after it. -/
theorem historyForOwner_shown (calls : List (HistoryCall Summary)) (owner : Option Str) :
    ShownAfter calls owner (historyForOwner (storedAfter calls) owner) where
  newestFirst := by
    have htotal : Std.Total fun a b : HistoryEntry Summary => b.timestamp ≤ a.timestamp :=
      ⟨fun a b => le_total b.timestamp a.timestamp⟩
    have htrans : IsTrans (HistoryEntry Summary) fun a b => b.timestamp ≤ a.timestamp :=
      ⟨fun a b c hab hbc => hbc.trans hab⟩
    exact (List.pairwise_insertionSort _ _).sublist List.filter_sublist
  distinct := by
    have hstored : ((storedAfter calls).map HistoryEntry.txHash).Nodup := by
      rw [storedAfter_eq]
      exact recent_nodup _
    have hsorted : ((loadHistory (storedAfter calls)).map HistoryEntry.txHash).Nodup :=
      ((List.perm_insertionSort _ _).map _).nodup_iff.mpr hstored
    exact hsorted.sublist (List.filter_sublist.map _)
  entries e := by
    rw [historyForOwner, List.mem_filter, loadHistory, List.mem_insertionSort, mem_storedAfter,
      decide_eq_true_eq, and_comm]

end Store

end BeaconDex.Frontend
