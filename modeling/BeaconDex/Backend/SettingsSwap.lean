import BeaconDex.Library.Run
import Mathlib.Data.List.Nodup
import Mathlib.Logic.Function.Basic

/-!
# Settings and the running provider

The operator chooses the chain provider while the server runs.  `applySettings` of
`backend/src/index.ts` builds the provider, the transaction builder and the indexer for
the settings a patch leads to, asks the new provider for its tip, lets `SettingsStore`
of `backend/src/services/settings-store.ts` store the patch, and puts what it has built
in the place of what is running.

What is running is then what the stored settings ask for, as long as each call begins
to store its patch on settings that select the same provider and key as the settings it
has built for (`settings_in_step`).  A call that was overtaken by another stores its
patch on settings it has not seen, and runs a provider nobody has stored.

## Between two awaits

A call goes from its start to the check of the provider, from the answer to the write of
the file, and from there to the end.  Answers and files arrive in any order.  A call
whose file is written goes on when its turn comes, in the order of the writes, because
jobs are run in the order in which they are queued.

## What is compared

What is built is known by what it is built from.  The constructors keep the provider
they are given; the scripts, the options, the database and the timer of the indexer are
not part of it.  The file is read only when the process starts; from then on `current`
is what is stored.
-/

namespace BeaconDex.Backend

open Library

/-! ## Settings -/

/-- The two providers that can be chosen. -/
inductive ProviderName
  | blockfrost
  | koios
  deriving DecidableEq

/-- The settings, as they are stored. -/
structure ChainProviderSettings where
  provider : ProviderName
  blockfrostProjectId : String
  koiosApiToken : String
  deriving DecidableEq

/-- `Partial<ChainProviderSettings>`. -/
structure SettingsPatch where
  provider : Option ProviderName
  blockfrostProjectId : Option String
  koiosApiToken : Option String
  deriving DecidableEq

/-- `{ ...settings, ...patch }`. -/
def SettingsPatch.onto (patch : SettingsPatch) (settings : ChainProviderSettings) :
    ChainProviderSettings where
  provider := patch.provider.getD settings.provider
  blockfrostProjectId := patch.blockfrostProjectId.getD settings.blockfrostProjectId
  koiosApiToken := patch.koiosApiToken.getD settings.koiosApiToken

/-- The key relevant to the selected provider. -/
def ChainProviderSettings.activeKey (settings : ChainProviderSettings) : String :=
  if settings.provider = .koios then settings.koiosApiToken else settings.blockfrostProjectId

/-- Two settings that select the same provider with the same key. -/
def SameSelection (settings settings' : ChainProviderSettings) : Prop :=
  settings.provider = settings'.provider ∧ settings.activeKey = settings'.activeKey

instance (settings settings' : ChainProviderSettings) :
    Decidable (SameSelection settings settings') :=
  inferInstanceAs (Decidable (_ ∧ _))

/-! ## What is built from them -/

/-- A `KoiosChainProvider` or a `BlockfrostChainProvider`, as constructed. -/
inductive BuiltProvider
  | koios (token : Option String)
  | blockfrost (projectId : String)
  deriving DecidableEq

/-- A Koios token may be missing: `key || undefined`. -/
def createChainProvider (name : ProviderName) (key : String) : BuiltProvider :=
  match name with
  | .koios => .koios (if key = "" then none else some key)
  | .blockfrost => .blockfrost key

/-- A transaction builder, known by the provider it was given. -/
structure TxBuilder where
  provider : BuiltProvider
  deriving DecidableEq

/-- An indexer, known by the provider it was given. -/
structure OrderIndexer where
  provider : BuiltProvider
  deriving DecidableEq

/-- The metadata service outlives the others and is given the new provider. -/
structure AssetMetadataService where
  provider : Option BuiltProvider
  deriving DecidableEq

/-- What is built from settings.  Without a provider there is nothing to build on. -/
structure Runtime where
  provider : Option BuiltProvider
  txBuilder : Option TxBuilder
  indexer : Option OrderIndexer
  deriving DecidableEq

/-- Provider and everything downstream of it; Blockfrost needs a key. -/
def buildRuntime (s : ChainProviderSettings) : Runtime :=
  let key := if s.provider = .koios then s.koiosApiToken else s.blockfrostProjectId
  let provider :=
    if s.provider = .koios ∨ key ≠ "" then some (createChainProvider s.provider key) else none
  { provider
    txBuilder := provider.map TxBuilder.mk
    indexer := provider.map OrderIndexer.mk }

/-- What is in use. -/
structure AppDeps extends Runtime where
  assetMetadata : AssetMetadataService
  deriving DecidableEq

/-- What has been built, put in use. -/
def hotSwap (built : Runtime) : AppDeps :=
  { built with assetMetadata := ⟨built.provider⟩ }

/-- A runtime tells the provider and the key it was built for. -/
theorem buildRuntime_eq_iff (settings settings' : ChainProviderSettings) :
    buildRuntime settings = buildRuntime settings' ↔ SameSelection settings settings' := by
  obtain ⟨provider, projectId, token⟩ := settings
  obtain ⟨provider', projectId', token'⟩ := settings'
  constructor
  · intro hbuilt
    have hprovider := congrArg Runtime.provider hbuilt
    cases provider <;> cases provider' <;>
      simp only [buildRuntime, createChainProvider] at hprovider <;>
      simp only [SameSelection, ChainProviderSettings.activeKey] <;> grind
  · rintro ⟨hprovider, hkey⟩
    simp only [ChainProviderSettings.activeKey] at hprovider hkey
    simp only [buildRuntime, hprovider] at hkey ⊢
    rw [hkey]

/-!
## The server

Calls are cut at their awaits.  Between two of them a call runs alone, and the writes of
the settings file go through a queue.
-/

/-- How a call ends: `ok: true`, `ok: false` with an error, or an exception. -/
inductive Outcome
  | ok
  | refused (error : String)
  | threw
  deriving DecidableEq

/-- A call of `applySettings`, with what its frame holds. -/
inductive Call
  | idle
  /-- Waits for the tip of the provider built from `next`. -/
  | checking (patch : SettingsPatch) (next : ChainProviderSettings)
  /-- Waits for `stored` to be written. -/
  | writing (next stored : ChainProviderSettings)
  /-- Waits for its turn after the file is written. -/
  | written
  | finished (outcome : Outcome)
  deriving DecidableEq

/-- **The server**: what is stored, what is running, and where each call of
`applySettings` stands. -/
structure Server where
  /-- What `SettingsStore` holds. -/
  current : ChainProviderSettings
  deps : AppDeps
  calls : ℕ → Call
  /-- The calls whose file is written, and what they were built from, in order. -/
  returned : List (ℕ × ChainProviderSettings)

/-- The server after boot. -/
def Server.initial (settings : ChainProviderSettings) : Server where
  current := settings
  deps := hotSwap (buildRuntime settings)
  calls := fun _ => .idle
  returned := []

/-- `SettingsStore.update` up to its first await. -/
def beginUpdate (patch : SettingsPatch) (next current : ChainProviderSettings) : Call :=
  .writing next (patch.onto current)

/-- `applySettings` up to its first await. -/
def applySettings (patch : SettingsPatch) (current : ChainProviderSettings) : Call :=
  let next := patch.onto current
  if next.provider = .blockfrost ∧ next.blockfrostProjectId = "" then
    .finished (.refused "a Blockfrost preprod project id is required (or switch to Koios)")
  else if (buildRuntime next).provider.isSome then .checking patch next
  else beginUpdate patch next current

/-- What a call of `applySettings` goes through between two awaits. -/
inductive SettingsEvent
  | call (patch : SettingsPatch)
  /-- The provider answers the check. -/
  | answers
  /-- The check throws. -/
  | fails (err : String)
  /-- The file is written. -/
  | saved
  /-- The write throws. -/
  | unsaved
  /-- A call goes on after its file is written. -/
  | resume
  deriving DecidableEq

/-- One call goes on; the others wait where they are. -/
def Server.setCall (server : Server) (id : ℕ) (call : Call) : Server :=
  { server with calls := Function.update server.calls id call }

/-- What may happen next, and to which call. -/
inductive SettingsStep : Server → ℕ × SettingsEvent → Server → Prop
  | call {server : Server} {id : ℕ} {patch : SettingsPatch} (hidle : server.calls id = .idle) :
      SettingsStep server (id, .call patch)
        (server.setCall id (applySettings patch server.current))
  | answers {server : Server} {id : ℕ} {patch : SettingsPatch} {next : ChainProviderSettings}
      (hchecking : server.calls id = .checking patch next) :
      SettingsStep server (id, .answers)
        (server.setCall id (beginUpdate patch next server.current))
  | fails {server : Server} {id : ℕ} {patch : SettingsPatch} {next : ChainProviderSettings}
      {err : String} (hchecking : server.calls id = .checking patch next) :
      SettingsStep server (id, .fails err)
        (server.setCall id (.finished (.refused ("provider check failed: " ++ err))))
  | saved {server : Server} {id : ℕ} {next stored : ChainProviderSettings}
      (hwriting : server.calls id = .writing next stored) :
      SettingsStep server (id, .saved)
        { server.setCall id .written with
          current := stored
          returned := server.returned ++ [(id, next)] }
  | unsaved {server : Server} {id : ℕ} {next stored : ChainProviderSettings}
      (hwriting : server.calls id = .writing next stored) :
      SettingsStep server (id, .unsaved) (server.setCall id (.finished .threw))
  | resume {server : Server} {id : ℕ} {next : ChainProviderSettings}
      {later : List (ℕ × ChainProviderSettings)} (hturn : server.returned = (id, next) :: later) :
      SettingsStep server (id, .resume)
        { server.setCall id (.finished .ok) with
          deps := hotSwap (buildRuntime next)
          returned := later }

/-- A call that has not been made, or has ended. -/
def Call.AtRest (call : Call) : Prop := call = .idle ∨ ∃ outcome, call = .finished outcome

/-- No call is under way. -/
def Server.Quiescent (server : Server) : Prop := ∀ id, (server.calls id).AtRest

/-- **In step**: what is in use is what the stored settings build. -/
def Server.InStep (server : Server) : Prop :=
  server.deps.toRuntime = buildRuntime server.current

/-- A call that begins to store its patch does so on settings with which the patch
selects what the call has built. -/
def NotOvertaken (server : Server) (event : ℕ × SettingsEvent) : Prop :=
  event.2 = .answers → ∀ patch next, server.calls event.1 = .checking patch next →
    SameSelection next (patch.onto server.current)

/-- A step, with no overtaken call. -/
def OrderlyStep (server : Server) (event : ℕ × SettingsEvent) (server' : Server) : Prop :=
  SettingsStep server event server' ∧ NotOvertaken server event

/-!
## A refused call changes nothing

A call that ends in `ok: false` never came to the place where it stores.
-/

variable {server server' final : Server} {settings : ChainProviderSettings}

/-- A call that is moved on is where it was moved to, -/
@[simp]
theorem Server.setCall_self (server : Server) (id : ℕ) (call : Call) :
    (server.setCall id call).calls id = call := by
  show Function.update server.calls id call id = call
  rw [Function.update_self]

/-- and the other calls are where they were. -/
theorem Server.setCall_of_ne {id other : ℕ} (hne : other ≠ id) (server : Server) (call : Call) :
    (server.setCall id call).calls other = server.calls other := by
  show Function.update server.calls id call other = server.calls other
  rw [Function.update_of_ne hne]

/-- A call that has stored its patch will return `ok`. -/
def Stored (id : ℕ) (server : Server) : Prop :=
  server.calls id = .written ∨ server.calls id = .finished .ok

/-- A step of another call, or of a call that was at another place. -/
theorem Stored.setCall {id other : ℕ} {call place : Call} (h : Stored id server)
    (hplace : server.calls other = place) (hother : place ≠ .written ∧ place ≠ .finished .ok) :
    Stored id (server.setCall other call) := by
  have hne : id ≠ other := by
    rintro rfl
    rw [Stored, hplace] at h
    exact h.elim hother.1 hother.2
  rwa [Stored, server.setCall_of_ne hne]

/-- A call that has stored its patch stays on its way to `ok`, whatever the other calls
do. -/
theorem Stored.step {id : ℕ} {event : ℕ × SettingsEvent}
    (hstep : SettingsStep server event server') (h : Stored id server) : Stored id server' := by
  cases hstep with
  | call hidle => exact h.setCall hidle (by simp)
  | answers hchecking => exact h.setCall hchecking (by simp)
  | fails hchecking => exact h.setCall hchecking (by simp)
  | @saved other next stored hwriting =>
      have hwritten : Stored id (server.setCall other .written) := h.setCall hwriting (by simp)
      exact hwritten
  | unsaved hwriting => exact h.setCall hwriting (by simp)
  | @resume other next later hturn =>
      by_cases hne : id = other
      · exact .inr (by simp [hne])
      · have hkeeps : (server.setCall other (.finished .ok)).calls id = server.calls id :=
          server.setCall_of_ne hne _
        rw [Stored] at h ⊢
        rwa [hkeeps]

/-- **Refused calls**: the steps of a call that returns `ok: false` have left the
settings and what is in use as they were. -/
theorem refused_changes_nothing {id : ℕ} {event : SettingsEvent}
    {later : List (ℕ × SettingsEvent)} {error : String} (hstep : SettingsStep server (id, event) server')
    (hrest : Run SettingsStep server' later final)
    (hrefused : final.calls id = .finished (.refused error)) :
    server'.current = server.current ∧ server'.deps = server.deps := by
  have hnever : ¬Stored id server' := by
    intro hstored
    have hfinal : Stored id final := hrest.keeps Stored.step hstored
    rw [Stored, hrefused] at hfinal
    simp at hfinal
  cases hstep with
  | call hidle => exact ⟨rfl, rfl⟩
  | answers hchecking => exact ⟨rfl, rfl⟩
  | fails hchecking => exact ⟨rfl, rfl⟩
  | saved hwriting => exact absurd (.inl (server.setCall_self id _)) hnever
  | unsaved hwriting => exact ⟨rfl, rfl⟩
  | resume hturn => exact absurd (.inr (server.setCall_self id _)) hnever

/-! ## The queue of calls that go on -/

/-- The calls in the queue are those whose file is written. -/
structure QueueInvariant (server : Server) : Prop where
  written : ∀ call ∈ server.returned, server.calls call.1 = .written
  distinct : (server.returned.map Prod.fst).Nodup

/-- A call that is not in the queue moves. -/
theorem QueueInvariant.setCall {id : ℕ} {call place : Call} (h : QueueInvariant server)
    (hplace : server.calls id = place) (hother : place ≠ .written) :
    QueueInvariant (server.setCall id call) where
  written queued hmem := by
    have hwritten := h.written queued hmem
    have hne : queued.1 ≠ id := by
      intro heq
      rw [heq, hplace] at hwritten
      exact hother hwritten
    rwa [server.setCall_of_ne hne]
  distinct := h.distinct

/-- A call that has written its file is put at the end. -/
theorem QueueInvariant.saved {id : ℕ} {next stored current : ChainProviderSettings}
    (h : QueueInvariant server) (hwriting : server.calls id = .writing next stored) :
    QueueInvariant { server.setCall id .written with
      current := current
      returned := server.returned ++ [(id, next)] } where
  written queued hmem := by
    have hothers : QueueInvariant (server.setCall id .written) := h.setCall hwriting (by simp)
    rcases List.mem_append.mp hmem with hold | hnew
    · exact hothers.written queued hold
    · rw [List.mem_singleton.mp hnew]
      exact server.setCall_self id _
  distinct := by
    show ((server.returned ++ [(id, next)]).map Prod.fst).Nodup
    rw [List.map_append]
    refine h.distinct.append (List.nodup_singleton id) ?_
    -- A call in the queue is not one that still writes.
    rw [List.map_singleton, List.disjoint_singleton]
    intro hmem
    obtain ⟨queued, hqueued, heq⟩ := List.mem_map.mp hmem
    have hwritten := h.written queued hqueued
    rw [heq, hwriting] at hwritten
    simp at hwritten

/-- The first call goes on. -/
theorem QueueInvariant.resume {id : ℕ} {next : ChainProviderSettings}
    {later : List (ℕ × ChainProviderSettings)} {deps : AppDeps} (h : QueueInvariant server)
    (hturn : server.returned = (id, next) :: later) :
    QueueInvariant { server.setCall id (.finished .ok) with
      deps := deps
      returned := later } := by
  have hdistinct := h.distinct
  rw [hturn, List.map_cons, List.nodup_cons] at hdistinct
  refine ⟨?_, hdistinct.2⟩
  intro queued hmem
  have hne : queued.1 ≠ id := by
    rintro rfl
    exact hdistinct.1 (List.mem_map.mpr ⟨queued, hmem, rfl⟩)
  have hkeeps : (server.setCall id (.finished .ok)).calls queued.1 = server.calls queued.1 :=
    server.setCall_of_ne hne _
  exact hkeeps.trans (h.written queued (hturn ▸ List.mem_cons_of_mem _ hmem))

/-- Each step keeps the queue to calls whose file is written, each of them once. -/
theorem QueueInvariant.step {event : ℕ × SettingsEvent}
    (hstep : SettingsStep server event server') (h : QueueInvariant server) :
    QueueInvariant server' := by
  cases hstep with
  | call hidle => exact h.setCall hidle (by simp)
  | answers hchecking => exact h.setCall hchecking (by simp)
  | fails hchecking => exact h.setCall hchecking (by simp)
  | saved hwriting => exact h.saved hwriting
  | unsaved hwriting => exact h.setCall hwriting (by simp)
  | resume hturn => exact h.resume hturn

theorem queueInvariant_initial (settings : ChainProviderSettings) :
    QueueInvariant (Server.initial settings) :=
  ⟨fun _ hmem => absurd hmem List.not_mem_nil, List.nodup_nil⟩

/-- No call waits where none has its file written. -/
theorem QueueInvariant.returned_eq_nil (h : QueueInvariant server)
    (hnone : ∀ id, server.calls id ≠ .written) : server.returned = [] :=
  List.eq_nil_iff_forall_not_mem.mpr fun queued hmem => hnone queued.1 (h.written queued hmem)

theorem Call.AtRest.ne_written {call : Call} (h : call.AtRest) : call ≠ .written := by
  rcases h with rfl | ⟨outcome, rfl⟩
  · simp
  · simp

/-!
## Orderly runs stay in step

Where no call is between its check and its swap while another one stores, what is stored
last is what is built last.
-/

/-- What will be in use when the queue is empty. -/
def Server.eventually (server : Server) : AppDeps :=
  (server.returned.map fun call => hotSwap (buildRuntime call.2)).getLastD server.deps

/-- What an orderly run keeps: a call writes settings that select what it has built,
and what will be in use is built for what is stored. -/
structure OrderlyInvariant (server : Server) : Prop where
  selects : ∀ id next stored, server.calls id = .writing next stored → SameSelection next stored
  agrees : server.eventually = hotSwap (buildRuntime server.current)

/-- A call moves to a place where it does not write, or writes what it has built. -/
theorem OrderlyInvariant.setCall {id : ℕ} {call : Call} (h : OrderlyInvariant server)
    (hcall : ∀ next stored, call = .writing next stored → SameSelection next stored) :
    OrderlyInvariant (server.setCall id call) where
  selects other next stored hwriting := by
    by_cases hne : other = id
    · rw [hne, server.setCall_self] at hwriting
      exact hcall next stored hwriting
    · rw [server.setCall_of_ne hne] at hwriting
      exact h.selects other next stored hwriting
  agrees := h.agrees

/-- A call that starts and needs no check writes what it has built. -/
theorem applySettings_writing {patch : SettingsPatch}
    {current next stored : ChainProviderSettings}
    (h : applySettings patch current = .writing next stored) : SameSelection next stored := by
  unfold applySettings beginUpdate at h
  dsimp only at h
  split at h
  · cases h
  · split at h
    · cases h
    · cases h
      exact ⟨rfl, rfl⟩

/-- An orderly step keeps what will be in use in step with what is stored. -/
theorem OrderlyInvariant.step {event : ℕ × SettingsEvent}
    (hstep : OrderlyStep server event server') (h : OrderlyInvariant server) :
    OrderlyInvariant server' := by
  obtain ⟨hstep, hnot⟩ := hstep
  cases hstep with
  | call hidle => exact h.setCall fun next stored => applySettings_writing
  | @answers id patch next hchecking =>
      refine h.setCall ?_
      rintro _ _ ⟨⟩
      exact hnot rfl patch next hchecking
  | fails hchecking => exact h.setCall (by simp)
  | unsaved hwriting => exact h.setCall (by simp)
  | @saved id next stored hwriting =>
      have hothers : OrderlyInvariant (server.setCall id .written) := h.setCall (by simp)
      refine ⟨hothers.selects, ?_⟩
      show ((server.returned ++ [(id, next)]).map fun call =>
        hotSwap (buildRuntime call.2)).getLastD server.deps = hotSwap (buildRuntime stored)
      rw [List.map_append, List.map_singleton, List.getLastD_concat,
        (buildRuntime_eq_iff next stored).mpr (h.selects id next stored hwriting)]
  | @resume id next later hturn =>
      have hothers : OrderlyInvariant (server.setCall id (.finished .ok)) := h.setCall (by simp)
      refine ⟨hothers.selects, ?_⟩
      have hagrees := h.agrees
      rwa [Server.eventually, hturn, List.map_cons, List.getLastD_cons] at hagrees

theorem orderlyInvariant_initial (settings : ChainProviderSettings) :
    OrderlyInvariant (Server.initial settings) where
  selects id next stored hwriting := by
    rw [Server.initial] at hwriting
    cases hwriting
  agrees := rfl

/-- When no call is under way, the queue is empty. -/
theorem OrderlyInvariant.inStep (h : OrderlyInvariant server) (hqueue : server.returned = []) :
    server.InStep := by
  have hagrees := h.agrees
  rw [Server.eventually, hqueue] at hagrees
  exact congrArg AppDeps.toRuntime hagrees

/-!
## An overtaken call

If another call has stored and swapped in between, the overtaken call swaps in what it
had built from the settings before.
-/

/-- A call whose check ends well, and which nothing delays from there on. -/
theorem completes {id : ℕ} {patch : SettingsPatch} {next : ChainProviderSettings}
    (hchecking : server.calls id = .checking patch next) (hempty : server.returned = []) :
    Run SettingsStep server [(id, .answers), (id, .saved), (id, .resume)]
      { server.setCall id (.finished .ok) with
        current := patch.onto server.current
        deps := hotSwap (buildRuntime next)
        returned := [] } := by
  have hcalls : server.setCall id (.finished .ok) =
      ((server.setCall id (beginUpdate patch next server.current)).setCall id
        .written).setCall id (.finished .ok) := by
    simp [Server.setCall]
  rw [hcalls]
  refine .cons (.answers hchecking) (.cons (.saved (Server.setCall_self _ id _)) (.single ?_))
  refine @SettingsStep.resume _ id next [] ?_
  show server.returned ++ [(id, next)] = [(id, next)]
  rw [hempty, List.nil_append]

/-- **After an overtaken call** what is in use is not what is stored. -/
theorem overtaken_out_of_step {id : ℕ} {events : List (ℕ × SettingsEvent)}
    (hrun : Run SettingsStep (Server.initial settings) events server)
    (hothers : ∀ other, other ≠ id → (server.calls other).AtRest)
    (hovertaken : ¬NotOvertaken server (id, .answers)) :
    ∃ server', Run SettingsStep (Server.initial settings)
        (events ++ [(id, .answers), (id, .saved), (id, .resume)]) server' ∧
      server'.Quiescent ∧ ¬server'.InStep := by
  rw [NotOvertaken] at hovertaken
  push Not at hovertaken
  obtain ⟨-, patch, next, hchecking, hdiffer⟩ := hovertaken
  have hqueue : QueueInvariant server :=
    hrun.keeps QueueInvariant.step (queueInvariant_initial settings)
  have hempty : server.returned = [] := by
    refine hqueue.returned_eq_nil fun other => ?_
    by_cases hne : other = id
    · simp [hne, hchecking]
    · exact (hothers other hne).ne_written
  refine ⟨_, hrun.append (completes hchecking hempty), ?_, ?_⟩
  · intro other
    by_cases hne : other = id
    · rw [hne]
      exact .inr ⟨.ok, server.setCall_self id _⟩
    · have hkeeps : (server.setCall id (.finished .ok)).calls other = server.calls other :=
        server.setCall_of_ne hne _
      show ((server.setCall id (.finished .ok)).calls other).AtRest
      rw [hkeeps]
      exact hothers other hne
  · intro hstep
    exact hdiffer ((buildRuntime_eq_iff next _).mp hstep)

/-! ## Two patches at once -/

namespace SampleSwap

/-- What the server is started with. -/
def boot : ChainProviderSettings where
  provider := .blockfrost
  blockfrostProjectId := "preprodA"
  koiosApiToken := ""

/-- Switches to Koios. -/
def toKoios : SettingsPatch where
  provider := some .koios
  blockfrostProjectId := none
  koiosApiToken := none

/-- Pastes in another Blockfrost key. -/
def newKey : SettingsPatch where
  provider := none
  blockfrostProjectId := some "preprodB"
  koiosApiToken := none

/-- Both patches have been sent, and both providers are being checked. -/
def bothChecked : Server :=
  ((Server.initial boot).setCall 0 (.checking toKoios (toKoios.onto boot))).setCall 1
    (.checking newKey (newKey.onto boot))

/-- The first call has gone through. -/
def overtaken : Server :=
  { bothChecked.setCall 0 (.finished .ok) with
    current := toKoios.onto boot
    deps := hotSwap (buildRuntime (toKoios.onto boot))
    returned := [] }

theorem toKoios_starts :
    SettingsStep (Server.initial boot) (0, .call toKoios)
      ((Server.initial boot).setCall 0 (.checking toKoios (toKoios.onto boot))) := by
  exact .call rfl

theorem newKey_checks : applySettings newKey boot = .checking newKey (newKey.onto boot) := by
  decide

theorem overtaken_run :
    Run SettingsStep (Server.initial boot)
      ([(0, .call toKoios), (1, .call newKey)] ++
        [(0, .answers), (0, .saved), (0, .resume)]) overtaken := by
  have hboth : Run SettingsStep (Server.initial boot) [(0, .call toKoios), (1, .call newKey)]
      bothChecked := by
    refine .cons toKoios_starts (.single ?_)
    rw [bothChecked, ← newKey_checks]
    exact .call rfl
  exact hboth.append (completes rfl rfl)

/-- The second call is the only one under way. -/
theorem overtaken_others (other : ℕ) (hne : other ≠ 1) : (overtaken.calls other).AtRest := by
  by_cases hfirst : other = 0
  · exact .inr ⟨.ok, by rw [hfirst]; rfl⟩
  · refine .inl ?_
    show (bothChecked.setCall 0 (.finished .ok)).calls other = .idle
    rw [Server.setCall_of_ne hfirst, bothChecked, Server.setCall_of_ne hne,
      Server.setCall_of_ne hfirst]
    rfl

/-- It has built for Blockfrost, and is about to store a key beside Koios. -/
theorem overtaken_now : ¬NotOvertaken overtaken (1, .answers) := by
  intro hnot
  have hsame := hnot rfl newKey (newKey.onto boot) rfl
  exact absurd hsame.1 (by decide)

/-- The switch to Koios alone is orderly. -/
theorem switched_run :
    ∃ server, Run OrderlyStep (Server.initial boot)
        [(0, .call toKoios), (0, .answers), (0, .saved), (0, .resume)] server ∧
      server.Quiescent ∧ server.current.provider = .koios := by
  refine ⟨_, .cons ⟨toKoios_starts, ?_⟩ (.cons ⟨.answers rfl, ?_⟩ (.cons ⟨.saved rfl, ?_⟩
    (.single ⟨.resume rfl, ?_⟩))), ?_, rfl⟩
  · rintro ⟨⟩
  · rintro - patch next ⟨⟩
    exact ⟨rfl, rfl⟩
  · rintro ⟨⟩
  · rintro ⟨⟩
  · intro id
    by_cases hfirst : id = 0
    · exact .inr ⟨.ok, by rw [hfirst]; rfl⟩
    · exact .inl (by simp [Server.setCall, Server.initial, hfirst])

end SampleSwap

/-! ## Settings in step -/

/-- **Settings and what runs.**  In every run in which no call is overtaken, what is in
use when no call is under way is what the stored settings build.  In every run at all, a
call that returns `ok: false` changes neither.  And in every run a call that is
overtaken, while no other call is under way, leaves them out of step. -/
theorem settings_in_step (settings : ChainProviderSettings) :
    (∀ events server, Run OrderlyStep (Server.initial settings) events server →
      server.Quiescent → server.InStep) ∧
    (∀ before server id event server' later final,
      Run SettingsStep (Server.initial settings) before server →
      SettingsStep server (id, event) server' → Run SettingsStep server' later final →
      (∃ error, final.calls id = .finished (.refused error)) →
        server'.current = server.current ∧ server'.deps = server.deps) ∧
    ∀ events server id, Run SettingsStep (Server.initial settings) events server →
      (∀ other, other ≠ id → (server.calls other).AtRest) →
      ¬NotOvertaken server (id, .answers) →
      ∃ server', Run SettingsStep (Server.initial settings)
          (events ++ [(id, .answers), (id, .saved), (id, .resume)]) server' ∧
        server'.Quiescent ∧ ¬server'.InStep := by
  refine ⟨?_, ?_, ?_⟩
  · intro events server hrun hquiescent
    have horderly : OrderlyInvariant server :=
      hrun.keeps OrderlyInvariant.step (orderlyInvariant_initial settings)
    have hqueue : QueueInvariant server :=
      hrun.keeps (fun hstep h => h.step hstep.1) (queueInvariant_initial settings)
    exact horderly.inStep (hqueue.returned_eq_nil fun id => (hquiescent id).ne_written)
  · rintro before server id event server' later final - hstep hrest ⟨error, hrefused⟩
    exact refused_changes_nothing hstep hrest hrefused
  · intro events server id hrun hothers hovertaken
    exact overtaken_out_of_step hrun hothers hovertaken

open SampleSwap in
theorem settings_in_step_sample :
    (∃ server, Run OrderlyStep (Server.initial boot)
      [(0, .call toKoios), (0, .answers), (0, .saved), (0, .resume)] server ∧
      server.current.provider = .koios ∧ server.InStep) ∧
    (∃ server, Run SettingsStep (Server.initial boot)
      [(0, .call toKoios), (0, .fails "timeout")] server ∧
      server.current = boot ∧ server.deps = hotSwap (buildRuntime boot)) ∧
    ∃ server, Run SettingsStep (Server.initial boot)
      ([(0, .call toKoios), (1, .call newKey)] ++
        [(0, .answers), (0, .saved), (0, .resume)] ++
        [(1, .answers), (1, .saved), (1, .resume)]) server ∧
      server.Quiescent ∧ ¬server.InStep := by
  refine ⟨?_, ?_, ?_⟩
  · obtain ⟨server, hrun, hquiescent, hkoios⟩ := switched_run
    exact ⟨server, hrun, hkoios,
      (settings_in_step boot).1 _ server hrun hquiescent⟩
  · have hchecking := Server.setCall_self (Server.initial boot) 0
      (.checking toKoios (toKoios.onto boot))
    have hrefused := @SettingsStep.fails _ 0 _ _ "timeout" hchecking
    refine ⟨_, .cons toKoios_starts (.single hrefused), ?_⟩
    exact (settings_in_step boot).2.1 _ _ 0 _ _ _ _
      (.single toKoios_starts) hrefused (.nil _) ⟨_, Server.setCall_self _ 0 _⟩
  · exact (settings_in_step boot).2.2 _ _ 1 overtaken_run
      overtaken_others overtaken_now

/-- A switch to Koios and a new Blockfrost key, sent together: the stored settings
select Koios, and Blockfrost is in use. -/
theorem settings_out_of_step :
    ∃ server, Run SettingsStep (Server.initial SampleSwap.boot)
        [(0, .call SampleSwap.toKoios), (1, .call SampleSwap.newKey),
          (0, .answers), (0, .saved), (0, .resume),
          (1, .answers), (1, .saved), (1, .resume)] server ∧
      server.Quiescent ∧ ¬server.InStep :=
  overtaken_out_of_step SampleSwap.overtaken_run SampleSwap.overtaken_others
    SampleSwap.overtaken_now

end BeaconDex.Backend
