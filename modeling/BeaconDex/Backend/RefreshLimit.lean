import BeaconDex.Library.Run
import Mathlib.Algebra.Order.Group.Int

/-!
# The limit on refreshes

A pass of the indexer asks the chain provider for everything.  It is started by a
timer, and by a user through `triggerSync`, which is to keep a distance between the
passes it starts: `OrderIndexer` of `backend/src/services/order-indexer.ts` skips a
call that comes too early after the last pass that was completed.

A pass that fails is not completed.  If no pass that a user started fails before the
distance is over, the passes users start have that distance
(`triggered_spaced`); after any earlier failure the next call starts another pass at
once.

## Time

A run is a sequence of moments.  Between two awaits the code is not interrupted, so a
call is one event: the test and the flag are read and written together.  The clock does
not run backwards, and a pass may complete or fail at any time.

The pass in progress knows who started it and when.  The code only keeps a flag; the
rest of `running` is the frame of the call that waits.
-/

namespace BeaconDex.Backend

open Library

/-! ## The indexer's gate -/

/-- Who starts a pass. -/
inductive Origin
  | triggered
  | ticked
  deriving DecidableEq

/-- A pass in progress. -/
structure Sync where
  origin : Origin
  startedAt : ℤ
  deriving DecidableEq

/-- **The state behind `triggerSync`**: the flag of a pass in progress, the time at which
the last one succeeded, and, for the statement, the time of the last event and the times
at which passes were triggered. -/
structure Gate where
  /-- The flag, and the pass that has set it. -/
  running : Option Sync
  lastSyncCompletedAt : ℤ
  /-- The time of the last event. -/
  clock : ℤ
  /-- When the passes were started that `triggerSync` started, in order. -/
  triggered : List ℤ
  deriving DecidableEq

/-- `opts.minReindexIntervalMs ?? 20_000`. -/
def minInterval (minReindexIntervalMs : Option ℤ) : ℤ := minReindexIntervalMs.getD 20000

/-- `syncOnce` up to its first await: nothing if a pass is running, otherwise a pass
starts, and asks the provider for its tip. -/
def syncOnce (origin : Origin) (now : ℤ) (gate : Gate) : Gate :=
  if gate.running.isSome then gate
  else { gate with
    running := some ⟨origin, now⟩
    triggered := gate.triggered ++ if origin = .triggered then [now] else [] }

/-- `triggerSync`, skipped if the last completed pass is too recent. -/
def triggerSync (minReindexIntervalMs : Option ℤ) (now : ℤ) (gate : Gate) : Gate :=
  if now - gate.lastSyncCompletedAt < minInterval minReindexIntervalMs then gate
  else syncOnce .triggered now gate

/-- The end of a pass that completes. -/
def completed (now : ℤ) (gate : Gate) : Gate :=
  { gate with
    running := none
    lastSyncCompletedAt := now }

/-- The end of a pass whose provider throws. -/
def failed (gate : Gate) : Gate := { gate with running := none }

/-!
## Runs

Every event has the time at which it happens, and times do not go back.
-/

/-- A user's click, the timer, and the two ends of a pass. -/
inductive GateEvent
  | trigger
  | tick
  | complete
  | fail
  deriving DecidableEq

/-- What happens at a time: a call, a tick of the timer, or the end of the pass in
progress. -/
inductive GateStep (minReindexIntervalMs : Option ℤ) : Gate → ℤ × GateEvent → Gate → Prop
  | trigger {gate : Gate} {now : ℤ} (hclock : gate.clock ≤ now) :
      GateStep minReindexIntervalMs gate (now, .trigger)
        { triggerSync minReindexIntervalMs now gate with clock := now }
  | tick {gate : Gate} {now : ℤ} (hclock : gate.clock ≤ now) :
      GateStep minReindexIntervalMs gate (now, .tick)
        { syncOnce .ticked now gate with clock := now }
  | complete {gate : Gate} {now : ℤ} (hclock : gate.clock ≤ now) (hrunning : gate.running.isSome) :
      GateStep minReindexIntervalMs gate (now, .complete) { completed now gate with clock := now }
  | fail {gate : Gate} {now : ℤ} (hclock : gate.clock ≤ now) (hrunning : gate.running.isSome) :
      GateStep minReindexIntervalMs gate (now, .fail) { failed gate with clock := now }

/-- A new indexer. -/
def Gate.initial (clock : ℤ) : Gate := ⟨none, 0, clock, []⟩

/-- **The limit**: the passes that `triggerSync` starts have the distance asked for. -/
def Spaced (minReindexIntervalMs : Option ℤ) (gate : Gate) : Prop :=
  gate.triggered.Pairwise fun earlier later => earlier + minInterval minReindexIntervalMs ≤ later

/-- The pass that fails now, if it was triggered, was started long enough ago. -/
def LateFailure (minReindexIntervalMs : Option ℤ) (gate : Gate) (event : ℤ × GateEvent) : Prop :=
  event.2 = .fail → ∀ startedAt, gate.running = some ⟨.triggered, startedAt⟩ →
    startedAt + minInterval minReindexIntervalMs ≤ event.1

/-- A step, with no early failure of a triggered pass. -/
def PatientStep (minReindexIntervalMs : Option ℤ) (gate : Gate) (event : ℤ × GateEvent)
    (gate' : Gate) : Prop :=
  GateStep minReindexIntervalMs gate event gate' ∧ LateFailure minReindexIntervalMs gate event

/-!
## The distance is kept

As long as no triggered pass fails early, the last triggered pass is completed, in
progress, or long past.
-/

variable {minReindexIntervalMs : Option ℤ} {gate gate' : Gate} {now : ℤ}

/-- What a run keeps: a triggered pass is completed, or long past, or in progress. -/
structure GateInvariant (minReindexIntervalMs : Option ℤ) (gate : Gate) : Prop where
  spaced : Spaced minReindexIntervalMs gate
  past : ∀ startedAt ∈ gate.triggered, startedAt ≤ gate.clock
  covered : ∀ startedAt ∈ gate.triggered, startedAt ≤ gate.lastSyncCompletedAt ∨
    startedAt + minInterval minReindexIntervalMs ≤ gate.clock ∨
    gate.running = some ⟨.triggered, startedAt⟩

/-- Time passes. -/
theorem GateInvariant.later (h : GateInvariant minReindexIntervalMs gate)
    (hclock : gate.clock ≤ now) :
    GateInvariant minReindexIntervalMs { gate with clock := now } where
  spaced := h.spaced
  past startedAt hmem := (h.past startedAt hmem).trans hclock
  covered startedAt hmem := (h.covered startedAt hmem).imp_right fun h =>
    h.imp_left fun h => h.trans hclock

/-- A pass the timer starts is not one of those. -/
theorem GateInvariant.ticked (h : GateInvariant minReindexIntervalMs gate)
    (hclock : gate.clock ≤ now) :
    GateInvariant minReindexIntervalMs { syncOnce .ticked now gate with clock := now } := by
  unfold syncOnce
  split
  · exact h.later hclock
  · next hidle =>
    have hlater := h.later hclock
    have hnone : gate.running = none := Option.not_isSome_iff_eq_none.mp hidle
    have htriggered : gate.triggered ++ (if Origin.ticked = .triggered then [now] else []) =
        gate.triggered := List.append_nil _
    rw [htriggered]
    refine ⟨hlater.spaced, hlater.past, ?_⟩
    intro startedAt hmem
    rcases hlater.covered startedAt hmem with hdone | hlong | hrunning
    · exact .inl hdone
    · exact .inr (.inl hlong)
    · exact absurd (hnone.symm.trans hrunning) (Option.some_ne_none _).symm

/-- **A pass that `triggerSync` starts** has the distance from all before. -/
theorem GateInvariant.triggerSync (h : GateInvariant minReindexIntervalMs gate)
    (hclock : gate.clock ≤ now) : GateInvariant minReindexIntervalMs
      { triggerSync minReindexIntervalMs now gate with clock := now } := by
  unfold Backend.triggerSync
  split
  · exact h.later hclock
  · next hdue =>
    unfold syncOnce
    split
    · exact h.later hclock
    · next hidle =>
      have hnone : gate.running = none := Option.not_isSome_iff_eq_none.mp hidle
      have hdistance : ∀ startedAt ∈ gate.triggered,
          startedAt + minInterval minReindexIntervalMs ≤ now := by
        intro startedAt hmem
        rcases h.covered startedAt hmem with hdone | hlong | hrunning
        · omega
        · exact hlong.trans hclock
        · exact absurd (hnone.symm.trans hrunning) (Option.some_ne_none _).symm
      refine ⟨?_, ?_, ?_⟩
      · show (gate.triggered ++ [now]).Pairwise _
        rw [List.pairwise_append]
        refine ⟨h.spaced, List.pairwise_singleton _ _, ?_⟩
        intro earlier hmem later hlater
        rw [List.mem_singleton.mp hlater]
        exact hdistance earlier hmem
      · intro startedAt hmem
        rcases List.mem_append.mp hmem with hold | hnew
        · exact (h.past startedAt hold).trans hclock
        · exact (List.mem_singleton.mp hnew).le
      · intro startedAt hmem
        rcases List.mem_append.mp hmem with hold | hnew
        · exact .inr (.inl (hdistance startedAt hold))
        · rw [List.mem_singleton.mp hnew]
          exact .inr (.inr rfl)

/-- A completed pass covers all that were started. -/
theorem GateInvariant.completed (h : GateInvariant minReindexIntervalMs gate)
    (hclock : gate.clock ≤ now) :
    GateInvariant minReindexIntervalMs { completed now gate with clock := now } where
  spaced := h.spaced
  past startedAt hmem := (h.past startedAt hmem).trans hclock
  covered startedAt hmem := .inl ((h.past startedAt hmem).trans hclock)

/-- A pass that fails late leaves a distance that is over. -/
theorem GateInvariant.failed (h : GateInvariant minReindexIntervalMs gate)
    (hclock : gate.clock ≤ now)
    (hlate : ∀ startedAt, gate.running = some ⟨.triggered, startedAt⟩ →
      startedAt + minInterval minReindexIntervalMs ≤ now) :
    GateInvariant minReindexIntervalMs { failed gate with clock := now } where
  spaced := h.spaced
  past startedAt hmem := (h.past startedAt hmem).trans hclock
  covered startedAt hmem := by
    rcases h.covered startedAt hmem with hdone | hlong | hrunning
    · exact .inl hdone
    · exact .inr (.inl (hlong.trans hclock))
    · exact .inr (.inl (hlate startedAt hrunning))

/-- **Step lemma.** -/
theorem GateInvariant.step {event : ℤ × GateEvent}
    (hstep : PatientStep minReindexIntervalMs gate event gate')
    (h : GateInvariant minReindexIntervalMs gate) : GateInvariant minReindexIntervalMs gate' := by
  obtain ⟨hstep, hlate⟩ := hstep
  cases hstep with
  | trigger hclock => exact h.triggerSync hclock
  | tick hclock => exact h.ticked hclock
  | complete hclock hrunning => exact h.completed hclock
  | fail hclock hrunning => exact h.failed hclock (hlate rfl)

theorem gateInvariant_initial (clock : ℤ) :
    GateInvariant minReindexIntervalMs (Gate.initial clock) :=
  ⟨List.Pairwise.nil, fun _ hmem => absurd hmem List.not_mem_nil,
    fun _ hmem => absurd hmem List.not_mem_nil⟩

/-!
## An early failure

A failure leaves the time of the last completed pass as it was, so that the next trigger
finds the same distance as the last.
-/

/-- What is known of a triggered pass in progress: it is the last one that was
started, and when it was started the last completed one was far enough back. -/
def DueWhenStarted (minReindexIntervalMs : Option ℤ) (gate : Gate) : Prop :=
  ∀ startedAt, gate.running = some ⟨.triggered, startedAt⟩ →
    startedAt ∈ gate.triggered ∧
      minInterval minReindexIntervalMs ≤ startedAt - gate.lastSyncCompletedAt ∧
      startedAt ≤ gate.clock

/-- A pass that is under way was due when it was started. -/
theorem dueWhenStarted_step {event : ℤ × GateEvent}
    (hstep : GateStep minReindexIntervalMs gate event gate')
    (h : DueWhenStarted minReindexIntervalMs gate) : DueWhenStarted minReindexIntervalMs gate' := by
  have hlater : ∀ {now}, gate.clock ≤ now →
      DueWhenStarted minReindexIntervalMs { gate with clock := now } := by
    intro now hclock startedAt hrunning
    obtain ⟨hmem, hdue, hle⟩ := h startedAt hrunning
    exact ⟨hmem, hdue, hle.trans hclock⟩
  cases hstep with
  | @trigger now hclock =>
      unfold triggerSync
      split
      · exact hlater hclock
      · next hdue =>
        unfold syncOnce
        split
        · exact hlater hclock
        · rintro startedAt ⟨⟩
          exact ⟨by simp, not_lt.mp hdue, le_rfl⟩
  | @tick now hclock =>
      unfold syncOnce
      split
      · exact hlater hclock
      · rintro startedAt ⟨⟩
  | complete hclock hrunning => rintro startedAt ⟨⟩
  | fail hclock hrunning => rintro startedAt ⟨⟩

theorem dueWhenStarted_initial (clock : ℤ) :
    DueWhenStarted minReindexIntervalMs (Gate.initial clock) :=
  fun _ hnone => absurd hnone (Option.some_ne_none _).symm

/-- After an early failure the next call starts a pass too soon. -/
theorem not_spaced_after_failure {startedAt : ℤ}
    (h : DueWhenStarted minReindexIntervalMs gate)
    (hrunning : gate.running = some ⟨.triggered, startedAt⟩) (hclock : gate.clock ≤ now)
    (hearly : now < startedAt + minInterval minReindexIntervalMs) :
    ¬Spaced minReindexIntervalMs
      (triggerSync minReindexIntervalMs now { failed gate with clock := now }) := by
  obtain ⟨hmem, hdue, hle⟩ := h startedAt hrunning
  have hstarts : triggerSync minReindexIntervalMs now { failed gate with clock := now } =
      { failed gate with
        running := some ⟨.triggered, now⟩
        clock := now
        triggered := gate.triggered ++ [now] } := by
    rw [triggerSync, if_neg (by simp only [failed]; omega)]
    rfl
  rw [hstarts]
  intro hspaced
  have hpair := (List.pairwise_append.mp hspaced).2.2 startedAt hmem now List.mem_cons_self
  omega

/-! ## A refresh that fails -/

namespace SampleRefresh

/-- After a refresh at 20 000 ms that takes half a second, and one at 40 500 ms. -/
def patient : Gate where
  running := some ⟨.triggered, 40500⟩
  lastSyncCompletedAt := 20500
  clock := 40500
  triggered := [20000, 40500]

/-- After a refresh at 20 000 ms that fails at once, and one two milliseconds after it starts. -/
def repeated : Gate where
  running := some ⟨.triggered, 20002⟩
  lastSyncCompletedAt := 0
  clock := 20002
  triggered := [20000, 20002]

/-- The state after the first refresh has started. -/
def first : Gate where
  running := some ⟨.triggered, 20000⟩
  lastSyncCompletedAt := 0
  clock := 20000
  triggered := [20000]

theorem first_step : GateStep none (Gate.initial 20000) (20000, .trigger) first := by
  exact .trigger le_rfl

theorem patient_run : Run (PatientStep none) (Gate.initial 20000)
    [(20000, .trigger), (20500, .complete), (40500, .trigger)] patient := by
  refine .cons ⟨first_step, ?_⟩ (.cons ⟨.complete (by decide) rfl, ?_⟩
    (.single ⟨.trigger (by decide), ?_⟩))
  all_goals rintro ⟨⟩

theorem repeated_run : Run (GateStep none) (Gate.initial 20000)
    [(20000, .trigger), (20001, .fail), (20002, .trigger)] repeated := by
  refine .cons first_step ?_
  refine .cons (.fail (by decide) rfl) ?_
  exact .single (.trigger (by decide))

end SampleRefresh

/-! ## The limit -/

/-- **The distance between refreshes.**  In every run in which no triggered pass fails
before the distance is over, the triggered passes have that distance.  And in every run
a triggered pass that fails earlier can be followed at once by another one. -/
theorem triggered_spaced (minReindexIntervalMs : Option ℤ) (clock : ℤ) :
    (∀ events gate, Run (PatientStep minReindexIntervalMs) (Gate.initial clock) events gate →
      Spaced minReindexIntervalMs gate) ∧
    ∀ events gate, Run (GateStep minReindexIntervalMs) (Gate.initial clock) events gate →
      ∀ now, gate.clock ≤ now → gate.running.isSome →
        ¬LateFailure minReindexIntervalMs gate (now, .fail) →
        ∃ gate', Run (GateStep minReindexIntervalMs) (Gate.initial clock)
          (events ++ [(now, .fail), (now, .trigger)]) gate' ∧
          ¬Spaced minReindexIntervalMs gate' := by
  constructor
  · intro events gate hrun
    have hinv : GateInvariant minReindexIntervalMs gate :=
      hrun.keeps GateInvariant.step (gateInvariant_initial clock)
    exact hinv.spaced
  · intro events gate hrun now hclock hrunning hearly
    have hdue : DueWhenStarted minReindexIntervalMs gate :=
      hrun.keeps dueWhenStarted_step (dueWhenStarted_initial clock)
    rw [LateFailure] at hearly
    push Not at hearly
    obtain ⟨-, startedAt, hstarted, hlt⟩ := hearly
    exact ⟨_, hrun.append (.cons (.fail hclock hrunning) (.single (.trigger le_rfl))),
      not_spaced_after_failure hdue hstarted hclock hlt⟩

theorem triggered_spaced_sample :
    Spaced none SampleRefresh.patient ∧
      ∃ gate', Run (GateStep none) (Gate.initial 20000)
        ([(20000, .trigger)] ++ [(20001, .fail), (20001, .trigger)]) gate' ∧
        ¬Spaced none gate' := by
  constructor
  · exact (triggered_spaced none 20000).1 _ _ SampleRefresh.patient_run
  · refine (triggered_spaced none 20000).2 _ _ (.single SampleRefresh.first_step) 20001
      (by decide) rfl ?_
    intro hlate
    exact absurd (hlate rfl 20000 rfl) (by decide)

/-- A refresh whose provider refuses the request does not count: the next call, two
milliseconds after it, asks the provider again. -/
theorem failed_refresh_repeated :
    Run (GateStep none) (Gate.initial 20000) [(20000, .trigger), (20001, .fail), (20002, .trigger)]
        SampleRefresh.repeated ∧
      ¬Spaced none SampleRefresh.repeated := by
  refine ⟨SampleRefresh.repeated_run, ?_⟩
  rw [Spaced]
  decide

end BeaconDex.Backend
