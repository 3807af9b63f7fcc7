import BeaconDex.Frontend.RouteExecution
import BeaconDex.Frontend.TxFlow

/-!
# The market tab

`MarketTab` of `frontend/components/TradePanel.tsx`.  A route is cut into batches, which
wait in a queue: one is built, previewed, signed and submitted, and when it has two
confirmations the next one is built.  Rejecting a preview, leaving the status page or a
failure abandons what is left.

The panel has no lock; what keeps its batches in order is which buttons it shows.
`market_in_order` says that this is enough, as long as every handler finds the page
rendered with the current state, and the best order is not taken while a batch is
being built, where that button is not disabled.  `overlapping_batches` is a run where
it is clicked then.

## What a click can find

A handler runs with the state of the page as it was last rendered, and React may not
have rendered the latest state when a click comes.  The model keeps the two apart
(`view` and `rendered`), and `OrderlyStep` is the assumption that a click, or a status
poll that counts, finds them equal.  A poll that finds fewer than two
confirmations changes nothing, and is no event here.

## Sessions

What has happened since the last click on the button that starts a route is a `Session`:
the batches of that route, and the events that are about them, in their order.  `Stage`
says where a tab can stand in a session, with one constructor for each thing that can be
awaited, and each step of the tab leads from one stage to another.
-/

namespace BeaconDex.Frontend

open Library
open Backend

/-!
## The tab

Its state, its handlers, and what can happen to it.
-/

/-- What the tab keeps beside its flow. -/
structure MarketView where
  queue : List (List SmartFillLeg)
  runIndex : ℕ
  route : Option SmartFillRoute

/-- The tab: its transaction flow, whose requests are batches, the rest of its state, and
that state as it was when the page was last rendered. -/
structure MarketTab where
  flow : TxFlow (List SmartFillLeg)
  view : MarketView
  /-- What its handlers go by. -/
  rendered : MarketView

namespace MarketTab

/-- A fresh tab: no quote, nothing queued. -/
def start : MarketTab := ⟨.start, ⟨[], 0, none⟩, ⟨[], 0, none⟩⟩

/-- A step of the flow leaves the rest of the tab alone. -/
def onFlow (tab : MarketTab) (f : TxFlow (List SmartFillLeg) → TxFlow (List SmartFillLeg)) :
    MarketTab :=
  { tab with flow := f tab.flow }

/-- `setQueue` and `setRunIndex`, which are always called together. -/
def setQueue (tab : MarketTab) (queue : List (List SmartFillLeg)) (runIndex : ℕ) : MarketTab :=
  { tab with view := { tab.view with queue := queue, runIndex := runIndex } }

/-- The index is always one of the list. -/
def runBatch (tab : MarketTab) (batches : List (List SmartFillLeg)) (index : ℕ) : MarketTab :=
  (tab.setQueue batches index).onFlow fun flow => flow.build (batches.getD index [])

/-- The preview is rejected: what is left of the queue is abandoned. -/
def onReject (tab : MarketTab) : MarketTab := (tab.onFlow TxFlow.reject).setQueue [] 0

/-- The status page is left: what is left of the queue is abandoned. -/
def backToTrade (tab : MarketTab) : MarketTab := (tab.onFlow TxFlow.reset).setQueue [] 0

/-- A batch is settled.  The handler goes on with the next batch of the queue it was
rendered with, and leaves the page when there is none. -/
def onSettled (tab : MarketTab) : MarketTab :=
  let tab := tab.onFlow TxFlow.reset
  let next := tab.rendered.runIndex + 1
  if next < tab.rendered.queue.length then tab.runBatch tab.rendered.queue next
  else tab.setQueue [] 0

/-- A quote is kept; it does not touch a queue that is being run. -/
def quote (tab : MarketTab) (route : Option SmartFillRoute) : MarketTab :=
  { tab with view := { tab.view with route := route } }

/-- The page is drawn anew, so that its handlers go by the current state. -/
def render (tab : MarketTab) : MarketTab :=
  { tab.onFlow TxFlow.render with rendered := tab.view }

end MarketTab

/-- What can happen to the tab: something is clicked, or an answer comes that was awaited. -/
inductive MarketEvent
  /-- A quote arrives, or the form changes and there is none. -/
  | quoted (route : Option SmartFillRoute)
  | execute (route : SmartFillRoute)
  /-- "Take best order only" -/
  | takeBest (leg : SmartFillLeg)
  | built (batch : List SmartFillLeg) (answer : Except Str UnsignedTxResponse)
  | confirm (tx : UnsignedTxResponse)
  | signed (tx : UnsignedTxResponse) (answer : Except Str Str)
  | logged (txHash : Str) (summary : TxSummary)
  | reject
  /-- The status page has polled and found that many confirmations. -/
  | settled (txHash : Str) (confirmations : ℕ)
  /-- The status page is left before. -/
  | dismiss
  | render

namespace MarketTab

/-- The form is shown where no transaction is. -/
inductive ShowsForm : TxFlowState → Prop
  | idle : ShowsForm .idle
  | building : ShowsForm .building
  | error (message : Str) : ShowsForm (.error message)

/-- What is awaited comes back, and what the page shows can be clicked. -/
inductive Step : MarketTab → MarketEvent → MarketTab → Prop
  | quoted (tab : MarketTab) (route : Option SmartFillRoute) :
      Step tab (.quoted route) (tab.quote route)
  | execute {tab : MarketTab} {route : SmartFillRoute} (hform : ShowsForm tab.flow.rendered)
      (henabled : tab.flow.rendered ≠ .building) (hroute : tab.rendered.route = some route)
      (hlegs : route.legs ≠ []) :
      Step tab (.execute route) (tab.runBatch (chunk route.legs route.maxOrdersPerTx) 0)
  | takeBest {tab : MarketTab} {route : SmartFillRoute} {leg : SmartFillLeg}
      {rest : List SmartFillLeg} (hform : ShowsForm tab.flow.rendered)
      (hroute : tab.rendered.route = some route) (hlegs : route.legs = leg :: rest)
      (hmore : rest ≠ []) :
      Step tab (.takeBest leg) (tab.runBatch [[leg]] 0)
  | built {tab : MarketTab} {batch : List SmartFillLeg} (answer : Except Str UnsignedTxResponse)
      (h : batch ∈ tab.flow.builds) :
      Step tab (.built batch answer) (tab.onFlow fun flow => flow.built batch answer)
  | confirm {tab : MarketTab} {tx : UnsignedTxResponse} (h : tab.flow.rendered = .preview tx) :
      Step tab (.confirm tx) (tab.onFlow TxFlow.confirmAndSign)
  | signed {tab : MarketTab} {tx : UnsignedTxResponse} (answer : Except Str Str)
      (h : tx ∈ tab.flow.signatures) :
      Step tab (.signed tx answer) (tab.onFlow fun flow => flow.signed tx answer)
  | logged {tab : MarketTab} {txHash : Str} {summary : TxSummary}
      (h : (txHash, summary) ∈ tab.flow.entries) :
      Step tab (.logged txHash summary) (tab.onFlow fun flow => flow.logged txHash summary)
  | reject {tab : MarketTab} {tx : UnsignedTxResponse} (h : tab.flow.rendered = .preview tx) :
      Step tab .reject tab.onReject
  | settled {tab : MarketTab} {txHash : Str} {confirmations : ℕ}
      (h : tab.flow.rendered = .submitted txHash) (hconfirmations : 2 ≤ confirmations) :
      Step tab (.settled txHash confirmations) tab.onSettled
  | dismiss {tab : MarketTab} {txHash : Str} (h : tab.flow.rendered = .submitted txHash) :
      Step tab .dismiss tab.backToTrade
  | render (tab : MarketTab) : Step tab .render tab.render

end MarketTab

/-! ## What is required of a run -/

/-- Does a handler of the page run? -/
def MarketEvent.onPage : MarketEvent → Bool
  | execute _ | takeBest _ | confirm _ | reject | settled _ _ | dismiss => true
  | _ => false

/-- The page is rendered with the current state, of the flow and of the tab, so that a
handler finds what is there and not what was there before. -/
structure MarketTab.UpToDate (tab : MarketTab) : Prop where
  flow : tab.flow.rendered = tab.flow.state
  view : tab.rendered = tab.view

/-- A step on an up-to-date page, where the best order is not taken while a batch is being
built.  That the page is up to date is asked of every handler: of a click, and of a status
poll that counts its confirmations.  The poll of the code returns once its status is
settled, so it does not run again on a page that shows an older state. -/
structure MarketTab.OrderlyStep (tab : MarketTab) (event : MarketEvent) (tab' : MarketTab) :
    Prop where
  step : MarketTab.Step tab event tab'
  upToDate : event.onPage = true → tab.UpToDate
  notBuilding : ∀ leg, event = .takeBest leg → tab.flow.state ≠ .building

/-!
## What has happened to a route

Only the events that are told of a session's batches, in their order.
-/

/-- A batch from its build to its second confirmation. -/
structure BatchRun where
  batch : List SmartFillLeg
  tx : UnsignedTxResponse
  txHash : Str
  confirmations : ℕ

/-- What is to be told of a batch that has settled, in its order. -/
def BatchRun.story (run : BatchRun) : List MarketEvent :=
  [.built run.batch (.ok run.tx), .confirm run.tx, .signed run.tx (.ok run.txHash),
    .settled run.txHash run.confirmations]

/-- The batches of what was last started, and what has happened to them. -/
structure Session where
  batches : List (List SmartFillLeg)
  events : List MarketEvent

/-- What is told of a batch: that it was built, confirmed, signed, settled. -/
def MarketEvent.tells : MarketEvent → Bool
  | built _ (.ok _) | confirm _ | signed _ (.ok _) | settled _ _ => true
  | _ => false

/-- A start opens a new session; what is told of its batches is entered as it happens. -/
def Session.observe (session : Session) : MarketEvent → Session
  | .execute route => ⟨chunk route.legs route.maxOrdersPerTx, []⟩
  | .takeBest leg => ⟨[[leg]], []⟩
  | event => if event.tells then { session with events := session.events ++ [event] } else session

/-- The session that some events have led to. -/
def sessionOf (events : List MarketEvent) : Session := events.foldl Session.observe ⟨[], []⟩

/-- The first batches were run one after the other, the last one as far as it has come. -/
def Session.InOrder (session : Session) : Prop :=
  ∃ runs : List BatchRun, session.events <+: runs.flatMap BatchRun.story ∧
    runs.map BatchRun.batch <+: session.batches ∧ ∀ run ∈ runs, 2 ≤ run.confirmations

/-!
## Where a session stands

The stages, and how each event leads from one to another.
-/

/-- What the batch at hand has come to. -/
inductive Phase
  | building
  | preview (tx : UnsignedTxResponse)
  | signing (tx : UnsignedTxResponse)
  | submitted (tx : UnsignedTxResponse) (txHash : Str)

namespace Phase

/-- The state of the flow in this phase. -/
def state : Phase → TxFlowState
  | building => .building
  | preview tx => .preview tx
  | signing tx => .signing tx
  | submitted _ txHash => .submitted txHash

/-- The builds that are awaited in it: that of the batch, while it is being built. -/
def builds (batch : List SmartFillLeg) : Phase → List (List SmartFillLeg)
  | building => [batch]
  | _ => []

/-- The signatures that are awaited in it: that of its transaction, while it is being
signed. -/
def signatures : Phase → List UnsignedTxResponse
  | signing tx => [tx]
  | _ => []

/-- What has been told of the batch by then. -/
def story (batch : List SmartFillLeg) : Phase → List MarketEvent
  | building => []
  | preview tx => [.built batch (.ok tx)]
  | signing tx => [.built batch (.ok tx), .confirm tx]
  | submitted tx txHash => [.built batch (.ok tx), .confirm tx, .signed tx (.ok txHash)]

end Phase

/-- The batches of `done` have settled, with two confirmations each, and `batch` is at
hand: it is the next one of what was started. -/
structure Session.At (session : Session) (done : List BatchRun) (batch : List SmartFillLeg) :
    Prop where
  batches : done.map BatchRun.batch ++ [batch] <+: session.batches
  settled : ∀ run ∈ done, 2 ≤ run.confirmations

/-- Nothing is awaited, or one batch is: as the flow says and as the queue has it. -/
inductive Stage (tab : MarketTab) (session : Session) : Prop
  | resting (state : tab.flow.state = .idle ∨ ∃ message, tab.flow.state = .error message)
      (builds : tab.flow.builds = []) (signatures : tab.flow.signatures = [])
      (inOrder : session.InOrder)
  | running (phase : Phase) {done : List BatchRun} {batch : List SmartFillLeg}
      (state : tab.flow.state = phase.state) (builds : tab.flow.builds = phase.builds batch)
      (signatures : tab.flow.signatures = phase.signatures)
      (queue : tab.view.queue = session.batches) (runIndex : tab.view.runIndex = done.length)
      (batches : session.At done batch)
      (events : session.events = done.flatMap BatchRun.story ++ phase.story batch)

section

variable {tab tab' : MarketTab} {session : Session} {event : MarketEvent} {phase : Phase}
variable {done : List BatchRun} {batch : List SmartFillLeg}

/-- What is told of a batch so far is the beginning of its story. -/
theorem Phase.story_prefix (hne : phase ≠ .building) (batch : List SmartFillLeg) :
    ∃ run : BatchRun, run.batch = batch ∧ 2 ≤ run.confirmations ∧
      phase.story batch <+: run.story := by
  cases phase with
  | building => exact absurd rfl hne
  | preview tx => exact ⟨⟨batch, tx, [], 2⟩, rfl, le_rfl, ⟨_, rfl⟩⟩
  | signing tx => exact ⟨⟨batch, tx, [], 2⟩, rfl, le_rfl, ⟨_, rfl⟩⟩
  | submitted tx txHash => exact ⟨⟨batch, tx, txHash, 2⟩, rfl, le_rfl, ⟨_, rfl⟩⟩

/-- The batches that have settled are in order. -/
theorem Session.At.inOrder_done (h : session.At done batch)
    (hevents : session.events = done.flatMap BatchRun.story) : session.InOrder :=
  ⟨done, hevents ▸ List.prefix_rfl, (List.prefix_append _ _).trans h.batches, h.settled⟩

/-- At every stage of a session its events are in order. -/
theorem Stage.inOrder (h : Stage tab session) : session.InOrder := by
  cases h with
  | resting _ _ _ hinOrder => exact hinOrder
  | @running phase done batch _ _ _ _ _ hat hevents =>
      by_cases hbuilding : phase = .building
      · subst hbuilding
        exact hat.inOrder_done (hevents.trans (List.append_nil _))
      · obtain ⟨run, rfl, hconfirmations, hprefix⟩ := Phase.story_prefix hbuilding batch
        refine ⟨done ++ [run], ?_, by simpa using hat.batches, ?_⟩
        · rw [hevents, List.flatMap_append, List.flatMap_singleton]
          exact (List.prefix_append_right_inj _).mpr hprefix
        · intro r hr
          rcases List.mem_append.mp hr with hr | hr
          · exact hat.settled r hr
          · rwa [List.mem_singleton.mp hr]

/-- The next batch of the queue is built. -/
theorem Stage.runBatch (session : Session) (hbuilds : tab.flow.builds = [])
    (hsignatures : tab.flow.signatures = [])
    (hbatches : done.map BatchRun.batch <+: session.batches)
    (hlt : done.length < session.batches.length) (hsettled : ∀ run ∈ done, 2 ≤ run.confirmations)
    (hevents : session.events = done.flatMap BatchRun.story) :
    Stage (tab.runBatch session.batches done.length) session := by
  obtain ⟨rest, hrest⟩ := hbatches
  obtain ⟨next, rest, rfl⟩ : ∃ next rest', rest = next :: rest' := by
    refine List.exists_cons_of_ne_nil fun hnil => ?_
    have hlength := congrArg List.length hrest
    rw [hnil, List.append_nil, List.length_map] at hlength
    omega
  have hnext : session.batches.getD done.length [] = next := by
    rw [List.getD_eq_getElem?_getD, ← hrest, List.getElem?_append_right (by simp)]
    simp
  have hat : session.At done next := ⟨⟨rest, by rw [← hrest]; simp⟩, hsettled⟩
  refine .running .building rfl ?_ hsignatures rfl rfl hat ?_
  · show session.batches.getD done.length [] :: tab.flow.builds = [next]
    rw [hnext, hbuilds]
  · rw [hevents]
    exact (List.append_nil _).symm

/-- A start finds nothing awaited. -/
theorem Stage.start (hbuilds : tab.flow.builds = []) (hsignatures : tab.flow.signatures = [])
    {batches : List (List SmartFillLeg)} (hne : batches ≠ []) :
    Stage (tab.runBatch batches 0) ⟨batches, []⟩ :=
  have hnone : ([] : List BatchRun).map BatchRun.batch <+: batches := List.nil_prefix
  Stage.runBatch ⟨batches, []⟩ hbuilds hsignatures hnone (List.length_pos_iff.mpr hne)
    (fun _ h => absurd h List.not_mem_nil) rfl

/-- A stage is about the flow and the queue. -/
theorem Stage.congr (h : Stage tab session) (hstate : tab'.flow.state = tab.flow.state)
    (hbuilds : tab'.flow.builds = tab.flow.builds)
    (hsignatures : tab'.flow.signatures = tab.flow.signatures)
    (hqueue : tab'.view.queue = tab.view.queue) (hindex : tab'.view.runIndex = tab.view.runIndex) :
    Stage tab' session := by
  cases h with
  | resting state builds signatures inOrder =>
      exact .resting (hstate ▸ state) (hbuilds.trans builds) (hsignatures.trans signatures) inOrder
  | running phase state builds signatures queue runIndex batches events =>
      exact .running phase (hstate.trans state) (hbuilds.trans builds) (hsignatures.trans signatures)
        (hqueue.trans queue) (hindex.trans runIndex) batches events

/-- While nothing is built or signed, nothing is awaited. -/
theorem Stage.awaits_nothing (h : Stage tab session) (hbuilding : tab.flow.state ≠ .building)
    (hsigning : ∀ tx, tab.flow.state ≠ .signing tx) :
    tab.flow.builds = [] ∧ tab.flow.signatures = [] := by
  cases h with
  | resting _ hbuilds hsignatures _ => exact ⟨hbuilds, hsignatures⟩
  | @running phase _ _ hstate hbuilds hsignatures _ _ _ _ =>
      cases phase with
      | building => exact absurd hstate hbuilding
      | signing tx => exact absurd hstate (hsigning tx)
      | preview tx => exact ⟨hbuilds, hsignatures⟩
      | submitted tx txHash => exact ⟨hbuilds, hsignatures⟩

/-- Where the form is shown and nothing is built, a start is safe. -/
theorem Stage.awaits_nothing_of_form (h : Stage tab session)
    (hform : MarketTab.ShowsForm tab.flow.state) (hbuilding : tab.flow.state ≠ .building) :
    tab.flow.builds = [] ∧ tab.flow.signatures = [] := by
  refine h.awaits_nothing hbuilding fun tx hsigning => ?_
  rw [hsigning] at hform
  cases hform

/-- Each step of the tab leads from a stage to a stage: an answered build, -/
theorem Stage.built (h : Stage tab session) (hbatch : batch ∈ tab.flow.builds)
    (answer : Except Str UnsignedTxResponse) :
    Stage (tab.onFlow fun flow => flow.built batch answer)
      (session.observe (.built batch answer)) := by
  cases h with
  | resting _ hbuilds _ _ =>
      rw [hbuilds] at hbatch
      cases hbatch
  | @running phase done batch' hstate hbuilds hsignatures hqueue hindex hat hevents =>
      obtain rfl : phase = .building := by
        rw [hbuilds] at hbatch
        cases phase <;> first | rfl | cases hbatch
      rw [hbuilds] at hbatch
      obtain rfl : batch = batch' := List.mem_singleton.mp hbatch
      have hnone := TxFlow.builds_built hbuilds answer
      cases answer with
      | error message =>
          exact .resting (.inr ⟨message, rfl⟩) hnone hsignatures
            (hat.inOrder_done (hevents.trans (List.append_nil _)))
      | ok tx =>
          refine .running (.preview tx) rfl hnone hsignatures hqueue hindex
            ⟨hat.batches, hat.settled⟩ ?_
          exact congrArg (· ++ _) (hevents.trans (List.append_nil _))

/-- a confirmation of the preview that is shown, -/
theorem Stage.confirm (h : Stage tab session) {tx : UnsignedTxResponse}
    (hrendered : tab.flow.rendered = .preview tx) (hstate : tab.flow.state = .preview tx) :
    Stage (tab.onFlow TxFlow.confirmAndSign) (session.observe (.confirm tx)) := by
  have hflow := TxFlow.confirmAndSign_eq hrendered
  cases h with
  | resting hresting _ _ _ => simp [hstate] at hresting
  | @running phase done batch hphase hbuilds hsignatures hqueue hindex hat hevents =>
      obtain rfl : phase = .preview tx := by
        rw [hstate] at hphase
        cases phase <;> cases hphase
        rfl
      refine .running (.signing tx) (congrArg TxFlow.state hflow)
        ((congrArg TxFlow.builds hflow).trans hbuilds) ?_ hqueue hindex ⟨hat.batches, hat.settled⟩ ?_
      · exact (congrArg TxFlow.signatures hflow).trans (congrArg (tx :: ·) hsignatures)
      · exact (congrArg (· ++ [MarketEvent.confirm tx]) hevents).trans (List.append_assoc ..)

/-- a signature, or the wallet's refusal of one, -/
theorem Stage.signed (h : Stage tab session) {tx : UnsignedTxResponse}
    (htx : tx ∈ tab.flow.signatures) (answer : Except Str Str) :
    Stage (tab.onFlow fun flow => flow.signed tx answer) (session.observe (.signed tx answer)) := by
  have hinOrder := h.inOrder
  cases h with
  | resting _ _ hsignatures _ =>
      rw [hsignatures] at htx
      cases htx
  | @running phase done batch hphase hbuilds hsignatures hqueue hindex hat hevents =>
      obtain rfl : phase = .signing tx := by
        rw [hsignatures] at htx
        cases phase with
        | signing tx' => rw [List.mem_singleton.mp htx]
        | building => cases htx
        | preview _ => cases htx
        | submitted _ _ => cases htx
      have hnone := TxFlow.signatures_signed hsignatures answer
      cases answer with
      | error message => exact .resting (.inr ⟨message, rfl⟩) hbuilds hnone hinOrder
      | ok txHash =>
          refine .running (.submitted tx txHash) rfl hbuilds hnone hqueue hindex
            ⟨hat.batches, hat.settled⟩ ?_
          exact (congrArg (· ++ [MarketEvent.signed tx (.ok txHash)]) hevents).trans
            (List.append_assoc ..)

/-- and the status poll that finds the second confirmation and starts the next batch. -/
theorem Stage.settled (h : Stage tab session) {txHash : Str} {confirmations : ℕ}
    (hstate : tab.flow.state = .submitted txHash) (hview : tab.rendered = tab.view)
    (hconfirmations : 2 ≤ confirmations) :
    Stage tab.onSettled (session.observe (.settled txHash confirmations)) := by
  cases h with
  | resting hresting _ _ _ => simp [hstate] at hresting
  | @running phase done batch hphase hbuilds hsignatures hqueue hindex hat hevents =>
      obtain ⟨tx, rfl⟩ : ∃ tx, phase = .submitted tx txHash := by
        rw [hstate] at hphase
        cases phase <;> cases hphase
        exact ⟨_, rfl⟩
      -- the batch at hand is done
      let run : BatchRun := ⟨batch, tx, txHash, confirmations⟩
      have hstory : session.events ++ [.settled txHash confirmations] =
          (done ++ [run]).flatMap BatchRun.story := by
        rw [hevents, List.append_assoc, List.flatMap_append, List.flatMap_singleton]
        rfl
      have hbatches : (done ++ [run]).map BatchRun.batch <+: session.batches := by
        rw [List.map_append]
        exact hat.batches
      have hsettled : ∀ r ∈ done ++ [run], 2 ≤ r.confirmations := by
        intro r hr
        rcases List.mem_append.mp hr with hr | hr
        · exact hat.settled r hr
        · rwa [List.mem_singleton.mp hr]
      have hnext : tab.view.runIndex + 1 = (done ++ [run]).length := by
        rw [hindex, List.length_append, List.length_singleton]
      let settled : Session := { session with
        events := session.events ++ [.settled txHash confirmations] }
      show Stage tab.onSettled settled
      simp only [MarketTab.onSettled, MarketTab.onFlow, hview, hqueue, hnext]
      split_ifs with hmore
      · exact Stage.runBatch settled hbuilds hsignatures hbatches hmore hsettled hstory
      · exact .resting (.inl rfl) hbuilds hsignatures
          ⟨done ++ [run], hstory ▸ List.prefix_rfl, hbatches, hsettled⟩

/-- **One event.** -/
theorem Stage.step (h : Stage tab session) (hstep : tab.OrderlyStep event tab') :
    Stage tab' (session.observe event) := by
  obtain ⟨hstep, hupToDate, hnotBuilding⟩ := hstep
  cases hstep with
  | quoted route => exact h.congr rfl rfl rfl rfl rfl
  | logged _ => exact h.congr rfl rfl rfl rfl rfl
  | render => exact h.congr rfl rfl rfl rfl rfl
  | @execute route hform henabled hroute hlegs =>
      have hstate := (hupToDate rfl).flow
      obtain ⟨hbuilds, hsignatures⟩ :=
        h.awaits_nothing_of_form (hstate ▸ hform) (hstate ▸ henabled)
      exact .start hbuilds hsignatures (chunk_ne_nil hlegs)
  | @takeBest route leg rest hform hroute hlegs hmore =>
      obtain ⟨hbuilds, hsignatures⟩ :=
        h.awaits_nothing_of_form ((hupToDate rfl).flow ▸ hform) (hnotBuilding leg rfl)
      exact .start hbuilds hsignatures (List.cons_ne_nil _ _)
  | built answer hbatch => exact h.built hbatch answer
  | confirm hrendered =>
      exact h.confirm hrendered ((hupToDate rfl).flow.symm.trans hrendered)
  | signed answer htx => exact h.signed htx answer
  | @reject tx hrendered =>
      have hstate := (hupToDate rfl).flow.symm.trans hrendered
      obtain ⟨hbuilds, hsignatures⟩ := h.awaits_nothing (by simp [hstate]) (by simp [hstate])
      exact .resting (.inl rfl) hbuilds hsignatures h.inOrder
  | settled hrendered hconfirmations =>
      exact h.settled ((hupToDate rfl).flow.symm.trans hrendered) (hupToDate rfl).view
        hconfirmations
  | @dismiss txHash hrendered =>
      have hstate := (hupToDate rfl).flow.symm.trans hrendered
      obtain ⟨hbuilds, hsignatures⟩ := h.awaits_nothing (by simp [hstate]) (by simp [hstate])
      exact .resting (.inl rfl) hbuilds hsignatures h.inOrder

/-- A run of the tab is at some stage of its session. -/
theorem Stage.of_run {events : List MarketEvent}
    (hrun : Run MarketTab.OrderlyStep .start events tab) : Stage tab (sessionOf events) := by
  have hstart : Stage .start ⟨[], []⟩ := .resting (.inl rfl) rfl rfl
    ⟨[], List.prefix_rfl, List.prefix_rfl, fun _ h => absurd h List.not_mem_nil⟩
  have hstep : ∀ tab event tab' session, MarketTab.OrderlyStep tab event tab' →
      Stage tab session → Stage tab' (session.observe event) := fun _ _ _ _ hstep h => h.step hstep
  exact hrun.tracks hstep hstart

/-- **Batches are run in order.** In every run of the tab where clicks and the status
polls that count fall on up-to-date pages, and the best order is not taken during a build,
one thing at most is awaited.  What has happened to the batches since the last start is
the beginning of this: each in its turn is built, confirmed under its preview, signed, and
has its second confirmation before the next one is built. -/
theorem market_in_order {events : List MarketEvent}
    (hrun : Run MarketTab.OrderlyStep .start events tab) :
    (sessionOf events).InOrder ∧ tab.flow.builds.length + tab.flow.signatures.length ≤ 1 := by
  have hstage := Stage.of_run hrun
  refine ⟨hstage.inOrder, ?_⟩
  cases hstage with
  | resting _ hbuilds hsignatures _ => simp [hbuilds, hsignatures]
  | running phase _ hbuilds hsignatures _ _ _ _ =>
      rw [hbuilds, hsignatures]
      cases phase <;> simp [Phase.builds, Phase.signatures]

end

/-! A route of two batches is run, and the best order is taken during a build. -/

namespace SampleMarket

/-- A page that is rendered is up to date. -/
theorem onPage {tab tab' : MarketTab} {event : MarketEvent}
    (h : MarketTab.Step tab.render event tab') (hbest : ∀ leg, event ≠ .takeBest leg) :
    MarketTab.OrderlyStep tab.render event tab' :=
  ⟨h, fun _ => ⟨rfl, rfl⟩, fun leg hleg => absurd hleg (hbest leg)⟩

theorem offPage {tab tab' : MarketTab} {event : MarketEvent} (h : MarketTab.Step tab event tab')
    (hoff : event.onPage = false) : MarketTab.OrderlyStep tab event tab' where
  step := h
  upToDate hon := by simp [hoff] at hon
  notBuilding leg hleg := by
    rw [hleg] at hoff
    cases hoff

section

variable (route : SmartFillRoute) (tx tx' : UnsignedTxResponse) (txHash txHash' : Str)

def batches : List (List SmartFillLeg) := chunk route.legs route.maxOrdersPerTx

def batch (i : ℕ) : List SmartFillLeg := (batches route).getD i []

/-- The first two batches of a route, one after the other. -/
def events : List MarketEvent :=
  [.quoted (some route), .render, .execute route, .built (batch route 0) (.ok tx), .render,
    .confirm tx, .signed tx (.ok txHash), .logged txHash tx.summary, .render, .settled txHash 2,
    .built (batch route 1) (.ok tx'), .render, .confirm tx', .signed tx' (.ok txHash')]

variable {route}

theorem onSettled_of_lt {tab : MarketTab}
    (h : tab.rendered.runIndex + 1 < tab.rendered.queue.length) : tab.onSettled =
      (tab.onFlow TxFlow.reset).runBatch tab.rendered.queue (tab.rendered.runIndex + 1) :=
  if_pos h

theorem run (hlegs : route.legs ≠ []) (hmore : 1 < (batches route).length) :
    ∃ tab, Run MarketTab.OrderlyStep .start (events route tx tx' txHash txHash') tab := by
  have hfirst : Run MarketTab.OrderlyStep .start ((events route tx tx' txHash txHash').take 10) _ :=
    .cons (offPage (.quoted _ _) rfl) (.cons (offPage (.render _) rfl)
      (.cons (onPage (.execute .idle nofun rfl hlegs) nofun)
      (.cons (offPage (.built _ List.mem_cons_self) rfl) (.cons (offPage (.render _) rfl)
      (.cons (onPage (.confirm rfl) nofun) (.cons (offPage (.signed _ List.mem_cons_self) rfl)
      (.cons (offPage (.logged List.mem_cons_self) rfl) (.cons (offPage (.render _) rfl)
      (.single (onPage (.settled rfl le_rfl) nofun))))))))))
  rw [onSettled_of_lt hmore] at hfirst
  exact ⟨_, hfirst.append (.cons (offPage (.built _ List.mem_cons_self) rfl)
    (.cons (offPage (.render _) rfl) (.cons (onPage (.confirm rfl) nofun)
    (.single (offPage (.signed _ List.mem_cons_self) rfl)))))⟩

end

def leg : SmartFillLeg := ⟨[], 1, 1, [], none, none⟩

/-- Two orders, each in a transaction of its own. -/
def route : SmartFillRoute where
  pairId := []
  spendAsset := []
  receiveAsset := []
  mode := .spend
  requested := 2
  legs := [leg, { leg with spend := 2 }]
  totalSpend := 3
  totalReceive := 2
  averagePrice := []
  transactionCount := 2
  maxOrdersPerTx := ⟨1, Nat.one_pos⟩
  atomic := false
  candidateCount := 2
  warnings := []

def tx : UnsignedTxResponse := ⟨[], ⟨.takeOrder, none, none, none, none⟩⟩

end SampleMarket

open SampleMarket in
theorem market_in_order_sample :
    ∃ tab, Run MarketTab.OrderlyStep .start (events route tx tx [] []) tab ∧
      (sessionOf (events route tx tx [] [])).InOrder ∧
      tab.flow.builds.length + tab.flow.signatures.length ≤ 1 := by
  have hlegs : route.legs ≠ [] := by decide
  obtain ⟨tab, hrun⟩ := run tx tx [] [] hlegs (by decide)
  exact ⟨tab, hrun, market_in_order hrun⟩

open SampleMarket in
/-- Up-to-date pages are not enough: the best order is taken while the route's first
batch is built, and two transactions over that order wait for their signatures. -/
theorem overlapping_batches : ∃ events tab, Run (fun tab event tab' =>
      MarketTab.Step tab event tab' ∧ (event.onPage = true → tab.UpToDate)) .start events tab ∧
    tab.flow.signatures.length = 2 := by
  have hpage : ∀ tab : MarketTab, tab.render.UpToDate := fun _ => ⟨rfl, rfl⟩
  refine ⟨_, _, .cons ⟨.quoted _ (some route), nofun⟩ (.cons ⟨.render _, nofun⟩
    (.cons ⟨.execute .idle nofun rfl (by decide), fun _ => hpage _⟩ (.cons ⟨.render _, nofun⟩
    (.cons ⟨.takeBest .building rfl rfl (by decide), fun _ => hpage _⟩
    (.cons ⟨@MarketTab.Step.built _ (batch route 0) (.ok tx) (.tail _ (.head _)), nofun⟩
    (.cons ⟨.render _, nofun⟩ (.cons ⟨.confirm rfl, fun _ => hpage _⟩
    (.cons ⟨@MarketTab.Step.built _ [leg] (.ok tx) ?_, nofun⟩ (.cons ⟨.render _, nofun⟩
    (.single ⟨.confirm rfl, fun _ => hpage _⟩)))))))))), ?_⟩
  · decide
  · decide

/-!
## What has been signed

The transactions a session has submitted, with the nets they were shown with.
-/

section Nets

variable {d : Deployment} {mesh : Mesh} {scripts : ProtocolScripts} {opts : BuilderOptions}
variable {iopts : IndexerOptions} {reading : ChainReading} {history : History} {repo : OrdersRepo}
variable {params : SmartFillParams} {events : List MarketEvent} {tab : MarketTab}

end Nets

/-! The sample route is executed. -/

end BeaconDex.Frontend
