import BeaconDex.Frontend.TxHistory
import BeaconDex.Library.Run

/-!
# Build, preview, sign, submit

`frontend/hooks/useTxFlow.ts`.  Each page drives its transactions through one state:
building, preview, signing, submitted.  Building and signing are awaited, so whatever
was started finishes at any later time, over whatever the page shows by then; and the
handlers on a page were made with the state it showed when it was rendered.

`Pages` are any number of pages over one history.  In every run of them, whatever is
signed was built on request, previewed and confirmed on that preview, as often as it is
signed; and whatever the history lists is such a transaction, with the summary it was
previewed with and the hash it was submitted under (`flows_confirmed`).

## Two tenses of a page

`state` is what a page will show once it is rendered again, `rendered` is what its
buttons were made for.  A click acts on the second and writes the first, so that a
preview may be confirmed after a newer one has replaced it.  What is then signed is the
older one, which was on the screen: the results are about what was shown, and not about
what the state held.
-/

namespace BeaconDex.Frontend

open Library
open Backend (Str AssetAmount TakeSummary)

/-- What a transaction does, as its summary calls it. -/
inductive TxAction
  | createOrder
  | cancelOrder
  | takeOrder
  | takeOrderPartial
  | takeManyOrders
  deriving DecidableEq

/-- What a response says of its transaction, as far as the frontend computes with it. -/
structure TxSummary where
  action : TxAction
  offered : Option AssetAmount
  requested : Option AssetAmount
  depositLovelace : Option ℤ
  takerNet : Option (List (Str × ℤ))
  deriving DecidableEq

/-- What the backend answers to a build: the transaction to sign, and the summary that is
shown before it is. -/
structure UnsignedTxResponse where
  unsignedTxCborHex : Str
  summary : TxSummary
  deriving DecidableEq

/-!
## One page

What a page shows, what it was rendered with, and what it waits for.
-/

/-- What the page shows of a transaction, from the build to its hash. -/
inductive TxFlowState
  | idle
  | building
  | preview (tx : UnsignedTxResponse)
  | signing (tx : UnsignedTxResponse)
  | submitted (txHash : Str)
  | error (message : Str)
  deriving DecidableEq

/-- A page with its hook: what it builds is asked for by requests. -/
structure TxFlow (Request : Type*) where
  state : TxFlowState
  /-- The state the page was rendered with, which its handlers go by. -/
  rendered : TxFlowState
  /-- What is awaited: builds, signatures, and entries of the history. -/
  builds : List Request
  signatures : List UnsignedTxResponse
  entries : List (Str × TxSummary)

namespace TxFlow

variable {Request : Type*}

/-- Nothing has been asked for. -/
def start : TxFlow Request := ⟨.idle, .idle, [], [], []⟩

/-- `build`, up to its `await`. -/
def build (flow : TxFlow Request) (request : Request) : TxFlow Request :=
  { flow with state := .building, builds := request :: flow.builds }

/-- The rest of it: the wallet context was read and the builder has answered. -/
def built [DecidableEq Request] (flow : TxFlow Request) (request : Request)
    (answer : Except Str UnsignedTxResponse) : TxFlow Request :=
  { flow with
    builds := flow.builds.erase request
    state :=
      match answer with
      | .ok tx => .preview tx
      | .error message => .error message }

/-- `confirmAndSign`, up to its `await`. -/
def confirmAndSign (flow : TxFlow Request) : TxFlow Request :=
  match flow.rendered with
  | .preview tx => { flow with state := .signing tx, signatures := tx :: flow.signatures }
  | _ => flow

/-- The rest of it: the wallet has signed and submitted, or refused. -/
def signed (flow : TxFlow Request) (tx : UnsignedTxResponse) (answer : Except Str Str) :
    TxFlow Request :=
  match answer with
  | .ok txHash =>
      { flow with
        signatures := flow.signatures.erase tx
        state := .submitted txHash
        entries := (txHash, tx.summary) :: flow.entries }
  | .error message =>
      { flow with signatures := flow.signatures.erase tx, state := .error message }

/-- `logSubmitted` has come to `recordHistory`. -/
def logged (flow : TxFlow Request) (txHash : Str) (summary : TxSummary) : TxFlow Request :=
  { flow with entries := flow.entries.erase (txHash, summary) }

/-- A preview is turned down.  Nothing was asked of the wallet yet. -/
def reject (flow : TxFlow Request) : TxFlow Request := { flow with state := .idle }

/-- The page goes back to its form. -/
def reset (flow : TxFlow Request) : TxFlow Request := { flow with state := .idle }

/-- The page is drawn anew. -/
def render (flow : TxFlow Request) : TxFlow Request := { flow with rendered := flow.state }

section

variable {flow : TxFlow Request} {request : Request} {tx : UnsignedTxResponse}

/-- A click on the preview that is shown hands this transaction to the wallet, and no
other. -/
theorem confirmAndSign_eq (h : flow.rendered = .preview tx) : flow.confirmAndSign =
    { flow with state := .signing tx, signatures := tx :: flow.signatures } := by
  rw [confirmAndSign, h]

/-- The only build that was awaited is over. -/
theorem builds_built [DecidableEq Request] (h : flow.builds = [request])
    (answer : Except Str UnsignedTxResponse) : (flow.built request answer).builds = [] := by
  show flow.builds.erase request = []
  rw [h]
  exact List.erase_cons_head ..

/-- A wallet that answers the one request it had has none left. -/
theorem signatures_signed (h : flow.signatures = [tx]) (answer : Except Str Str) :
    (flow.signed tx answer).signatures = [] := by
  cases answer <;> rw [signed, h] <;> exact List.erase_cons_head ..

end

end TxFlow

/-! ## All pages -/

/-- What happens, on the page `i` it happens on. -/
inductive FlowEvent (ι Request : Type*)
  | build (i : ι) (request : Request)
  | built (i : ι) (request : Request) (answer : Except Str UnsignedTxResponse)
  /-- The button under the preview of `tx` is clicked, with a wallet connected. -/
  | confirm (i : ι) (tx : UnsignedTxResponse)
  | signed (i : ι) (tx : UnsignedTxResponse) (answer : Except Str Str)
  | log (i : ι) (entry : HistoryEntry TxSummary)
  | reject (i : ι)
  | reset (i : ι)
  | render (i : ι)
  /-- The history is cleared, on whatever page. -/
  | clear (owner : Option (Option Str))

/-- Several pages with a flow of their own each, over one stored history. -/
structure Pages (ι Request : Type*) where
  flows : ι → TxFlow Request
  stored : List (HistoryEntry TxSummary)

section

variable {ι Request : Type*} [DecidableEq ι]

namespace Pages

/-- All pages are fresh, and nothing is stored. -/
def start : Pages ι Request := ⟨fun _ => .start, []⟩

/-- A step of one page's flow; the other pages are where they were. -/
def on (pages : Pages ι Request) (i : ι) (f : TxFlow Request → TxFlow Request) :
    Pages ι Request :=
  { pages with flows := Function.update pages.flows i (f (pages.flows i)) }

/-- What is awaited comes back, and a button is there on the page that shows it. -/
inductive Step [DecidableEq Request] :
    Pages ι Request → FlowEvent ι Request → Pages ι Request → Prop
  | build (pages : Pages ι Request) (i : ι) (request : Request) :
      Step pages (.build i request) (pages.on i fun flow => flow.build request)
  | built {pages : Pages ι Request} {i : ι} {request : Request}
      (answer : Except Str UnsignedTxResponse) (h : request ∈ (pages.flows i).builds) :
      Step pages (.built i request answer) (pages.on i fun flow => flow.built request answer)
  | confirm {pages : Pages ι Request} {i : ι} {tx : UnsignedTxResponse}
      (h : (pages.flows i).rendered = .preview tx) :
      Step pages (.confirm i tx) (pages.on i TxFlow.confirmAndSign)
  | signed {pages : Pages ι Request} {i : ι} {tx : UnsignedTxResponse} (answer : Except Str Str)
      (h : tx ∈ (pages.flows i).signatures) :
      Step pages (.signed i tx answer) (pages.on i fun flow => flow.signed tx answer)
  | log {pages : Pages ι Request} {i : ι} {entry : HistoryEntry TxSummary}
      (h : (entry.txHash, entry.summary) ∈ (pages.flows i).entries) :
      Step pages (.log i entry)
        { pages.on i fun flow => flow.logged entry.txHash entry.summary with
          stored := recordHistory pages.stored entry }
  | reject (pages : Pages ι Request) (i : ι) : Step pages (.reject i) (pages.on i TxFlow.reject)
  | reset (pages : Pages ι Request) (i : ι) : Step pages (.reset i) (pages.on i TxFlow.reset)
  | render (pages : Pages ι Request) (i : ι) : Step pages (.render i) (pages.on i TxFlow.render)
  | clear (pages : Pages ι Request) (owner : Option (Option Str)) :
      Step pages (.clear owner) { pages with stored := clearHistory pages.stored owner }

end Pages

/-!
## What has happened

The events so far, and what the parts of a page's state can be traced back to.
-/

namespace FlowEvent

/-- The wallet is done with `tx`, and has signed it or not. -/
def settles (i : ι) (tx : UnsignedTxResponse) : FlowEvent ι Request → Bool
  | signed j tx' _ => j = i ∧ tx' = tx
  | _ => false

/-- Is this the confirmation of that transaction on that page? -/
def confirms (i : ι) (tx : UnsignedTxResponse) : FlowEvent ι Request → Bool
  | confirm j tx' => j = i ∧ tx' = tx
  | _ => false

end FlowEvent

section

variable (events : List (FlowEvent ι Request)) (i : ι) (tx : UnsignedTxResponse)

/-- The transaction was built on request. -/
def Built : Prop :=
  ∃ request, [.build i request, .built i request (.ok tx)].Sublist events

/-- It was built and then confirmed under its preview. -/
def Confirmed : Prop :=
  ∃ request, [.build i request, .built i request (.ok tx), .confirm i tx].Sublist events

/-- And then signed and submitted. -/
def Submitted (txHash : Str) : Prop :=
  ∃ request, [.build i request, .built i request (.ok tx), .confirm i tx,
    .signed i tx (.ok txHash)].Sublist events

/-- The entry is one of a transaction that was submitted on some page. -/
def Logged (entry : HistoryEntry TxSummary) : Prop :=
  ∃ i request tx, entry.summary = tx.summary ∧
    [.build i request, .built i request (.ok tx), .confirm i tx,
      .signed i tx (.ok entry.txHash), .log i entry].Sublist events

/-- What a page shows and awaits has come about by the events so far. -/
structure Follows (flow : TxFlow Request) : Prop where
  builds : ∀ request ∈ flow.builds, .build i request ∈ events
  state : ∀ tx, flow.state = .preview tx → Built events i tx
  rendered : ∀ tx, flow.rendered = .preview tx → Built events i tx
  signatures : ∀ tx ∈ flow.signatures, Confirmed events i tx
  entries : ∀ entry ∈ flow.entries, ∃ tx, entry.2 = tx.summary ∧ Submitted events i tx entry.1
  counted : ∀ tx, events.countP (FlowEvent.settles i tx) + flow.signatures.count tx =
    events.countP (FlowEvent.confirms i tx)

end

section

variable {seen : List (FlowEvent ι Request)} {event : FlowEvent ι Request} {i : ι}
variable {flow : TxFlow Request} {tx : UnsignedTxResponse} {request : Request}

omit [DecidableEq ι] in
/-- What has been seen in order is still so after one more event. -/
theorem sublist_concat {story : List (FlowEvent ι Request)} (h : story.Sublist seen) :
    story.Sublist (seen ++ [event]) :=
  h.trans (List.sublist_append_left _ _)

omit [DecidableEq ι] in
/-- And the event itself can be added to what was seen. -/
theorem concat_sublist {story : List (FlowEvent ι Request)} (h : story.Sublist seen) :
    (story ++ [event]).Sublist (seen ++ [event]) :=
  h.append (List.Sublist.refl _)

/-- One more event, as long as it is no click or signature on this page. -/
theorem Follows.extend (h : Follows seen i flow)
    (hsettles : ∀ tx, event.settles i tx = false) (hconfirms : ∀ tx, event.confirms i tx = false) :
    Follows (seen ++ [event]) i flow where
  builds request hrequest := List.mem_append_left _ (h.builds request hrequest)
  state tx htx := (h.state tx htx).imp fun _ => sublist_concat
  rendered tx htx := (h.rendered tx htx).imp fun _ => sublist_concat
  signatures tx htx := (h.signatures tx htx).imp fun _ => sublist_concat
  entries entry hentry :=
    (h.entries entry hentry).imp fun _ => And.imp_right fun hsub => hsub.imp fun _ => sublist_concat
  counted tx := by
    have hcounted := h.counted tx
    simpa [List.countP_append, hsettles, hconfirms] using hcounted

/-- Each step of a page keeps what its flow can be traced back to.  A build adds a request
to be answered. -/
theorem Follows.build (h : Follows seen i flow) (request : Request) :
    Follows (seen ++ [.build i request]) i (flow.build request) where
  __ := h.extend (fun _ => rfl) fun _ => rfl
  builds request' hrequest := by
    rcases List.mem_cons.mp hrequest with rfl | hrequest
    · simp
    · exact List.mem_append_left _ (h.builds request' hrequest)
  state := nofun

/-- An answer can be shown as a preview once the page asked for it. -/
theorem Follows.built [DecidableEq Request] (h : Follows seen i flow)
    (hrequest : request ∈ flow.builds)
    (answer : Except Str UnsignedTxResponse) :
    Follows (seen ++ [.built i request answer]) i (flow.built request answer) where
  __ := h.extend (fun _ => rfl) fun _ => rfl
  builds request' hrequest' :=
    List.mem_append_left _ (h.builds request' (List.mem_of_mem_erase hrequest'))
  state tx htx := by
    cases answer with
    | error message => cases htx
    | ok tx' =>
        obtain rfl := TxFlowState.preview.inj htx
        exact ⟨request, concat_sublist (List.singleton_sublist.mpr (h.builds request hrequest))⟩

/-- A confirmation adds a signature request for what was shown. -/
theorem Follows.confirm (h : Follows seen i flow) (hrendered : flow.rendered = .preview tx) :
    Follows (seen ++ [.confirm i tx]) i flow.confirmAndSign := by
  rw [TxFlow.confirmAndSign_eq hrendered]
  refine ⟨fun request hrequest => List.mem_append_left _ (h.builds request hrequest), nofun,
    fun tx htx => (h.rendered tx htx).imp fun _ => sublist_concat, ?_, ?_, ?_⟩
  · intro tx' htx
    rcases List.mem_cons.mp htx with rfl | htx
    · exact (h.rendered tx' hrendered).imp fun _ => concat_sublist
    · exact (h.signatures tx' htx).imp fun _ => sublist_concat
  · intro entry hentry
    exact (h.entries entry hentry).imp fun _ => And.imp_right fun hsub =>
      hsub.imp fun _ => sublist_concat
  · intro tx'
    have hcounted := h.counted tx'
    simp only [List.countP_append, List.countP_singleton, FlowEvent.settles, FlowEvent.confirms,
      List.count_cons, true_and, decide_eq_true_eq, beq_iff_eq] at hcounted ⊢
    simp only [Bool.false_eq_true, if_false]
    omega

/-- A signature settles a request, whether the wallet signed or not. -/
theorem Follows.signed (h : Follows seen i flow) (htx : tx ∈ flow.signatures)
    (answer : Except Str Str) :
    Follows (seen ++ [.signed i tx answer]) i (flow.signed tx answer) := by
  have hcounted : ∀ tx', (seen ++ [FlowEvent.signed i tx answer]).countP (FlowEvent.settles i tx') +
      (flow.signatures.erase tx).count tx' =
        (seen ++ [FlowEvent.signed i tx answer]).countP (FlowEvent.confirms i tx') := by
    intro tx'
    have hcounted := h.counted tx'
    have hpos := List.count_pos_iff.mpr htx
    simp only [List.countP_append, List.countP_singleton, FlowEvent.settles, FlowEvent.confirms,
      true_and, decide_eq_true_eq, Bool.false_eq_true, if_false, List.count_erase, beq_iff_eq]
    split_ifs with hsame
    · subst hsame
      omega
    · omega
  have hsignatures : ∀ tx' ∈ flow.signatures.erase tx,
      Confirmed (seen ++ [.signed i tx answer]) i tx' :=
    fun tx' htx' => (h.signatures tx' (List.mem_of_mem_erase htx')).imp fun _ => sublist_concat
  have hentries : ∀ entry ∈ flow.entries, ∃ tx', entry.2 = tx'.summary ∧
      Submitted (seen ++ [.signed i tx answer]) i tx' entry.1 :=
    fun entry hentry => (h.entries entry hentry).imp fun _ => And.imp_right fun hsub =>
      hsub.imp fun _ => sublist_concat
  cases answer with
  | error message =>
      exact ⟨fun request hrequest => List.mem_append_left _ (h.builds request hrequest), nofun,
        fun tx htx => (h.rendered tx htx).imp fun _ => sublist_concat, hsignatures, hentries,
        hcounted⟩
  | ok txHash =>
      refine ⟨fun request hrequest => List.mem_append_left _ (h.builds request hrequest), nofun,
        fun tx htx => (h.rendered tx htx).imp fun _ => sublist_concat, hsignatures, ?_, hcounted⟩
      intro entry hentry
      rcases List.mem_cons.mp hentry with rfl | hentry
      · exact ⟨tx, rfl, (h.signatures tx htx).imp fun _ => concat_sublist⟩
      · exact hentries entry hentry

theorem Follows.logged (h : Follows seen i flow) (entry : HistoryEntry TxSummary) :
    Follows (seen ++ [.log i entry]) i (flow.logged entry.txHash entry.summary) where
  __ := h.extend (fun _ => rfl) fun _ => rfl
  entries entry' hentry :=
    (h.entries entry' (List.mem_of_mem_erase hentry)).imp fun _ => And.imp_right fun hsub =>
      hsub.imp fun _ => sublist_concat

/-- An event that neither confirms nor settles anything may change what is shown, and
leaves all else. -/
theorem Follows.idle (h : Follows seen i flow) (hsettles : ∀ tx, event.settles i tx = false)
    (hconfirms : ∀ tx, event.confirms i tx = false) :
    Follows (seen ++ [event]) i { flow with state := .idle } where
  __ := h.extend hsettles hconfirms
  state := nofun

theorem Follows.render (h : Follows seen i flow) : Follows (seen ++ [.render i]) i flow.render where
  __ := h.extend (fun _ => rfl) fun _ => rfl
  rendered tx htx := (h.state tx htx).imp fun _ => sublist_concat

end

/-! ## Runs -/

/-- The pages and the history have come about by the events so far. -/
structure Accounted (pages : Pages ι Request) (seen : List (FlowEvent ι Request)) : Prop where
  flows : ∀ i, Follows seen i (pages.flows i)
  stored : ∀ entry ∈ pages.stored, Logged seen entry

section

variable {pages pages' : Pages ι Request} {seen : List (FlowEvent ι Request)}
variable {event : FlowEvent ι Request} {i : ι}

theorem Accounted.start : Accounted (Pages.start : Pages ι Request) [] where
  flows _ := ⟨fun _ h => absurd h List.not_mem_nil, nofun, nofun,
    fun _ h => absurd h List.not_mem_nil, fun _ h => absurd h List.not_mem_nil, fun _ => rfl⟩
  stored _ h := absurd h List.not_mem_nil

/-- What happens on one page leaves the others as they are. -/
theorem follows_on (h : ∀ i, Follows seen i (pages.flows i))
    {f : TxFlow Request → TxFlow Request} (hi : Follows (seen ++ [event]) i (f (pages.flows i)))
    (hsettles : ∀ j ≠ i, ∀ tx, event.settles j tx = false)
    (hconfirms : ∀ j ≠ i, ∀ tx, event.confirms j tx = false) (j : ι) :
    Follows (seen ++ [event]) j ((pages.on i f).flows j) := by
  by_cases hj : j = i
  · subst hj
    have hflow : (pages.on j f).flows j = f (pages.flows j) := Function.update_self ..
    rw [hflow]
    exact hi
  · have hflow : (pages.on i f).flows j = pages.flows j := Function.update_of_ne hj ..
    rw [hflow]
    exact (h j).extend (hsettles j hj) (hconfirms j hj)

omit [DecidableEq ι] in
/-- What an entry of the history goes back to is not undone by later events. -/
theorem Logged.extend {entry : HistoryEntry TxSummary} (h : Logged seen entry) :
    Logged (seen ++ [event]) entry := by
  obtain ⟨i, request, tx, hsummary, hsub⟩ := h
  exact ⟨i, request, tx, hsummary, sublist_concat hsub⟩

/-- **One event.** -/
theorem Accounted.step [DecidableEq Request] (h : Accounted pages seen)
    (hstep : Pages.Step pages event pages') :
    Accounted pages' (seen ++ [event]) := by
  have hstored : ∀ entry ∈ pages.stored, Logged (seen ++ [event]) entry :=
    fun entry hentry => (h.stored entry hentry).extend
  cases hstep with
  | build i request =>
      exact ⟨follows_on h.flows ((h.flows i).build request) (fun _ _ _ => rfl) fun _ _ _ => rfl,
        hstored⟩
  | @built i request answer hrequest =>
      exact ⟨follows_on h.flows ((h.flows i).built hrequest answer) (fun _ _ _ => rfl)
        fun _ _ _ => rfl, hstored⟩
  | @confirm i tx hrendered =>
      exact ⟨follows_on h.flows ((h.flows i).confirm hrendered) (fun _ _ _ => rfl)
        fun j hj tx => decide_eq_false fun hsame => hj hsame.1.symm, hstored⟩
  | @signed i tx answer htx =>
      exact ⟨follows_on h.flows ((h.flows i).signed htx answer)
        (fun j hj tx => decide_eq_false fun hsame => hj hsame.1.symm) fun _ _ _ => rfl, hstored⟩
  | @log i entry hentry =>
      have hlogged := (h.flows i).logged entry
      have hflows := follows_on (f := fun flow => flow.logged entry.txHash entry.summary) h.flows
        hlogged (fun _ _ _ => rfl) fun _ _ _ => rfl
      refine ⟨hflows, fun e he => ?_⟩
      rcases mem_recordHistory he with rfl | he
      · obtain ⟨tx, hsummary, request, hsub⟩ := (h.flows i).entries _ hentry
        exact ⟨i, request, tx, hsummary, concat_sublist hsub⟩
      · exact hstored e he
  | reject i =>
      exact ⟨follows_on h.flows ((h.flows i).idle (fun _ => rfl) fun _ => rfl) (fun _ _ _ => rfl)
        fun _ _ _ => rfl, hstored⟩
  | reset i =>
      exact ⟨follows_on h.flows ((h.flows i).idle (fun _ => rfl) fun _ => rfl) (fun _ _ _ => rfl)
        fun _ _ _ => rfl, hstored⟩
  | render i =>
      exact ⟨follows_on h.flows (h.flows i).render (fun _ _ _ => rfl) fun _ _ _ => rfl, hstored⟩
  | clear owner =>
      exact ⟨fun i => (h.flows i).extend (fun _ => rfl) fun _ => rfl,
        fun e he => hstored e (mem_clearHistory he)⟩

/-- All pages of a run, and all that is stored, go back to events of the run. -/
theorem Accounted.of_run [DecidableEq Request] {events : List (FlowEvent ι Request)}
    (hrun : Run Pages.Step .start events pages) : Accounted pages events :=
  hrun.history (fun _ _ _ _ hstep h => h.step hstep) .start

/-- **Nothing is signed or listed that was not confirmed.**  In any run of any number
of pages, whatever was awaited when, a transaction that is signed was built on request
and then confirmed under its preview, on the same page, and it was confirmed there more
often than it had been signed before.  An entry of the history is one of a transaction
that was built, confirmed, signed and submitted under the hash of the entry, and it has
the summary the transaction was previewed with. -/
theorem flows_confirmed [DecidableEq Request] {events : List (FlowEvent ι Request)}
    (hrun : Run Pages.Step .start events pages) :
    (∀ before after i tx answer, events = before ++ .signed i tx answer :: after →
      Confirmed before i tx ∧
        before.countP (FlowEvent.settles i tx) < before.countP (FlowEvent.confirms i tx)) ∧
    ∀ entry ∈ pages.stored, Logged events entry := by
  refine ⟨?_, (Accounted.of_run hrun).stored⟩
  rintro before after i tx answer rfl
  obtain ⟨between, _, hbefore, hstep, -⟩ := hrun.exists_around
  have hfollows := (Accounted.of_run hbefore).flows i
  cases hstep with
  | signed _ htx =>
      have hcounted := hfollows.counted tx
      have hpos := List.count_pos_iff.mpr htx
      exact ⟨hfollows.signatures tx htx, by omega⟩

end

end

/-! Two builds overlap: the second one's preview replaces what the first one's became. -/

namespace SampleFlow

def summary : TxSummary where
  action := .cancelOrder
  offered := some ⟨"lovelace".toList, 10000000⟩
  requested := none
  depositLovelace := some 2000000
  takerNet := none

def first : UnsignedTxResponse := ⟨"84a4".toList, summary⟩

def second : UnsignedTxResponse := ⟨"84a5".toList, summary⟩

def entry : HistoryEntry TxSummary := ⟨"c1".toList, 1780000000000, none, summary⟩

def events : List (FlowEvent Unit Bool) :=
  [.build () true, .build () false, .built () true (.ok first), .render (), .confirm () first,
    .built () false (.ok second), .signed () first (.ok entry.txHash), .log () entry]

theorem run : ∃ pages, Run Pages.Step .start events pages ∧ pages.stored = [entry] := by
  refine ⟨_, .cons (.build _ _ _) (.cons (.build _ _ _) (.cons (.built _ ?_) (.cons (.render _ _)
    (.cons (.confirm ?_) (.cons (.built _ ?_) (.cons (.signed _ ?_) (.single (.log ?_)))))))), rfl⟩
  all_goals decide

end SampleFlow

open SampleFlow in
theorem flows_confirmed_sample : ∃ pages : Pages Unit Bool, Run Pages.Step .start events pages ∧
    Confirmed (events.take 6) () first ∧ ∀ entry ∈ pages.stored, Logged events entry := by
  obtain ⟨pages, hrun, -⟩ := run
  obtain ⟨hsigned, hlisted⟩ := flows_confirmed hrun
  obtain ⟨hconfirmed, -⟩ := hsigned (events.take 6) [.log () entry] () first (.ok entry.txHash) rfl
  exact ⟨pages, hrun, hconfirmed, hlisted⟩

end BeaconDex.Frontend
