import BeaconDex.Library.Run

/-!
# Two machines with the same traces

A concrete machine with an observer against an abstract one.  The observer folds
over the concrete labels (`Observed`), and a relation between observed states,
abstract states and the events so far is carried along runs in both directions:

* `Run.simulated`: every concrete run is explained by an abstract run;
* `Run.realized`: every abstract run happens in some concrete run.

Together they say that the two machines have the same `traces`.
-/

namespace BeaconDex.Library

variable {State Label Observer AState Event : Type*}
variable {step : State → Label → State → Prop} {observe : Observer → Label → Observer}
variable {astep : AState → Event → AState → Prop}

/-- The machine with an observer beside it. -/
def Observed (step : State → Label → State → Prop) (observe : Observer → Label → Observer)
    (s : State × Observer) (l : Label) (s' : State × Observer) : Prop :=
  step s.1 l s'.1 ∧ s'.2 = observe s.2 l

/-- An observed run is a run, with the observer folded over its labels. -/
theorem run_observed {s s' : State × Observer} {ls : List Label} :
    Run (Observed step observe) s ls s' ↔
      Run step s.1 ls s'.1 ∧ s'.2 = ls.foldl observe s.2 := by
  constructor
  · intro hrun
    induction hrun with
    | nil s => exact ⟨.nil s.1, rfl⟩
    | cons h _ ih =>
        refine ⟨.cons h.1 ih.1, ?_⟩
        rw [ih.2, h.2, List.foldl_cons]
  · obtain ⟨s, t⟩ := s
    obtain ⟨s', t'⟩ := s'
    rintro ⟨hrun, rfl⟩
    show Run (Observed step observe) (s, t) ls (s', ls.foldl observe t)
    change Run step s ls s' at hrun
    induction hrun generalizing t with
    | nil s => exact .nil _
    | cons h _ ih => exact .cons ⟨h, rfl⟩ (ih (t := observe t _))

section Traces

variable {R : State → AState → List Event → Prop} {s : State} {t : AState} {seen : List Event}

/-- **Simulation rule.**  Where every concrete step is explained by some abstract
steps, every concrete run is. -/
theorem Run.simulated
    (hstep : ∀ s l s' t seen, step s l s' → R s t seen →
      ∃ es t', Run astep t es t' ∧ R s' t' (seen ++ es))
    {ls : List Label} {s' : State} (hrun : Run step s ls s') (hs : R s t seen) :
    ∃ es t', Run astep t es t' ∧ R s' t' (seen ++ es) := by
  induction hrun generalizing t seen with
  | nil s => exact ⟨[], t, .nil t, by rwa [List.append_nil]⟩
  | cons h _ ih =>
      obtain ⟨es, t', habstract, hs'⟩ := hstep _ _ _ _ _ h hs
      obtain ⟨es', t'', hrest, hs''⟩ := ih hs'
      exact ⟨es ++ es', t'', habstract.append hrest, by rwa [← List.append_assoc]⟩

/-- **Realization rule.**  Where every abstract step happens in some concrete
step, every abstract run happens in some concrete run. -/
theorem Run.realized
    (hstep : ∀ s t e t' seen, astep t e t' → R s t seen →
      ∃ l s', step s l s' ∧ R s' t' (seen ++ [e]))
    {es : List Event} {t' : AState} (hrun : Run astep t es t') (hs : R s t seen) :
    ∃ ls s', Run step s ls s' ∧ R s' t' (seen ++ es) := by
  induction hrun generalizing s seen with
  | nil t => exact ⟨[], s, .nil s, by rwa [List.append_nil]⟩
  | cons h _ ih =>
      obtain ⟨l, s', hconcrete, hs'⟩ := hstep _ _ _ _ _ h hs
      obtain ⟨ls, s'', hrest, hs''⟩ := ih hs'
      exact ⟨l :: ls, s'', .cons hconcrete hrest, by rwa [List.append_cons]⟩

end Traces

/-- The event lists of the runs from a state. -/
def traces (astep : AState → Event → AState → Prop) (t : AState) : Set (List Event) :=
  {es | ∃ t', Run astep t es t'}

end BeaconDex.Library
