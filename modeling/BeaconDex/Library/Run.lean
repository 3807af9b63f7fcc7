import Mathlib.Data.List.Basic

/-!
# Labelled runs

Finite runs of a labelled transition relation, and the two rules every result
about whole runs goes through: an invariant is proved one step at a time
(`Run.invariant`, `Run.keeps`), and so is the agreement of a state with an observer that
folds over the labels (`Run.tracks`).

## Observers

An observer sees the labels and not the states.  What it computes from the labels is
related to the state at every point of a run if the relation holds at the start and each
step keeps it, and this is how a history is tied to the state that it has led to.
-/

namespace BeaconDex.Library

variable {State Label Observer : Type*} {step : State → Label → State → Prop}

/-- `Run step s ls s'`: taking the steps labelled `ls` leads from `s` to `s'`. -/
inductive Run (step : State → Label → State → Prop) : State → List Label → State → Prop
  | nil (s : State) : Run step s [] s
  | cons {s s' s'' : State} {l : Label} {ls : List Label} :
      step s l s' → Run step s' ls s'' → Run step s (l :: ls) s''

namespace Run

variable {s s' : State} {ls : List Label}

/-- One step is a run, -/
theorem single {l : Label} (h : step s l s') : Run step s [l] s' :=
  .cons h (.nil s')

/-- a run and a step are a run, -/
theorem concat {l : Label} {s'' : State} (hrun : Run step s ls s') (h : step s' l s'') :
    Run step s (ls ++ [l]) s'' := by
  induction hrun with
  | nil s => exact .single h
  | cons hfirst _ ih => exact .cons hfirst (ih h)

/-- and two runs are one. -/
theorem append {ls' : List Label} {s'' : State} (hrun : Run step s ls s')
    (hrest : Run step s' ls' s'') : Run step s (ls ++ ls') s'' := by
  induction hrun with
  | nil s => exact hrest
  | cons hfirst _ ih => exact .cons hfirst (ih hrest)

/-- The states around a step of the run. -/
theorem exists_around {before after : List Label} {l : Label}
    (hrun : Run step s (before ++ l :: after) s') :
    ∃ t t', Run step s before t ∧ step t l t' ∧ Run step t' after s' := by
  induction before generalizing s with
  | nil =>
      cases hrun with
      | cons h hrest => exact ⟨s, _, .nil s, h, hrest⟩
  | cons first before ih =>
      cases hrun with
      | cons h hrest =>
          obtain ⟨t, t', hbefore, hstep, hafter⟩ := ih hrest
          exact ⟨t, t', .cons h hbefore, hstep, hafter⟩

/-- **Invariant rule.**  What every step of the run preserves, the run
preserves; `P` is what is known of the labels that occur. -/
theorem invariant {I : State → Prop} {P : Label → Prop}
    (hstep : ∀ s l s', P l → step s l s' → I s → I s')
    (hrun : Run step s ls s') (hls : ∀ l ∈ ls, P l) (hs : I s) : I s' := by
  induction hrun with
  | nil s => exact hs
  | cons h _ ih =>
      exact ih (fun l hl => hls l (List.mem_cons_of_mem _ hl))
        (hstep _ _ _ (hls _ List.mem_cons_self) h hs)

/-- The same where every step preserves it, whatever its label. -/
theorem keeps {I : State → Prop} (hstep : ∀ {s l s'}, step s l s' → I s → I s')
    (hrun : Run step s ls s') (hs : I s) : I s' :=
  hrun.invariant (P := fun _ => True) (fun _ _ _ _ h hs => hstep h hs) (fun _ _ => trivial) hs

/-- **Observer rule.**  An observer folded over the labels stays related to the
state when one observation keeps it related over one step. -/
theorem tracks {R : State → Observer → Prop} {observe : Observer → Label → Observer}
    (hstep : ∀ s l s' t, step s l s' → R s t → R s' (observe t l))
    (hrun : Run step s ls s') {t : Observer} (hs : R s t) : R s' (ls.foldl observe t) := by
  induction hrun generalizing t with
  | nil s => exact hs
  | cons h _ ih => exact ih (hstep _ _ _ _ h hs)

/-- **History rule.**  The same with the labels seen so far as the observer. -/
theorem history {R : State → List Label → Prop}
    (hstep : ∀ s seen l s', step s l s' → R s seen → R s' (seen ++ [l]))
    (hrun : Run step s ls s') (hs : R s []) : R s' ls := by
  suffices ∀ seen, R s seen → R s' (seen ++ ls) from this [] hs
  clear hs
  induction hrun with
  | nil s =>
      intro seen hs
      rwa [List.append_nil]
  | cons h _ ih =>
      intro seen hs
      rw [List.append_cons]
      exact ih _ (hstep _ _ _ _ h hs)

end Run

/-! ## Two implementations -/

section Lockstep

variable {S T Call : Type*} {f : S → Call → S} {g : T → Call → T}

/-- `P` holds of every call of `calls` in the state it is made in. -/
def Along (f : S → Call → S) (P : S → Call → Prop) : S → List Call → Prop
  | _, [] => True
  | s, call :: calls => P s call ∧ Along f P (f s call) calls

/-- **Lockstep rule.**  Two implementations of the same calls stay related, after
every part of a sequence of calls, when each call keeps them related. -/
theorem lockstep {R : S → T → Prop} {P : S → Call → Prop} {s : S} {t : T} {calls : List Call}
    (hstep : ∀ s t call, R s t → P s call → R (f s call) (g t call)) (hs : R s t)
    (hcalls : Along f P s calls) {before : List Call} (hbefore : before <+: calls) :
    R (before.foldl f s) (before.foldl g t) := by
  induction before generalizing s t calls with
  | nil => exact hs
  | cons call before ih =>
      obtain ⟨after, rfl⟩ := hbefore
      exact ih (hstep s t call hs hcalls.1) hcalls.2 (List.prefix_append before after)

theorem Along.and {P Q : S → Call → Prop} {s : S} {calls : List Call} (hP : Along f P s calls)
    (hQ : Along f Q s calls) : Along f (fun s call => P s call ∧ Q s call) s calls := by
  induction calls generalizing s with
  | nil => trivial
  | cons call calls ih => exact ⟨⟨hP.1, hQ.1⟩, ih hP.2 hQ.2⟩

/-- **Invariant rule.**  What every call keeps holds after every part of a sequence of
calls. -/
theorem Along.keeps {P : S → Call → Prop} {I : S → Prop} {s : S} {calls : List Call}
    (hcalls : Along f P s calls) (hstep : ∀ s call, I s → P s call → I (f s call)) (hs : I s)
    {before : List Call} (hbefore : before <+: calls) : I (before.foldl f s) :=
  lockstep (g := fun (t : Unit) (_ : Call) => t) (R := fun s _ => I s) (t := ())
    (fun s _ call => hstep s call) hs hcalls hbefore

end Lockstep

end BeaconDex.Library
