import Mathlib.Data.List.Basic

/-!
# Loops that may stop early

A loop over a list whose body ends a turn in one of two ways: it goes on to the
next element, or it breaks.  `walk_rule` is the one rule needed: an invariant of
the elements passed so far, and what it gives when the loop breaks or runs out.
-/

namespace BeaconDex.Library

variable {α σ : Type*}

/-- Run `body` on each element in turn, up to the one it breaks at. -/
def walk (body : α → σ → ForInStep σ) : List α → σ → σ
  | [], s => s
  | a :: as, s =>
      match body a s with
      | .yield s' => walk body as s'
      | .done s' => s'

variable {body : α → σ → ForInStep σ} {as : List α} {s : σ}

/-- **Loop rule.**  `I done s` holds whenever the elements of `done` are passed
and the loop is in `s`; `Q` is what remains to be shown of the state it ends in. -/
theorem walk_rule {I : List α → σ → Prop} {Q : σ → Prop} (hinit : I [] s)
    (hyield : ∀ done a rest s s', as = done ++ a :: rest → I done s → body a s = .yield s' →
      I (done ++ [a]) s')
    (hdone : ∀ done a rest s s', as = done ++ a :: rest → I done s → body a s = .done s' → Q s')
    (hend : ∀ s, I as s → Q s) : Q (walk body as s) := by
  suffices ∀ done rest s, as = done ++ rest → I done s → Q (walk body rest s) from
    this [] as s rfl hinit
  intro done rest
  induction rest generalizing done with
  | nil =>
      intro s has hI
      rw [List.append_nil] at has
      exact hend s (has ▸ hI)
  | cons a rest ih =>
      intro s has hI
      rw [walk]
      split
      · next s' hbody =>
        exact ih (done ++ [a]) s' (by simp [has]) (hyield done a rest s s' has hI hbody)
      · next s' hbody => exact hdone done a rest s s' has hI hbody

end BeaconDex.Library
