import Mathlib.Data.List.Forall2

/-!
# Loops that can be cut short

A step either completes or throws, and what it had written before it threw
stays written.  A loop over such steps stops at the first throw.  Whole loops
are reasoned about with two rules: what every step keeps, a loop keeps however
it ends (`forEach_keeps`); and a loop that completes satisfies at its end what
its steps establish element by element (`forEach_completes`).

## Why not a state monad

In a monad transformer stack the order of the layers decides if the state survives an
error.  Here it always does, and it is the property of interest: a pass that fails half
way has written half of what it would have.  An `Attempt` is therefore a result that has
a state in both of its cases, and invariants are stated of that state.
-/

namespace BeaconDex.Library

variable {α β ε σ : Type*}

/-- A completed step has a new state, a thrown one a failure and the state it
left behind. -/
abbrev Attempt (ε σ : Type*) := Except (ε × σ) σ

/-- A computation that completes completed in each of its parts. -/
theorem bind_eq_ok {γ : Type*} {x : Except ε β} {f : β → Except ε γ} {c : γ} :
    x.bind f = .ok c ↔ ∃ b, x = .ok b ∧ f b = .ok c := by
  cases x <;> simp [Except.bind]

/-- The value, or throw. -/
def orThrow (e : ε) : Option α → Except ε α
  | some a => .ok a
  | none => .error e

/-- `if (c) throw e;` -/
def throwIf (c : Prop) [Decidable c] (e : ε) : Except ε Unit :=
  if c then .error e else .ok ()

@[simp] theorem orThrow_eq_ok {e : ε} {o : Option α} {a : α} :
    orThrow e o = .ok a ↔ o = some a := by
  cases o <;> simp [orThrow]

@[simp] theorem throwIf_eq_ok {c : Prop} [Decidable c] {e : ε} {u : Unit} :
    throwIf c e = .ok u ↔ ¬c := by
  unfold throwIf
  split <;> simp_all

/-! ### Errors that are not thrown -/

theorem ok_ne_error {b : β} {e : ε} : (Except.ok b : Except ε β) ≠ .error e :=
  nofun

/-- An error that neither half of a computation throws is not thrown by the whole. -/
theorem bind_ne_error {γ : Type*} {x : Except ε β} {f : β → Except ε γ} {e : ε}
    (hx : x ≠ .error e) (hf : ∀ b, f b ≠ .error e) : x.bind f ≠ .error e := by
  cases x with
  | ok b => exact hf b
  | error thrown =>
      intro h
      exact hx (congrArg Except.error (Except.error.inj h))

theorem orThrow_ne_error {e e' : ε} {o : Option α} (he : e ≠ e') : orThrow e o ≠ .error e' := by
  cases o with
  | none =>
      intro h
      exact he (Except.error.inj h)
  | some a => exact ok_ne_error

theorem throwIf_ne_error {c : Prop} [Decidable c] {e e' : ε} (he : e ≠ e') :
    throwIf c e ≠ .error e' := by
  unfold throwIf
  split
  · intro h
    exact he (Except.error.inj h)
  · exact ok_ne_error

/-! ### Loops -/

/-- A mapped computation completes when every element does. -/
theorem mapM_eq_ok {f : α → Except ε β} {as : List α} {bs : List β} :
    as.mapM f = .ok bs ↔ List.Forall₂ (fun a b => f a = .ok b) as bs := by
  induction as generalizing bs with
  | nil => simp [pure, Except.pure, eq_comm]
  | cons a as ih =>
      simp only [List.mapM_cons, bind, bind_eq_ok, pure, Except.pure, ih,
        List.forall₂_cons_left_iff]
      constructor
      · rintro ⟨b, hb, bs', hbs, h⟩
        exact ⟨b, bs', hb, hbs, (Except.ok.inj h).symm⟩
      · rintro ⟨b, bs', hb, hbs, rfl⟩
        exact ⟨b, hb, bs', hbs, rfl⟩

/-- A loop over a list succeeds if its body does on each element. -/
theorem forM_eq_ok {f : α → Except ε Unit} {as : List α} {u : Unit} :
    as.forM f = .ok u ↔ ∀ a ∈ as, f a = .ok () := by
  induction as with
  | nil => simp [pure, Except.pure]
  | cons a as ih =>
      have hcons : (a :: as).forM f = (f a).bind fun _ => as.forM f := rfl
      rw [hcons, bind_eq_ok, List.forall_mem_cons, ← ih]
      exact ⟨fun ⟨_, ha, has⟩ => ⟨ha, has⟩, fun ⟨ha, has⟩ => ⟨(), ha, has⟩⟩

/-- If each element has a partner, the list has a list of partners. -/
theorem forall₂_of_forall_exists {R : α → β → Prop} {as : List α} (h : ∀ a ∈ as, ∃ b, R a b) :
    ∃ bs, List.Forall₂ R as bs := by
  induction as with
  | nil => exact ⟨[], .nil⟩
  | cons a as ih =>
      obtain ⟨b, hb⟩ := h a List.mem_cons_self
      obtain ⟨bs, hbs⟩ := ih fun a' ha' => h a' (List.mem_cons_of_mem a ha')
      exact ⟨b :: bs, .cons hb hbs⟩

/-- A map whose function succeeds everywhere succeeds. -/
theorem exists_mapM_ok {f : α → Except ε β} {as : List α} (h : ∀ a ∈ as, ∃ b, f a = .ok b) :
    ∃ bs, as.mapM f = .ok bs :=
  (forall₂_of_forall_exists h).imp fun _ => mapM_eq_ok.mpr

/-- With one error to throw, it is thrown if some element throws it. -/
theorem mapM_eq_error {f : α → Except ε β} {as : List α} {e : ε}
    (h : ∀ a ∈ as, (∃ b, f a = .ok b) ∨ f a = .error e) (hthrows : ∃ a ∈ as, f a = .error e) :
    as.mapM f = .error e := by
  induction as with
  | nil =>
      obtain ⟨a, ha, -⟩ := hthrows
      cases ha
  | cons a as ih =>
      rw [List.mapM_cons]
      rcases h a List.mem_cons_self with ⟨b, hb⟩ | herror
      · obtain ⟨a', ha', hthrown⟩ := hthrows
        have hrest : as.mapM f = .error e := by
          refine ih (fun x hx => h x (List.mem_cons_of_mem _ hx)) ⟨a', ?_, hthrown⟩
          rcases List.mem_cons.mp ha' with rfl | hmem
          · rw [hb] at hthrown
            cases hthrown
          · exact hmem
        rw [hb]
        show (as.mapM f >>= fun bs => pure (b :: bs)) = _
        rw [hrest]
        rfl
      · rw [herror]
        rfl

/-- A check that does not pass everywhere throws what one of the elements throws. -/
theorem exists_forM_error {f : α → Except ε Unit} {as : List α}
    (h : ∃ a ∈ as, f a ≠ .ok ()) : ∃ a ∈ as, ∃ e, f a = .error e ∧ as.forM f = .error e := by
  induction as with
  | nil =>
      obtain ⟨a, ha, -⟩ := h
      cases ha
  | cons a as ih =>
      have hcons : (a :: as).forM f = (f a).bind fun _ => as.forM f := rfl
      cases ha : f a with
      | error e => exact ⟨a, List.mem_cons_self, e, ha, by rw [hcons, ha]; rfl⟩
      | ok u =>
          obtain ⟨a', ha', hne⟩ := h
          have hmem : a' ∈ as := by
            rcases List.mem_cons.mp ha' with rfl | hmem
            · exact absurd ha hne
            · exact hmem
          obtain ⟨x, hx, e, hthrown, hloop⟩ := ih ⟨a', hmem, hne⟩
          exact ⟨x, List.mem_cons_of_mem _ hx, e, hthrown, by rw [hcons, ha]; exact hloop⟩

section Pointwise

variable {γ : Type*} {R : α → β → Prop} {as : List α} {bs : List β}

/-- In related lists, each element on the left has a partner on the right. -/
theorem exists_of_mem_left (h : List.Forall₂ R as bs) {a : α} (ha : a ∈ as) :
    ∃ b ∈ bs, R a b := by
  induction h with
  | nil => cases ha
  | @cons a' b as bs hab _ ih =>
      rcases List.mem_cons.mp ha with rfl | ha
      · exact ⟨b, List.mem_cons_self, hab⟩
      · obtain ⟨b', hb', h'⟩ := ih ha
        exact ⟨b', List.mem_cons_of_mem _ hb', h'⟩

theorem exists_of_mem_right (h : List.Forall₂ R as bs) {b : β} (hb : b ∈ bs) :
    ∃ a ∈ as, R a b := by
  have hflip : List.Forall₂ (flip R) bs as := h.flip
  exact exists_of_mem_left hflip hb

theorem exists_of_getElem?_left (h : List.Forall₂ R as bs) {i : ℕ} {a : α} (ha : as[i]? = some a) :
    ∃ b, bs[i]? = some b ∧ R a b := by
  obtain ⟨hlt, rfl⟩ := List.getElem?_eq_some_iff.mp ha
  have hlt' : i < bs.length := h.length_eq ▸ hlt
  exact ⟨bs[i], List.getElem?_eq_getElem hlt', h.get hlt hlt'⟩

theorem exists_of_getElem?_right (h : List.Forall₂ R as bs) {i : ℕ} {b : β}
    (hb : bs[i]? = some b) : ∃ a, as[i]? = some a ∧ R a b := by
  have hflip : List.Forall₂ (flip R) bs as := h.flip
  exact exists_of_getElem?_left hflip hb

/-- Lists whose elements have the same images in turn have the same image. -/
theorem map_eq_of_forall₂ {f : α → γ} {g : β → γ}
    (h : List.Forall₂ (fun a b => f a = g b) as bs) : as.map f = bs.map g := by
  rw [← List.forall₂_eq_eq_eq, List.forall₂_map_left_iff, List.forall₂_map_right_iff]
  exact h

theorem flatMap_eq_of_forall₂ {f : α → List γ} {g : β → List γ}
    (h : List.Forall₂ (fun a b => f a = g b) as bs) : as.flatMap f = bs.flatMap g := by
  rw [List.flatMap_def, List.flatMap_def, map_eq_of_forall₂ h]

/-- What matches pairwise holds of both lists or of neither. -/
theorem pairwise_iff_of_forall₂ {P : α → α → Prop} {Q : β → β → Prop} (h : List.Forall₂ R as bs)
    (hPQ : ∀ {a a' b b'}, R a b → R a' b' → (P a a' ↔ Q b b')) :
    as.Pairwise P ↔ bs.Pairwise Q := by
  induction h with
  | nil => simp
  | @cons a b as bs hab hrest ih =>
      rw [List.pairwise_cons, List.pairwise_cons, ih]
      refine and_congr_left fun _ => ⟨fun hall b' hb' => ?_, fun hall a' ha' => ?_⟩
      · obtain ⟨a', ha', hab'⟩ := exists_of_mem_right hrest hb'
        exact (hPQ hab hab').mp (hall a' ha')
      · obtain ⟨b', hb', hab'⟩ := exists_of_mem_left hrest ha'
        exact (hPQ hab hab').mpr (hall b' hb')

end Pointwise

/-- Two results of one pass, element by element. -/
theorem exists_forall₂ {γ : Type*} {R : α → β → Prop} {P : α → γ → Prop} {Q : β → γ → Prop}
    {as : List α} {bs : List β} (h : List.Forall₂ R as bs)
    (hex : ∀ a ∈ as, ∀ b, R a b → ∃ c, P a c ∧ Q b c) :
    ∃ cs, List.Forall₂ P as cs ∧ List.Forall₂ Q bs cs := by
  induction h with
  | nil => exact ⟨[], .nil, .nil⟩
  | @cons a b as bs hab _ ih =>
      obtain ⟨c, hp, hq⟩ := hex a List.mem_cons_self b hab
      obtain ⟨cs, hps, hqs⟩ := ih fun a' ha' => hex a' (List.mem_cons_of_mem _ ha')
      exact ⟨c :: cs, hps.cons hp, hqs.cons hq⟩

namespace Attempt

/-- The state after the step, however it ended. -/
def state : Attempt ε σ → σ
  | .ok s => s
  | .error (_, s) => s

/-- One step after another. -/
def andThen (first : Attempt ε σ) (next : σ → Attempt ε σ) : Attempt ε σ :=
  match first with
  | .ok s => next s
  | .error thrown => .error thrown

/-- A query whose failure aborts the step in the state `s`. -/
def query (s : σ) (answer : Except ε β) (next : β → Attempt ε σ) : Attempt ε σ :=
  match answer with
  | .ok b => next b
  | .error e => .error (e, s)

variable {s s' : σ} {first : Attempt ε σ} {I : σ → Prop}

/-- Two steps in a row succeed if the first does, and the second from there. -/
theorem andThen_eq_ok {next : σ → Attempt ε σ} :
    first.andThen next = .ok s' ↔ ∃ t, first = .ok t ∧ next t = .ok s' := by
  cases first <;> simp [andThen]

/-- An invariant that both steps keep, also when they fail, is kept by the two. -/
theorem andThen_keeps {next : σ → Attempt ε σ} (hfirst : I first.state)
    (hnext : ∀ t, I t → I (next t).state) : I (first.andThen next).state := by
  cases first with
  | ok t => exact hnext t hfirst
  | error thrown => exact hfirst

theorem state_of_eq_ok {attempt : Attempt ε σ} (h : attempt = .ok s) : attempt.state = s := by
  rw [h]
  rfl

/-- A step that asks first succeeds if it is answered and goes on with the answer. -/
theorem query_eq_ok {answer : Except ε β} {next : β → Attempt ε σ} :
    query s answer next = .ok s' ↔ ∃ b, answer = .ok b ∧ next b = .ok s' := by
  cases answer <;> simp [query]

/-- Asking changes no state, so that what follows an answer is all there is to check. -/
theorem query_keeps {answer : Except ε β} {next : β → Attempt ε σ} (hs : I s)
    (hnext : ∀ b, answer = .ok b → I (next b).state) : I (query s answer next).state := by
  cases answer with
  | ok b => exact hnext b rfl
  | error e => exact hs

end Attempt

/-- Run `body` on each element in turn. -/
def forEach (body : α → σ → Attempt ε σ) : List α → σ → Attempt ε σ
  | [], s => .ok s
  | a :: as, s => (body a s).andThen (forEach body as)

variable {body : α → σ → Attempt ε σ} {as : List α} {s s' : σ}

/-- **Invariant rule.**  Throwing included. -/
theorem forEach_keeps {I : σ → Prop}
    (hbody : ∀ a ∈ as, ∀ s, I s → I (body a s).state) (hs : I s) :
    I (forEach body as s).state := by
  induction as generalizing s with
  | nil => exact hs
  | cons a as ih =>
      exact Attempt.andThen_keeps (hbody a List.mem_cons_self s hs) fun t ht =>
        ih (fun b hb => hbody b (List.mem_cons_of_mem _ hb)) ht

/-- **Progress rule.**  A completed loop satisfies `R` of all its elements if
one step extends `R` by its own element. -/
theorem forEach_completes {R : List α → σ → Prop}
    (hbody : ∀ done, ∀ a ∈ as, ∀ s s', R done s → body a s = .ok s' → R (done ++ [a]) s')
    (hloop : forEach body as s = .ok s') (hs : R [] s) : R as s' := by
  suffices ∀ done, R done s → R (done ++ as) s' from this [] hs
  clear hs
  induction as generalizing s with
  | nil =>
      intro done hs
      have : s = s' := Except.ok.inj hloop
      rwa [List.append_nil, ← this]
  | cons a as ih =>
      intro done hs
      obtain ⟨t, ha, hrest⟩ := Attempt.andThen_eq_ok.mp hloop
      rw [List.append_cons]
      exact ih (fun done b hb => hbody done b (List.mem_cons_of_mem _ hb)) hrest _
        (hbody done a List.mem_cons_self s t hs ha)

/-- **Total progress rule.**  If every step also completes, so does the loop. -/
theorem forEach_total {R : List α → σ → Prop}
    (hbody : ∀ done, ∀ a ∈ as, ∀ s, R done s → ∃ s', body a s = .ok s' ∧ R (done ++ [a]) s')
    (hs : R [] s) : ∃ s', forEach body as s = .ok s' ∧ R as s' := by
  suffices ∀ done, R done s → ∃ s', forEach body as s = .ok s' ∧ R (done ++ as) s' from
    this [] hs
  clear hs
  induction as generalizing s with
  | nil =>
      intro done hs
      exact ⟨s, rfl, by rwa [List.append_nil]⟩
  | cons a as ih =>
      intro done hs
      obtain ⟨t, ha, ht⟩ := hbody done a List.mem_cons_self s hs
      obtain ⟨s', hrest, hs'⟩ :=
        ih (fun done b hb => hbody done b (List.mem_cons_of_mem _ hb)) (done ++ [a]) ht
      refine ⟨s', Attempt.andThen_eq_ok.mpr ⟨t, ha, hrest⟩, ?_⟩
      rwa [List.append_cons]

/-- A loop none of whose steps throws completes. -/
theorem exists_forEach_ok (hbody : ∀ a ∈ as, ∀ s, ∃ s', body a s = .ok s') :
    ∃ s', forEach body as s = .ok s' := by
  obtain ⟨s', hs', -⟩ := forEach_total (R := fun _ _ => True) (s := s)
    (fun _ a ha t _ => (hbody a ha t).imp fun _ h => ⟨h, trivial⟩) trivial
  exact ⟨s', hs'⟩

end BeaconDex.Library
