import Mathlib

/-!
# Runs of a deterministic system and their traces

A system has a step function `step : σ → ε → σ × List ο`: from a state, an event leads to the next
state and to outputs. `run` is the state after a list of events, `trace` the list of its rounds
(the state before, the event, the outputs).

* `trace_split`: a trace that is cut at a round is the trace of the events before it, the round,
  and the trace of the events after it.
* `invariant_run`: an invariant of the steps holds along a run.
* `outputs_of_invariant`: what an invariant says about the outputs of a step holds of all outputs of
  a run.
* `run_refines`: a system whose steps are those of an abstract one has its outputs in every run.
* `kept_until`: a property that each step keeps unless its round is one of a given kind holds
  until the first such round.

The steps of a second kind of system may fail. `RunsIn P s es s'` says that the events lead from `s`
to `s'` without a failure and through states with the property `P` only; `RunsIn.invariant` is its
induction rule. `EachRound Q s es` says that `Q` holds at every state and event of the run from `s`,
up to a failure; `EachRound.of_invariant` derives one such property from another and an invariant.
-/

namespace Halo

/-- One round of a run. -/
structure Round (σ ε ο : Type) where
  pre : σ
  event : ε
  out : List ο

section

variable {σ ε ο : Type} (step : σ → ε → σ × List ο)

/-- The state after the events. -/
def run (s : σ) (es : List ε) : σ := es.foldl (fun s e => (step s e).1) s

/-- The rounds of a run. -/
def trace (s : σ) : List ε → List (Round σ ε ο)
  | [] => []
  | e :: es => ⟨s, e, (step s e).2⟩ :: trace (step s e).1 es

variable {step}

@[simp] theorem run_nil (s : σ) : run step s [] = s := rfl

@[simp] theorem run_cons (s : σ) (e : ε) (es : List ε) :
    run step s (e :: es) = run step (step s e).1 es := rfl

theorem run_append (s : σ) (es es' : List ε) :
    run step s (es ++ es') = run step (run step s es) es' := by
  simp [run]

theorem trace_append (s : σ) (es es' : List ε) :
    trace step s (es ++ es') = trace step s es ++ trace step (run step s es) es' := by
  induction es generalizing s with
  | nil => rfl
  | cons e es ih => simp [trace, ih]

variable {s : σ} {es : List ε} {I : σ → Prop}

/-- A trace cut at a round. -/
theorem trace_split {l₁ l₂ : List (Round σ ε ο)} {r : Round σ ε ο}
    (h : trace step s es = l₁ ++ r :: l₂) :
    ∃ es₁ es₂, es = es₁ ++ r.event :: es₂ ∧ l₁ = trace step s es₁ ∧ r.pre = run step s es₁ ∧
      r.out = (step r.pre r.event).2 ∧ l₂ = trace step (step r.pre r.event).1 es₂ := by
  induction l₁ generalizing s es with
  | nil =>
    cases es with
    | nil => cases h
    | cons e es =>
      cases h
      exact ⟨[], es, rfl, rfl, rfl, rfl, rfl⟩
  | cons r' l₁ ih =>
    cases es with
    | nil => cases h
    | cons e es =>
      simp only [trace, List.cons_append, List.cons.injEq] at h
      obtain ⟨rfl, h⟩ := h
      obtain ⟨es₁, es₂, rfl, rfl, hpre, hout, hl₂⟩ := ih h
      exact ⟨e :: es₁, es₂, rfl, rfl, hpre, hout, hl₂⟩

/-- An invariant of the steps holds after a run. -/
theorem invariant_run (hstep : ∀ s e, I s → I (step s e).1) (hs : I s) (es : List ε) :
    I (run step s es) := by
  induction es generalizing s with
  | nil => exact hs
  | cons e es ih => exact ih (hstep s e hs)

/-- If the steps on events with the property `E` keep an invariant, and their outputs have the
property `Q` under it, then all outputs of a run on such events have the property `Q`. -/
theorem outputs_of_invariant {E : ε → Prop} {Q : ο → Prop}
    (hstep : ∀ s e, I s → E e → I (step s e).1 ∧ ∀ o ∈ (step s e).2, Q o) (hs : I s)
    (hes : ∀ e ∈ es, E e) : ∀ r ∈ trace step s es, ∀ o ∈ r.out, Q o := by
  induction es generalizing s with
  | nil => exact nofun
  | cons e es ih =>
    obtain ⟨he, hes⟩ := List.forall_mem_cons.mp hes
    obtain ⟨hnext, hout⟩ := hstep s e hs he
    rw [trace, List.forall_mem_cons]
    exact ⟨hout, ih hnext hes⟩

/-- A system whose steps are those of another one, seen through `abs`, has the outputs of that one
in every run and reaches the same states. -/
theorem run_refines {τ : Type} {step' : τ → ε → τ × List ο} {abs : σ → τ}
    (hstep : ∀ s e, (abs (step s e).1, (step s e).2) = step' (abs s) e) (s : σ) (es : List ε) :
    (trace step s es).map Round.out = (trace step' (abs s) es).map Round.out ∧
      abs (run step s es) = run step' (abs s) es := by
  induction es generalizing s with
  | nil => exact ⟨rfl, rfl⟩
  | cons e es ih =>
    obtain ⟨hout, hstate⟩ := ih (step s e).1
    rw [run_cons, run_cons, trace, trace, List.map_cons, List.map_cons, ← hstep, hout, hstate]
    exact ⟨rfl, rfl⟩

/-- A property that a step keeps, unless its round has the property `R`, holds before each round
of a trace or some earlier round has the property `R`. -/
theorem kept_until {R : Round σ ε ο → Prop}
    {l₁ l₂ : List (Round σ ε ο)} {r : Round σ ε ο} (h : trace step s es = l₁ ++ r :: l₂)
    (hs : I s)
    (hstep : ∀ r' ∈ l₁, I r'.pre → r'.out = (step r'.pre r'.event).2 → ¬ R r' →
      I (step r'.pre r'.event).1) :
    (∃ r' ∈ l₁, R r') ∨ I r.pre := by
  induction l₁ generalizing s es with
  | nil =>
    cases es with
    | nil => cases h
    | cons e es =>
      cases h
      exact .inr hs
  | cons r' l₁ ih =>
    cases es with
    | nil => cases h
    | cons e es =>
      simp only [trace, List.cons_append, List.cons.injEq] at h
      obtain ⟨rfl, h⟩ := h
      by_cases hR : R ⟨s, e, (step s e).2⟩
      · exact .inl ⟨_, List.mem_cons_self, hR⟩
      · have hnext := hstep _ List.mem_cons_self hs rfl hR
        rcases ih h hnext fun r' hr' => hstep r' (List.mem_cons_of_mem _ hr') with
          ⟨r', hr', hRr⟩ | hI
        · exact .inl ⟨r', List.mem_cons_of_mem _ hr', hRr⟩
        · exact .inr hI

end

section

variable {σ ε ο φ : Type} {step : σ → ε → Except φ (σ × List ο)} {P : σ → Prop}

/-- The events lead from one state to the other; all states on the way, the two included, have the
property `P`. -/
def RunsIn (step : σ → ε → Except φ (σ × List ο)) (P : σ → Prop) : σ → List ε → σ → Prop
  | s, [], s' => P s ∧ s = s'
  | s, e :: es, s' => P s ∧ ∃ s₁ out, step s e = .ok (s₁, out) ∧ RunsIn step P s₁ es s'

/-- The outputs of the events, up to a failure. -/
def outputs (step : σ → ε → Except φ (σ × List ο)) : σ → List ε → Except φ (List (List ο))
  | _, [] => .ok []
  | s, e :: es =>
    match step s e with
    | .error fault => .error fault
    | .ok (s₁, out) => (outputs step s₁ es).map (out :: ·)

variable {s s' : σ} {es : List ε} {I : σ → Prop}

theorem outputs_cons_ok {e : ε} {outs : List (List ο)} (h : outputs step s (e :: es) = .ok outs) :
    ∃ s₁ out outs', step s e = .ok (s₁, out) ∧ outputs step s₁ es = .ok outs' ∧
      outs = out :: outs' := by
  rw [outputs] at h
  split at h
  · cases h
  rename_i s₁ out heq
  cases hrest : outputs step s₁ es with
  | error fault =>
    rw [hrest] at h
    cases h
  | ok outs' =>
    rw [hrest] at h
    cases h
    exact ⟨s₁, out, outs', heq, hrest, rfl⟩

theorem RunsIn.head (h : RunsIn step P s es s') : P s := by
  cases es with
  | nil => exact h.1
  | cons e es => exact h.1

/-- What each step between states with the property `P` keeps holds at the end of a run. -/
theorem RunsIn.invariant (h : RunsIn step P s es s')
    (hstep : ∀ s e s₁ out, P s → P s₁ → I s → step s e = .ok (s₁, out) → I s₁) (hs : I s) :
    I s' := by
  induction es generalizing s with
  | nil =>
    obtain ⟨-, rfl⟩ := h
    exact hs
  | cons e es ih =>
    obtain ⟨hP, s₁, out, heq, hrest⟩ := h
    exact ih hrest (hstep s e s₁ out hP hrest.head hs heq)

theorem RunsIn.last (h : RunsIn step P s es s') : P s' :=
  h.invariant (fun _ _ _ _ _ hP _ _ => hP) h.head

/-- `Q` holds at each state and event of the run, up to a failure. -/
def EachRound (step : σ → ε → Except φ (σ × List ο)) (Q : σ → ε → Prop) : σ → List ε → Prop
  | _, [] => True
  | s, e :: es => Q s e ∧ ∀ s₁ out, step s e = .ok (s₁, out) → EachRound step Q s₁ es

instance EachRound.decidable {Q : σ → ε → Prop} [∀ s e, Decidable (Q s e)] :
    ∀ s es, Decidable (EachRound step Q s es)
  | _, [] => isTrue trivial
  | s, e :: es =>
    match h : step s e with
    | .error _ => decidable_of_iff (Q s e)
      ⟨fun hQ => ⟨hQ, fun _ _ heq => by rw [h] at heq; cases heq⟩, And.left⟩
    | .ok (s₁, out) =>
      have : Decidable (EachRound step Q s₁ es) := EachRound.decidable s₁ es
      decidable_of_iff (Q s e ∧ EachRound step Q s₁ es)
        ⟨fun hround => ⟨hround.1, fun _ _ heq => by cases h.symm.trans heq; exact hround.2⟩,
          fun hround => ⟨hround.1, hround.2 s₁ out h⟩⟩

/-- A property of the events holds at each round of a run of such events. -/
theorem EachRound.of_forall {C : ε → Prop} (h : ∀ e ∈ es, C e) :
    EachRound step (fun _ e => C e) s es := by
  induction es generalizing s with
  | nil => trivial
  | cons e es ih =>
    exact ⟨h e List.mem_cons_self, fun s₁ _ _ => ih fun e he => h e (List.mem_cons_of_mem _ he)⟩

/-- What holds at the rounds with the property `C` that start in a state with the invariant. -/
theorem EachRound.of_invariant {C Q : σ → ε → Prop} (h : EachRound step C s es) (hs : I s)
    (hstep : ∀ s e s₁ out, I s → C s e → step s e = .ok (s₁, out) → I s₁)
    (hround : ∀ s e, I s → C s e → Q s e) : EachRound step Q s es := by
  induction es generalizing s with
  | nil => trivial
  | cons e es ih =>
    obtain ⟨hC, hrest⟩ := h
    exact ⟨hround s e hs hC, fun s₁ out heq => ih (hrest s₁ out heq) (hstep s e s₁ out hs hC heq)⟩

/-- What each round with the property `C` keeps holds at the end of a run of such rounds. -/
theorem RunsIn.invariant_of_rounds {C : σ → ε → Prop}
    (h : RunsIn step P s es s') (hrounds : EachRound step C s es) (hs : I s)
    (hstep : ∀ s e s₁ out, I s → C s e → step s e = .ok (s₁, out) → I s₁) : I s' := by
  induction es generalizing s with
  | nil =>
    obtain ⟨-, rfl⟩ := h
    exact hs
  | cons e es ih =>
    obtain ⟨-, s₁, out, heq, h⟩ := h
    exact ih h (hrounds.2 s₁ out heq) (hstep s e s₁ out hs hrounds.1 heq)

/-- A system whose steps on related states give what those of an abstract system give, in rounds of
the kind `C`, runs without a failure and has the outputs of that one. -/
theorem RunsIn.simulates {τ : Type} {step' : τ → ε → τ × List ο} {R : σ → τ → Prop}
    {C : τ → ε → Prop} {t : τ} (hP : ∀ s t, R s t → P s)
    (hstep : ∀ s t e, R s t → C t e → ∃ s₁, step s e = .ok (s₁, (step' t e).2) ∧ R s₁ (step' t e).1)
    (hs : R s t) (hes : ∀ r ∈ trace step' t es, C r.pre r.event) :
    ∃ s', RunsIn step P s es s' ∧ outputs step s es = .ok ((trace step' t es).map Round.out) ∧
      R s' (run step' t es) := by
  induction es generalizing s t with
  | nil => exact ⟨s, ⟨hP s t hs, rfl⟩, rfl, hs⟩
  | cons e es ih =>
    rw [trace, List.forall_mem_cons] at hes
    obtain ⟨s₁, hok, hnext⟩ := hstep s t e hs hes.1
    obtain ⟨s', hruns, houts, hlast⟩ := ih hnext hes.2
    refine ⟨s', ⟨hP s t hs, s₁, _, hok, hruns⟩, ?_, hlast⟩
    simp only [outputs, hok, houts]
    rfl

/-- A sequence of two computations succeeds when both do. -/
theorem bind_eq_ok {α β : Type} {x : Except φ α} {f : α → Except φ β} {b : β} :
    x >>= f = .ok b ↔ ∃ a, x = .ok a ∧ f a = .ok b := by
  cases x with
  | error e =>
    constructor
    · intro h
      cases h
    · rintro ⟨a, h, -⟩
      cases h
  | ok a =>
    constructor
    · intro h
      exact ⟨a, rfl, h⟩
    · rintro ⟨a', heq, h⟩
      cases heq
      exact h

theorem map_eq_ok {α β : Type} {x : Except φ α} {f : α → β} {b : β} :
    x.map f = .ok b ↔ ∃ a, x = .ok a ∧ f a = b := by
  cases x <;> simp [Except.map]

end

end Halo
