/-
Guarded transition systems: traces, replay, and the rules the invariants of this
development are proved with.

A system is an **executable** step function: `step s e` is the next state when
the event `e` is enabled in `s`, and `none` when it is not. One definition then
serves both uses. Proofs go through `Trace`, which records every step with the
state it was taken from, so that a condition on the steps of a run is a
condition on the elements of its trace. Concrete schedules go through `run`,
which replays a list of events and can be evaluated.

Nothing here knows what the states or the events are.
-/
import Mathlib.Data.List.Basic

set_option autoImplicit false

namespace MatrixSdk.Lib

universe u v

/-- A transition system: an initial state and a guarded step function. -/
structure System (σ : Type u) (ι : Type v) where
  /-- The state a run starts from. -/
  init : σ
  /-- The next state, or `none` when the event is not enabled. -/
  step : σ → ι → Option σ

namespace System

variable {σ : Type u} {ι : Type v} (sys : System σ ι)

/-! ## Traces -/

/-- `sys.Trace tr s`: a run that ends in `s`, where `tr` lists its steps in order,
each as the state it was taken from and the event taken. -/
inductive Trace : List (σ × ι) → σ → Prop
  | start : Trace [] sys.init
  | snoc {tr : List (σ × ι)} {s s' : σ} {e : ι} :
      Trace tr s → sys.step s e = some s' → Trace (tr ++ [(s, e)]) s'

/-- The states some run ends in. -/
def Reachable (s : σ) : Prop := ∃ tr, sys.Trace tr s

/-- Every step of the trace meets the condition `C` on the state before it and
the event taken. -/
def Meets (C : σ → ι → Prop) (tr : List (σ × ι)) : Prop := ∀ p ∈ tr, C p.1 p.2

instance (C : σ → ι → Prop) [∀ s e, Decidable (C s e)] (tr : List (σ × ι)) :
    Decidable (Meets C tr) :=
  inferInstanceAs (Decidable (∀ p ∈ tr, C p.1 p.2))

/-- The states that runs end in when all their steps meet `C`. -/
def ReachableUnder (C : σ → ι → Prop) (s : σ) : Prop :=
  ∃ tr, sys.Trace tr s ∧ Meets C tr

/-- `P` in the last state of the run and in every state a step was taken from. -/
def HoldsAlong (P : σ → Prop) (tr : List (σ × ι)) (s : σ) : Prop :=
  (∀ p ∈ tr, P p.1) ∧ P s

omit sys in
theorem meets_snoc {C : σ → ι → Prop} {tr : List (σ × ι)} {s : σ} {e : ι} :
    Meets C (tr ++ [(s, e)]) ↔ Meets C tr ∧ C s e := by
  simp only [Meets, List.mem_append, List.mem_singleton, or_imp, forall_and, forall_eq]

omit sys in
theorem holdsAlong_snoc {P : σ → Prop} {tr : List (σ × ι)} {s s' : σ} {e : ι} :
    HoldsAlong P (tr ++ [(s, e)]) s' ↔ HoldsAlong P tr s ∧ P s' := by
  simp only [HoldsAlong, List.mem_append, List.mem_singleton, or_imp, forall_and, forall_eq]

/-! ## Invariant rules -/

variable {sys}

/-- **The invariant rule under a condition.** What holds initially and is preserved
by every step that meets `C` holds at the end of every run whose steps all do. -/
theorem Trace.invariant_under {C : σ → ι → Prop} {P : σ → Prop} (hinit : P sys.init)
    (hstep : ∀ s e s', P s → C s e → sys.step s e = some s' → P s')
    {tr : List (σ × ι)} {s : σ} (h : sys.Trace tr s) (hC : Meets C tr) : P s := by
  induction h with
  | start => exact hinit
  | snoc _ hse ih =>
    obtain ⟨hC', hce⟩ := meets_snoc.1 hC
    exact hstep _ _ _ (ih hC') hce hse

/-- What follows from the invariant holds all along the run then. -/
theorem Trace.holdsAlong_under {C : σ → ι → Prop} {I P : σ → Prop} (hinit : I sys.init)
    (hstep : ∀ s e s', I s → C s e → sys.step s e = some s' → I s') (hP : ∀ s, I s → P s)
    {tr : List (σ × ι)} {s : σ} (h : sys.Trace tr s) (hC : Meets C tr) : HoldsAlong P tr s := by
  induction h with
  | start => exact ⟨fun p hp => absurd hp List.not_mem_nil, hP _ hinit⟩
  | snoc htr hse ih =>
    obtain ⟨hC', hce⟩ := meets_snoc.1 hC
    have hI := htr.invariant_under hinit hstep hC'
    exact holdsAlong_snoc.2 ⟨ih hC', hP _ (hstep _ _ _ hI hce hse)⟩

/-- A condition may be replaced by one that is stronger where the invariant holds. -/
theorem Trace.meets_of {I : σ → Prop} {C D : σ → ι → Prop} (hinit : I sys.init)
    (hstep : ∀ s e s', I s → C s e → sys.step s e = some s' → I s')
    (hsub : ∀ s e, I s → D s e → C s e) {tr : List (σ × ι)} {s : σ} (h : sys.Trace tr s)
    (hD : Meets D tr) : Meets C tr := by
  induction h with
  | start => exact fun p hp => absurd hp List.not_mem_nil
  | snoc htr hse ih =>
    obtain ⟨hD', hde⟩ := meets_snoc.1 hD
    have hC := ih hD'
    exact meets_snoc.2 ⟨hC, hsub _ _ (htr.invariant_under hinit hstep hC) hde⟩

theorem ReachableUnder.invariant {C : σ → ι → Prop} {P : σ → Prop} (hinit : P sys.init)
    (hstep : ∀ s e s', P s → C s e → sys.step s e = some s' → P s')
    {s : σ} (h : sys.ReachableUnder C s) : P s := by
  obtain ⟨tr, htr, hC⟩ := h
  exact htr.invariant_under hinit hstep hC

/-- **The invariant rule.** -/
theorem Reachable.invariant {P : σ → Prop} (hinit : P sys.init)
    (hstep : ∀ s e s', P s → sys.step s e = some s' → P s')
    {s : σ} (h : sys.Reachable s) : P s := by
  obtain ⟨tr, htr⟩ := h
  exact htr.invariant_under (C := fun _ _ => True) hinit
    (fun s e s' hP _ hse => hstep s e s' hP hse) (fun _ _ => trivial)

/-- **The exactness rule.** Let `I` hold initially and after every step from a state with `P` to one
with `P`. If, from a state with both, a step leads to a state with `P` exactly when it meets `C`, then
`P` holds all along a run exactly when every step of the run meets `C`. -/
theorem Trace.holdsAlong_iff_of {I P : σ → Prop} {C : σ → ι → Prop} (hI : I sys.init)
    (hP : P sys.init)
    (hIstep : ∀ s e s', I s → P s → sys.step s e = some s' → P s' → I s')
    (hstep : ∀ s e s', I s → P s → sys.step s e = some s' → (P s' ↔ C s e))
    {tr : List (σ × ι)} {s : σ} (h : sys.Trace tr s) : HoldsAlong P tr s ↔ Meets C tr := by
  have hboth : (HoldsAlong P tr s ↔ Meets C tr) ∧ (HoldsAlong P tr s → I s) := by
    induction h with
    | start =>
      refine ⟨⟨fun _ p hp => absurd hp List.not_mem_nil, fun _ => ⟨fun p hp =>
        absurd hp List.not_mem_nil, hP⟩⟩, fun _ => hI⟩
    | @snoc tr s s' e htr hse ih =>
      rw [holdsAlong_snoc, meets_snoc, ← ih.1]
      constructor
      · constructor
        · rintro ⟨hold, hP'⟩
          exact ⟨hold, (hstep s e s' (ih.2 hold) hold.2 hse).1 hP'⟩
        · rintro ⟨hold, hc⟩
          exact ⟨hold, (hstep s e s' (ih.2 hold) hold.2 hse).2 hc⟩
      · rintro ⟨hold, hP'⟩
        exact hIstep s e s' (ih.2 hold) hold.2 hse hP'
  exact hboth.1

/-- The exactness rule with an invariant of all runs. -/
theorem Trace.holdsAlong_iff {I P : σ → Prop} {C : σ → ι → Prop} (hI : I sys.init)
    (hIstep : ∀ s e s', I s → sys.step s e = some s' → I s') (hP : P sys.init)
    (hstep : ∀ s e s', I s → P s → sys.step s e = some s' → (P s' ↔ C s e))
    {tr : List (σ × ι)} {s : σ} (h : sys.Trace tr s) : HoldsAlong P tr s ↔ Meets C tr :=
  h.holdsAlong_iff_of hI hP (fun s e s' hIs _ hse _ => hIstep s e s' hIs hse) hstep

/-! ## Replay -/

variable (sys)

/-- Replay a list of events from `s`; `none` if one of them is not enabled. -/
def runFrom (s : σ) : List ι → Option σ
  | [] => some s
  | e :: es => (sys.step s e).bind fun s' => runFrom s' es

/-- Replay a list of events from the initial state. -/
def run (es : List ι) : Option σ := sys.runFrom sys.init es

/-- The steps a replay takes, each with the state it is taken from. -/
def stepsFrom (s : σ) : List ι → List (σ × ι)
  | [] => []
  | e :: es => (s, e) :: (sys.step s e).elim [] fun s' => stepsFrom s' es

/-- The steps of a replay from the initial state. -/
def steps (es : List ι) : List (σ × ι) := sys.stepsFrom sys.init es

variable {sys}

/-- A replay extends the run that led to the state it starts from. -/
theorem Trace.runFrom {tr : List (σ × ι)} {s t : σ} {es : List ι} (h : sys.Trace tr s)
    (ht : sys.runFrom s es = some t) : sys.Trace (tr ++ sys.stepsFrom s es) t := by
  induction es generalizing tr s with
  | nil =>
    obtain rfl : s = t := by simpa [System.runFrom] using ht
    simpa [stepsFrom] using h
  | cons e es ih =>
    obtain ⟨s', hse, hs'⟩ := Option.bind_eq_some_iff.1 ht
    have := ih (h.snoc hse) hs'
    simpa [stepsFrom, hse] using this

/-- The steps of a replay take its events. -/
theorem event_mem_of_mem_stepsFrom {p : σ × ι} {es : List ι} :
    ∀ {s : σ}, p ∈ sys.stepsFrom s es → p.2 ∈ es := by
  induction es with
  | nil => exact fun hp => absurd hp List.not_mem_nil
  | cons e es ih =>
    intro s hp
    rcases List.mem_cons.1 hp with rfl | hp
    · exact List.mem_cons_self
    · cases hstep : sys.step s e with
      | none =>
        rw [hstep] at hp
        exact absurd hp List.not_mem_nil
      | some s' =>
        rw [hstep] at hp
        exact List.mem_cons_of_mem e (ih hp)

/-- A successful replay, as a trace. -/
theorem trace_of_run {es : List ι} {s : σ} (h : sys.run es = some s) :
    sys.Trace (sys.steps es) s :=
  Trace.start.runFrom h

/-- The trace of a replay, ending in a term that can be evaluated. -/
theorem trace_get {es : List ι} (h : (sys.run es).isSome) :
    sys.Trace (sys.steps es) ((sys.run es).get h) :=
  trace_of_run (Option.some_get h).symm

/-- The state a replay ends in is reachable. -/
theorem reachable_get {es : List ι} (h : (sys.run es).isSome) :
    sys.Reachable ((sys.run es).get h) :=
  ⟨_, trace_get h⟩

end System

end MatrixSdk.Lib
