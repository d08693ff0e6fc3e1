import Mathlib.Data.List.Basic

/-!
# Runs of labelled transition functions

A system is a partial step function from a state and an action to the next
state. A run records every state it leaves together with the action taken
there. The rules below are used for whole-run safety results: an inductive
invariant holds in every state of a run, and a safety property which one step
keeps exactly when a step condition is met holds throughout a run exactly when
every step meets that condition.
-/

namespace ChisLink.LabelledRuns

variable {State Action : Type*}

/-- A finite run from a start state. The trace lists every state that was left
with the action taken in it; the last index is the state reached. -/
inductive Run (step : State → Action → Option State) (start : State) :
    List (State×Action) → State → Prop where
  /-- The empty run stays in the start state. -/
  | nil : Run step start [] start
  /-- One more enabled step extends a run at its end. -/
  | snoc {trace : List (State×Action)} {s t : State} {action : Action} :
      Run step start trace s → step s action=some t →
      Run step start (trace++[(s,action)]) t

/-- The property holds in every state that the run visits, the last one included. -/
def Always (P : State → Prop) (trace : List (State×Action)) (last : State) : Prop :=
  (∀ entry∈trace,P entry.1) ∧ P last

/-- The condition holds at every step of the run, in the state it is taken from. -/
def EveryStep (G : State → Action → Prop) (trace : List (State×Action)) : Prop :=
  ∀ entry∈trace,G entry.1 entry.2

@[simp] theorem always_nil {P : State → Prop} {last : State} :
    Always P ([] : List (State×Action)) last ↔ P last := by
  simp [Always]

@[simp] theorem always_snoc {P : State → Prop} {trace : List (State×Action)}
    {s last : State} {action : Action} :
    Always P (trace++[(s,action)]) last ↔ Always P trace s ∧ P last := by
  simp only [Always,List.mem_append,List.mem_singleton]
  constructor
  · rintro ⟨hall,hlast⟩
    exact ⟨⟨fun entry h => hall entry (Or.inl h),hall _ (Or.inr rfl)⟩,hlast⟩
  · rintro ⟨⟨hall,hs⟩,hlast⟩
    refine ⟨?_,hlast⟩
    rintro entry (h | rfl)
    · exact hall entry h
    · exact hs

@[simp] theorem everyStep_nil {G : State → Action → Prop} :
    EveryStep G ([] : List (State×Action)) := by
  simp [EveryStep]

@[simp] theorem everyStep_snoc {G : State → Action → Prop}
    {trace : List (State×Action)} {s : State} {action : Action} :
    EveryStep G (trace++[(s,action)]) ↔ EveryStep G trace ∧ G s action := by
  simp only [EveryStep,List.mem_append,List.mem_singleton]
  constructor
  · intro hall
    exact ⟨fun entry h => hall entry (Or.inl h),hall _ (Or.inr rfl)⟩
  · rintro ⟨hall,hs⟩ entry (h | rfl)
    · exact hall entry h
    · exact hs

section Rules

variable {step : State → Action → Option State} {start : State}
  {trace : List (State×Action)} {last : State}

/-- Induction over runs: a property of the start that every step preserves
holds in the state reached. -/
theorem Run.invariant {I : State → Prop} (run : Run step start trace last)
    (hstart : I start)
    (hstep : ∀ s action t,I s → step s action=some t → I t) : I last := by
  induction run with
  | nil => exact hstart
  | snoc run henabled ih => exact hstep _ _ _ ih henabled

/-- An inductive invariant holds in every state of the run. -/
theorem Run.always {I : State → Prop} (run : Run step start trace last)
    (hstart : I start)
    (hstep : ∀ s action t,I s → step s action=some t → I t) :
    Always I trace last := by
  induction run with
  | nil => exact always_nil.mpr hstart
  | snoc run henabled ih =>
    exact always_snoc.mpr ⟨ih,hstep _ _ _ ih.2 henabled⟩

/-- What holds throughout a run holds at its start. -/
theorem Run.of_always {P : State → Prop} (run : Run step start trace last)
    (hall : Always P trace last) : P start := by
  induction run with
  | nil => exact always_nil.mp hall
  | snoc run henabled ih => exact ih (always_snoc.mp hall).1

/-- Every prefix of a run is a run, so that a fact about the last state of any
run is a fact about every state of it. -/
theorem Run.always_of_last {P : State → Prop} (run : Run step start trace last)
    (hlast : ∀ {trace' last'},Run step start trace' last' → P last') :
    Always P trace last := by
  induction run with
  | nil => exact always_nil.mpr (hlast Run.nil)
  | snoc run henabled ih =>
    exact always_snoc.mpr ⟨ih,hlast (run.snoc henabled)⟩

/-- A property preserved by the steps that meet a condition holds throughout
every run whose steps all meet it. The invariant may be used on the way. -/
theorem Run.always_of_everyStep {I P : State → Prop} {G : State → Action → Prop}
    (run : Run step start trace last) (hI : I start)
    (hkeep : ∀ s action t,I s → step s action=some t → I t) (hP : P start)
    (hstep : ∀ s action t,I s → P s → G s action → step s action=some t → P t)
    (hall : EveryStep G trace) : Always P trace last := by
  induction run with
  | nil => exact always_nil.mpr hP
  | snoc run henabled ih =>
    obtain ⟨hbefore,hG⟩ := everyStep_snoc.mp hall
    have hprev := ih hbefore
    exact always_snoc.mpr
      ⟨hprev,hstep _ _ _ (run.invariant hI hkeep) hprev.2 hG henabled⟩

/-- When one step keeps a property exactly if it meets a condition, a run keeps
the property exactly if all its steps meet the condition. -/
theorem Run.always_iff_everyStep {I P : State → Prop} {G : State → Action → Prop}
    (run : Run step start trace last) (hI : I start)
    (hkeep : ∀ s action t,I s → step s action=some t → I t) (hP : P start)
    (hexact : ∀ s action t,I s → P s → step s action=some t → (P t ↔ G s action)) :
    Always P trace last ↔ EveryStep G trace := by
  induction run with
  | nil => simpa only [always_nil,everyStep_nil,iff_true] using hP
  | snoc run henabled ih =>
    rw [always_snoc,everyStep_snoc,ih]
    constructor
    · rintro ⟨hbefore,hlast⟩
      have hprev := ih.mpr hbefore
      exact ⟨hbefore,
        (hexact _ _ _ (run.invariant hI hkeep) hprev.2 henabled).mp hlast⟩
    · rintro ⟨hbefore,hG⟩
      have hprev := ih.mpr hbefore
      exact ⟨hbefore,
        (hexact _ _ _ (run.invariant hI hkeep) hprev.2 henabled).mpr hG⟩

/-- An invariant that is kept as long as a property holds, along a run on which it
holds throughout. -/
theorem Run.always_and {I P : State → Prop} (run : Run step start trace last)
    (hI : I start)
    (hkeep : ∀ s action t,I s → P s → step s action=some t → P t → I t)
    (hall : Always P trace last) : Always (fun s => P s ∧ I s) trace last := by
  induction run with
  | nil => exact always_nil.mpr ⟨always_nil.mp hall,hI⟩
  | snoc run henabled ih =>
    obtain ⟨hbefore,hlast⟩ := always_snoc.mp hall
    have hprev := ih hbefore
    exact always_snoc.mpr
      ⟨hprev,hlast,hkeep _ _ _ hprev.2.2 hprev.2.1 henabled hlast⟩

/-- The same equivalence with an invariant that is kept as long as the property
holds. -/
theorem Run.always_iff_everyStep_of_safe {I P : State → Prop} {G : State → Action → Prop}
    (run : Run step start trace last) (hI : I start) (hP : P start)
    (hkeep : ∀ s action t,I s → P s → step s action=some t → P t → I t)
    (hexact : ∀ s action t,I s → P s → step s action=some t → (P t ↔ G s action)) :
    Always P trace last ↔ EveryStep G trace := by
  have hboth : Always (fun s => P s ∧ I s) trace last ↔ EveryStep G trace := by
    have htrue : ∀ s action t,True → step s action=some t → True := fun _ _ _ _ _ => trivial
    refine run.always_iff_everyStep trivial htrue ⟨hP,hI⟩ ?_
    rintro s action t - ⟨hs,hinv⟩ henabled
    rw [← hexact s action t hinv hs henabled]
    exact ⟨And.left,fun ht => ⟨ht,hkeep s action t hinv hs henabled ht⟩⟩
  rw [← hboth]
  constructor
  · exact run.always_and hI hkeep
  · rintro ⟨hentries,hlast⟩
    exact ⟨fun entry hmem => (hentries entry hmem).1,hlast.1⟩

/-- The same for a property of the steps, with an invariant that is kept by the steps that
have the property. -/
theorem Run.everyStep_iff {I : State → Prop} {Q G : State → Action → Prop}
    (run : Run step start trace last) (hI : I start)
    (hkeep : ∀ s action t,I s → Q s action → step s action=some t → I t)
    (hexact : ∀ s action t,I s → step s action=some t → (Q s action ↔ G s action)) :
    EveryStep Q trace ↔ EveryStep G trace := by
  have hboth : (EveryStep Q trace ↔ EveryStep G trace) ∧ (EveryStep Q trace → I last) := by
    induction run with
    | nil => exact ⟨iff_of_true everyStep_nil everyStep_nil,fun _ => hI⟩
    | snoc run henabled ih =>
      rw [everyStep_snoc,everyStep_snoc]
      refine ⟨?_,fun h => hkeep _ _ _ (ih.2 h.1) h.2 henabled⟩
      rw [← ih.1]
      constructor
      · rintro ⟨hbefore,hQ⟩
        exact ⟨hbefore,(hexact _ _ _ (ih.2 hbefore) henabled).mp hQ⟩
      · rintro ⟨hbefore,hG⟩
        exact ⟨hbefore,(hexact _ _ _ (ih.2 hbefore) henabled).mpr hG⟩
  exact hboth.1

/-- The same for a property of the states together with a property of the steps. -/
theorem Run.always_and_everyStep_iff {I P : State → Prop} {Q G : State → Action → Prop}
    (run : Run step start trace last) (hI : I start)
    (hkeep : ∀ s action t,I s → step s action=some t → I t) (hP : P start)
    (hexact : ∀ s action t,I s → P s → step s action=some t →
      (P t ∧ Q s action ↔ G s action)) :
    Always P trace last ∧ EveryStep Q trace ↔ EveryStep G trace := by
  induction run with
  | nil => simpa only [always_nil,everyStep_nil,and_true,iff_true] using hP
  | snoc run henabled ih =>
    rw [always_snoc,everyStep_snoc,everyStep_snoc]
    constructor
    · rintro ⟨⟨hbefore,hlast⟩,hsteps,hstep⟩
      exact ⟨ih.mp ⟨hbefore,hsteps⟩,
        (hexact _ _ _ (run.invariant hI hkeep) hbefore.2 henabled).mp ⟨hlast,hstep⟩⟩
    · rintro ⟨hbefore,hG⟩
      obtain ⟨hprev,hsteps⟩ := ih.mpr hbefore
      obtain ⟨hlast,hstep⟩ :=
        (hexact _ _ _ (run.invariant hI hkeep) hprev.2 henabled).mpr hG
      exact ⟨⟨hprev,hlast⟩,hsteps,hstep⟩

end Rules

/-- Take the listed actions one after another, as far as each is enabled. -/
def exec (step : State → Action → Option State) : State → List Action → Option State
  | s, [] => some s
  | s, action::actions => (step s action).bind fun t => exec step t actions

/-- An executable list of actions prolongs a run. -/
theorem Run.exec {step : State → Action → Option State} {start s t : State}
    {trace : List (State×Action)} {actions : List Action} (run : Run step start trace s)
    (hexec : LabelledRuns.exec step s actions=some t) :
    ∃ trace',Run step start trace' t := by
  induction actions generalizing s trace with
  | nil =>
    simp only [LabelledRuns.exec,Option.some.injEq] at hexec
    exact ⟨trace,hexec▸run⟩
  | cons action actions ih =>
    simp only [LabelledRuns.exec] at hexec
    obtain ⟨next,hnext,hrest⟩ := Option.bind_eq_some_iff.mp hexec
    exact ih (run.snoc hnext) hrest

end ChisLink.LabelledRuns
