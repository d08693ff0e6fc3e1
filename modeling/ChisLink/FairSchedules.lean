import Mathlib.Data.Nat.Init
import ChisLink.LabelledRuns

/-!
# Fair schedules

An infinite schedule of a labelled transition function takes an action or pauses at each
moment. A schedule is fair to a group of actions if the group acts again whenever one of
its actions is enabled from some moment on. What a fair group can always do as long as
something is missing is done in the end.
-/

namespace ChisLink.FairSchedules

open LabelledRuns

variable {State Action : Type*}

/-- An infinite schedule from a start state. -/
structure Schedule (step : State → Action → Option State) (start : State) where
  /-- The state at each moment. -/
  state : ℕ → State
  /-- The action taken then, if any. -/
  action : ℕ → Option Action
  /-- It begins at the start. -/
  begins : state 0=start
  /-- A moment without an action changes nothing. -/
  pauses : ∀ n,action n=none → state (n+1)=state n
  /-- An action takes its step. -/
  acts : ∀ n a,action n=some a → step (state n) a=some (state (n+1))

variable {step : State → Action → Option State} {start : State}

/-- The group acts again if one of its actions is enabled from some moment on. -/
def Fair (schedule : Schedule step start) (group : Action → Prop) : Prop :=
  ∀ n,(∀ m,n≤ m → ∃ a t,group a ∧ step (schedule.state m) a=some t) →
    ∃ m a,n≤ m ∧ group a ∧ schedule.action m=some a

/-- The property holds at some moment from the given one on. -/
def Eventually (schedule : Schedule step start) (P : State → Prop) (n : ℕ) : Prop :=
  ∃ m,n≤ m ∧ P (schedule.state m)

/-- Every state of a schedule is reached by a run. -/
theorem Schedule.reached (schedule : Schedule step start) (n : ℕ) :
    ∃ trace,Run step start trace (schedule.state n) := by
  induction n with
  | zero =>
    rw [schedule.begins]
    exact ⟨[],.nil⟩
  | succ n ih =>
    obtain ⟨trace,run⟩ := ih
    cases haction : schedule.action n with
    | none =>
      rw [schedule.pauses n haction]
      exact ⟨trace,run⟩
    | some a => exact ⟨_,run.snoc (schedule.acts n a haction)⟩

/-- What one property leads to and the next one from there. -/
theorem Eventually.trans {schedule : Schedule step start} {P Q : State → Prop} {n : ℕ}
    (h : Eventually schedule P n)
    (hnext : ∀ m,P (schedule.state m) → Eventually schedule Q m) : Eventually schedule Q n := by
  obtain ⟨m,hnm,hP⟩ := h
  obtain ⟨k,hmk,hQ⟩ := hnext m hP
  exact ⟨k,Nat.le_trans hnm hmk,hQ⟩

/-- A property that only gives way to the next one holds until then. -/
theorem Schedule.stays {schedule : Schedule step start} {I P Q : State → Prop}
    (hI : ∀ trace s,Run step start trace s → I s)
    (hstays : ∀ s a t,I s → P s → step s a=some t → P t ∨ Q t) {n : ℕ}
    (hP : P (schedule.state n)) (hnever : ¬Eventually schedule Q n) (m : ℕ) (hm : n≤ m) :
    P (schedule.state m) := by
  induction m,hm using Nat.le_induction with
  | base => exact hP
  | succ m hm ih =>
    cases haction : schedule.action m with
    | none =>
      rw [schedule.pauses m haction]
      exact ih
    | some a =>
      obtain ⟨trace,run⟩ := schedule.reached m
      rcases hstays _ a _ (hI trace _ run) ih (schedule.acts m a haction) with hstill | hdone
      · exact hstill
      · exact absurd ⟨m+1,Nat.le_trans hm (Nat.le_succ m),hdone⟩ hnever

/-- A property that stays until the group acts, and lets the group act, leads to what the
group brings about. -/
theorem Fair.leadsTo {schedule : Schedule step start} {group : Action → Prop}
    (hfair : Fair schedule group) {I P Q : State → Prop}
    (hI : ∀ trace s,Run step start trace s → I s)
    (henabled : ∀ s,I s → P s → ∃ a t,group a ∧ step s a=some t)
    (hstays : ∀ s a t,I s → P s → step s a=some t → P t ∨ Q t)
    (hacts : ∀ s a t,I s → P s → group a → step s a=some t → Q t) {n : ℕ}
    (hP : P (schedule.state n)) : Eventually schedule Q n := by
  by_contra hnever
  have hinvariant : ∀ m,I (schedule.state m) := fun m => by
    obtain ⟨trace,run⟩ := schedule.reached m
    exact hI trace _ run
  have hkept := schedule.stays hI hstays hP hnever
  obtain ⟨m,a,hm,hgroup,haction⟩ :=
    hfair n fun m hm => henabled _ (hinvariant m) (hkept m hm)
  exact hnever ⟨m+1,Nat.le_trans hm (Nat.le_succ m),
    hacts _ a _ (hinvariant m) (hkept m hm) hgroup (schedule.acts m a haction)⟩

section Padding

/-- The state a finite run is in at a moment, the last one from its end on. -/
def stateAt (path : List (State×Action)) (last : State) (n : ℕ) : State :=
  (path[n]?.map Prod.fst).getD last

theorem stateAt_of_length_le {path : List (State×Action)} {last : State} {n : ℕ}
    (h : path.length≤n) : stateAt path last n=last := by
  rw [stateAt,List.getElem?_eq_none h]
  rfl

theorem stateAt_append {path : List (State×Action)} {s last : State} {action : Action} {n : ℕ}
    (h : n≤path.length) : stateAt (path++[(s,action)]) last n=stateAt path s n := by
  rcases Nat.lt_or_eq_of_le h with hlt | heq
  · rw [stateAt,List.getElem?_append_left hlt,stateAt,List.getElem?_eq_getElem hlt]
    rfl
  · rw [stateAt_of_length_le (Nat.le_of_eq heq.symm),stateAt,heq,List.getElem?_concat_length]
    rfl

theorem stateAt_zero {path : List (State×Action)} {last : State}
    (run : Run step start path last) : stateAt path last 0=start := by
  induction run with
  | nil => rfl
  | snoc run henabled ih => exact (stateAt_append (Nat.zero_le _)).trans ih

theorem stateAt_acts {path : List (State×Action)} {last : State}
    (run : Run step start path last) {n : ℕ} {a : Action}
    (ha : path[n]?.map Prod.snd=some a) :
    step (stateAt path last n) a=some (stateAt path last (n+1)) := by
  induction run with
  | nil => cases ha
  | @snoc path s t action run henabled ih =>
    rcases Nat.lt_trichotomy n path.length with hlt | heq | hgt
    · rw [List.getElem?_append_left hlt] at ha
      rw [stateAt_append (Nat.le_of_lt hlt),stateAt_append hlt]
      exact ih ha
    · rw [heq,List.getElem?_concat_length] at ha
      cases ha
      rw [heq,stateAt_append (Nat.le_refl _),stateAt_of_length_le (Nat.le_refl _),
        stateAt_of_length_le (by rw [List.length_append]; exact Nat.le_refl _)]
      exact henabled
    · rw [List.getElem?_eq_none (by rw [List.length_append]; exact hgt)] at ha
      cases ha

/-- An executable list of actions prolongs a run and keeps its states. -/
theorem stateAt_exec {path : List (State×Action)} {s t : State} {actions : List Action}
    (run : Run step start path s) (hexec : exec step s actions=some t) :
    ∃ longer,Run step start longer t ∧ ∀ n,n≤path.length → stateAt longer t n=stateAt path s n := by
  induction actions generalizing s path with
  | nil =>
    simp only [exec,Option.some.injEq] at hexec
    exact ⟨path,hexec▸run,fun _ _ => by rw [hexec]⟩
  | cons action actions ih =>
    simp only [exec] at hexec
    obtain ⟨next,hnext,hrest⟩ := Option.bind_eq_some_iff.mp hexec
    obtain ⟨longer,run',hsame⟩ := ih (run.snoc hnext) hrest
    refine ⟨longer,run',fun n hn => ?_⟩
    have hn' : n≤(path++[(s,action)]).length := by
      rw [List.length_append]
      exact Nat.le_succ_of_le hn
    exact (hsame n hn').trans (stateAt_append hn)

/-- A finite run, and pauses from its end on. -/
def Schedule.ofRun {path : List (State×Action)} {last : State}
    (run : Run step start path last) : Schedule step start where
  state := stateAt path last
  action n := path[n]?.map Prod.snd
  begins := stateAt_zero run
  pauses n h := by
    have hend := List.getElem?_eq_none_iff.mp (Option.map_eq_none_iff.mp h)
    rw [stateAt_of_length_le hend,stateAt_of_length_le (Nat.le_succ_of_le hend)]
  acts _ _ h := stateAt_acts run h

/-- It is fair to a group that can do nothing at the end. -/
theorem Schedule.ofRun_fair {path : List (State×Action)} {last : State}
    (run : Run step start path last) {group : Action → Prop}
    (hidle : ∀ a,group a → step last a=none) : Fair (Schedule.ofRun run) group := by
  intro n henabled
  obtain ⟨a,t,hgroup,hstep⟩ :=
    henabled (Nat.max n path.length) (Nat.le_max_left _ _)
  have hend : (Schedule.ofRun run).state (Nat.max n path.length)=last :=
    stateAt_of_length_le (Nat.le_max_right _ _)
  rw [hend,hidle a hgroup] at hstep
  cases hstep

end Padding

end ChisLink.FairSchedules
