import ChisLink.RelayServerStep

/-!
# Ownership of the server mutex

The model stores the section that holds `s.mu`. It agrees with the program
counters: a handler goroutine is inside a section exactly when it owns it, and
no two handlers own one at the same time.
-/

namespace ChisLink.RelayServerMutex

open LabelledRuns RelayServerModel RelayServerStep

/-- The sections of `s.mu` that a handler goroutine can be in between two steps. -/
inductive Kind where
  /-- The enqueue calls of a broadcast. -/
  | broadcast
  /-- The deferred removal. -/
  | remove
deriving DecidableEq

/-- The section that a program counter is in. -/
def sectionOf : HandlerPc → Option Kind
  | .enqueuing _ true _ => some .broadcast
  | .closing => some .remove
  | _ => none

/-- The section in which a handler owns `s.mu`. -/
def owned (mu : Option Critical) (c : ConnId) : Option Kind :=
  match mu with
  | some (.broadcast d) => if c=d then some .broadcast else none
  | some (.closing _ (.remove d)) => if c=d then some .remove else none
  | _ => none

/-- A handler is in a section of `s.mu` exactly when it owns it. -/
def Owners (s : Server) : Prop := ∀ c,sectionOf (s.handlers c)=owned s.mu c

/-- A field that the new value shares with the old one is unchanged everywhere. -/
theorem update_field {α β γ : Type} [DecidableEq α] {g : α → β} {b : α} {v : β}
    (f : β → γ) (h : f v=f (g b)) (x : α) : f (Function.update g b v x)=f (g x) := by
  by_cases hx : x=b
  · rw [hx,Function.update_self,h]
  · rw [Function.update_of_ne hx]

/-- The other entries are unchanged. -/
theorem update_other {α β : Type} [DecidableEq α] {g : α → β} {b x : α} {v w : β} (hx : g x=w)
    (hb : g b≠w) : Function.update g b v x=w := by
  have hne : x≠b := by
    rintro rfl
    exact hb hx
  rw [Function.update_of_ne hne,hx]

/-- What the new value does not do is done by an entry that did it before. -/
theorem of_update {α β : Type} [DecidableEq α] {g : α → β} {b x : α} {v : β} {f : β → Bool}
    (hv : f v=false) (hx : f (Function.update g b v x)=true) : x≠b ∧ f (g x)=true := by
  by_cases heq : x=b
  · rw [heq,Function.update_self,hv] at hx
    cases hx
  · rw [Function.update_of_ne heq] at hx
    exact ⟨heq,hx⟩

/-- What no entry did is done by the new one only. -/
theorem update_alone {α β : Type} [DecidableEq α] {g : α → β} {b : α} {v : β} {f : β → Bool}
    (hnone : ∀ x,f (g x)=false) (hv : f v=true) (x : α) :
    b=x ↔ f (Function.update g b v x)=true := by
  by_cases heq : x=b
  · rw [heq,Function.update_self]
    exact iff_of_true rfl hv
  · rw [Function.update_of_ne heq,hnone]
    exact iff_of_false (Ne.symm heq) Bool.false_ne_true

/-- A handler before `addClient` is in no section of `s.mu`. -/
theorem sectionOf_outside {pc : HandlerPc} (h : phase pc=.outside) : sectionOf pc=none := by
  cases pc <;> first | rfl | cases h

/-- Only one handler owns `s.mu`. -/
theorem owned_unique {mu : Option Critical} {c e : ConnId} {kind : Kind}
    (h : owned mu c=some kind) (he : e≠c) : owned mu e=none := by
  unfold owned at h ⊢
  split at h <;> (try split at h) <;> (try cases h) <;> (rename_i hcd; exact if_neg (hcd▸he))

/-- Nobody owns the mutex of a new server. -/
theorem owners_newServer (key : List UInt8) : Owners (newServer key) :=
  fun _ => rfl

/-- One step preserves the owner of `s.mu`. -/
theorem owners_step {cfg : Config} {s t : Server} {action : Action} (hI : Owners s)
    (h : Transition cfg s action t) : Owners t := by
  intro d
  have same : ∀ {c pc},sectionOf pc=sectionOf (s.handlers c) →
      sectionOf (Function.update s.handlers c pc d)=owned s.mu d := by
    intro c pc hpc
    rw [update_field sectionOf hpc,hI]
  -- a handler that enters or leaves a section changes the mutex in the same step
  have moved : ∀ {c pc mu},sectionOf pc=owned mu c → (∀ e,e≠c → owned mu e=owned s.mu e) →
      sectionOf (Function.update s.handlers c pc d)=owned mu d := by
    intro c pc mu hpc hother
    by_cases hd : d=c
    · rw [hd,Function.update_self,hpc]
    · rw [Function.update_of_ne hd,hI,hother d hd]
  have free : s.mu=none → ∀ e,owned s.mu e=none := by
    intro hmu e
    rw [hmu]
    rfl
  cases h with
  | drop _ hpc => exact same (sectionOf_outside hpc).symm
  | accept hpc | hello hpc | join hpc | start hpc | read hpc | readError hpc | routeNoRoom hpc
    | routeUnknown hpc | routeTarget hpc | leave hpc => exact same (by rw [hpc]; rfl)
  | @discard _ _ _ _ underMu hpc | @enter _ _ _ _ underMu hpc | @dropData _ _ _ _ underMu hpc
    | @block _ _ _ _ underMu hpc | @send _ _ _ _ underMu hpc | @giveUp _ _ _ _ underMu hpc =>
    exact same (by rw [hpc]; cases underMu <;> rfl)
  | finishTarget hpc => exact same (by rw [hpc]; rfl)
  | @routeBroadcast c _ _ _ _ _ hmu | @removeClient c _ hmu =>
    refine moved (if_pos rfl).symm fun e he => ?_
    rw [free hmu]
    exact if_neg he
  | @finishBroadcast c _ hpc =>
    have hc := hI c
    rw [hpc] at hc
    exact moved rfl fun e he => (owned_unique hc.symm he).symm
  | kickClient hmu | deleteRoom hmu => rw [hI,free hmu]; rfl
  | @closeOut _ _ tail hmu | @closeSkip _ _ tail hmu =>
    rw [hI,hmu]
    cases tail <;> rfl
  | @tailRemove c hmu =>
    refine moved rfl fun e he => ?_
    rw [hmu]
    exact (if_neg he).symm
  | tailKick hmu | tailDelete hmu => rw [hI,hmu]; rfl
  | _ => exact hI d

/-- A handler in a broadcast holds `s.mu`. -/
theorem Owners.broadcasting {s : Server} (hI : Owners s) {c : ConnId}
    {todo : List (ConnId×Entry)} {blocked : Bool}
    (h : s.handlers c=.enqueuing todo true blocked) : s.mu=some (.broadcast c) := by
  have hc := hI c
  rw [h] at hc
  unfold owned at hc
  split at hc
  · split at hc
    · rename_i hmu hcd
      rw [hmu,hcd]
    · cases hc
  · split at hc <;> cases hc
  · cases hc

end ChisLink.RelayServerMutex
