import Mathlib.Data.List.Basic

/-!
# Driver programs

A driver runs against a machine state that holds the device, the variables of
the driver and whatever record of the traffic a proof needs. A program returns
a result or runs out of fuel in a polling loop; the state reached is visible in
both cases. The weakest precondition treats the two outcomes separately, so
that one set of rules serves total results and results about every prefix of a
wait. The last part is about programs that only append to a record of events.
-/

namespace ChisLink.DriverPrograms

/-- A program over machine states. The result is missing if a polling loop ran
out of fuel. -/
def Prog (σ α : Type) : Type := σ → Option α×σ

variable {σ α β ε : Type}

instance : Monad (Prog σ) where
  pure a := fun s => (some a,s)
  bind p f := fun s => match p s with
    | (some a,t) => f a t
    | (none,t) => (none,t)

/-- Read a value off the state. -/
def inspect (f : σ → α) : Prog σ α := fun s => (some (f s),s)

/-- Change the state. -/
def update (f : σ → σ) : Prog σ Unit := fun s => (some (),f s)

/-- Change the state and return a value, as an access of a device does. -/
def access (f : σ → α×σ) : Prog σ α := fun s => (some (f s).1,(f s).2)

/-- Repeat a body until it yields a value. -/
def poll (body : Prog σ (Option α)) : ℕ → Prog σ α
  | 0 => fun s => (none,s)
  | fuel+1 => do
    match ← body with
    | some a => pure a
    | none => poll body fuel

/-- The program returns with the first predicate, or is out of fuel with the second. -/
def wp (p : Prog σ α) (Q : α → σ → Prop) (D : σ → Prop) (s : σ) : Prop :=
  match p s with
  | (some a,t) => Q a t
  | (none,t) => D t

section Rules

variable {Q R : α → σ → Prop} {D E : σ → Prop} {s : σ}

@[simp] theorem wp_pure {a : α} : wp (pure a : Prog σ α) Q D s ↔ Q a s := Iff.rfl

@[simp] theorem wp_inspect {f : σ → α} : wp (inspect f) Q D s ↔ Q (f s) s := Iff.rfl

@[simp] theorem wp_update {f : σ → σ} {Q : Unit → σ → Prop} :
    wp (update f) Q D s ↔ Q () (f s) := Iff.rfl

@[simp] theorem wp_access {f : σ → α×σ} :
    wp (access f) Q D s ↔ Q (f s).1 (f s).2 := Iff.rfl

@[simp] theorem wp_bind {p : Prog σ β} {f : β → Prog σ α} :
    wp (p >>= f) Q D s ↔ wp p (fun b t => wp (f b) Q D t) D s := by
  unfold wp
  have hb : (p >>= f) s=match p s with
      | (some b,t) => f b t
      | (none,t) => (none,t) := rfl
  rw [hb]
  rcases p s with ⟨_ | b,t⟩ <;> rfl

/-- A sequence goes on from what its first part returns. -/
theorem bind_run {p : Prog σ β} {f : β → Prog σ α} {b : β} {s t : σ} (h : p s=(some b,t)) :
    (p >>= f) s=f b t := by
  have hb : (p >>= f) s=match p s with
      | (some b,t) => f b t
      | (none,t) => (none,t) := rfl
  rw [hb,h]

/-- It ends where its first part is out of fuel. -/
theorem bind_stuck {p : Prog σ β} {f : β → Prog σ α} {s t : σ} (h : p s=(none,t)) :
    (p >>= f) s=(none,t) := by
  have hb : (p >>= f) s=match p s with
      | (some b,t) => f b t
      | (none,t) => (none,t) := rfl
  rw [hb,h]

/-- An access returns what its function gives. -/
theorem access_run {f : σ → α×σ} {a : α} {s t : σ} (h : f s=(a,t)) :
    access f s=(some a,t) := by
  unfold access
  rw [h]

/-- Sequences of programs associate. -/
theorem bind_bind {γ : Type} (p : Prog σ α) (f : α → Prog σ β) (g : β → Prog σ γ) :
    p >>= f >>= g=p >>= fun a => f a >>= g := by
  funext s
  change (match (match p s with
      | (some a,t) => f a t
      | (none,t) => (none,t)) with
    | (some b,t) => g b t
    | (none,t) => (none,t))=match p s with
      | (some a,t) => (f a >>= g) t
      | (none,t) => (none,t)
  rcases p s with ⟨_ | a,t⟩ <;> rfl

/-- Returning first or last changes nothing. -/
theorem pure_bind (a : α) (f : α → Prog σ β) : (pure a >>= f)=f a := rfl

theorem bind_pure (p : Prog σ α) : (p >>= pure)=p := by
  funext s
  change (match p s with
    | (some a,t) => (some a,t)
    | (none,t) => (none,t))=p s
  rcases p s with ⟨_ | a,t⟩ <;> rfl

/-- A sequence goes on from what its first part returns. -/
theorem wp_bind_run {p : Prog σ β} {f : β → Prog σ α} {b : β} {s t : σ}
    (h : p s=(some b,t)) : wp (p >>= f) Q D s ↔ wp (f b) Q D t := by
  unfold wp
  rw [bind_run h]

theorem wp_any (p : Prog σ α) (s : σ) : wp p (fun _ _ => True) (fun _ => True) s := by
  unfold wp
  rcases p s with ⟨_ | a,t⟩ <;> trivial

/-- Programs that begin with the same part are the same if they go on in the same way with
what it returns. -/
theorem bind_congr_run {p : Prog σ β} {f g : β → Prog σ α} {P : β → σ → Prop}
    (hp : wp p P (fun _ => False) s) (h : ∀ b t,P b t → f b t=g b t) :
    (p >>= f) s=(p >>= g) s := by
  unfold wp at hp
  rcases hrun : p s with ⟨_ | b,t⟩
  · rw [hrun] at hp
    exact hp.elim
  · rw [hrun] at hp
    rw [bind_run hrun,bind_run hrun]
    exact h b t hp

/-- What follows depends on what is returned only. -/
theorem bind_eq {p q : Prog σ β} (f : β → Prog σ α) (h : p s=q s) :
    (p >>= f) s=(q >>= f) s := by
  rcases hq : q s with ⟨_ | b,t⟩
  · rw [bind_stuck (h.trans hq),bind_stuck hq]
  · rw [bind_run (h.trans hq),bind_run hq]

/-- Both outcomes may be weakened. -/
theorem wp_mono {p : Prog σ α} (h : wp p Q D s) (hQ : ∀ a t,Q a t → R a t)
    (hD : ∀ t,D t → E t) : wp p R E s := by
  unfold wp at h ⊢
  rcases hp : p s with ⟨_ | a,t⟩ <;> rw [hp] at h
  · exact hD t h
  · exact hQ a t h

/-- What is known of the result may be weakened. -/
theorem wp_post {p : Prog σ α} (h : wp p Q D s) (hQ : ∀ a t,Q a t → R a t) : wp p R D s :=
  wp_mono h hQ fun _ hd => hd

/-- A sequence goes on from what its first part establishes. -/
theorem wp_seq {p : Prog σ β} {f : β → Prog σ α} {P : β → σ → Prop} (h : wp p P D s)
    (hf : ∀ b t,P b t → wp (f b) Q D t) : wp (p >>= f) Q D s := by
  rw [wp_bind]
  exact wp_mono h hf fun _ hd => hd

/-- Two properties of a run hold together. -/
theorem wp_and {p : Prog σ α} (h : wp p Q D s) (h' : wp p R E s) :
    wp p (fun a t => Q a t ∧ R a t) (fun t => D t ∧ E t) s := by
  unfold wp at h h' ⊢
  rcases hp : p s with ⟨_ | a,t⟩ <;> rw [hp] at h h'
  · exact ⟨h,h'⟩
  · exact ⟨h,h'⟩

/-- A property of the state reached, whatever the outcome. -/
theorem wp_iff {p : Prog σ α} :
    wp p (fun _ t => D t) D s ↔ D (p s).2 := by
  unfold wp
  rcases p s with ⟨_ | a,t⟩ <;> rfl

/-- A program whose wait ends returns a result in a state with the property. -/
theorem wp_total {p : Prog σ α} (h : wp p Q (fun _ => False) s) :
    ∃ a t,p s=(some a,t) ∧ Q a t := by
  unfold wp at h
  rcases hp : p s with ⟨_ | a,t⟩ <;> rw [hp] at h
  · exact h.elim
  · exact ⟨a,t,rfl,h⟩

/-- The loop rule: an invariant that each round keeps until it yields a value. -/
theorem wp_poll {body : Prog σ (Option α)} {I : σ → Prop}
    (hbody : ∀ t,I t → wp body (fun r u => match r with
      | some a => Q a u
      | none => I u) D t)
    (hD : ∀ t,I t → D t) (fuel : ℕ) (hs : I s) : wp (poll body fuel) Q D s := by
  induction fuel generalizing s with
  | zero => exact hD s hs
  | succ fuel ih =>
    unfold poll
    refine wp_seq (hbody s hs) ?_
    intro r t hr
    cases r with
    | none => exact ih hr
    | some a => exact hr

end Rules

section Records

variable {log : σ → List ε} {Q R : α → List ε → Prop}

/-- The program always returns, and it appends events to the record which, with
its result, have the property. -/
def Emits (log : σ → List ε) (p : Prog σ α) (Q : α → List ε → Prop) : Prop :=
  ∀ s,wp p (fun a t => ∃ events,log t=log s++events ∧ Q a events) (fun _ => False) s

theorem Emits.mono {p : Prog σ α} (h : Emits log p Q)
    (hQ : ∀ a events,Q a events → R a events) : Emits log p R := by
  intro s
  refine wp_post (h s) ?_
  rintro a t ⟨events,hlog,hq⟩
  exact ⟨events,hlog,hQ a events hq⟩

theorem emits_pure {a : α} (h : Q a []) : Emits log (pure a : Prog σ α) Q := by
  intro s
  rw [wp_pure]
  exact ⟨[],by simp,h⟩

theorem emits_inspect {f : σ → α} (h : ∀ a,Q a []) : Emits log (inspect f) Q := by
  intro s
  rw [wp_inspect]
  exact ⟨[],by simp,h _⟩

theorem emits_update {f : σ → σ} {Q : Unit → List ε → Prop} {events : List ε}
    (hf : ∀ s,log (f s)=log s++events) (h : Q () events) :
    Emits log (update f) Q := by
  intro s
  rw [wp_update]
  exact ⟨events,hf s,h⟩

theorem emits_access {f : σ → α×σ}
    (h : ∀ s,∃ events,log (f s).2=log s++events ∧ Q (f s).1 events) :
    Emits log (access f) Q := by
  intro s
  rw [wp_access]
  exact h s

/-- The events of a sequence are those of its parts in order. -/
theorem Emits.bind {p : Prog σ β} {f : β → Prog σ α} {P : β → List ε → Prop}
    (hp : Emits log p P)
    (hf : ∀ b first,P b first → Emits log (f b) (fun a events => Q a (first++events))) :
    Emits log (p >>= f) Q := by
  intro s
  refine wp_seq (hp s) ?_
  rintro b t ⟨first,hfirst,hb⟩
  refine wp_post (hf b first hb t) ?_
  rintro a u ⟨events,hevents,ha⟩
  refine ⟨first++events,?_,ha⟩
  rw [hevents,hfirst,List.append_assoc]

/-- A program that records its events returns with them. -/
theorem Emits.returns {p : Prog σ α} (h : Emits log p Q) (s : σ) :
    ∃ a t events,p s=(some a,t) ∧ log t=log s++events ∧ Q a events := by
  obtain ⟨a,t,hrun,events,hlog,hq⟩ := wp_total (h s)
  exact ⟨a,t,events,hrun,hlog,hq⟩

/-- Two properties of the same events hold together. -/
theorem Emits.and {p : Prog σ α} (h : Emits log p Q) (h' : Emits log p R) :
    Emits log p (fun a events => Q a events ∧ R a events) := by
  intro s
  refine wp_mono (wp_and (h s) (h' s)) ?_ (fun _ hd => hd.1)
  rintro a t ⟨⟨events,hlog,hq⟩,events',hlog',hr⟩
  have hsame : events=events' := List.append_cancel_left (hlog.symm.trans hlog')
  subst hsame
  exact ⟨events,hlog,hq,hr⟩

/-- What holds of the events of every run holds of those of this one. -/
theorem Emits.of_run {p : Prog σ α} (h : Emits log p Q) {s t : σ} {a : α}
    (hrun : p s=(some a,t)) : ∃ events,log t=log s++events ∧ Q a events := by
  obtain ⟨b,u,events,hsame,hlog,hq⟩ := h.returns s
  rw [hrun,Prod.mk.injEq,Option.some.injEq] at hsame
  obtain ⟨rfl,rfl⟩ := hsame
  exact ⟨events,hlog,hq⟩

end Records

section Restriction

variable {τ : Type} {g : τ → σ}

/-- Along a map of the states one function does what the other does. -/
def CallFollows (g : τ → σ) (f : τ → α×τ) (f' : σ → α×σ) : Prop :=
  ∀ x,f' (g x)=((f x).1,g (f x).2)

/-- Along a map of the states one program does what the other does. -/
def Follows (g : τ → σ) (p : Prog τ α) (p' : Prog σ α) : Prop :=
  ∀ x,p' (g x)=((p x).1,g (p x).2)

theorem follows_pure (a : α) : Follows g (pure a) (pure a) := fun _ => rfl

theorem follows_access {f : τ → α×τ} {f' : σ → α×σ} (h : CallFollows g f f') :
    Follows g (access f) (access f') := by
  intro x
  unfold access
  rw [h x]

theorem Follows.bind {p : Prog τ β} {p' : Prog σ β} {f : β → Prog τ α} {f' : β → Prog σ α}
    (hp : Follows g p p') (hf : ∀ b,Follows g (f b) (f' b)) :
    Follows g (p >>= f) (p' >>= f') := by
  intro x
  have hstart := hp x
  rcases hrun : p x with ⟨_ | b,t⟩
  · rw [hrun] at hstart
    rw [bind_stuck hstart,bind_stuck hrun]
  · rw [hrun] at hstart
    rw [bind_run hstart,bind_run hrun]
    exact hf b t

/-- A call on the states with a property that it keeps. -/
def restrict (P : σ → Prop) (f : σ → α×σ) (h : ∀ s,P s → P (f s).2) :
    {s // P s} → α×{s // P s} :=
  fun x => ((f x.1).1,⟨(f x.1).2,h x.1 x.2⟩)

theorem restrict_follows (P : σ → Prop) (f : σ → α×σ) (h : ∀ s,P s → P (f s).2) :
    CallFollows Subtype.val (restrict P f h) f := fun _ => rfl

end Restriction

end ChisLink.DriverPrograms
