import Mathlib.Data.List.Perm.Basic

/-!
# Ledgers of resources

A history of resources that are opened and closed, newest event first, and a table of
holders, each with at most one resource. The books balance if the holders together have
exactly the resources that are live. The rules say how an entry of the table and the
history may change together.
-/

namespace ChisLink.ResourceLedger

variable {α β : Type*}

/-- What happens to a resource. -/
inductive Event (α : Type*) where
  /-- It is opened. -/
  | opened (a : α)
  /-- It is closed. -/
  | closed (a : α)
deriving DecidableEq

section Histories

variable [DecidableEq α]

/-- The resources that are live after a history. -/
def live : List (Event α) → List α
  | [] => []
  | .opened a::events => a::live events
  | .closed a::events => (live events).erase a

/-- Only resources that are not live are opened, and only live ones are closed. -/
def Lawful : List (Event α) → Prop
  | [] => True
  | .opened a::events => a∉live events ∧ Lawful events
  | .closed a::events => a∈live events ∧ Lawful events

theorem Lawful.nodup {events : List (Event α)} (h : Lawful events) : (live events).Nodup := by
  induction events with
  | nil => exact List.nodup_nil
  | cons event events ih =>
    cases event with
    | opened a => exact List.nodup_cons.mpr ⟨h.1,ih h.2⟩
    | closed a => exact (ih h.2).erase a

end Histories

section Tables

variable {f : β → Option α} {table : List β} {i j : ℕ}

/-- Taking the holder out of a place leaves the rest. -/
theorem filterMap_perm (h : i<table.length) :
    (table.filterMap f).Perm ((f table[i]).toList++(table.eraseIdx i).filterMap f) := by
  have hsplit := (List.getElem_cons_eraseIdx_perm h).symm.filterMap f
  cases hf : f table[i] with
  | none =>
    rw [List.filterMap_cons_none hf] at hsplit
    exact hsplit
  | some a =>
    rw [List.filterMap_cons_some hf] at hsplit
    exact hsplit

theorem filterMap_set_perm (h : i<table.length) (b : β) :
    ((table.set i b).filterMap f).Perm ((f b).toList++(table.eraseIdx i).filterMap f) := by
  have hsplit := (List.set_perm_cons_eraseIdx h b).filterMap f
  cases hf : f b with
  | none =>
    rw [List.filterMap_cons_none hf] at hsplit
    exact hsplit
  | some a =>
    rw [List.filterMap_cons_some hf] at hsplit
    exact hsplit

/-- Two places with one resource are the same. -/
theorem index_unique (hnodup : (table.filterMap f).Nodup) {b c : β} {a : α}
    (hi : table[i]?=some b) (hj : table[j]?=some c) (hb : f b=some a) (hc : f c=some a) :
    i=j := by
  induction table generalizing i j with
  | nil => cases hi
  | cons first rest ih =>
    have hrest : (rest.filterMap f).Nodup :=
      hnodup.sublist ((List.sublist_cons_self first rest).filterMap f)
    have clash : ∀ {d : β} {k : ℕ},f first=some a → rest[k]?=some d → f d=some a →
        False := by
      intro d k hfirst hk hd
      rw [List.filterMap_cons_some hfirst] at hnodup
      exact (List.nodup_cons.mp hnodup).1
        (List.mem_filterMap.mpr ⟨d,List.mem_of_getElem? hk,hd⟩)
    cases i with
    | zero =>
      cases j with
      | zero => rfl
      | succ j =>
        cases hi
        exact (clash hb hj hc).elim
    | succ i =>
      cases j with
      | zero =>
        cases hj
        exact (clash hc hi hb).elim
      | succ j => exact congrArg Nat.succ (ih hrest hi hj)

end Tables

/-- The holders of the table and the others have exactly the live resources, each once. -/
structure Balanced [DecidableEq α] (f : β → Option α) (table : List β) (others : List α)
    (events : List (Event α)) : Prop where
  /-- What is held is what is live. -/
  books : (table.filterMap f++others).Perm (live events)
  /-- The history is lawful. -/
  lawful : Lawful events

section Rules

variable [DecidableEq α] {f : β → Option α} {table : List β} {others : List α} {events : List (Event α)}
  {i : ℕ} {b : β} {a : α}

/-- An entry that goes on holding what it held. -/
theorem Balanced.keep (h : Balanced f table others events) (hi : i<table.length)
    (hb : f b=f table[i]) : Balanced f (table.set i b) others events := by
  refine ⟨?_,h.lawful⟩
  have hset := filterMap_set_perm (f := f) hi b
  rw [hb] at hset
  exact ((hset.trans (filterMap_perm hi).symm).append_right others).trans h.books

/-- An entry gets a resource that is opened. -/
theorem Balanced.gain (h : Balanced f table others events) (hi : i<table.length)
    (hnone : f table[i]=none) (hb : f b=some a) (hfresh : a∉live events) :
    Balanced f (table.set i b) others (.opened a::events) := by
  refine ⟨?_,hfresh,h.lawful⟩
  have hbefore := filterMap_perm (f := f) hi
  have hset := filterMap_set_perm (f := f) hi b
  rw [hnone] at hbefore
  rw [hb] at hset
  have hadded : ((table.set i b).filterMap f).Perm (a::table.filterMap f) :=
    hset.trans (hbefore.symm.cons a)
  exact (hadded.append_right others).trans (h.books.cons a)

/-- An entry loses a resource that is closed. -/
theorem Balanced.lose (h : Balanced f table others events) (hi : i<table.length)
    (hsome : f table[i]=some a) (hb : f b=none) :
    Balanced f (table.set i b) others (.closed a::events) := by
  have hbefore := filterMap_perm (f := f) hi
  have hset := filterMap_set_perm (f := f) hi b
  rw [hsome] at hbefore
  rw [hb] at hset
  have hall : (a::((table.set i b).filterMap f++others)).Perm (live events) :=
    (((hset.symm.cons a).symm.trans hbefore.symm).append_right others).trans h.books
  refine ⟨?_,hall.subset List.mem_cons_self,h.lawful⟩
  have herased := hall.erase a
  rw [List.erase_cons_head] at herased
  exact herased

/-- Somebody outside the table gets a resource. -/
theorem Balanced.hold (h : Balanced f table others events) (hfresh : a∉live events) :
    Balanced f table (others++[a]) (.opened a::events) := by
  refine ⟨?_,hfresh,h.lawful⟩
  rw [← List.append_assoc]
  exact (List.perm_append_singleton a _).trans (h.books.cons a)

/-- A resource that is opened and closed at once. -/
theorem Balanced.pass (h : Balanced f table others events) (hfresh : a∉live events) :
    Balanced f table others (.closed a::.opened a::events) := by
  refine ⟨?_,List.mem_cons_self,hfresh,h.lawful⟩
  unfold live
  rw [live,List.erase_cons_head]
  exact h.books

/-- What the books say of each resource: it is live if and only if an entry of the table or
somebody else has it, two entries never have the same one, and nobody else has what an
entry has. -/
theorem Balanced.owners (h : Balanced f table others events) :
    (∀ a,a∈live events ↔ (∃ b∈table,f b=some a) ∨ a∈others) ∧
    (∀ (i j : ℕ) (b c : β) (a : α),table[i]?=some b → table[j]?=some c → f b=some a → f c=some a → i=j) ∧
    (∀ b∈table,∀ a,f b=some a → a∉others) ∧ others.Nodup := by
  have hnodup := h.books.nodup_iff.mpr h.lawful.nodup
  obtain ⟨htable,hothers,hapart⟩ := List.nodup_append.mp hnodup
  refine ⟨fun a => ?_,fun i j b c a hi hj hb hc => index_unique htable hi hj hb hc,
    fun b hb a hf hmem => ?_,hothers⟩
  · rw [← h.books.mem_iff,List.mem_append,List.mem_filterMap]
  · exact hapart a (List.mem_filterMap.mpr ⟨b,hb,hf⟩) a hmem rfl

end Rules

end ChisLink.ResourceLedger
