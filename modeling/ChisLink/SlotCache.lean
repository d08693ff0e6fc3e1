import Mathlib.Data.List.Basic
import Mathlib.Logic.Function.Basic

/-!
# Caches of tagged slots

A cache has a number of slots. A slot is empty or carries the number of the page
that it holds. A page that no slot carries is read into a victim: an empty slot if
there is one, otherwise the slot that was used least recently among those that are
not active, otherwise a default. What a slot is tagged with and what it holds are
two different things, and a failed read separates them.
-/

namespace ChisLink.SlotCache

variable {β : Type}

/-- Every tagged slot holds the contents of its page. -/
def Holds (count size : ℕ) (tag : ℕ → Option ℕ) (data page : ℕ → ℕ → β) : Prop :=
  ∀ slot p,slot<count → tag slot=some p → ∀ i,i<size → data slot i=page p i

/-- The first slot with a tag. -/
def find (tag : ℕ → Option ℕ) (count page : ℕ) : Option ℕ :=
  (List.range count).find? fun slot => tag slot=some page

/-- The search for a victim from a candidate on. -/
def chooseFrom (tag : ℕ → Option ℕ) (age : ℕ → UInt32) (active : ℕ → Bool) :
    List ℕ → ℕ → UInt32 → ℕ
  | [],victim,_ => victim
  | slot::slots,victim,oldest =>
    match tag slot with
    | none => slot
    | some page =>
      if active page=false ∧ age slot<oldest then
        chooseFrom tag age active slots slot (age slot)
      else chooseFrom tag age active slots victim oldest

/-- The victim, with the default for the case that every slot is active. -/
def choose (tag : ℕ → Option ℕ) (age : ℕ → UInt32) (active : ℕ → Bool)
    (count default : ℕ) : ℕ :=
  chooseFrom tag age active (List.range count) default 0xffffffff

section Search

variable {tag : ℕ → Option ℕ} {age : ℕ → UInt32} {active : ℕ → Bool}
  {count page slot default : ℕ}

theorem find_eq_some (h : find tag count page=some slot) : slot<count ∧ tag slot=some page := by
  unfold find at h
  have hmem := List.mem_of_find?_eq_some h
  have htag := List.find?_some h
  exact ⟨List.mem_range.mp hmem,of_decide_eq_true htag⟩

theorem find_eq_none (h : find tag count page=none) (hslot : slot<count) :
    tag slot≠some page := by
  unfold find at h
  have hall := List.find?_eq_none.mp h slot (List.mem_range.mpr hslot)
  simpa using hall

theorem find_eq_none_iff :
    find tag count page=none ↔ ∀ slot,slot<count → tag slot≠some page := by
  constructor
  · intro h slot hslot
    exact find_eq_none h hslot
  · intro h
    cases hfind : find tag count page with
    | none => rfl
    | some slot =>
      obtain ⟨hslot,htag⟩ := find_eq_some hfind
      exact absurd htag (h slot hslot)

/-- The victim is one of the slots, or the candidate. -/
theorem chooseFrom_mem (slots : List ℕ) (victim : ℕ) (oldest : UInt32) :
    chooseFrom tag age active slots victim oldest∈slots ∨
      chooseFrom tag age active slots victim oldest=victim := by
  induction slots generalizing victim oldest with
  | nil => exact Or.inr rfl
  | cons slot slots ih =>
    unfold chooseFrom
    cases tag slot with
    | none => exact Or.inl List.mem_cons_self
    | some page =>
      dsimp only
      split
      · rcases ih slot (age slot) with hmem | heq
        · exact Or.inl (List.mem_cons_of_mem _ hmem)
        · rw [heq]
          exact Or.inl List.mem_cons_self
      · rcases ih victim oldest with hmem | heq
        · exact Or.inl (List.mem_cons_of_mem _ hmem)
        · exact Or.inr heq

theorem choose_lt (h : default<count) : choose tag age active count default<count := by
  unfold choose
  rcases @chooseFrom_mem tag age active (List.range count) default 0xffffffff with hmem | heq
  · exact List.mem_range.mp hmem
  · rw [heq]
    exact h

/-- The victim is empty or not active, or it is the candidate. -/
theorem chooseFrom_inactive (slots : List ℕ) (victim : ℕ) (oldest : UInt32) :
    tag (chooseFrom tag age active slots victim oldest)=none ∨
      chooseFrom tag age active slots victim oldest=victim ∨
      ∃ page,tag (chooseFrom tag age active slots victim oldest)=some page ∧
        active page=false := by
  induction slots generalizing victim oldest with
  | nil => exact Or.inr (Or.inl rfl)
  | cons slot slots ih =>
    unfold chooseFrom
    cases htag : tag slot with
    | none => exact Or.inl htag
    | some page =>
      dsimp only
      split
      next hand =>
        rcases ih slot (age slot) with hnone | heq | hsome
        · exact Or.inl hnone
        · rw [heq]
          exact Or.inr (Or.inr ⟨page,htag,hand.1⟩)
        · exact Or.inr (Or.inr hsome)
      next => exact ih victim oldest

/-- The page that is replaced is not active, unless the default is taken. -/
theorem choose_inactive (hdefault : choose tag age active count default≠default)
    (htag : tag (choose tag age active count default)=some page) : active page=false := by
  unfold choose at hdefault htag
  rcases @chooseFrom_inactive tag age active (List.range count) default 0xffffffff with
    hnone | heq | ⟨page',htag',hactive⟩
  · rw [hnone] at htag
    cases htag
  · exact absurd heq hdefault
  · rw [htag] at htag'
    cases htag'
    exact hactive

/-- An empty slot is taken first. -/
theorem chooseFrom_empty {slots : List ℕ} (h : ∃ slot∈slots,tag slot=none) (victim : ℕ)
    (oldest : UInt32) : tag (chooseFrom tag age active slots victim oldest)=none := by
  induction slots generalizing victim oldest with
  | nil =>
    obtain ⟨slot,hslot,-⟩ := h
    cases hslot
  | cons slot slots ih =>
    unfold chooseFrom
    cases htag : tag slot with
    | none => exact htag
    | some page =>
      have hrest : ∃ other∈slots,tag other=none := by
        obtain ⟨other,hother,hnone⟩ := h
        rcases List.mem_cons.mp hother with rfl | hmem
        · rw [htag] at hnone
          cases hnone
        · exact ⟨other,hmem,hnone⟩
      dsimp only
      split
      · exact ih hrest slot (age slot)
      · exact ih hrest victim oldest

theorem choose_empty (h : ∃ slot,slot<count ∧ tag slot=none) :
    tag (choose tag age active count default)=none := by
  obtain ⟨slot,hslot,hnone⟩ := h
  exact chooseFrom_empty ⟨slot,List.mem_range.mpr hslot,hnone⟩ _ _

/-- It is the first empty slot. -/
theorem chooseFrom_le_empty {slots : List ℕ} (hsorted : slots.Pairwise (· < ·))
    (hmem : slot∈slots) (hnone : tag slot=none) (victim : ℕ) (oldest : UInt32) :
    chooseFrom tag age active slots victim oldest≤ slot := by
  induction slots generalizing victim oldest with
  | nil => cases hmem
  | cons first slots ih =>
    obtain ⟨hfirst,hrest⟩ := List.pairwise_cons.mp hsorted
    unfold chooseFrom
    cases htag : tag first with
    | none =>
      rcases List.mem_cons.mp hmem with heq | hin
      · exact Nat.le_of_eq heq.symm
      · exact Nat.le_of_lt (hfirst slot hin)
    | some page =>
      have hin : slot∈slots := by
        rcases List.mem_cons.mp hmem with heq | hin
        · rw [heq,htag] at hnone
          cases hnone
        · exact hin
      dsimp only
      split
      · exact ih hrest hin first (age first)
      · exact ih hrest hin victim oldest

theorem choose_le_empty (hslot : slot<count) (hnone : tag slot=none) :
    choose tag age active count default≤ slot :=
  chooseFrom_le_empty List.pairwise_lt_range (List.mem_range.mpr hslot) hnone _ _

end Search

section Replacement

variable {tag : ℕ → Option ℕ} {age : ℕ → UInt32} {active : ℕ → Bool}
  {count default : ℕ}

/-- A slot that may be replaced: its page is not active and its age is not the
largest. -/
def Eligible (tag : ℕ → Option ℕ) (age : ℕ → UInt32) (active : ℕ → Bool) (slot : ℕ) : Prop :=
  (∃ page,tag slot=some page ∧ active page=false) ∧ age slot<0xffffffff

theorem eligible_iff {slot page : ℕ} (htag : tag slot=some page) :
    Eligible tag age active slot ↔ active page=false ∧ age slot<0xffffffff := by
  unfold Eligible
  simp only [htag,Option.some.injEq,exists_eq_left']

theorem not_eligible_empty {slot : ℕ} (htag : tag slot=none) :
    ¬Eligible tag age active slot := by
  rintro ⟨⟨page,h,-⟩,-⟩
  rw [htag] at h
  cases h

instance (tag : ℕ → Option ℕ) (age : ℕ → UInt32) (active : ℕ → Bool) (slot : ℕ) :
    Decidable (Eligible tag age active slot) :=
  match htag : tag slot with
  | none => isFalse (not_eligible_empty htag)
  | some page => decidable_of_iff (active page=false ∧ age slot<0xffffffff)
      (eligible_iff htag).symm

/-- The slot that was used least recently among those, the first one of an age. -/
structure Oldest (tag : ℕ → Option ℕ) (age : ℕ → UInt32) (active : ℕ → Bool)
    (count slot : ℕ) : Prop where
  /-- It is a slot. -/
  lt : slot<count
  /-- It may be replaced. -/
  eligible : Eligible tag age active slot
  /-- No other one is older. -/
  first : ∀ other,other<count → Eligible tag age active other →
    age slot<age other ∨ age slot=age other ∧ slot≤other

/-- What the search for a victim finds in slots that all have a tag. -/
theorem chooseFrom_oldest {slots : List ℕ} (hsorted : slots.Pairwise (· < ·))
    (hfull : ∀ slot∈slots,tag slot≠none) (victim : ℕ) (oldest : UInt32) :
    (chooseFrom tag age active slots victim oldest=victim ∧
        ∀ slot∈slots,∀ page,tag slot=some page → active page=false → oldest≤age slot) ∨
      (∃ slot∈slots,chooseFrom tag age active slots victim oldest=slot ∧
        (∃ page,tag slot=some page ∧ active page=false) ∧ age slot<oldest ∧
        ∀ other∈slots,∀ page,tag other=some page → active page=false →
          age slot<age other ∨ age slot=age other ∧ slot≤other) := by
  induction slots generalizing victim oldest with
  | nil => exact .inl ⟨rfl,fun _ h => by cases h⟩
  | cons first slots ih =>
    obtain ⟨hfirst,hrest⟩ := List.pairwise_cons.mp hsorted
    have hfull' : ∀ slot∈slots,tag slot≠none := fun slot h =>
      hfull slot (List.mem_cons_of_mem _ h)
    obtain ⟨page,htag⟩ := Option.ne_none_iff_exists'.mp (hfull first List.mem_cons_self)
    unfold chooseFrom
    rw [htag]
    dsimp only
    by_cases hyoung : active page=false ∧ age first<oldest
    · rw [if_pos hyoung]
      rcases ih hrest hfull' first (age first) with ⟨heq,hall⟩ | ⟨slot,hmem,heq,hin,hlt,hall⟩
      · refine .inr ⟨first,List.mem_cons_self,heq,⟨page,htag,hyoung.1⟩,hyoung.2,?_⟩
        intro other hother p hp hactive
        rcases List.mem_cons.mp hother with rfl | hother
        · exact .inr ⟨rfl,Nat.le_refl _⟩
        · rcases UInt32.lt_or_eq_of_le (hall other hother p hp hactive) with h | h
          · exact .inl h
          · exact .inr ⟨h,Nat.le_of_lt (hfirst other hother)⟩
      · refine .inr ⟨slot,List.mem_cons_of_mem _ hmem,heq,hin,
          UInt32.lt_trans hlt hyoung.2,?_⟩
        intro other hother p hp hactive
        rcases List.mem_cons.mp hother with rfl | hother
        · exact .inl hlt
        · exact hall other hother p hp hactive
    · rw [if_neg hyoung]
      have hpast : active page=false → oldest≤age first := fun h =>
        UInt32.not_lt.mp fun hlt => hyoung ⟨h,hlt⟩
      rcases ih hrest hfull' victim oldest with ⟨heq,hall⟩ | ⟨slot,hmem,heq,hin,hlt,hall⟩
      · refine .inl ⟨heq,fun other hother p hp hactive => ?_⟩
        rcases List.mem_cons.mp hother with rfl | hother
        · rw [htag] at hp
          cases hp
          exact hpast hactive
        · exact hall other hother p hp hactive
      · refine .inr ⟨slot,List.mem_cons_of_mem _ hmem,heq,hin,hlt,?_⟩
        intro other hother p hp hactive
        rcases List.mem_cons.mp hother with rfl | hother
        · rw [htag] at hp
          cases hp
          exact .inl (UInt32.lt_of_lt_of_le hlt (hpast hactive))
        · exact hall other hother p hp hactive

/-- In a full cache the victim is the oldest slot, or the default if none may be
replaced. -/
theorem choose_full (hfull : ∀ slot,slot<count → tag slot≠none) :
    Oldest tag age active count (choose tag age active count default) ∨
      ((∀ slot,slot<count → ¬Eligible tag age active slot) ∧
        choose tag age active count default=default) := by
  have hfull' : ∀ slot∈List.range count,tag slot≠none := fun slot h =>
    hfull slot (List.mem_range.mp h)
  unfold choose
  rcases @chooseFrom_oldest tag age active _ List.pairwise_lt_range hfull' default 0xffffffff
    with ⟨heq,hall⟩ | ⟨slot,hmem,heq,hin,hlt,hall⟩
  · refine .inr ⟨?_,heq⟩
    rintro slot hslot ⟨⟨page,htag,hactive⟩,hage⟩
    exact absurd hage
      (UInt32.not_lt.mpr (hall slot (List.mem_range.mpr hslot) page htag hactive))
  · rw [heq]
    refine .inl ⟨List.mem_range.mp hmem,⟨hin,hlt⟩,?_⟩
    rintro other hother ⟨⟨page,htag,hactive⟩,-⟩
    exact hall other (List.mem_range.mpr hother) page htag hactive

/-- A victim is found exactly if a slot is empty or may be replaced. -/
theorem choose_lt_iff (hdefault : count≤default) :
    choose tag age active count default<count ↔
      ∃ slot,slot<count ∧ (tag slot=none ∨ Eligible tag age active slot) := by
  by_cases hfull : ∀ slot,slot<count → tag slot≠none
  · rcases @choose_full tag age active count default hfull with hold | ⟨hnone,heq⟩
    · exact iff_of_true hold.lt ⟨_,hold.lt,.inr hold.eligible⟩
    · rw [heq]
      refine iff_of_false (Nat.not_lt.mpr hdefault) ?_
      rintro ⟨slot,hslot,hempty | heligible⟩
      · exact hfull slot hslot hempty
      · exact hnone slot hslot heligible
  · simp only [not_forall,not_not] at hfull
    obtain ⟨slot,hslot,hempty⟩ := hfull
    have hle := @choose_le_empty tag age active count slot default hslot hempty
    exact iff_of_true (Nat.lt_of_le_of_lt hle hslot) ⟨slot,hslot,.inl hempty⟩

/-- The victim that is found is such a slot. -/
theorem choose_replaceable (hdefault : count≤default)
    (h : choose tag age active count default<count) :
    tag (choose tag age active count default)=none ∨
      Eligible tag age active (choose tag age active count default) := by
  by_cases hfull : ∀ slot,slot<count → tag slot≠none
  · rcases @choose_full tag age active count default hfull with hold | ⟨-,heq⟩
    · exact .inr hold.eligible
    · rw [heq] at h
      omega
  · simp only [not_forall,not_not] at hfull
    obtain ⟨slot,hslot,hempty⟩ := hfull
    exact .inl (choose_empty ⟨slot,hslot,hempty⟩)

/-- There is only one oldest slot. -/
theorem Oldest.unique {slot other : ℕ} (h : Oldest tag age active count slot)
    (h' : Oldest tag age active count other) : slot=other := by
  rcases h.first other h'.lt h'.eligible with hlt | ⟨heq,hle⟩
  · rcases h'.first slot h.lt h.eligible with hlt' | ⟨heq',-⟩
    · exact absurd (UInt32.lt_trans hlt hlt') (UInt32.lt_irrefl _)
    · rw [heq'] at hlt
      exact absurd hlt (UInt32.lt_irrefl _)
  · rcases h'.first slot h.lt h.eligible with hlt' | ⟨-,hle'⟩
    · rw [heq] at hlt'
      exact absurd hlt' (UInt32.lt_irrefl _)
    · exact Nat.le_antisymm hle hle'

/-- The page of the oldest slot is not in use, and if no slot may be replaced that of the
default is not. -/
def Spares (tag : ℕ → Option ℕ) (age : ℕ → UInt32) (active : ℕ → Bool) (used : ℕ → Prop)
    (count default : ℕ) : Prop :=
  (∀ slot,slot<count → tag slot≠none) →
    (∀ slot page,Oldest tag age active count slot → tag slot=some page → ¬used page) ∧
    ((∀ slot,slot<count → ¬Eligible tag age active slot) →
      ∀ page,tag default=some page → ¬used page)

/-- The victim's page is not in use exactly if the cache spares the pages in use. -/
theorem choose_spares_iff {used : ℕ → Prop} :
    (∀ page,tag (choose tag age active count default)=some page → ¬used page) ↔
      Spares tag age active used count default := by
  constructor
  · intro h hfull
    rcases @choose_full tag age active count default hfull with hold | ⟨hnone,heq⟩
    · refine ⟨fun slot page hslot htag => ?_,fun hnone => ?_⟩
      · rw [hslot.unique hold] at htag
        exact h page htag
      · exact absurd hold.eligible (hnone _ hold.lt)
    · rw [heq] at h
      exact ⟨fun slot page hslot _ => absurd hslot.eligible (hnone slot hslot.lt),fun _ => h⟩
  · intro h page htag
    by_cases hfull : ∀ slot,slot<count → tag slot≠none
    · obtain ⟨hspare,hdefault⟩ := h hfull
      rcases @choose_full tag age active count default hfull with hold | ⟨hnone,heq⟩
      · exact hspare _ page hold htag
      · rw [heq] at htag
        exact hdefault hnone page htag
    · simp only [not_forall] at hfull
      obtain ⟨slot,hslot,hempty⟩ := hfull
      have hnone : tag slot=none := not_not.mp hempty
      rw [choose_empty ⟨slot,hslot,hnone⟩] at htag
      cases htag

end Replacement

section Tags

variable {tag : ℕ → Option ℕ} {count page victim : ℕ}

/-- No page has two slots. -/
def Distinct (tag : ℕ → Option ℕ) (count : ℕ) : Prop :=
  ∀ slot other page,slot<count → other<count → tag slot=some page → tag other=some page →
    slot=other

/-- A page that no slot has gets one. -/
theorem Distinct.update (h : Distinct tag count) (hfind : find tag count page=none) :
    Distinct (Function.update tag victim (some page)) count := by
  have hother : ∀ slot,slot<count → slot≠victim →
      Function.update tag victim (some page) slot≠some page := by
    intro slot hslot hne
    rw [Function.update_of_ne hne]
    exact find_eq_none hfind hslot
  intro slot other p hslot hslot' htag htag'
  by_cases heq : slot=victim
  · rw [heq,Function.update_self] at htag
    cases htag
    by_cases heq' : other=victim
    · rw [heq,heq']
    · exact absurd htag' (hother other hslot' heq')
  · by_cases heq' : other=victim
    · rw [heq',Function.update_self] at htag'
      cases htag'
      exact absurd htag (hother slot hslot heq)
    · rw [Function.update_of_ne heq] at htag
      rw [Function.update_of_ne heq'] at htag'
      exact h slot other p hslot hslot' htag htag'

theorem distinct_empty (count : ℕ) : Distinct (fun _ => none) count :=
  fun _ _ _ _ _ htag => by cases htag

end Tags

/-- A loop over the first numbers keeps an invariant that counts its turns. -/
theorem foldl_range_invariant {σ : Type*} {P : ℕ → σ → Prop} {f : σ → ℕ → σ} {s : σ}
    {n : ℕ} (hstart : P 0 s) (hturn : ∀ i t,i<n → P i t → P (i+1) (f t i)) :
    P n ((List.range n).foldl f s) := by
  induction n with
  | zero => exact hstart
  | succ n ih =>
    rw [List.range_succ,List.foldl_append]
    have hprev := ih fun i t hi => hturn i t (by omega)
    exact hturn n _ (Nat.lt_succ_self n) hprev

section Contents

variable {count size slot : ℕ} {tag tag' : ℕ → Option ℕ} {data data' page : ℕ → ℕ → β}

/-- Contents that are replaced under the tags that stay: the slot must hold the page
that it is tagged with. -/
theorem Holds.replaced_iff (h : Holds count size tag data page)
    (hothers : ∀ other,other<count → other≠slot → ∀ i,i<size → data' other i=data other i) :
    Holds count size tag data' page ↔
      ∀ p,slot<count → tag slot=some p → ∀ i,i<size → data' slot i=page p i := by
  constructor
  · intro hall p hslot htag
    exact hall slot p hslot htag
  · intro hspoiled other p hother htag i hi
    by_cases heq : other=slot
    · rw [heq] at htag hother ⊢
      exact hspoiled p hother htag i hi
    · rw [hothers other hother heq i hi]
      exact h other p hother htag i hi

/-- A slot that is filled and tagged. -/
theorem Holds.filled_iff {p : ℕ} (h : Holds count size tag data page) (hslot : slot<count)
    (htag : tag' slot=some p) (htags : ∀ other,other≠slot → tag' other=tag other)
    (hothers : ∀ other,other<count → other≠slot → ∀ i,i<size → data' other i=data other i) :
    Holds count size tag' data' page ↔ ∀ i,i<size → data' slot i=page p i := by
  constructor
  · intro hall
    exact hall slot p hslot htag
  · intro hfilled other q hother hq i hi
    by_cases heq : other=slot
    · rw [heq] at hq ⊢
      rw [htag] at hq
      cases hq
      exact hfilled i hi
    · rw [hothers other hother heq i hi]
      rw [htags other heq] at hq
      exact h other q hother hq i hi

end Contents

end ChisLink.SlotCache
