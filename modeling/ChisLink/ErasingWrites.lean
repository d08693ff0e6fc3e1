import ChisLink.ErasableMemory
import Mathlib.Logic.Function.Basic

/-!
# Writes that erase what they come to

Every block of an erasable memory has a mark. A write that comes to a cell of a block
without a mark erases the block and marks it, and then programs the cell over what it
holds. So a cell can take its value if its block has no mark, or if the value can be
programmed over the old one.
-/

namespace ChisLink.ErasingWrites

open ErasableMemory

variable {V : Type}

/-- A memory, the marks of its blocks and the operations on it. -/
structure Marked (V : Type) where
  /-- Whether the block of an index has a mark. -/
  marks : ℕ → Bool
  /-- The contents. -/
  cells : ℕ → V
  /-- The operations. -/
  ops : List (MemoryOp V)

variable (blocks : Blocks) (kind : CellKind V)

/-- Erase the block of an index and mark it, unless it is marked. -/
def reach (m : Marked V) (i : ℕ) : Marked V :=
  if m.marks i=true then m
  else
    { marks := fun j => if blocks.start j=blocks.start i then true else m.marks j
      cells := (MemoryOp.erase (blocks.start i)).apply blocks kind m.cells
      ops := m.ops++[.erase (blocks.start i)] }

variable (idle : V → V → Bool)

/-- Program a cell. Nothing is done if the old and the new value are idle. -/
def place (m : Marked V) (i : ℕ) (v : V) : Marked V :=
  { m with
    cells := Function.update m.cells i (kind.combine (m.cells i) v)
    ops := m.ops++if idle (m.cells i) v=true then [] else [.program i v] }

/-- Write a cell. -/
def put (m : Marked V) (i : ℕ) (v : V) : Marked V := place kind idle (reach blocks kind m i) i v

/-- Write successive cells. -/
def putAll (m : Marked V) (offset : ℕ) : List V → Marked V
  | [] => m
  | v::src => putAll (put blocks kind idle m offset v) (offset+1) src

/-- What a cell holds when it is programmed. -/
def ready (m : Marked V) (i : ℕ) : V := if m.marks i=true then m.cells i else kind.blank

/-- Every cell takes its value. -/
def Accepts (m : Marked V) : ℕ → List V → Prop
  | _,[] => True
  | offset,v::src => kind.combine (ready kind m offset) v=v ∧ Accepts m (offset+1) src

/-- Blocks are marked as a whole. -/
def Whole (m : Marked V) : Prop := ∀ i j,blocks.start i=blocks.start j → m.marks i=m.marks j

variable {blocks kind idle} {m : Marked V} {i j offset : ℕ} {v : V} {src : List V}

section Steps

@[simp] theorem reach_marks (m : Marked V) (i j : ℕ) (hm : Whole blocks m) :
    (reach blocks kind m i).marks j=(m.marks j || blocks.start j=blocks.start i) := by
  unfold reach
  split
  next hmark =>
    by_cases h : blocks.start j=blocks.start i
    · rw [hm j i h,hmark]
      rfl
    · simp only [h,decide_false,Bool.or_false]
  · by_cases h : blocks.start j=blocks.start i
    · simp only [h,if_true,decide_true,Bool.or_true]
    · simp only [h,if_false,decide_false,Bool.or_false]

theorem reach_self (hm : Whole blocks m) : (reach blocks kind m i).marks i=true := by
  rw [reach_marks m i i hm]
  simp only [decide_true,Bool.or_true]

/-- What is reached is reached once. -/
theorem reach_reach (hm : Whole blocks m) :
    reach blocks kind (reach blocks kind m i) i=reach blocks kind m i := by
  have hself := @reach_self V blocks kind m i hm
  rw [reach,if_pos hself]

theorem whole_reach (hm : Whole blocks m) : Whole blocks (reach blocks kind m i) := by
  intro j k hjk
  rw [reach_marks m i j hm,reach_marks m i k hm,hm j k hjk,hjk]

theorem whole_put (hm : Whole blocks m) : Whole blocks (put blocks kind idle m i v) :=
  whole_reach hm

/-- The cells of a block that is reached. -/
theorem reach_cells (m : Marked V) (i j : ℕ) :
    (reach blocks kind m i).cells j=
      if m.marks i=false ∧ blocks.start j=blocks.start i then kind.blank else m.cells j := by
  unfold reach
  split
  next hmark => rw [if_neg fun h => Bool.false_ne_true (h.1.symm.trans hmark)]
  next hmark =>
    have hclear : m.marks i=false := Bool.eq_false_iff.mpr hmark
    simp only [hclear,true_and]
    rfl

/-- Reaching a block changes nothing of what a cell holds when it is programmed. -/
theorem ready_reach (hm : Whole blocks m) :
    ready kind (reach blocks kind m i) j=ready kind m j := by
  unfold ready
  rw [reach_marks m i j hm,reach_cells]
  by_cases hblock : blocks.start j=blocks.start i
  · have hsame := hm j i hblock
    cases hmark : m.marks i with
    | true => simp [hsame,hmark]
    | false => simp [hblock,hsame,hmark]
  · simp [hblock]

/-- Neither does a write of another cell. -/
theorem ready_put (hm : Whole blocks m) (hne : j≠i) :
    ready kind (put blocks kind idle m i v) j=ready kind m j := by
  rw [← @ready_reach V blocks kind m i j hm]
  unfold ready put place
  dsimp only
  rw [Function.update_of_ne hne]

theorem put_marks (hm : Whole blocks m) :
    (put blocks kind idle m i v).marks j=(m.marks j || blocks.start j=blocks.start i) :=
  reach_marks m i j hm

/-- The cell that is written. -/
theorem put_cells_self (hm : Whole blocks m) :
    (put blocks kind idle m i v).cells i=kind.combine (ready kind m i) v := by
  rw [← @ready_reach V blocks kind m i i hm]
  unfold ready put place
  rw [reach_self hm,if_pos rfl]
  exact Function.update_self _ _ _

/-- Every other cell. -/
theorem put_cells_of_ne (hne : j≠i) :
    (put blocks kind idle m i v).cells j=
      if m.marks i=false ∧ blocks.start j=blocks.start i then kind.blank else m.cells j := by
  rw [← reach_cells]
  exact Function.update_of_ne hne _ _

end Steps

section Runs

theorem putAll_append (m : Marked V) (offset : ℕ) (first second : List V) :
    putAll blocks kind idle m offset (first++second)=
      putAll blocks kind idle (putAll blocks kind idle m offset first) (offset+first.length)
        second := by
  induction first generalizing m offset with
  | nil => rfl
  | cons v first ih =>
    have harith : offset+(v::first).length=offset+1+first.length := by
      rw [List.length_cons]
      omega
    rw [List.cons_append,putAll,ih,harith]
    rfl

theorem whole_putAll (hm : Whole blocks m) (offset : ℕ) (src : List V) :
    Whole blocks (putAll blocks kind idle m offset src) := by
  induction src generalizing m offset with
  | nil => exact hm
  | cons v src ih => exact ih (whole_put hm) (offset+1)

/-- The blocks that were written are marked, and those that were before. -/
theorem putAll_marks (hm : Whole blocks m) :
    (putAll blocks kind idle m offset src).marks j=true ↔
      m.marks j=true ∨ ∃ k<src.length,blocks.start j=blocks.start (offset+k) := by
  induction src generalizing m offset with
  | nil => exact ⟨Or.inl,fun h => h.elim id fun ⟨k,hk,_⟩ => absurd hk (Nat.not_lt_zero k)⟩
  | cons v src ih =>
    rw [putAll,ih (whole_put hm),put_marks hm,Bool.or_eq_true,decide_eq_true_iff]
    constructor
    · rintro ((hmark | hfirst) | ⟨k,hk,hblock⟩)
      · exact Or.inl hmark
      · exact Or.inr ⟨0,Nat.zero_lt_succ _,hfirst⟩
      · refine Or.inr ⟨k+1,Nat.succ_lt_succ hk,?_⟩
        rw [hblock]
        congr 1
        omega
    · rintro (hmark | ⟨k,hk,hblock⟩)
      · exact Or.inl (Or.inl hmark)
      · cases k with
        | zero => exact Or.inl (Or.inr hblock)
        | succ k =>
          refine Or.inr ⟨k,Nat.lt_of_succ_lt_succ hk,?_⟩
          rw [hblock]
          congr 1
          omega

/-- Outside of what is written, the cells of the blocks that were marked only now are
blank, and all other cells are as before. -/
theorem putAll_outside (hm : Whole blocks m) (hout : j<offset ∨ offset+src.length≤j) :
    (m.marks j=false → (∃ k<src.length,blocks.start j=blocks.start (offset+k)) →
      (putAll blocks kind idle m offset src).cells j=kind.blank) ∧
    (m.marks j=true ∨ (¬∃ k<src.length,blocks.start j=blocks.start (offset+k)) →
      (putAll blocks kind idle m offset src).cells j=m.cells j) := by
  induction src generalizing m offset with
  | nil => exact ⟨fun _ ⟨k,hk,_⟩ => absurd hk (Nat.not_lt_zero k),fun _ => rfl⟩
  | cons v src ih =>
    rw [List.length_cons] at hout
    have hne : j≠offset := by omega
    obtain ⟨hblank,hkept⟩ :=
      @ih _ (offset+1) (@whole_put V blocks kind idle m offset v hm) (by omega)
    have hcell := @put_cells_of_ne V blocks kind idle m offset j v hne
    rw [put_marks hm] at hblank hkept
    have hshift : (∃ k<(v::src).length,blocks.start j=blocks.start (offset+k)) ↔
        blocks.start j=blocks.start offset ∨
          ∃ k<src.length,blocks.start j=blocks.start (offset+1+k) := by
      constructor
      · rintro ⟨k,hk,hblock⟩
        cases k with
        | zero => exact Or.inl hblock
        | succ k =>
          refine Or.inr ⟨k,Nat.lt_of_succ_lt_succ hk,?_⟩
          rw [hblock]
          congr 1
          omega
      · rintro (hblock | ⟨k,hk,hblock⟩)
        · exact ⟨0,Nat.zero_lt_succ _,hblock⟩
        · refine ⟨k+1,Nat.succ_lt_succ hk,?_⟩
          rw [hblock]
          congr 1
          omega
    rw [hshift,putAll]
    by_cases hfirst : blocks.start j=blocks.start offset
    · have hsame := hm j offset hfirst
      have hrest := hkept (Or.inl (by simp only [hfirst,decide_true,Bool.or_true]))
      rw [hrest,hcell]
      refine ⟨fun hclear _ => if_pos ⟨hsame ▸ hclear,hfirst⟩,fun h => if_neg fun hno => ?_⟩
      rcases h with hmark | hfar
      · exact Bool.false_ne_true (hno.1.symm.trans (hsame ▸ hmark))
      · exact hfar (Or.inl hfirst)
    · rw [if_neg fun h => hfirst h.2] at hcell
      rw [← hcell]
      simp only [hfirst,decide_false,Bool.or_false,false_or] at hblank hkept ⊢
      exact ⟨hblank,hkept⟩

/-- Inside, every cell has its value programmed over what it held. -/
theorem putAll_inside (hm : Whole blocks m) (k : ℕ) (hk : k<src.length) :
    (putAll blocks kind idle m offset src).cells (offset+k)=
      kind.combine (ready kind m (offset+k)) (src.get ⟨k,hk⟩) := by
  induction src generalizing m offset k with
  | nil => exact absurd hk (Nat.not_lt_zero k)
  | cons v src ih =>
    have hwhole := @whole_put V blocks kind idle m offset v hm
    cases k with
    | zero =>
      have hmark : (put blocks kind idle m offset v).marks offset=true := by
        rw [put_marks hm]
        simp only [decide_true,Bool.or_true]
      have hlater := (@putAll_outside V blocks kind idle _ offset (offset+1) src hwhole
        (Or.inl (Nat.lt_succ_self offset))).2 (Or.inl hmark)
      exact hlater.trans (put_cells_self hm)
    | succ k =>
      have harith : offset+(k+1)=offset+1+k := by omega
      have hlt : k<src.length := Nat.lt_of_succ_lt_succ hk
      rw [putAll,harith,ih hwhole k hlt,ready_put hm (by omega)]
      rfl

/-- When every cell takes its value, said cell by cell. -/
theorem accepts_iff :
    Accepts kind m offset src ↔ ∀ (k : ℕ) (hk : k<src.length),
      kind.combine (ready kind m (offset+k)) (src.get ⟨k,hk⟩)=src.get ⟨k,hk⟩ := by
  induction src generalizing offset with
  | nil => exact ⟨fun _ k hk => absurd hk (Nat.not_lt_zero k),fun _ => trivial⟩
  | cons v src ih =>
    rw [Accepts,ih]
    constructor
    · rintro ⟨hfirst,hrest⟩ k hk
      cases k with
      | zero => exact hfirst
      | succ k =>
        have harith : offset+(k+1)=offset+1+k := by omega
        rw [harith]
        exact hrest k (Nat.lt_of_succ_lt_succ hk)
    · intro h
      refine ⟨h 0 (Nat.zero_lt_succ _),fun k hk => ?_⟩
      have hnext := h (k+1) (Nat.succ_lt_succ hk)
      have harith : offset+(k+1)=offset+1+k := by omega
      rw [harith] at hnext
      exact hnext

/-- Only what the cells hold when they are programmed matters. -/
theorem accepts_congr {m' : Marked V}
    (h : ∀ k<src.length,ready kind m' (offset+k)=ready kind m (offset+k)) :
    Accepts kind m' offset src ↔ Accepts kind m offset src := by
  rw [accepts_iff,accepts_iff]
  refine forall_congr' fun k => forall_congr' fun hk => ?_
  rw [h k hk]

theorem ready_putAll (hm : Whole blocks m) (hout : j<offset ∨ offset+src.length≤j) :
    ready kind (putAll blocks kind idle m offset src) j=ready kind m j := by
  induction src generalizing m offset with
  | nil => rfl
  | cons v src ih =>
    rw [List.length_cons] at hout
    rw [putAll,ih (whole_put hm) (by omega),ready_put hm (by omega)]

/-- A write in two parts is taken if both parts are. -/
theorem accepts_append (idle : V → V → Bool) (hm : Whole blocks m) (first second : List V) :
    Accepts kind m offset (first++second) ↔ Accepts kind m offset first ∧
      Accepts kind (putAll blocks kind idle m offset first) (offset+first.length) second := by
  rw [accepts_congr fun k _ => @ready_putAll V blocks kind idle _ _ _ _ hm
    (Or.inr (Nat.le_add_right _ _))]
  induction first generalizing offset with
  | nil => exact ⟨fun h => ⟨trivial,h⟩,fun h => h.2⟩
  | cons v first ih =>
    have harith : offset+(v::first).length=offset+1+first.length := by
      rw [List.length_cons]
      omega
    rw [List.cons_append,Accepts,Accepts,ih,harith,and_assoc]

/-- A write may begin with reaching its first block. -/
theorem putAll_reach (hm : Whole blocks m) (hsrc : src≠[]) :
    putAll blocks kind idle (reach blocks kind m offset) offset src=
      putAll blocks kind idle m offset src := by
  cases src with
  | nil => exact absurd rfl hsrc
  | cons v src =>
    rw [putAll,putAll]
    unfold put
    rw [reach_reach hm]

theorem accepts_reach (hm : Whole blocks m) :
    Accepts kind (reach blocks kind m i) offset src ↔ Accepts kind m offset src :=
  accepts_congr fun _ _ => ready_reach hm

/-- Values that were taken are there. -/
theorem putAll_taken (hm : Whole blocks m) (h : Accepts kind m offset src) (k : ℕ)
    (hk : k<src.length) :
    (putAll blocks kind idle m offset src).cells (offset+k)=src.get ⟨k,hk⟩ :=
  (putAll_inside hm k hk).trans (accepts_iff.mp h k hk)

/-- A write has ended at a cell that does not take its value, which was programmed all the
same. -/
def EndedAt (blocks : Blocks) (kind : CellKind V) (idle : V → V → Bool) (m : Marked V)
    (offset : ℕ) (src : List V) (now : Marked V) : Prop :=
  ∃ k<src.length,¬Accepts kind m offset (src.take (k+1)) ∧
    now=putAll blocks kind idle m offset (src.take (k+1))

/-- At the first cell. -/
theorem endedAt_head (h : kind.combine (ready kind m offset) v≠v) :
    EndedAt blocks kind idle m offset (v::src) (put blocks kind idle m offset v) :=
  ⟨0,Nat.zero_lt_succ _,fun hall => h hall.1,rfl⟩

/-- Then not every cell takes its value. -/
theorem EndedAt.not_accepts {now : Marked V} (hm : Whole blocks m)
    (h : EndedAt blocks kind idle m offset src now) : ¬Accepts kind m offset src := by
  obtain ⟨k,-,hno,-⟩ := h
  intro hall
  rw [← List.take_append_drop (k+1) src,accepts_append idle hm] at hall
  exact hno hall.1

/-- A write whose block was reached before. -/
theorem EndedAt.of_reach {now : Marked V} (hm : Whole blocks m)
    (h : EndedAt blocks kind idle (reach blocks kind m offset) offset src now) :
    EndedAt blocks kind idle m offset src now := by
  obtain ⟨k,hk,hno,hnow⟩ := h
  have hsome : src.take (k+1)≠[] := by
    rw [← List.length_pos_iff,List.length_take]
    omega
  rw [putAll_reach hm hsome] at hnow
  rw [accepts_reach hm] at hno
  exact ⟨k,hk,hno,hnow⟩

/-- A write behind another one and before a third. -/
theorem EndedAt.behind {now : Marked V} {done : List V} (hm : Whole blocks m) (rest : List V)
    (h : EndedAt blocks kind idle (putAll blocks kind idle m offset done) (offset+done.length)
      src now) :
    EndedAt blocks kind idle m offset (done++src++rest) now := by
  obtain ⟨k,hk,hno,rfl⟩ := h
  have htake : (done++src++rest).take (done.length+k+1)=done++src.take (k+1) := by
    rw [List.append_assoc,Nat.add_assoc,List.take_length_add_append,
      List.take_append_of_le_length hk]
  refine ⟨done.length+k,?_,?_,?_⟩
  · rw [List.length_append,List.length_append]
    omega
  · rw [htake,accepts_append idle hm]
    exact fun hall => hno hall.2
  · rw [htake,putAll_append]

/-- Blocks that have no marks take everything. -/
theorem accepts_of_clear (h : ∀ k<src.length,m.marks (offset+k)=false) :
    Accepts kind m offset src := by
  rw [accepts_iff]
  intro k hk
  unfold ready
  rw [h k hk,if_neg Bool.false_ne_true]
  exact kind.combine_blank _

end Runs

section Operations

/-- The operations for one cell. -/
def putOps (blocks : Blocks) (kind : CellKind V) (idle : V → V → Bool) (m : Marked V) (i : ℕ)
    (v : V) : List (MemoryOp V) :=
  (if m.marks i=true then [] else [.erase (blocks.start i)])++
    if idle (ready kind m i) v=true then [] else [.program i v]

theorem put_ops (hm : Whole blocks m) :
    (put blocks kind idle m i v).ops=m.ops++putOps blocks kind idle m i v := by
  have hcell : (reach blocks kind m i).cells i=ready kind m i := by
    rw [← @ready_reach V blocks kind m i i hm]
    unfold ready
    rw [reach_self hm,if_pos rfl]
  unfold put place putOps
  dsimp only
  rw [hcell,← List.append_assoc]
  congr 1
  unfold reach
  split
  · exact (List.append_nil _).symm
  · rfl

/-- Those on one block. -/
theorem filter_putOps (hm : Whole blocks m) {b : ℕ} (hb : blocks.start b=b) :
    (putOps blocks kind idle m i v).filter (MemoryOp.touches blocks b)=
      if blocks.start i=b then
        (if m.marks b=true then [] else [.erase b])++
          if idle (ready kind m i) v=true then [] else [.program i v]
      else [] := by
  unfold putOps
  by_cases hblock : blocks.start i=b
  · have hsame := hm i b (hblock.trans hb.symm)
    rw [if_pos hblock,List.filter_append,hblock,hsame]
    congr 1
    · split <;> simp [MemoryOp.touches]
    · split <;> simp [MemoryOp.touches,hblock]
  · rw [if_neg hblock,List.filter_append]
    have herase : (if m.marks i=true then [] else [MemoryOp.erase (V := V) (blocks.start i)]).filter
        (MemoryOp.touches blocks b)=[] := by
      split <;> simp [MemoryOp.touches,hblock]
    have hprogram : (if idle (ready kind m i) v=true then [] else [MemoryOp.program i v]).filter
        (MemoryOp.touches blocks b)=[] := by
      split <;> simp [MemoryOp.touches,hblock]
    rw [herase,hprogram]
    rfl

/-- What a write does to a block: if it comes to the block and that has no mark, an erase,
and then programs, unless there is nothing to program. -/
structure Worked (blocks : Blocks) (kind : CellKind V) (idle : V → V → Bool) (m : Marked V)
    (offset : ℕ) (src : List V) (b : ℕ) (done programs : List (MemoryOp V)) : Prop where
  /-- The erase, if there is one. -/
  erased : m.marks b=false → (∃ k<src.length,blocks.start (offset+k)=b) →
    done=.erase b::programs
  /-- There is none otherwise. -/
  kept : m.marks b=true ∨ (¬∃ k<src.length,blocks.start (offset+k)=b) → done=programs
  /-- The other operations program. -/
  onlyPrograms : ∀ op∈programs,op.programs=true
  /-- When there are none. -/
  none : programs=[] ↔ ∀ (k : ℕ) (hk : k<src.length),blocks.start (offset+k)=b →
    idle (ready kind m (offset+k)) (src.get ⟨k,hk⟩)=true

/-- What a write does to each block. -/
theorem putAll_ops (hm : Whole blocks m) :
    ∃ done,(putAll blocks kind idle m offset src).ops=m.ops++done ∧
      ∀ b,blocks.start b=b → ∃ programs,
        Worked blocks kind idle m offset src b (done.filter (MemoryOp.touches blocks b))
          programs := by
  induction src generalizing m offset with
  | nil =>
    refine ⟨[],(List.append_nil _).symm,fun b _ => ⟨[],?_,fun _ => rfl,?_,?_⟩⟩
    · exact fun _ ⟨k,hk,_⟩ => absurd hk (Nat.not_lt_zero k)
    · exact fun op hop => absurd hop List.not_mem_nil
    · exact ⟨fun _ k hk => absurd hk (Nat.not_lt_zero k),fun _ => rfl⟩
  | cons v src ih =>
    obtain ⟨done,hdone,hblocks⟩ :=
      @ih _ (offset+1) (@whole_put V blocks kind idle m offset v hm)
    refine ⟨putOps blocks kind idle m offset v++done,?_,fun b hb => ?_⟩
    · rw [putAll,hdone,put_ops hm,List.append_assoc]
    · obtain ⟨programs,herased,hkept,hprograms,hnone⟩ := hblocks b hb
      have hready : ∀ k,ready kind (put blocks kind idle m offset v) (offset+1+k)=
          ready kind m (offset+1+k) := fun k => ready_put hm (by omega)
      have hreach : (∃ k<(v::src).length,blocks.start (offset+k)=b) ↔
          blocks.start offset=b ∨ ∃ k<src.length,blocks.start (offset+1+k)=b := by
        constructor
        · rintro ⟨k,hk,hblock⟩
          cases k with
          | zero => exact Or.inl hblock
          | succ k =>
            refine Or.inr ⟨k,Nat.lt_of_succ_lt_succ hk,?_⟩
            rw [← hblock]
            congr 1
            omega
        · rintro (hblock | ⟨k,hk,hblock⟩)
          · exact ⟨0,Nat.zero_lt_succ _,hblock⟩
          · refine ⟨k+1,Nat.succ_lt_succ hk,?_⟩
            rw [← hblock]
            congr 1
            omega
      have hidle : (∀ (k : ℕ) (hk : k<(v::src).length),blocks.start (offset+k)=b →
          idle (ready kind m (offset+k)) ((v::src).get ⟨k,hk⟩)=true) ↔
          (blocks.start offset=b → idle (ready kind m offset) v=true) ∧ programs=[] := by
        rw [hnone]
        constructor
        · intro h
          refine ⟨h 0 (Nat.zero_lt_succ _),fun k hk hblock => ?_⟩
          have harith : offset+1+k=offset+(k+1) := by omega
          rw [hready,harith]
          exact h (k+1) (Nat.succ_lt_succ hk) (by rw [← harith]; exact hblock)
        · rintro ⟨hfirst,hrest⟩ k hk hblock
          cases k with
          | zero => exact hfirst hblock
          | succ k =>
            have harith : offset+1+k=offset+(k+1) := by omega
            have hnext := hrest k (Nat.lt_of_succ_lt_succ hk) (by rw [harith]; exact hblock)
            rw [hready,harith] at hnext
            exact hnext
      rw [List.filter_append,filter_putOps hm hb]
      by_cases hblock : blocks.start offset=b
      · have hmark : (put blocks kind idle m offset v).marks b=true := by
          rw [put_marks hm,hb,hblock,decide_eq_true rfl,Bool.or_true]
        rw [if_pos hblock,hkept (Or.inl hmark)]
        refine ⟨(if idle (ready kind m offset) v=true then [] else [.program offset v])++
          programs,fun hclear _ => ?_,fun h => ?_,?_,?_⟩
        · rw [hclear,if_neg Bool.false_ne_true]
          rfl
        · rcases h with hmarked | hfar
          · rw [hmarked,if_pos rfl]
            rfl
          · exact absurd (hreach.mpr (Or.inl hblock)) hfar
        · intro op hop
          rcases List.mem_append.mp hop with hnew | hold
          · split at hnew
            · exact absurd hnew List.not_mem_nil
            · rw [List.mem_singleton.mp hnew]
              rfl
          · exact hprograms op hold
        · rw [hidle,List.append_eq_nil_iff]
          refine and_congr_left fun _ => ?_
          constructor
          · intro h _
            by_contra hbusy
            rw [if_neg hbusy] at h
            exact List.cons_ne_nil _ _ h
          · exact fun h => if_pos (h hblock)
      · have hmark : (put blocks kind idle m offset v).marks b=m.marks b := by
          rw [put_marks hm,hb,decide_eq_false (fun h => hblock h.symm),Bool.or_false]
        rw [if_neg hblock,List.nil_append]
        rw [hmark] at herased hkept
        refine ⟨programs,fun hclear hr => herased hclear ((hreach.mp hr).resolve_left hblock),
          fun h => hkept (h.imp id fun hfar hr => hfar (hreach.mpr (Or.inr hr))),hprograms,?_⟩
        rw [hidle]
        exact ⟨fun h => ⟨fun hfirst => absurd hfirst hblock,h⟩,fun h => h.2⟩

end Operations

end ChisLink.ErasingWrites
