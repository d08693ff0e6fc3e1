import Mathlib.Data.List.Range
import Mathlib.Tactic.Cases

/-!
# Erasable memory

A memory of cells that are set to a blank value in whole blocks and otherwise
only changed by combining them with a programmed value. Blocks are intervals of
cell indices, given by the first index of the block of each index. A sequence of
operations is replayed on the contents. The sequence that writes an image in
order erases each block when it reaches its first cell; this gives the image, a
blank rest of the last block, and one erase at the front of each block's
operations.
-/

namespace ChisLink.ErasableMemory

variable {V : Type}

/-- A division of the indices into blocks, by the first index of each block. -/
structure Blocks where
  /-- First index of the block of an index. -/
  start : ℕ → ℕ
  /-- It is not after the index. -/
  start_le : ∀ i,start i≤ i
  /-- Everything from there to the index is in the same block. -/
  start_eq : ∀ i j,start i≤j → j≤ i → start j=start i

/-- One operation on the memory. -/
inductive MemoryOp (V : Type) where
  /-- Erase the block that begins at an index. -/
  | erase (block : ℕ)
  /-- Program one cell. -/
  | program (index : ℕ) (value : V)
deriving DecidableEq

/-- What programming does to a cell, and what an erased cell holds. -/
structure CellKind (V : Type) where
  /-- The cell after programming a value over an old one. -/
  combine : V → V → V
  /-- The erased cell. -/
  blank : V
  /-- An erased cell takes the programmed value. -/
  combine_blank : ∀ v,combine blank v=v

variable (blocks : Blocks) (kind : CellKind V)

/-- The contents after one operation. -/
def MemoryOp.apply : MemoryOp V → (ℕ → V) → ℕ → V
  | .erase block, cells => fun i => if blocks.start i=block then kind.blank else cells i
  | .program index value, cells => fun i =>
    if i=index then kind.combine (cells i) value else cells i

/-- The contents after a sequence of operations. -/
def replay (ops : List (MemoryOp V)) (cells : ℕ → V) : ℕ → V :=
  ops.foldl (fun cells op => op.apply blocks kind cells) cells

/-- Whether an operation is on the block that begins at an index. -/
def MemoryOp.touches (block : ℕ) : MemoryOp V → Bool
  | .erase erased => erased=block
  | .program index _ => blocks.start index=block

/-- Whether an operation programs a cell. -/
def MemoryOp.programs : MemoryOp V → Bool
  | .erase _ => false
  | .program _ _ => true

/-- The block is erased exactly once, and that before any cell of it is programmed. -/
def ErasedOnceFirst (ops : List (MemoryOp V)) (block : ℕ) : Prop :=
  ∃ programs,ops.filter (MemoryOp.touches blocks block)=.erase block::programs ∧
    ∀ op∈programs,op.programs=true

/-- The block is neither erased nor programmed. -/
def Untouched (ops : List (MemoryOp V)) (block : ℕ) : Prop :=
  ops.filter (MemoryOp.touches blocks block)=[]

theorem Blocks.start_start (i : ℕ) : blocks.start (blocks.start i)=blocks.start i :=
  blocks.start_eq i (blocks.start i) (le_refl _) (blocks.start_le i)

/-- A block that begins after an index lies after it. -/
theorem Blocks.start_ne {i j : ℕ} (hij : i<j) : blocks.start i≠j := by
  have hle := blocks.start_le i
  omega

@[simp] theorem replay_nil (cells : ℕ → V) : replay blocks kind [] cells=cells := rfl

theorem replay_append (first second : List (MemoryOp V)) (cells : ℕ → V) :
    replay blocks kind (first++second) cells=
      replay blocks kind second (replay blocks kind first cells) :=
  List.foldl_append

/-- The erase of the block that begins at an index, if one does. -/
def eraseAt (i : ℕ) : List (MemoryOp V) := if blocks.start i=i then [.erase i] else []

/-- The operations for one cell of an image: erase when a block begins, then program. -/
def cellOps (image : ℕ → V) (i : ℕ) : List (MemoryOp V) :=
  eraseAt blocks i++[.program i (image i)]

/-- The operations that write the first cells of an image in order. -/
def imageOps (image : ℕ → V) : ℕ → List (MemoryOp V)
  | 0 => []
  | n+1 => imageOps image n++cellOps blocks image n

/-- There are at least as many operations as cells. -/
theorem le_length_imageOps (image : ℕ → V) (n : ℕ) :
    n≤(imageOps blocks image n).length := by
  induction n with
  | zero => exact Nat.zero_le _
  | succ n ih =>
    rw [imageOps,List.length_append]
    unfold cellOps
    rw [List.length_append,List.length_singleton]
    omega

/-- Programming successive cells of an image. -/
def programRun (image : ℕ → V) (i : ℕ) : ℕ → List (MemoryOp V)
  | 0 => []
  | n+1 => .program i (image i)::programRun image (i+1) n

theorem programRun_succ (image : ℕ → V) (i n : ℕ) :
    programRun image i (n+1)=programRun image i n++[.program (i+n) (image (i+n))] := by
  induction n generalizing i with
  | zero => rfl
  | succ n ih =>
    have hrest := ih (i+1)
    have harith : i+1+n=i+(n+1) := by omega
    rw [harith] at hrest
    rw [programRun,hrest]
    rfl

/-- Only the cells that are written matter. -/
theorem imageOps_congr {image image' : ℕ → V} {n : ℕ} (h : ∀ i,i<n → image i=image' i) :
    imageOps blocks image n=imageOps blocks image' n := by
  induction n with
  | zero => rfl
  | succ n ih =>
    rw [imageOps,imageOps,ih fun i hi => h i (by omega)]
    unfold cellOps eraseAt
    rw [h n (by omega)]

/-- Writing some more cells: a block is erased only if it begins at the first of them,
as long as none begins inside. -/
theorem imageOps_add (image : ℕ → V) (k n : ℕ)
    (hinside : ∀ i,k< i → i<k+(n+1) → blocks.start i≠i) :
    imageOps blocks image (k+(n+1))=imageOps blocks image k++
      (eraseAt blocks k++programRun image k (n+1)) := by
  induction n with
  | zero => rfl
  | succ n ih =>
    have hlast : blocks.start (k+(n+1))≠k+(n+1) := hinside _ (by omega) (by omega)
    have hstep : imageOps blocks image (k+(n+1+1))=
        imageOps blocks image (k+(n+1))++cellOps blocks image (k+(n+1)) := rfl
    rw [hstep,ih fun i hi hlt => hinside i hi (by omega),programRun_succ image k (n+1)]
    unfold cellOps eraseAt
    rw [if_neg hlast]
    simp only [List.append_assoc,List.nil_append]

/-- Writing one cell when some blocks need no erase and some cells no programming. -/
def writeCell (fresh skip : ℕ → Bool) (image : ℕ → V) (i : ℕ) : List (MemoryOp V) :=
  (if blocks.start i=i ∧ fresh i=true then [.erase i] else [])++
    (if skip i then [] else [.program i (image i)])

/-- Writing the first cells in that way. -/
def writeOps (fresh skip : ℕ → Bool) (image : ℕ → V) : ℕ → List (MemoryOp V)
  | 0 => []
  | n+1 => writeOps fresh skip image n++writeCell blocks fresh skip image n

/-- An image is written with an erase of every block and a program of every cell. -/
theorem imageOps_eq_writeOps (image : ℕ → V) (n : ℕ) :
    imageOps blocks image n=writeOps blocks (fun _ => true) (fun _ => false) image n := by
  induction n with
  | zero => rfl
  | succ n ih =>
    rw [imageOps,writeOps,ih]
    unfold cellOps eraseAt writeCell
    simp only [and_true,Bool.false_eq_true,if_false]

/-- The operations on a block: its erase if it needs one and was reached, then programs,
one for each cell that was not left out. -/
theorem writeOps_touches (fresh skip : ℕ → Bool) (image : ℕ → V) {block : ℕ}
    (hblock : blocks.start block=block) (n : ℕ) :
    ∃ programs,(writeOps blocks fresh skip image n).filter (MemoryOp.touches blocks block)=
        (if fresh block=true ∧ block<n then [.erase block] else [])++programs ∧
      (∀ op∈programs,op.programs=true) ∧ (n≤block → programs=[]) ∧
      ∀ i,i<n → blocks.start i=block → skip i=false → .program i (image i)∈programs := by
  induction n with
  | zero =>
    refine ⟨[],?_,fun op hop => absurd hop (List.not_mem_nil),fun _ => rfl,
      fun i hi => absurd hi (Nat.not_lt_zero i)⟩
    rw [if_neg (fun h => absurd h.2 (Nat.not_lt_zero block))]
    rfl
  | succ n ih =>
    obtain ⟨programs,hfilter,hprograms,hnone,hall⟩ := ih
    have hprogram : (if skip n then [] else [MemoryOp.program n (image n)]).filter
        (MemoryOp.touches blocks block)=
        if blocks.start n=block ∧ skip n=false then [.program n (image n)] else [] := by
      cases hskip : skip n <;> by_cases h : blocks.start n=block <;>
        simp [MemoryOp.touches,h]
    have herase : (if blocks.start n=n ∧ fresh n=true then [MemoryOp.erase (V := V) n]
        else []).filter (MemoryOp.touches blocks block)=
        if n=block ∧ fresh block=true then [.erase block] else [] := by
      by_cases hn : n=block
      · subst hn
        cases hfresh : fresh n <;> simp [MemoryOp.touches,hblock]
      · have hno : ¬(n=block ∧ fresh block=true) := fun h => hn h.1
        rw [if_neg hno]
        split <;> simp [MemoryOp.touches,hn]
    refine ⟨programs++(if blocks.start n=block ∧ skip n=false then [.program n (image n)]
      else []),?_,?_,?_,?_⟩
    · rw [writeOps,List.filter_append,hfilter]
      unfold writeCell
      rw [List.filter_append,herase,hprogram]
      by_cases hn : n=block
      · subst hn
        rw [hnone (le_refl _),if_neg (fun h => absurd h.2 (Nat.lt_irrefl n))]
        cases hfresh : fresh n <;> simp
      · have hiff : (block<n ↔ block<n+1) := by omega
        have hno : ¬(n=block ∧ fresh block=true) := fun h => hn h.1
        rw [if_neg hno,List.nil_append,List.append_assoc]
        simp only [hiff]
    · intro op hop
      rcases List.mem_append.mp hop with hold | hnew
      · exact hprograms op hold
      · split at hnew
        · rw [List.mem_singleton.mp hnew]
          rfl
        · exact absurd hnew (List.not_mem_nil)
    · intro hle
      rw [hnone (by omega),if_neg (fun h => blocks.start_ne (by omega) h.1)]
      rfl
    · intro i hi hstart hskip
      rcases Nat.lt_or_ge i n with hin | hout
      · exact List.mem_append_left _ (hall i hin hstart hskip)
      · have heq : i=n := by omega
        subst heq
        rw [if_pos ⟨hstart,hskip⟩]
        exact List.mem_append_right _ (List.mem_singleton.mpr rfl)

/-- The operations on a block: none before it is reached; then its erase and programs. -/
theorem imageOps_touches (image : ℕ → V) {block : ℕ} (hblock : blocks.start block=block)
    (n : ℕ) :
    (n≤block → Untouched blocks (imageOps blocks image n) block) ∧
      (block<n → ErasedOnceFirst blocks (imageOps blocks image n) block) := by
  obtain ⟨programs,hfilter,hprograms,hnone,-⟩ :=
    writeOps_touches blocks (fun _ => true) (fun _ => false) image hblock n
  rw [← imageOps_eq_writeOps] at hfilter
  refine ⟨fun hle => ?_,fun hlt => ⟨programs,?_,hprograms⟩⟩
  · rw [hnone hle,if_neg (fun h => absurd h.2 (by omega))] at hfilter
    exact hfilter
  · rw [if_pos ⟨rfl,hlt⟩] at hfilter
    exact hfilter

/-- Without its first erase, an image is not programmed over erased cells. -/
theorem not_erasedOnceFirst_drop (image : ℕ → V) {n : ℕ} (hn : 0<n) :
    ¬ErasedOnceFirst blocks ((imageOps blocks image n).drop 1) 0 := by
  have hzero : blocks.start 0=0 := Nat.le_zero.mp (blocks.start_le 0)
  obtain ⟨programs,hfilter,hprograms⟩ := (imageOps_touches blocks image hzero n).2 hn
  obtain ⟨rest,hrest⟩ : ∃ rest,imageOps blocks image n=.erase 0::rest := by
    clear hfilter
    induction n with
    | zero => omega
    | succ n ih =>
      rcases Nat.eq_zero_or_pos n with rfl | hpos
      · refine ⟨[.program 0 (image 0)],?_⟩
        simp [imageOps,cellOps,eraseAt,hzero]
      · obtain ⟨rest,hrest⟩ := ih hpos
        exact ⟨rest++cellOps blocks image n,by rw [imageOps,hrest]; rfl⟩
  rintro ⟨others,hothers,-⟩
  rw [hrest] at hothers hfilter
  rw [List.drop_one,List.tail_cons] at hothers
  have htouch : (MemoryOp.erase (V := V) 0).touches blocks 0=true := rfl
  rw [List.filter_cons_of_pos htouch,hothers] at hfilter
  have hmem : MemoryOp.erase 0∈programs := by
    rw [← (List.cons.inj hfilter).2]
    exact List.mem_cons_self
  exact absurd (hprograms _ hmem) Bool.false_ne_true

/-- What a cell holds after the first cells were written. -/
def writtenCell (fresh skip : ℕ → Bool) (image cells : ℕ → V) (n i : ℕ) : V :=
  if i<n then
    if fresh (blocks.start i) then image i
    else if skip i then cells i else kind.combine (cells i) (image i)
  else if fresh (blocks.start i)=true ∧ blocks.start i<n then kind.blank
  else cells i

/-- Erasing a block under a condition. -/
theorem replay_eraseIf (c : Prop) [Decidable c] (block : ℕ) (cells : ℕ → V) (i : ℕ) :
    replay blocks kind (if c then [.erase block] else []) cells i=
      if c ∧ blocks.start i=block then kind.blank else cells i := by
  by_cases hc : c
  · simp only [hc,if_true,true_and]
    rfl
  · simp only [hc,if_false,false_and,replay_nil]

/-- Programming a cell unless it is left out. -/
theorem replay_programUnless (left : Bool) (index : ℕ) (value : V) (cells : ℕ → V) (i : ℕ) :
    replay blocks kind (if left then [] else [.program index value]) cells i=
      if i=index ∧ left=false then kind.combine (cells i) value else cells i := by
  cases left with
  | true => simp only [if_true,Bool.true_eq_false,and_false,if_false,replay_nil]
  | false =>
    simp only [Bool.false_eq_true,if_false,and_true]
    rfl

/-- Writing one more cell. -/
theorem replay_writeCell (fresh skip : ℕ → Bool) (image cells : ℕ → V) (n i : ℕ) :
    replay blocks kind (writeCell blocks fresh skip image n) cells i=
      if i=n ∧ skip n=false then
        kind.combine (if fresh (blocks.start i)=true ∧ blocks.start i=n then kind.blank
          else cells i) (image n)
      else if fresh (blocks.start i)=true ∧ blocks.start i=n then kind.blank
      else cells i := by
  have hself := blocks.start_start i
  have hiff : ((blocks.start n=n ∧ fresh n=true) ∧ blocks.start i=n) ↔
      (fresh (blocks.start i)=true ∧ blocks.start i=n) := by
    constructor
    · rintro ⟨⟨-,hfresh⟩,hi⟩
      rw [hi]
      exact ⟨hfresh,rfl⟩
    · rintro ⟨hfresh,hi⟩
      rw [hi] at hfresh hself
      exact ⟨⟨hself,hfresh⟩,hi⟩
  unfold writeCell
  rw [replay_append,replay_programUnless,replay_eraseIf]
  simp only [hiff]

/-- Writing gives these contents, if a cell is only left out where the erase has made it
what it should be. -/
theorem replay_writeOps (fresh skip : ℕ → Bool) (image cells : ℕ → V)
    (hskip : ∀ i,skip i=true → fresh (blocks.start i)=true → image i=kind.blank) (n i : ℕ) :
    replay blocks kind (writeOps blocks fresh skip image n) cells i=
      writtenCell blocks kind fresh skip image cells n i := by
  induction n with
  | zero =>
    unfold writtenCell
    rw [if_neg (Nat.not_lt_zero i),if_neg (fun h => absurd h.2 (Nat.not_lt_zero _))]
    rfl
  | succ n ih =>
    have hle := blocks.start_le i
    rw [writeOps,replay_append,replay_writeCell,ih]
    unfold writtenCell
    rcases Nat.lt_trichotomy i n with hlt | heq | hgt
    · have hno : ¬(fresh (blocks.start i)=true ∧ blocks.start i=n) := fun h => by omega
      have hne : ¬(i=n ∧ skip n=false) := fun h => by omega
      rw [if_neg hne,if_neg hno,if_pos hlt,if_pos (Nat.lt_succ_of_lt hlt)]
    · -- the cell itself: blank if its block is erased, so that it takes the value
      subst heq
      rw [if_pos (Nat.lt_succ_self i),if_neg (Nat.lt_irrefl i)]
      cases hfresh : fresh (blocks.start i) with
      | true =>
        have hblank : (if true=true ∧ blocks.start i=i then kind.blank
            else if true=true ∧ blocks.start i< i then kind.blank else cells i)=kind.blank := by
          by_cases hstart : blocks.start i=i
          · rw [if_pos ⟨rfl,hstart⟩]
          · rw [if_neg (fun h => hstart h.2),if_pos ⟨rfl,by omega⟩]
        rw [hblank,if_pos rfl,kind.combine_blank]
        cases hs : skip i with
        | true => rw [if_neg (fun h => Bool.false_ne_true h.2.symm),hskip i hs hfresh]
        | false => rw [if_pos ⟨rfl,rfl⟩]
      | false => cases hs : skip i <;> simp
    · -- behind it: blank as soon as the erase of its block was reached
      have hne : ¬(i=n ∧ skip n=false) := fun h => by omega
      have hlt : ¬i<n := by omega
      have hlt' : ¬i<n+1 := by omega
      rw [if_neg hne,if_neg hlt,if_neg hlt']
      by_cases hstart : blocks.start i=n
      · have hno : ¬(fresh (blocks.start i)=true ∧ blocks.start i<n) := fun h => by omega
        have hyes : (fresh (blocks.start i)=true ∧ blocks.start i=n) ↔
            (fresh (blocks.start i)=true ∧ blocks.start i<n+1) :=
          and_congr_right fun _ => by omega
        rw [if_neg hno]
        simp only [hyes]
      · have hno : ¬(fresh (blocks.start i)=true ∧ blocks.start i=n) := fun h => hstart h.2
        have hsame : (fresh (blocks.start i)=true ∧ blocks.start i<n) ↔
            (fresh (blocks.start i)=true ∧ blocks.start i<n+1) :=
          and_congr_right fun _ => by omega
        rw [if_neg hno]
        simp only [hsame]

/-- The contents after the first cells of an image were written: the image, then a blank
rest of the last block, and everything else as before. -/
theorem replay_imageOps (image : ℕ → V) (cells : ℕ → V) (n : ℕ) :
    (∀ i,i<n → replay blocks kind (imageOps blocks image n) cells i=image i) ∧
      (∀ i,n≤ i → blocks.start i<n →
        replay blocks kind (imageOps blocks image n) cells i=kind.blank) ∧
      (∀ i,n≤blocks.start i →
        replay blocks kind (imageOps blocks image n) cells i=cells i) := by
  have hval := replay_writeOps blocks kind (fun _ => true) (fun _ => false) image cells
    (fun _ h => absurd h (by decide)) n
  rw [← imageOps_eq_writeOps] at hval
  unfold writtenCell at hval
  refine ⟨fun i hi => ?_,fun i hi hstart => ?_,fun i hi => ?_⟩ <;> rw [hval]
  · rw [if_pos hi,if_pos rfl]
  · rw [if_neg (by omega),if_pos ⟨rfl,hstart⟩]
  · have hle := blocks.start_le i
    rw [if_neg (by omega),if_neg (fun h => absurd h.2 (by omega))]

end ChisLink.ErasableMemory
