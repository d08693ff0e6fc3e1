import Mathlib.Data.List.Iterate
import Mathlib.Data.List.Nodup
import Mathlib.Data.List.Range
import Mathlib.Data.Nat.ModEq

/-!
# First-in first-out queues of chunks over circular indices

A queue of chunks accepts a whole chunk at its end and gives the front chunk up
in pieces. A bounded ring stores its chunks under consecutive indices that wrap
around. The index lemmas say which cells a ring occupies, that they are
distinct, and that the next cell to fill is none of them.
-/

namespace ChisLink.CircularFifo

/-- The next index of a ring. -/
def advance (n i : ℕ) : ℕ := if i+1<n then i+1 else 0

/-- An index stays within the ring. -/
theorem advance_lt {n i : ℕ} (h : i<n) : advance n i<n := by
  unfold advance
  split <;> omega

/-- Walking on is addition modulo the size of the ring. -/
theorem advance_iterate {n i : ℕ} (h : i<n) (k : ℕ) : (advance n)^[k] i=(i+k)%n := by
  induction k with
  | zero => rw [Function.iterate_zero,id,Nat.add_zero,Nat.mod_eq_of_lt h]
  | succ k ih =>
    rw [Function.iterate_succ_apply',ih,←Nat.add_assoc]
    have hlt : (i+k)%n<n := Nat.mod_lt _ (by omega)
    have hstep : (i+k+1)%n=((i+k)%n+1)%n := by rw [Nat.mod_add_mod]
    rw [hstep,advance]
    split
    · rename_i hnext
      exact (Nat.mod_eq_of_lt hnext).symm
    · rename_i hlast
      have hend : (i+k)%n+1=n := by omega
      rw [hend,Nat.mod_self]

/-- The walk stays within the ring. -/
theorem advance_iterate_lt {n i : ℕ} (h : i<n) (k : ℕ) : (advance n)^[k] i<n := by
  rw [advance_iterate h]
  exact Nat.mod_lt _ (by omega)

/-- The cells of a ring that hold a number of consecutive entries. -/
def occupied (n i k : ℕ) : List ℕ := List.iterate (advance n) i k

/-- The first entry and the rest. -/
theorem occupied_succ (n i k : ℕ) : occupied n i (k+1)=i::occupied n (advance n i) k := rfl

/-- The last entry and the ones before. -/
theorem occupied_succ_last (n i k : ℕ) :
    occupied n i (k+1)=occupied n i k++[(advance n)^[k] i] := by
  unfold occupied
  rw [List.iterate_add]
  rfl

/-- As many cells as entries. -/
theorem length_occupied (n i k : ℕ) : (occupied n i k).length=k :=
  List.length_iterate _ _ _

/-- Two entries less than a full turn apart lie in different cells. -/
theorem advance_iterate_inj {n i a b : ℕ} (h : i<n) (ha : a<n) (hb : b<n)
    (hab : (advance n)^[a] i=(advance n)^[b] i) : a=b := by
  rw [advance_iterate h,advance_iterate h] at hab
  have hmod : a%n=b%n := Nat.ModEq.add_left_cancel' i hab
  rwa [Nat.mod_eq_of_lt ha,Nat.mod_eq_of_lt hb] at hmod

/-- The occupied cells are distinct. -/
theorem occupied_nodup {n i k : ℕ} (h : i<n) (hk : k≤n) : (occupied n i k).Nodup := by
  unfold occupied
  rw [←List.range_map_iterate]
  refine List.Nodup.map_on ?_ List.nodup_range
  intro a ha b hb hab
  have ha' := List.mem_range.mp ha
  have hb' := List.mem_range.mp hb
  exact advance_iterate_inj h (by omega) (by omega) hab

/-- The cell after the last entry of a ring that is not full is free. -/
theorem next_not_mem_occupied {n i k : ℕ} (h : i<n) (hk : k<n) :
    (advance n)^[k] i∉occupied n i k := by
  intro hmem
  obtain ⟨m,hm,heq⟩ := List.mem_iterate.mp hmem
  have hmk := advance_iterate_inj h (by omega) hk heq.symm
  omega

/-- How an operation of a queue ends. -/
inductive Result where
  /-- The operation took effect. -/
  | ok
  /-- The queue holds as many chunks as it may. -/
  | full
  /-- The queue holds no chunk. -/
  | empty
  /-- The length does not fit. -/
  | tooLarge
deriving DecidableEq

section Queue

variable {β : Type*}

/-- Append a prefix of the offered bytes as one chunk, at most `capacity`
chunks of at most `size` bytes each. -/
def commit (capacity size : ℕ) (queue : List (List β)) (bytes : List β) (length : ℕ) :
    List (List β)×Result :=
  if capacity≤queue.length then (queue,.full)
  else if length=0 ∨ size<length then (queue,.tooLarge)
  else (queue++[bytes.take length],.ok)

/-- The front chunk, if there is one. -/
def peek (queue : List (List β)) : Option (List β) := queue.head?

/-- Drop the front chunk. -/
def release : List (List β) → List (List β)×Result
  | [] => ([],.empty)
  | _::queue => (queue,.ok)

/-- Drop a number of bytes of the front chunk. -/
def releaseBytes (queue : List (List β)) (length : ℕ) : List (List β)×Result :=
  if length=0 then (queue,.ok)
  else match queue with
    | [] => ([],.empty)
    | chunk::rest =>
      if chunk.length<length then (chunk::rest,.tooLarge)
      else if length<chunk.length then (chunk.drop length::rest,.ok)
      else (rest,.ok)

end Queue

end ChisLink.CircularFifo
