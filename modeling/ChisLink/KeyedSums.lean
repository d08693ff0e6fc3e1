import Mathlib.Algebra.GroupWithZero.Nat
import Mathlib.Data.List.AList

/-!
# Sums over finite maps

A measure of the values is added up over all keys of a map. Replacing a value, inserting
a key and erasing one change the sum by the measures concerned. With the measure one the
sum is the number of keys.
-/

namespace ChisLink.KeyedSums

variable {κ β : Type}

/-- The sum of a measure over the values of a map. -/
def total (f : β → ℕ) (m : AList fun _ : κ => β) : ℕ :=
  (m.entries.map fun entry => f entry.2).sum

/-- Number of keys of a map. -/
def size (m : AList fun _ : κ => β) : ℕ := m.entries.length

theorem total_one {m : AList fun _ : κ => β} : total (fun _ => 1) m=size m := by
  unfold total size
  rw [List.map_const',List.sum_replicate_nat,Nat.mul_one]

variable [DecidableEq κ] {f : β → ℕ} {m : AList fun _ : κ => β} {k : κ} {b : β}

/-- The new value and all others. -/
theorem total_insert : total f (m.insert k b)=f b+total f (m.erase k) := by
  unfold total
  rw [AList.entries_insert,List.map_cons,List.sum_cons]
  rfl

/-- A value that is there and all others. -/
theorem total_of_lookup (h : m.lookup k=some b) : total f m=f b+total f (m.erase k) := by
  have hmem : k∈m := AList.mem_keys.mpr (AList.lookup_isSome.mp (by rw [h]; rfl))
  obtain ⟨b',before,after,-,hsplit,herase⟩ := List.exists_of_kerase hmem
  have hin : Sigma.mk k b'∈m.entries := by
    rw [hsplit]
    exact List.mem_append_right _ List.mem_cons_self
  have hvalue : b'∈m.lookup k := (List.mem_dlookup_iff m.nodupKeys).mpr hin
  rw [h] at hvalue
  cases hvalue
  have hrest : (m.erase k).entries=before++after := herase
  unfold total
  rw [hrest,hsplit]
  simp only [List.map_append,List.map_cons,List.sum_append,List.sum_cons]
  omega

/-- A key that is not there. -/
theorem total_erase_of_none (h : m.lookup k=none) : total f (m.erase k)=total f m := by
  have hnot : k∉m.entries.keys := AList.lookup_eq_none.mp h
  have hsame : (m.erase k).entries=m.entries := List.kerase_of_notMem_keys hnot
  unfold total
  rw [hsame]

theorem total_erase_le : total f (m.erase k)≤total f m := by
  cases h : m.lookup k with
  | none => exact Nat.le_of_eq (total_erase_of_none h)
  | some b =>
    rw [total_of_lookup h]
    exact Nat.le_add_left _ _

theorem size_insert_of_none (h : m.lookup k=none) : size (m.insert k b)=size m+1 := by
  rw [← total_one,← total_one,total_insert,total_erase_of_none h,Nat.add_comm]

theorem size_insert_of_lookup {b' : β} (h : m.lookup k=some b') :
    size (m.insert k b)=size m := by
  rw [← total_one,← total_one,total_insert,total_of_lookup h]

theorem size_erase_le : size (m.erase k)≤ size m := by
  rw [← total_one,← total_one]
  exact total_erase_le

/-- A map in which something is found is not empty. -/
theorem size_pos (h : m.lookup k=some b) : 0<size m := by
  rw [← total_one,total_of_lookup h]
  exact Nat.lt_of_lt_of_le Nat.one_pos (Nat.le_add_right _ _)

end ChisLink.KeyedSums
