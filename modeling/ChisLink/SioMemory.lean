import Mathlib.Logic.Function.Basic
import ChisLink.StorageBoundary
import ChisLink.CopyStream

/-!
# Words in the memory of the console

The payload routines read words from memory and store words to it, at addresses of
thirty-two bits. A window on the cartridge is read through a bus of sixteen bits,
where a half word lies at an even address. A routine of the interrupt path and
its counterpart in the storage client read the same bytes, but not the same words
where a payload ends inside a word.
-/

namespace ChisLink.SioMemory

open WireProtocol StorageClient StorageBoundary CopyStream

/-- The memory of the console: a byte at each address. -/
abbrev Memory : Type := UInt32 → UInt8

/-- Bytes from an address on. -/
def bytesFrom (memory : Memory) (address : UInt32) (count : ℕ) : List UInt8 :=
  (List.range count).map fun i => memory (address+UInt32.ofNat i)

/-- The functions `fast_load_le32` and `load_le32`. -/
def fastLoadLe32 (memory : Memory) (src available : UInt32) : UInt32 :=
  loadLe32 (bytesFrom memory src (min 4 available.toNat))

/-- Bytes are written from an address on. -/
def writeBytes (dst : UInt32) : List UInt8 → Memory → Memory
  | [],memory => memory
  | byte::rest,memory => writeBytes (dst+1) rest (Function.update memory dst byte)

/-- The functions `fast_store_le32` and `store_le32`. -/
def fastStoreLe32 (dst word available : UInt32) (memory : Memory) : Memory :=
  writeBytes dst (storeLe32 word available.toNat) memory

/-- The struct `cl_direct_window_t`: where the window begins, its length and how it
is read. -/
structure MemoryWindow where
  /-- Address of the first byte. -/
  data : UInt32
  /-- Bytes in the window. -/
  length : UInt32
  /-- How it is read. -/
  access : DirectWindowAccess

/-- The half word at an even address. -/
def romHalf (memory : Memory) (address : UInt32) : UInt16 :=
  (memory address).toUInt16 ||| (memory (address+1)).toUInt16 <<< 8

/-- A byte of the cartridge, taken out of the half word around it. -/
def romByte (memory : Memory) (address : UInt32) : UInt8 :=
  let value := romHalf memory (address &&& ~~~1)
  if address &&& 1≠0 then (value >>> 8).toUInt8 else value.toUInt8

/-- Two half words. -/
def romWord (memory : Memory) (address : UInt32) : UInt32 :=
  (romHalf memory address).toUInt32 ||| (romHalf memory (address+2)).toUInt32 <<< 16

/-- A byte of a window. -/
def windowByte (memory : Memory) (window : MemoryWindow) (offset : UInt32) : UInt8 :=
  match window.access with
  | .rom16Le => romByte memory (window.data+offset)
  | .bytes => memory (window.data+offset)

/-- The function `fast_window_load_le32`. -/
def fastWindowLoadLe32 (memory : Memory) (window : MemoryWindow)
    (offset available : UInt32) : UInt32 :=
  if window.length≤offset then 0
  else if window.access=.rom16Le ∧ (window.data+offset) &&& 1=0 ∧ 4≤available then
    romWord memory (window.data+offset)
  else
    loadLe32 ((List.range (min 4 available.toNat)).map fun i =>
      windowByte memory window (offset+UInt32.ofNat i))

/-- The function `cl_direct_window_read_byte`. -/
def windowReadByte (memory : Memory) (window : MemoryWindow) (offset : UInt32) : UInt8 :=
  if window.length≤offset then 0 else windowByte memory window offset

/-- The function `direct_window_word`. -/
def memoryWindowWord (memory : Memory) (window : MemoryWindow) (offset : UInt32) : UInt32 :=
  let available := window.length-offset
  if window.length≤offset then 0
  else if window.access=.rom16Le ∧ (window.data+offset) &&& 1=0 ∧ 4≤available then
    romWord memory (window.data+offset)
  else
    loadLe32 ((List.range (min 4 available.toNat)).map fun i =>
      windowReadByte memory window (offset+UInt32.ofNat i))

section Halves

/-- The lower byte of a half word. -/
theorem half_low (low high : UInt8) :
    (low.toUInt16 ||| high.toUInt16 <<< 8).toUInt8=low := by
  apply UInt8.toBitVec_inj.mp
  ext i hi
  interval_cases i <;> simp

/-- The upper byte of a half word. -/
theorem half_high (low high : UInt8) :
    ((low.toUInt16 ||| high.toUInt16 <<< 8) >>> 8).toUInt8=high := by
  apply UInt8.toBitVec_inj.mp
  ext i hi
  interval_cases i <;> simp

/-- Two half words make the word of their four bytes. -/
theorem halves_word (a b c d : UInt8) :
    (a.toUInt16 ||| b.toUInt16 <<< 8).toUInt32 |||
      (c.toUInt16 ||| d.toUInt16 <<< 8).toUInt32 <<< 16=loadLe32 [a,b,c,d] := by
  simp only [loadLe32,List.zipIdx,List.take,List.foldl]
  apply UInt32.toBitVec_inj.mp
  ext i hi
  interval_cases i <;>
    simp [-UInt16.toUInt32_shiftLeft,-UInt16.toUInt32_or,UInt16.toBitVec_toUInt32]

/-- The half word around an address begins at most one byte before it. -/
theorem half_address (address : UInt32) :
    (address &&& ~~~1)=if address &&& 1≠0 then address-1 else address := by
  have hround : ∀ n : ℕ,n<2^32 → n &&& 0xfffffffe=n-n%2 := by
    intro n hn
    have hshift : (n &&& 0xfffffffe) >>> 1=n >>> 1 &&& (2^31-1) := by
      rw [Nat.shiftRight_and_distrib]
      rfl
    have heven : (n &&& 0xfffffffe)%2=0 := by
      have hpow := Nat.and_mod_two_pow (a := n) (b := 0xfffffffe) (n := 1)
      rw [pow_one] at hpow
      rw [hpow]
      exact Nat.and_zero _
    rw [Nat.and_two_pow_sub_one_eq_mod,Nat.shiftRight_eq_div_pow,
      Nat.shiftRight_eq_div_pow] at hshift
    omega
  have hmask : (~~~1 : UInt32).toNat=0xfffffffe := by decide
  have hodd : (address &&& 1).toNat=address.toNat%2 := by
    rw [UInt32.toNat_and]
    exact Nat.and_one_is_mod _
  have hone : (1 : UInt32).toNat=1 := rfl
  have hlt := address.toNat_lt
  apply UInt32.toNat_inj.mp
  rw [UInt32.toNat_and,hmask,hround _ hlt]
  by_cases h : address &&& 1=0
  · have hzero := congrArg UInt32.toNat h
    rw [hodd] at hzero
    rw [if_neg (not_not_intro h),hzero]
    rfl
  · have hzero : (address &&& 1).toNat≠0 := fun h' => h (UInt32.toNat_inj.mp h')
    rw [hodd] at hzero
    have hle : (1 : UInt32)≤address := by
      rw [UInt32.le_iff_toNat_le,hone]
      omega
    rw [if_pos h,UInt32.toNat_sub_of_le _ _ hle,hone]
    omega

end Halves

section Words

variable (memory : Memory) (window : MemoryWindow)

/-- The bus of the cartridge gives the bytes of the memory. -/
theorem romByte_eq (address : UInt32) : romByte memory address=memory address := by
  unfold romByte
  dsimp only
  rw [half_address]
  unfold romHalf
  by_cases h : address &&& 1≠0
  · rw [if_pos h,if_pos h,half_high,UInt32.sub_add_cancel]
  · rw [if_neg h,if_neg h,half_low]

theorem windowByte_eq (offset : UInt32) :
    windowByte memory window offset=memory (window.data+offset) := by
  unfold windowByte
  cases window.access with
  | bytes => rfl
  | rom16Le => exact romByte_eq memory _

theorem bytesFrom_four (address : UInt32) :
    bytesFrom memory address 4=
      [memory address,memory (address+1),memory (address+2),memory (address+3)] := by
  have hzero : address+UInt32.ofNat 0=address := UInt32.add_zero address
  unfold bytesFrom
  simp only [List.range,List.range.loop,List.map,hzero]
  rfl

theorem romWord_eq (address : UInt32) :
    romWord memory address=loadLe32 (bytesFrom memory address 4) := by
  have hthree : address+2+1=address+3 := by
    rw [UInt32.add_assoc]
    rfl
  unfold romWord romHalf
  rw [halves_word,bytesFrom_four,hthree]

/-- Bytes of a window, one by one. -/
theorem map_windowByte (offset : UInt32) (count : ℕ) :
    (List.range count).map (fun i => windowByte memory window (offset+UInt32.ofNat i))=
      bytesFrom memory (window.data+offset) count := by
  unfold bytesFrom
  refine List.map_congr_left fun i _ => ?_
  rw [windowByte_eq,UInt32.add_assoc]

/-- The interrupt path loads the bytes that are left of the payload. -/
theorem fastWindowLoadLe32_eq {offset : UInt32} (available : UInt32)
    (h : offset<window.length) :
    fastWindowLoadLe32 memory window offset available=
      fastLoadLe32 memory (window.data+offset) available := by
  unfold fastWindowLoadLe32 fastLoadLe32
  rw [if_neg (UInt32.not_le.mpr h)]
  split
  · rename_i hrom
    have hfour : 4≤available.toNat := UInt32.le_iff_toNat_le.mp hrom.2.2
    rw [romWord_eq,Nat.min_eq_left hfour]
  · rw [map_windowByte]

/-- The storage client loads the bytes that are left of the window. -/
theorem memoryWindowWord_eq {offset : UInt32} (h : offset<window.length) :
    memoryWindowWord memory window offset=
      fastLoadLe32 memory (window.data+offset) (window.length-offset) := by
  unfold memoryWindowWord fastLoadLe32
  dsimp only
  rw [if_neg (UInt32.not_le.mpr h)]
  split
  · rename_i hrom
    have hfour : 4≤(window.length-offset).toNat := UInt32.le_iff_toNat_le.mp hrom.2.2
    rw [romWord_eq,Nat.min_eq_left hfour]
  · rw [← map_windowByte]
    congr 1
    refine List.map_congr_left fun i hi => ?_
    have hle : offset≤window.length := UInt32.le_of_lt h
    have hleft := UInt32.toNat_sub_of_le _ _ hle
    have hlow := UInt32.le_iff_toNat_le.mp hle
    have hmax := window.length.toNat_lt
    rw [List.mem_range] at hi
    have hsmall : (UInt32.ofNat i).toNat=i :=
      UInt32.toNat_ofNat_of_lt' (by unfold UInt32.size; omega)
    have hinside : offset+UInt32.ofNat i<window.length := by
      rw [UInt32.lt_iff_toNat_lt,UInt32.toNat_add,hsmall]
      omega
    unfold windowReadByte
    rw [if_neg (UInt32.not_le.mpr hinside)]

end Words

section Payloads

variable (memory : Memory)

@[simp]
theorem length_bytesFrom (address : UInt32) (count : ℕ) :
    (bytesFrom memory address count).length=count := by
  unfold bytesFrom
  rw [List.length_map,List.length_range]

/-- More bytes follow those at the front. -/
theorem bytesFrom_add (address : UInt32) (count more : ℕ) :
    bytesFrom memory address (count+more)=
      bytesFrom memory address count++
        bytesFrom memory (address+UInt32.ofNat count) more := by
  unfold bytesFrom
  rw [List.range_add,List.map_append,List.map_map]
  congr 1
  refine List.map_congr_left fun i _ => ?_
  rw [Function.comp_apply,UInt32.ofNat_add,UInt32.add_assoc]

/-- The bytes at the front. -/
theorem take_bytesFrom (address : UInt32) {count less : ℕ} (h : less≤ count) :
    (bytesFrom memory address count).take less=bytesFrom memory address less := by
  have hcount : count=less+(count-less) := by omega
  rw [hcount,bytesFrom_add,List.take_left' (length_bytesFrom ..)]

/-- The bytes behind the front. -/
theorem drop_bytesFrom (address : UInt32) (count front : ℕ) :
    (bytesFrom memory address count).drop front=
      bytesFrom memory (address+UInt32.ofNat front) (count-front) := by
  by_cases h : front≤ count
  · have hcount : count=front+(count-front) := by omega
    rw [hcount,bytesFrom_add,List.drop_left' (length_bytesFrom ..),Nat.add_sub_cancel_left]
  · have hle : (bytesFrom memory address count).length≤front := by
      rw [length_bytesFrom]
      omega
    have hzero : count-front=0 := by omega
    rw [List.drop_eq_nil_of_le hle,hzero]
    rfl

/-- The bytes of a loaded word that were there to load. -/
theorem take_fastLoadLe32 (src available : UInt32) {count : ℕ}
    (h : min 4 count≤available.toNat) :
    (storeLe32 (fastLoadLe32 memory src available) 4).take count=
      bytesFrom memory src (min 4 count) := by
  have hle : min 4 count≤ min 4 available.toNat := by omega
  have hlength : min 4 count≤(bytesFrom memory src (min 4 available.toNat)).length := by
    rw [length_bytesFrom]
    exact hle
  unfold fastLoadLe32
  rw [storeLe32_loadLe32,List.take_take,Nat.min_comm count 4,
    List.take_append_of_le_length hlength,take_bytesFrom _ _ hle]

/-- Words that begin with the bytes of a payload carry it. -/
theorem take_words {src : UInt32} {word : ℕ → UInt32} {count n : ℕ}
    (h : ∀ i,i<n → (storeLe32 (word i) 4).take (count-4*i)=
      bytesFrom memory (src+UInt32.ofNat (4*i)) (min 4 (count-4*i))) :
    (((List.range n).map word).flatMap fun w => storeLe32 w 4).take count=
      bytesFrom memory src (min count (4*n)) := by
  have hfour : ∀ w,(storeLe32 w 4).length=4 := fun _ => rfl
  induction n with
  | zero =>
    rw [Nat.mul_zero,Nat.min_zero]
    exact List.take_nil
  | succ n ih =>
    have hlength : (((List.range n).map word).flatMap fun w => storeLe32 w 4).length=4*n := by
      rw [List.length_flatMap,List.map_congr_left fun w _ => hfour w]
      simp only [List.map_const',List.sum_replicate_nat,List.length_map,List.length_range,
        Nat.mul_comm]
    rw [List.range_succ,List.map_append,List.flatMap_append,List.take_append,hlength,
      ih fun i hi => h i (by omega),List.map_singleton,List.flatMap_singleton,
      h n (Nat.lt_succ_self n)]
    by_cases hn : count≤4*n
    · have hnone : min 4 (count-4*n)=0 := by omega
      have hsame : min count (4*n)=min count (4*(n+1)) := by omega
      rw [hnone,hsame]
      exact List.append_nil _
    · have hfull : min count (4*n)=4*n := by omega
      have hmore : min count (4*(n+1))=4*n+min 4 (count-4*n) := by omega
      rw [hfull,hmore,bytesFrom_add]

end Payloads

section Views

variable (memory : Memory) (window : MemoryWindow)

/-- A window with the bytes behind it, as the storage client has it. -/
def MemoryWindow.view : DirectWindow where
  data := bytesFrom memory window.data window.length.toNat
  length := window.length
  data_length := length_bytesFrom ..
  access := window.access

/-- A word takes four bytes at most. -/
theorem loadLe32_bytesFrom (address : UInt32) (count : ℕ) :
    loadLe32 (bytesFrom memory address count)=
      loadLe32 (bytesFrom memory address (min 4 count)) := by
  have htake : (bytesFrom memory address count).take 4=
      (bytesFrom memory address (min 4 count)).take 4 := by
    by_cases h : 4≤ count
    · rw [Nat.min_eq_left h,take_bytesFrom _ _ h,take_bytesFrom _ _ (le_refl 4)]
    · have hle : count≤4 := by omega
      rw [Nat.min_eq_right hle]
  unfold loadLe32
  rw [htake]

/-- The words of a window are those of the bytes behind it. -/
theorem directWindowWord_view (offset : UInt32) :
    directWindowWord (window.view memory) offset=memoryWindowWord memory window offset := by
  have hdata : (window.view memory).data.drop offset.toNat=
      bytesFrom memory (window.data+offset) (window.length.toNat-offset.toNat) := by
    have hoffset : UInt32.ofNat offset.toNat=offset := UInt32.ofNat_toNat
    unfold MemoryWindow.view
    dsimp only
    rw [drop_bytesFrom,hoffset]
  unfold directWindowWord
  rw [hdata]
  by_cases h : window.length≤offset
  · have hzero : window.length.toNat-offset.toNat=0 :=
      Nat.sub_eq_zero_of_le (UInt32.le_iff_toNat_le.mp h)
    unfold memoryWindowWord
    dsimp only
    rw [if_pos h,hzero]
    rfl
  · have hlt := UInt32.not_le.mp h
    rw [memoryWindowWord_eq _ _ hlt]
    unfold fastLoadLe32
    rw [UInt32.toNat_sub_of_le _ _ (UInt32.le_of_lt hlt),← loadLe32_bytesFrom]

end Views

end ChisLink.SioMemory
