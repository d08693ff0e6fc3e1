import Mathlib.Data.List.Basic
import Mathlib.Logic.Function.Basic
import Mathlib.Tactic.Ring
import ChisLink.Crc32

/-!
# Segmented CRC manifests

A manifest holds the check of every chunk of a byte string, the last of which may be
short. The bytes arrive in pieces that are cut anywhere. Chunks are closed as they fill,
until the caller's array is full and one more chunk has filled up; from then on no byte
is taken.
-/

namespace ChisLink.Crc32Chunks

open Crc32

/-- The struct `cl_crc32_chunks_t`. -/
structure ClCrc32Chunks where
  /-- The memory at the caller's array, also behind its end. -/
  values : ℕ → UInt32
  /-- Length of the array. -/
  capacity : UInt32
  /-- Number of closed chunks. -/
  count : UInt32
  /-- Bytes of a chunk. -/
  chunkSize : UInt32
  /-- Bytes of the open chunk. -/
  chunkBytes : UInt32
  /-- Bytes of all chunks. -/
  totalBytes : UInt64
  /-- State of the check of the open chunk. -/
  current : UInt32
  /-- Chunks are not empty. -/
  chunkSize_pos : 0<chunkSize.toNat

/-- The function `cl_crc32_chunks_init`. -/
def clCrc32ChunksInit (chunkSize : UInt32) (values : ℕ → UInt32) (capacity : UInt32) :
    Option ClCrc32Chunks :=
  if h : 0<chunkSize.toNat ∧ 0<capacity.toNat then
    some ⟨values,capacity,0,chunkSize,0,0,clCrc32Init,h.1⟩
  else none

/-- The function `chunks_finish_current`. -/
def chunksFinishCurrent (chunks : ClCrc32Chunks) : ℤ×ClCrc32Chunks :=
  if chunks.capacity.toNat≤ chunks.count.toNat then (-2,chunks)
  else (0,{chunks with
    values := Function.update chunks.values chunks.count.toNat
      (clCrc32Finalize chunks.current)
    count := chunks.count+1
    chunkBytes := 0
    current := clCrc32Init})

/-- Take bytes into the open chunk. -/
def ClCrc32Chunks.taking (chunks : ClCrc32Chunks) (data : List UInt8) : ClCrc32Chunks :=
  {chunks with
    chunkBytes := chunks.chunkBytes+UInt32.ofNat data.length
    totalBytes := chunks.totalBytes+UInt64.ofNat data.length
    current := clCrc32Update chunks.current data}

/-- Bytes that one round of an update takes. -/
def ClCrc32Chunks.roundBytes (chunks : ClCrc32Chunks) (data : List UInt8) : ℕ :=
  min data.length (chunks.chunkSize-chunks.chunkBytes).toNat

/-- A round takes no byte only if the open chunk is full. -/
theorem full_of_roundBytes {chunks : ClCrc32Chunks} {data : List UInt8}
    (h : chunks.roundBytes data=0) (hdata : data≠[]) : chunks.chunkBytes=chunks.chunkSize := by
  have hlength := List.length_pos_of_ne_nil hdata
  have hroom : (chunks.chunkSize-chunks.chunkBytes).toNat=0 := by
    unfold ClCrc32Chunks.roundBytes at h
    omega
  have hzero : chunks.chunkSize-chunks.chunkBytes=0 := UInt32.toNat_inj.mp hroom
  have hsum := UInt32.sub_add_cancel chunks.chunkSize chunks.chunkBytes
  rw [hzero,UInt32.zero_add] at hsum
  exact hsum

/-- A chunk that was closed leaves an empty one. -/
theorem finished_open {chunks : ClCrc32Chunks} (h : ¬(chunksFinishCurrent chunks).1<0) :
    (chunksFinishCurrent chunks).2.chunkBytes≠(chunksFinishCurrent chunks).2.chunkSize := by
  have hneg : (-2 : ℤ)<0 := by decide
  have hpos := chunks.chunkSize_pos
  unfold chunksFinishCurrent at h ⊢
  by_cases hfull : chunks.capacity.toNat≤ chunks.count.toNat
  · rw [if_pos hfull] at h
    exact absurd hneg h
  · rw [if_neg hfull]
    intro hzero
    have hzero : 0=chunks.chunkSize.toNat := congrArg UInt32.toNat hzero
    omega

/-- Every round takes a byte or follows a full chunk, and none leaves one. -/
theorem round_decreases {chunks next : ClCrc32Chunks} {data : List UInt8} (hdata : data≠[])
    (hnext : next.chunkBytes≠next.chunkSize) :
    2*(data.drop (chunks.roundBytes data)).length+
        (if next.chunkBytes=next.chunkSize then 1 else 0)<
      2*data.length+if chunks.chunkBytes=chunks.chunkSize then 1 else 0 := by
  have hlength := List.length_pos_of_ne_nil hdata
  have hle : chunks.roundBytes data≤data.length := Nat.min_le_left _ _
  rw [if_neg hnext,List.length_drop]
  by_cases hnone : chunks.roundBytes data=0
  · rw [if_pos (full_of_roundBytes hnone hdata)]
    omega
  · omega

/-- The loop of `cl_crc32_chunks_update`. -/
def clCrc32ChunksUpdate (chunks : ClCrc32Chunks) (data : List UInt8) : ℤ×ClCrc32Chunks :=
  if data=[] then (0,chunks)
  else
    let n := chunks.roundBytes data
    let taken := chunks.taking (data.take n)
    if taken.chunkBytes=taken.chunkSize then
      let finished := chunksFinishCurrent taken
      if finished.1<0 then finished
      else clCrc32ChunksUpdate finished.2 (data.drop n)
    else clCrc32ChunksUpdate taken (data.drop n)
termination_by 2*data.length+if chunks.chunkBytes=chunks.chunkSize then 1 else 0
decreasing_by
  · next hdata _ hret => exact round_decreases hdata (finished_open hret)
  · next hdata hfull => exact round_decreases hdata hfull

/-- The function `cl_crc32_chunks_finish`. -/
def clCrc32ChunksFinish (chunks : ClCrc32Chunks) : ℤ×ClCrc32Chunks :=
  if chunks.chunkBytes≠0 then chunksFinishCurrent chunks else (0,chunks)

/-- One update after another, whatever they return: the results and the manifest. -/
def updates (chunks : ClCrc32Chunks) : List (List UInt8) → List ℤ×ClCrc32Chunks
  | [] => ([],chunks)
  | part::parts =>
    let reply := clCrc32ChunksUpdate chunks part
    let rest := updates reply.2 parts
    (reply.1::rest.1,rest.2)

/-- A chunk of a byte string. -/
def chunkSlice (size : ℕ) (data : List UInt8) (i : ℕ) : List UInt8 :=
  (data.drop (i*size)).take size

/-- Number of chunks of so many bytes. -/
def chunkCount (size length : ℕ) : ℕ := length/size+if length%size=0 then 0 else 1

/-- The checks of the chunks of a byte string. -/
def chunkCrcs (size : ℕ) (data : List UInt8) : List UInt32 :=
  (List.range (chunkCount size data.length)).map fun i =>
    clCrc32Calculate (chunkSlice size data i)

/-- The closed chunks of a manifest. -/
def ClCrc32Chunks.list (chunks : ClCrc32Chunks) : List UInt32 :=
  (List.range chunks.count.toNat).map chunks.values

/-- A manifest that was started holds these bytes. -/
structure Holds (start : ClCrc32Chunks) (data : List UInt8) (chunks : ClCrc32Chunks) :
    Prop where
  /-- The array is the same. -/
  capacity_eq : chunks.capacity=start.capacity
  /-- So is the size of the chunks. -/
  chunkSize_eq : chunks.chunkSize=start.chunkSize
  /-- The closed chunks fit into the array. -/
  count_le : chunks.count.toNat≤ chunks.capacity.toNat
  /-- The open chunk is not longer than a chunk. -/
  chunkBytes_le : chunks.chunkBytes.toNat≤ chunks.chunkSize.toNat
  /-- All bytes are in the chunks. -/
  length_eq : chunks.count.toNat*chunks.chunkSize.toNat+chunks.chunkBytes.toNat=data.length
  /-- The total is their number. -/
  totalBytes_eq : chunks.totalBytes.toNat=data.length
  /-- The open chunk is the rest. -/
  current_eq : chunks.current=clCrc32Update clCrc32Init
    (data.drop (chunks.count.toNat*chunks.chunkSize.toNat))
  /-- The closed ones are in the array, the memory behind them is as it was. -/
  values_eq : ∀ i,chunks.values i=
    if i<chunks.count.toNat then clCrc32Calculate (chunkSlice chunks.chunkSize.toNat data i)
    else start.values i

/-- A manifest between two rounds: a full chunk is open only if the array is full. -/
structure Settled (start : ClCrc32Chunks) (data : List UInt8) (chunks : ClCrc32Chunks) :
    Prop extends Holds start data chunks where
  /-- A full chunk has found no place. -/
  full : chunks.chunkBytes=chunks.chunkSize → chunks.capacity.toNat≤ chunks.count.toNat

/-- Bytes that a manifest can take: one chunk more than there are places. -/
def ClCrc32Chunks.limit (chunks : ClCrc32Chunks) : ℕ :=
  (chunks.capacity.toNat+1)*chunks.chunkSize.toNat

section Chunks

variable {start chunks : ClCrc32Chunks} {data more : List UInt8} {size : ℕ}

/-- More bytes do not change a chunk that is full. -/
theorem chunkSlice_append {i : ℕ} (h : (i+1)*size≤data.length) (more : List UInt8) :
    chunkSlice size (data++more) i=chunkSlice size data i := by
  have hsplit : (i+1)*size=i*size+size := Nat.succ_mul i size
  unfold chunkSlice
  rw [List.drop_append_of_le_length (by omega),List.take_append_of_le_length]
  rw [List.length_drop]
  omega

/-- Number of chunks, as a bound. -/
theorem chunkCount_le_iff (hsize : 0<size) (length capacity : ℕ) :
    chunkCount size length≤ capacity ↔ length≤ capacity*size := by
  have hdiv := Nat.div_add_mod length size
  have hmod := Nat.mod_lt length hsize
  unfold chunkCount
  rw [Nat.mul_comm] at hdiv
  constructor
  · intro h
    split at h
    next hzero =>
      have hmul := Nat.mul_le_mul_right size h
      rw [Nat.add_zero] at hmul
      omega
    next hne =>
      have hmul := Nat.mul_le_mul_right size h
      rw [Nat.succ_mul] at hmul
      omega
  · intro h
    split
    next hzero =>
      rw [Nat.add_zero]
      exact Nat.le_of_mul_le_mul_right (by omega) hsize
    next hne =>
      exact Nat.lt_of_mul_lt_mul_right (a:=size) (by omega)

/-- A total of so many full chunks and a short one. -/
theorem chunkCount_of_eq (count : ℕ) {rest : ℕ} (hrest : rest<size) :
    chunkCount size (count*size+rest)=if rest=0 then count else count+1 := by
  have hsize : 0<size := by omega
  unfold chunkCount
  rw [Nat.mul_comm,Nat.mul_add_div hsize,Nat.mul_add_mod,Nat.mod_eq_of_lt hrest,
    Nat.div_eq_of_lt hrest]
  split <;> rfl

/-- A chunk that is closed is counted. -/
theorem toNat_count_add {chunks : ClCrc32Chunks}
    (h : chunks.count.toNat<chunks.capacity.toNat) :
    (chunks.count+1).toNat=chunks.count.toNat+1 := by
  have hcapacity := chunks.capacity.toNat_lt
  rw [UInt32.toNat_add]
  exact Nat.mod_eq_of_lt (by have hone : (1 : UInt32).toNat=1 := rfl; omega)

/-- Taking bytes for which there is room. -/
theorem Holds.taking (h : Holds start data chunks)
    (hroom : chunks.chunkBytes.toNat+more.length≤ chunks.chunkSize.toNat) :
    Holds start (data++more) (chunks.taking more) := by
  have hsize := chunks.chunkSize.toNat_lt
  have hcapacity := chunks.capacity.toNat_lt
  have hcount := h.count_le
  have hlength := h.length_eq
  have hmul : chunks.count.toNat*chunks.chunkSize.toNat≤(2^32-1)*(2^32-1) :=
    Nat.mul_le_mul (by omega) (by omega)
  have hbytes : (chunks.taking more).chunkBytes.toNat=
      chunks.chunkBytes.toNat+more.length := by
    change (chunks.chunkBytes+UInt32.ofNat more.length).toNat=_
    rw [UInt32.toNat_add,UInt32.toNat_ofNat_of_lt' (by unfold UInt32.size; omega)]
    exact Nat.mod_eq_of_lt (by omega)
  have htotal : (chunks.taking more).totalBytes.toNat=data.length+more.length := by
    change (chunks.totalBytes+UInt64.ofNat more.length).toNat=_
    rw [UInt64.toNat_add,UInt64.toNat_ofNat_of_lt' (by unfold UInt64.size; omega),
      h.totalBytes_eq]
    exact Nat.mod_eq_of_lt (by omega)
  refine ⟨h.capacity_eq,h.chunkSize_eq,h.count_le,?_,?_,?_,?_,fun i => ?_⟩
  · rw [hbytes]
    exact hroom
  · rw [hbytes,List.length_append,←hlength,Nat.add_assoc]
    rfl
  · rw [htotal,List.length_append]
  · change clCrc32Update chunks.current more=_
    rw [h.current_eq,←clCrc32Update_append,←List.drop_append_of_le_length]
    · rfl
    · omega
  · have hvalues := h.values_eq i
    change chunks.values i=if i<chunks.count.toNat then
      clCrc32Calculate (chunkSlice chunks.chunkSize.toNat (data++more) i) else start.values i
    rw [hvalues]
    split
    next hi =>
      have hmul : (i+1)*chunks.chunkSize.toNat≤
          chunks.count.toNat*chunks.chunkSize.toNat := Nat.mul_le_mul_right _ hi
      rw [chunkSlice_append (by omega)]
    next hi => rfl

/-- Closing a chunk for which there is a place: it is stored as the chunk it is of
the bytes. -/
theorem chunksFinishCurrent_of_lt (hcount : chunks.count.toNat<chunks.capacity.toNat) :
    chunksFinishCurrent chunks=(0,{chunks with
      values := Function.update chunks.values chunks.count.toNat
        (clCrc32Finalize chunks.current)
      count := chunks.count+1
      chunkBytes := 0
      current := clCrc32Init}) := by
  unfold chunksFinishCurrent
  exact if_neg (by omega)

/-- Without a place it is refused. -/
theorem chunksFinishCurrent_of_le (hcount : chunks.capacity.toNat≤ chunks.count.toNat) :
    chunksFinishCurrent chunks=(-2,chunks) := if_pos hcount

/-- The values after closing a chunk. -/
theorem Holds.finished_values (h : Holds start data chunks)
    (hcount : chunks.count.toNat<chunks.capacity.toNat) (i : ℕ) :
    (chunksFinishCurrent chunks).2.values i=
      if i<chunks.count.toNat+1 then
        clCrc32Calculate (chunkSlice chunks.chunkSize.toNat data i)
      else start.values i := by
  have hbytes := h.chunkBytes_le
  have hlength := h.length_eq
  rw [chunksFinishCurrent_of_lt hcount]
  change Function.update chunks.values chunks.count.toNat
    (clCrc32Finalize chunks.current) i=_
  by_cases hi : i=chunks.count.toNat
  · have hslice : chunkSlice chunks.chunkSize.toNat data i=
        data.drop (chunks.count.toNat*chunks.chunkSize.toNat) := by
      unfold chunkSlice
      rw [hi]
      exact List.take_of_length_le (by rw [List.length_drop]; omega)
    rw [if_pos (by omega),hslice,hi,Function.update_self,h.current_eq]
    rfl
  · rw [Function.update_of_ne hi,h.values_eq i]
    by_cases hlt : i<chunks.count.toNat
    · rw [if_pos hlt,if_pos (by omega)]
    · rw [if_neg hlt,if_neg (by omega)]

/-- Closing a full chunk. -/
theorem Holds.finished (h : Holds start data chunks)
    (hfull : chunks.chunkBytes=chunks.chunkSize)
    (hcount : chunks.count.toNat<chunks.capacity.toNat) :
    Settled start data (chunksFinishCurrent chunks).2 := by
  have hvalues := h.finished_values hcount
  have hadd := toNat_count_add hcount
  have hlength := h.length_eq
  have hdata : (chunks.count+1).toNat*chunks.chunkSize.toNat=data.length := by
    rw [hadd,Nat.succ_mul,←hlength,hfull]
  have hzero : (0 : UInt32).toNat=0 := rfl
  rw [chunksFinishCurrent_of_lt hcount] at hvalues ⊢
  refine ⟨⟨h.capacity_eq,h.chunkSize_eq,?_,Nat.zero_le _,?_,h.totalBytes_eq,?_,
    fun i => ?_⟩,fun hopen => ?_⟩
  · dsimp only
    rw [hadd]
    exact hcount
  · dsimp only
    rw [hzero,hdata,Nat.add_zero]
  · dsimp only
    rw [hdata,List.drop_length,clCrc32Update_nil]
  · rw [hvalues i]
    dsimp only
    rw [hadd]
  · have hpos := chunks.chunkSize_pos
    have hopen : 0=chunks.chunkSize.toNat := congrArg UInt32.toNat hopen
    omega

/-- A manifest holds no more than its limit. -/
theorem Holds.length_le (h : Holds start data chunks) : data.length≤ chunks.limit := by
  have hlength := h.length_eq
  have hmul := Nat.mul_le_mul_right chunks.chunkSize.toNat h.count_le
  have hbytes := h.chunkBytes_le
  unfold ClCrc32Chunks.limit
  rw [Nat.succ_mul]
  omega

/-- It is at the limit if a full chunk has found no place. -/
theorem Holds.length_of_full (h : Holds start data chunks)
    (hfull : chunks.chunkBytes=chunks.chunkSize)
    (hcount : chunks.capacity.toNat≤ chunks.count.toNat) : data.length=chunks.limit := by
  have hlength := h.length_eq
  have hle := h.count_le
  have heq : chunks.count.toNat=chunks.capacity.toNat := by omega
  unfold ClCrc32Chunks.limit
  rw [Nat.succ_mul,←heq,←hlength,hfull]

/-- Otherwise it is below. -/
theorem Holds.length_lt (h : Holds start data chunks)
    (hopen : chunks.chunkBytes≠chunks.chunkSize) : data.length<chunks.limit := by
  have hlength := h.length_eq
  have hmul := Nat.mul_le_mul_right chunks.chunkSize.toNat h.count_le
  have hbytes := h.chunkBytes_le
  have hne : chunks.chunkBytes.toNat≠chunks.chunkSize.toNat :=
    fun heq => hopen (UInt32.toNat_inj.mp heq)
  unfold ClCrc32Chunks.limit
  rw [Nat.succ_mul]
  omega

/-- A round takes the next bytes. -/
theorem Holds.round (h : Holds start data chunks) (more : List UInt8) :
    Holds start (data++more.take (chunks.roundBytes more))
      (chunks.taking (more.take (chunks.roundBytes more))) := by
  have hbytes := h.chunkBytes_le
  have hroom : (chunks.chunkSize-chunks.chunkBytes).toNat=
      chunks.chunkSize.toNat-chunks.chunkBytes.toNat := 
      UInt32.toNat_sub_of_le _ _ (UInt32.le_iff_toNat_le.mpr hbytes)
  have hround : chunks.roundBytes more≤(chunks.chunkSize-chunks.chunkBytes).toNat :=
    Nat.min_le_right _ _
  apply h.taking
  rw [List.length_take]
  omega

/-- What the rest of an update does after a round, if it goes on. -/
theorem update_resumed {next : ClCrc32Chunks} {n : ℕ} {reply : ℤ×ClCrc32Chunks}
    (hmore : more≠[]) (hnext : Holds start (data++more.take n) next)
    (hopen : next.chunkBytes≠next.chunkSize) (hlimit : next.limit=chunks.limit)
    (hrest : Settled start ((data++more.take n++more.drop n).take next.limit) reply.2 ∧
      reply.1=if more.drop n≠[] ∧ next.limit≤(data++more.take n++more.drop n).length then -2
        else 0) :
    Settled start ((data++more).take chunks.limit) reply.2 ∧
      reply.1=if more≠[] ∧ chunks.limit≤(data++more).length then -2 else 0 := by
  have hlt := hnext.length_lt hopen
  rw [List.append_assoc,List.take_append_drop,hlimit] at hrest
  refine ⟨hrest.1,?_⟩
  rw [hrest.2]
  by_cases hdrop : more.drop n=[]
  · have htake : more.take n=more := List.take_of_length_le (List.drop_eq_nil_iff.mp hdrop)
    rw [htake,hlimit] at hlt
    rw [if_neg (fun hboth => hboth.1 hdrop),if_neg (by omega)]
  · by_cases hle : chunks.limit≤(data++more).length
    · rw [if_pos ⟨hdrop,hle⟩,if_pos ⟨hmore,hle⟩]
    · rw [if_neg (fun hboth => hle hboth.2),if_neg (fun hboth => hle hboth.2)]

/-- An update takes the bytes up to the limit. It fails once this is reached. -/
theorem clCrc32ChunksUpdate_spec (more : List UInt8) (h : Settled start data chunks) :
    Settled start ((data++more).take chunks.limit) (clCrc32ChunksUpdate chunks more).2 ∧
      (clCrc32ChunksUpdate chunks more).1=
        if more≠[] ∧ chunks.limit≤(data++more).length then -2 else 0 := by
  have hneg : (-2 : ℤ)<0 := by decide
  have hzero : ¬(0 : ℤ)<0 := by decide
  fun_induction clCrc32ChunksUpdate chunks more generalizing data with
  | case1 chunks =>
    have hle := h.length_le
    rw [List.append_nil,List.take_of_length_le hle,if_neg (fun hmore => hmore.1 rfl)]
    exact ⟨h,rfl⟩
  | case2 chunks more hmore n taken hfull finished =>
    next hret =>
    have htaken : Holds start (data++more.take n) taken := h.toHolds.round more
    have hcount : taken.capacity.toNat≤taken.count.toNat := by
      by_contra hlt
      have hfinish : finished=_ := chunksFinishCurrent_of_lt (Nat.lt_of_not_ge hlt)
      rw [hfinish] at hret
      exact hzero hret
    have hlength : (data++more.take n).length=chunks.limit :=
      htaken.length_of_full hfull hcount
    have hsplit : data++more=data++more.take n++more.drop n := by
      rw [List.append_assoc,List.take_append_drop]
    have hfinished : finished=(-2,taken) := chunksFinishCurrent_of_le hcount
    rw [hfinished,hsplit,List.take_left' hlength,if_pos]
    · exact ⟨⟨htaken,fun _ => hcount⟩,rfl⟩
    · refine ⟨hmore,?_⟩
      rw [List.length_append]
      omega
  | case3 chunks more hmore n taken hfull finished hret =>
    next ih =>
    have htaken : Holds start (data++more.take n) taken := h.toHolds.round more
    have hcount : taken.count.toNat<taken.capacity.toNat := by
      by_contra hle
      have hfinish : finished=_ := chunksFinishCurrent_of_le (Nat.le_of_not_lt hle)
      rw [hfinish] at hret
      exact hret hneg
    have hfinished := htaken.finished hfull hcount
    have hlimit : finished.2.limit=chunks.limit := by
      have heq : finished=_ := chunksFinishCurrent_of_lt hcount
      rw [heq]
      rfl
    exact update_resumed hmore hfinished.toHolds (finished_open hret) hlimit (ih hfinished)
  | case4 chunks more hmore n taken hopen =>
    next ih =>
    have htaken : Holds start (data++more.take n) taken := h.toHolds.round more
    exact update_resumed hmore htaken hopen rfl
      (ih ⟨htaken,fun hfull => absurd hfull hopen⟩)

/-- A manifest takes bytes up to its limit over several updates too. -/
theorem take_take_append (limit : ℕ) (a b : List UInt8) :
    (a.take limit++b).take limit=(a++b).take limit := by
  rw [List.take_append,List.take_append,List.take_take,Nat.min_self,List.length_take]
  by_cases h : limit≤a.length
  · rw [Nat.min_eq_left h,Nat.sub_self,Nat.sub_eq_zero_of_le h]
  · rw [Nat.min_eq_right (Nat.le_of_not_le h)]

/-- The limit is that of the manifest as it was started. -/
theorem Holds.limit_eq (h : Holds start data chunks) : chunks.limit=start.limit := by
  unfold ClCrc32Chunks.limit
  rw [h.capacity_eq,h.chunkSize_eq]

/-- After any updates a manifest holds what they brought, up to the limit. -/
theorem updates_settled (h : Settled start data chunks) (parts : List (List UInt8)) :
    Settled start ((data++parts.flatten).take start.limit) (updates chunks parts).2 := by
  induction parts generalizing data chunks with
  | nil =>
    have hle := h.length_le
    rw [h.limit_eq] at hle
    rw [List.flatten_nil,List.append_nil,List.take_of_length_le hle]
    exact h
  | cons part parts ih =>
    have hupdate := (clCrc32ChunksUpdate_spec part h).1
    have hrest := ih hupdate
    rw [h.limit_eq,take_take_append,List.append_assoc] at hrest
    exact hrest

/-- Below the limit no update fails. -/
theorem updates_succeed (h : Settled start data chunks) (parts : List (List UInt8))
    (hlimit : (data++parts.flatten).length<start.limit) :
    ∀ ret∈(updates chunks parts).1,ret=0 := by
  induction parts generalizing data chunks with
  | nil => exact fun ret hret => (by cases hret)
  | cons part parts ih =>
    obtain ⟨hnext,hret⟩ := clCrc32ChunksUpdate_spec part h
    rw [List.flatten_cons,←List.append_assoc,List.length_append] at hlimit
    have htake : (data++part).take chunks.limit=data++part := by
      apply List.take_of_length_le
      rw [h.limit_eq]
      omega
    rw [htake] at hnext
    rw [h.limit_eq,if_neg (by omega)] at hret
    intro ret hmem
    rcases List.mem_cons.mp hmem with rfl | hmem
    · exact hret
    · refine ih hnext ?_ ret hmem
      rw [List.length_append]
      exact hlimit

/-- The manifest is finished if there are places for all chunks: the array then holds
the check of each. -/
theorem Settled.finish (h : Settled start data chunks)
    (hfits : chunkCount start.chunkSize.toNat data.length≤ start.capacity.toNat) :
    (clCrc32ChunksFinish chunks).1=0 ∧
      (clCrc32ChunksFinish chunks).2.list=chunkCrcs start.chunkSize.toNat data := by
  have hsize := chunks.chunkSize_pos
  have hlength := h.length_eq
  have hbytes := h.chunkBytes_le
  have hcount := h.count_le
  rw [←h.capacity_eq,←h.chunkSize_eq] at hfits
  have hbound := (chunkCount_le_iff hsize _ _).mp hfits
  have hrest : chunks.chunkBytes.toNat<chunks.chunkSize.toNat := by
    by_contra hfull
    have heq : chunks.chunkBytes=chunks.chunkSize := UInt32.toNat_inj.mp (by omega)
    have hlimit := h.toHolds.length_of_full heq (h.full heq)
    unfold ClCrc32Chunks.limit at hlimit
    rw [Nat.succ_mul] at hlimit
    omega
  have hchunks := chunkCount_of_eq chunks.count.toNat hrest
  rw [hlength] at hchunks
  have hlist : ∀ (last : ClCrc32Chunks),last.count.toNat=
      chunkCount chunks.chunkSize.toNat data.length → (∀ i<last.count.toNat,last.values i=
        clCrc32Calculate (chunkSlice chunks.chunkSize.toNat data i)) →
      last.list=chunkCrcs chunks.chunkSize.toNat data := by
    intro last hlast hvalues
    unfold ClCrc32Chunks.list chunkCrcs
    rw [←hlast]
    exact List.map_congr_left fun i hi => hvalues i (List.mem_range.mp hi)
  rw [←h.chunkSize_eq]
  unfold clCrc32ChunksFinish
  by_cases hzero : chunks.chunkBytes=0
  · rw [if_neg (not_not.mpr hzero)]
    rw [hzero] at hchunks
    refine ⟨rfl,hlist chunks hchunks.symm fun i hi => ?_⟩
    rw [h.values_eq i,if_pos hi]
  · have hpos : 0<chunks.chunkBytes.toNat := by
      have hne : chunks.chunkBytes.toNat≠0 := fun heq => hzero (UInt32.toNat_inj.mp heq)
      omega
    rw [if_neg (by omega)] at hchunks
    have hplace : chunks.count.toNat<chunks.capacity.toNat := by omega
    have hadd := toNat_count_add hplace
    rw [if_pos hzero]
    have hvalues := h.toHolds.finished_values hplace
    rw [chunksFinishCurrent_of_lt hplace] at hvalues ⊢
    refine ⟨rfl,hlist _ (hadd.trans hchunks.symm) fun i hi => ?_⟩
    rw [hvalues i]
    dsimp only at hi
    rw [hadd] at hi
    exact if_pos hi

/-- Otherwise it is not. -/
theorem Settled.finish_fails (h : Settled start data chunks)
    (hfits : start.capacity.toNat<chunkCount start.chunkSize.toNat data.length) :
    (clCrc32ChunksFinish chunks).1=-2 := by
  have hsize := chunks.chunkSize_pos
  have hlength := h.length_eq
  have hbytes := h.chunkBytes_le
  have hcount := h.count_le
  rw [←h.capacity_eq,←h.chunkSize_eq] at hfits
  have hbound : chunks.capacity.toNat*chunks.chunkSize.toNat<data.length := by
    by_contra hle
    have hfew := (chunkCount_le_iff hsize data.length _).mpr (Nat.le_of_not_lt hle)
    omega
  have hfull : chunks.capacity.toNat≤ chunks.count.toNat := by
    by_contra hlt
    have hmul : (chunks.count.toNat+1)*chunks.chunkSize.toNat≤
        chunks.capacity.toNat*chunks.chunkSize.toNat := Nat.mul_le_mul_right _ (by omega)
    rw [Nat.succ_mul] at hmul
    have heq : chunks.chunkBytes=chunks.chunkSize := UInt32.toNat_inj.mp (by omega)
    exact hlt (h.full heq)
  have hopen : chunks.chunkBytes≠0 := by
    intro hzero
    have hmul := Nat.mul_le_mul_right chunks.chunkSize.toNat hcount
    have hnone : chunks.chunkBytes.toNat=0 := congrArg UInt32.toNat hzero
    omega
  unfold clCrc32ChunksFinish
  rw [if_pos hopen,chunksFinishCurrent_of_le hfull]

/-- A manifest that was just started holds nothing. -/
theorem settled_init {chunkSize capacity : UInt32} {values : ℕ → UInt32}
    (h : clCrc32ChunksInit chunkSize values capacity=some chunks) :
    Settled chunks [] chunks ∧ chunks.chunkSize=chunkSize ∧ chunks.capacity=capacity ∧
      chunks.values=values := by
  unfold clCrc32ChunksInit at h
  split at h
  next hpos =>
    obtain rfl := Option.some.inj h
    have hzero : (0 : UInt32).toNat=0 := rfl
    refine ⟨⟨⟨rfl,rfl,Nat.zero_le _,Nat.zero_le _,?_,rfl,?_,fun i => ?_⟩,fun hfull => ?_⟩,
      rfl,rfl,rfl⟩
    · dsimp only
      rw [hzero,Nat.zero_mul]
      rfl
    · rw [List.drop_nil,clCrc32Update_nil]
    · exact (if_neg (Nat.not_lt_zero i)).symm
    · have hfull : 0=chunkSize.toNat := congrArg UInt32.toNat hfull
      omega
  next => cases h

end Chunks

end ChisLink.Crc32Chunks
