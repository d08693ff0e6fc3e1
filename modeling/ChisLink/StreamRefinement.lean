import ChisLink.StreamRing

/-!
# The slot ring refines a queue of chunks

The unread contents of a stream are the bytes of its ready slots from
`read_slot` on, without the consumed part of the first one. Under the ring
invariant every call acts on these contents as the queue operation of the same
name, with the same result, and the span in the producer's hands lies outside
the unread bytes.
-/

namespace ChisLink.StreamRefinement

open LabelledRuns CircularFifo StreamRing

/-- The slots with unread data, oldest first. -/
def readySlotList (stream : Stream) : List ℕ :=
  occupied stream.slotCount stream.readSlot stream.readySlots

/-- The committed bytes of a slot. -/
def slotBytes (stream : Stream) (k : ℕ) : List UInt8 :=
  (stream.buffer.drop (k*stream.slotSize)).take (slotAt stream k).length

/-- Drop a prefix of the first chunk. -/
def trimFirst {β : Type*} (consumed : ℕ) : List (List β) → List (List β)
  | [] => []
  | chunk::rest => chunk.drop consumed::rest

/-- The unread chunks of a stream. -/
def chunks (stream : Stream) : List (List UInt8) :=
  trimFirst stream.readOffset ((readySlotList stream).map (slotBytes stream))

/-- The bytes of the slot that the producer fills next. -/
def spanBytes (stream : Stream) : List UInt8 :=
  (stream.buffer.drop (stream.writeSlot*stream.slotSize)).take stream.slotSize

/-- A position of the buffer with a byte that was committed and not consumed. -/
def Unread (stream : Stream) (position : ℕ) : Prop :=
  ∃ k∈readySlotList stream,
    k*stream.slotSize+(if k=stream.readSlot then stream.readOffset else 0)≤position ∧
    position<k*stream.slotSize+(slotAt stream k).length

/-- The ring invariant of a stream. -/
structure Valid (stream : Stream) : Prop where
  /-- There is a slot, and the index is an eight-bit number. -/
  slotCount : 0<stream.slotCount ∧ stream.slotCount<256
  /-- A slot is not empty. -/
  slotSize : 0<stream.slotSize
  /-- The slot table has its size. -/
  slots : stream.slots.length=stream.slotCount
  /-- The buffer has its size. -/
  buffer : stream.buffer.length=stream.bufferSize
  /-- All slots lie within the buffer. -/
  capacity : stream.slotCount*stream.slotSize≤ stream.bufferSize
  /-- The consumer is at a slot. -/
  readSlot : stream.readSlot<stream.slotCount
  /-- Not more slots are ready than there are. -/
  readySlots : stream.readySlots≤ stream.slotCount
  /-- The producer is behind the ready slots. -/
  writeSlot : stream.writeSlot=(advance stream.slotCount)^[stream.readySlots] stream.readSlot
  /-- Ready slots are marked so and hold data that fits. -/
  ready : ∀ k∈readySlotList stream,(slotAt stream k).flags &&& clpStreamSlotReady≠0 ∧
    0<(slotAt stream k).length ∧ (slotAt stream k).length≤ stream.slotSize
  /-- An empty ring has no consumed part, and a consumed part is a proper one. -/
  readOffset : (stream.readySlots=0 → stream.readOffset=0) ∧
    (stream.readySlots≠0 → stream.readOffset<(slotAt stream stream.readSlot).length)

/-- The ring invariant with the span in the producer's hands. -/
structure ValidRing (ring : Ring) : Prop where
  /-- The stream is valid. -/
  stream : Valid ring.stream
  /-- A span that is held is the free slot of the producer. -/
  held : ∀ start capacity,ring.held=some (start,capacity) →
    start=ring.stream.writeSlot*ring.stream.slotSize ∧ capacity=ring.stream.slotSize ∧
      ring.stream.readySlots< ring.stream.slotCount

/-- The first of the ready slots is the one of the consumer. -/
theorem readySlotList_cons {stream : Stream} (h : stream.readySlots≠0) :
    readySlotList stream=stream.readSlot::
      occupied stream.slotCount (advance stream.slotCount stream.readSlot)
        (stream.readySlots-1) := by
  have hsucc : stream.readySlots=stream.readySlots-1+1 := by omega
  rw [readySlotList,hsucc,occupied_succ,Nat.add_sub_cancel]

/-- As many chunks as ready slots. -/
theorem length_chunks (stream : Stream) : (chunks stream).length=stream.readySlots := by
  have hlength := length_occupied stream.slotCount stream.readSlot stream.readySlots
  unfold chunks readySlotList
  cases h : occupied stream.slotCount stream.readSlot stream.readySlots with
  | nil =>
    rw [h,List.length_nil] at hlength
    exact hlength
  | cons k ks =>
    rw [h,List.length_cons] at hlength
    simp only [List.map_cons,trimFirst,List.length_cons,List.length_map,hlength]

/-- A stream without ready slots has no chunks. -/
theorem chunks_eq_nil {stream : Stream} (h : stream.readySlots=0) : chunks stream=[] := by
  have hlength := length_chunks stream
  rw [h] at hlength
  exact List.length_eq_zero_iff.mp hlength

/-- The first chunk is the rest of the slot of the consumer. -/
theorem chunks_cons {stream : Stream} (h : stream.readySlots≠0) :
    chunks stream=(slotBytes stream stream.readSlot).drop stream.readOffset::
      (occupied stream.slotCount (advance stream.slotCount stream.readSlot)
        (stream.readySlots-1)).map (slotBytes stream) := by
  rw [chunks,readySlotList_cons h]
  rfl

/-- The next slot index is the next index of the ring. -/
theorem nextSlot_eq {stream : Stream} (hV : Valid stream) {k : ℕ} (hk : k<stream.slotCount) :
    nextSlot stream k=advance stream.slotCount k := by
  have hcount := hV.slotCount.2
  unfold nextSlot advance
  rw [Nat.mod_eq_of_lt (by omega : k+1<256)]
  split <;> split <;> omega

/-- The slot of the producer lies in the table. -/
theorem Valid.writeSlot_lt {stream : Stream} (hV : Valid stream) :
    stream.writeSlot<stream.slotCount := by
  rw [hV.writeSlot]
  exact advance_iterate_lt hV.readSlot _

/-- The slot of the producer is not ready unless the ring is full. -/
theorem Valid.writeSlot_free {stream : Stream} (hV : Valid stream)
    (hroom : stream.readySlots<stream.slotCount) :
    stream.writeSlot∉readySlotList stream := by
  rw [hV.writeSlot]
  exact next_not_mem_occupied hV.readSlot hroom

/-- The slots lie one behind the other in the buffer. -/
theorem slot_disjoint {z k w p : ℕ} (hkw : k≠w) (hk : k*z≤p) (hk' : p<k*z+z)
    (hw : w*z≤p) (hw' : p<w*z+z) : False := by
  rcases Nat.lt_or_gt_of_ne hkw with h | h
  · have hmul := Nat.mul_le_mul_right z h
    rw [Nat.succ_mul] at hmul
    omega
  · have hmul := Nat.mul_le_mul_right z h
    rw [Nat.succ_mul] at hmul
    omega

/-- A write outside a part of a list does not change that part. -/
theorem take_drop_set {β : Type*} (l : List β) (start length position : ℕ) (b : β)
    (h : position<start ∨ start+length≤position) :
    ((l.set position b).drop start).take length=(l.drop start).take length := by
  refine List.ext_getElem? fun i => ?_
  rw [List.getElem?_take,List.getElem?_take,List.getElem?_drop,List.getElem?_drop]
  split
  · rw [List.getElem?_set_ne (by omega)]
  · rfl

/-- Reading another slot record than the one that was written. -/
theorem slotAt_set_ne {stream : Stream} {j k : ℕ} {slot : StreamSlot} (h : k≠j) :
    (stream.slots.set j slot).getD k clearSlot=slotAt stream k := by
  rw [slotAt,List.getD_eq_getElem?_getD,List.getD_eq_getElem?_getD,
    List.getElem?_set_ne (Ne.symm h)]

/-- Reading the slot record that was written. -/
theorem slotAt_set_self {stream : Stream} {j : ℕ} {slot : StreamSlot}
    (h : j<stream.slots.length) : (stream.slots.set j slot).getD j clearSlot=slot := by
  rw [List.getD_eq_getElem?_getD,List.getElem?_set_self h,Option.getD_some]

/-- Trimming nothing changes nothing. -/
theorem trimFirst_zero {β : Type*} (queue : List (List β)) : trimFirst 0 queue=queue := by
  cases queue <;> rfl

/-- A chunk at the end is not trimmed, unless it is the first one. -/
theorem trimFirst_append {β : Type*} {consumed : ℕ} {queue : List (List β)} {chunk : List β}
    (h : queue=[] → consumed=0) :
    trimFirst consumed (queue++[chunk])=trimFirst consumed queue++[chunk] := by
  cases queue with
  | nil => rw [h rfl,trimFirst_zero,trimFirst_zero]
  | cons first rest => rfl

/-- The result code of a queue operation. -/
def ofFifo : Result → StreamResult
  | .ok => .ok
  | .full => .full
  | .empty => .empty
  | .tooLarge => .tooLarge

/-- The stream after a commit that succeeds. -/
def committed (stream : Stream) (offset : UInt32) (length : ℕ) : Stream :=
  { stream with
    slots := stream.slots.set stream.writeSlot ⟨offset,length,clpStreamSlotReady⟩
    rxOffset := offset+UInt32.ofNat length
    writeSlot := nextSlot stream stream.writeSlot
    readySlots := (stream.readySlots+1)%256 }

/-- On a valid stream only a full ring and a bad length make a commit fail. -/
theorem commitAt_eq {stream : Stream} (hV : Valid stream) (offset : UInt32) (length : ℕ) :
    clStreamProducerCommitAt stream offset length=
      if stream.slotCount≤ stream.readySlots then (stream,.full)
      else if length=0 ∨ stream.slotSize<length then (stream,.tooLarge)
      else (committed stream offset length,.ok) := by
  have hcount := hV.slotCount.1
  have hsize := hV.slotSize
  have hready := hV.readySlots
  have hwrite := hV.writeSlot_lt
  unfold clStreamProducerCommitAt
  rw [if_neg (by omega)]
  rfl

/-- The slots that are ready after a commit. -/
theorem readySlotList_committed {stream : Stream} (hV : Valid stream)
    (hroom : stream.readySlots<stream.slotCount) (offset : UInt32) (length : ℕ) :
    readySlotList (committed stream offset length)=
      readySlotList stream++[stream.writeSlot] := by
  have hcount := hV.slotCount.2
  have hmod : (stream.readySlots+1)%256=stream.readySlots+1 := Nat.mod_eq_of_lt (by omega)
  unfold readySlotList committed
  dsimp only
  rw [hmod,occupied_succ_last,←hV.writeSlot]

/-- A commit writes the record of the free slot only. -/
theorem slotAt_committed {stream : Stream} (hV : Valid stream) (offset : UInt32) (length k : ℕ) :
    slotAt (committed stream offset length) k=
      if k=stream.writeSlot then ⟨offset,length,clpStreamSlotReady⟩ else slotAt stream k := by
  split
  · rename_i h
    rw [h]
    refine slotAt_set_self ?_
    rw [hV.slots]
    exact hV.writeSlot_lt
  · rename_i h
    exact slotAt_set_ne h

/-- A commit appends the filled prefix of the span as one chunk. -/
theorem chunks_committed {stream : Stream} (hV : Valid stream)
    (hroom : stream.readySlots<stream.slotCount) (offset : UInt32) {length : ℕ}
    (hlength : length≤ stream.slotSize) :
    chunks (committed stream offset length)=
      chunks stream++[(spanBytes stream).take length] := by
  have hfree := hV.writeSlot_free hroom
  have hold : ∀ k∈readySlotList stream,
      slotBytes (committed stream offset length) k=slotBytes stream k := by
    intro k hk
    have hkw : k≠stream.writeSlot := fun h => hfree (h▸hk)
    unfold slotBytes
    rw [slotAt_committed hV,if_neg hkw]
    rfl
  have hnew : slotBytes (committed stream offset length) stream.writeSlot=
      (spanBytes stream).take length := by
    unfold slotBytes spanBytes
    rw [slotAt_committed hV,if_pos rfl,List.take_take,Nat.min_eq_left hlength]
    rfl
  unfold chunks
  rw [readySlotList_committed hV hroom,List.map_append,List.map_congr_left hold,
    List.map_singleton,hnew]
  refine trimFirst_append fun hempty => ?_
  have hnone : stream.readySlots=0 := by
    have hlist := List.map_eq_nil_iff.mp hempty
    have hlen := length_occupied stream.slotCount stream.readSlot stream.readySlots
    rw [show occupied stream.slotCount stream.readSlot stream.readySlots=[] from hlist] at hlen
    exact hlen.symm
  exact hV.readOffset.1 hnone

/-- A commit keeps the ring invariant. -/
theorem valid_committed {stream : Stream} (hV : Valid stream)
    (hroom : stream.readySlots<stream.slotCount) (offset : UInt32) {length : ℕ}
    (hpos : 0<length) (hlength : length≤ stream.slotSize) :
    Valid (committed stream offset length) := by
  have hcount := hV.slotCount.2
  have hmod : (stream.readySlots+1)%256=stream.readySlots+1 := Nat.mod_eq_of_lt (by omega)
  have hfree := hV.writeSlot_free hroom
  refine ⟨hV.slotCount,hV.slotSize,?_,hV.buffer,hV.capacity,hV.readSlot,?_,?_,?_,?_⟩
  · exact (List.length_set).trans hV.slots
  · dsimp only [committed]
    omega
  · dsimp only [committed]
    rw [hmod,Function.iterate_succ_apply',←hV.writeSlot,nextSlot_eq hV hV.writeSlot_lt]
  · intro k hk
    rw [readySlotList_committed hV hroom] at hk
    rw [slotAt_committed hV]
    rcases List.mem_append.mp hk with hk | hk
    · have hkw : k≠stream.writeSlot := fun h => hfree (h▸hk)
      rw [if_neg hkw]
      exact hV.ready k hk
    · rw [if_pos (List.mem_singleton.mp hk)]
      exact ⟨by simp [clpStreamSlotReady],hpos,hlength⟩
  · have hsome : (committed stream offset length).readySlots=stream.readySlots+1 := hmod
    refine ⟨fun hnone => by omega,fun _ => ?_⟩
    show stream.readOffset<(slotAt (committed stream offset length) stream.readSlot).length
    rw [slotAt_committed hV]
    by_cases hnone : stream.readySlots=0
    · have hwrite := hV.writeSlot
      rw [hnone,Function.iterate_zero,id] at hwrite
      rw [if_pos hwrite.symm,hV.readOffset.1 hnone]
      exact hpos
    · have hmem : stream.readSlot∈readySlotList stream := by
        rw [readySlotList_cons hnone]
        exact List.mem_cons_self
      have hrw : stream.readSlot≠stream.writeSlot := fun h => hfree (h▸hmem)
      rw [if_neg hrw]
      exact hV.readOffset.2 hnone

/-- A commit refines the append of the queue, with the same result. -/
theorem commitAt_refines {stream : Stream} (hV : Valid stream) (offset : UInt32)
    (length : ℕ) :
    chunks (clStreamProducerCommitAt stream offset length).1=
      (commit stream.slotCount stream.slotSize (chunks stream) (spanBytes stream) length).1 ∧
    (clStreamProducerCommitAt stream offset length).2=
      ofFifo (commit stream.slotCount stream.slotSize (chunks stream)
        (spanBytes stream) length).2 := by
  rw [commitAt_eq hV,commit,length_chunks]
  split
  · exact ⟨rfl,rfl⟩
  · split
    · exact ⟨rfl,rfl⟩
    · exact ⟨chunks_committed hV (by omega) offset (by omega),rfl⟩

/-- A commit keeps the invariant whether it succeeds or not. -/
theorem valid_commitAt {stream : Stream} (hV : Valid stream) (offset : UInt32) (length : ℕ) :
    Valid (clStreamProducerCommitAt stream offset length).1 := by
  rw [commitAt_eq hV]
  split
  · exact hV
  · split
    · exact hV
    · exact valid_committed hV (by omega) offset (by omega) (by omega)

/-- The stream after a release that succeeds. -/
def released (stream : Stream) : Stream :=
  { stream with
    slots := stream.slots.set stream.readSlot
      { slotAt stream stream.readSlot with flags := clpStreamSlotConsumed, length := 0 }
    readOffset := 0
    readSlot := nextSlot stream stream.readSlot
    readySlots := stream.readySlots-1 }

/-- The slot of the consumer is in order as long as some slot is ready. -/
theorem Valid.front {stream : Stream} (hV : Valid stream) (hsome : stream.readySlots≠0) :
    ¬((slotAt stream stream.readSlot).flags &&& clpStreamSlotReady=0 ∨
      (slotAt stream stream.readSlot).length=0) ∧
    ¬(stream.slotSize<(slotAt stream stream.readSlot).length ∨
      (slotAt stream stream.readSlot).length≤ stream.readOffset) := by
  have hmem : stream.readSlot∈readySlotList stream := by
    rw [readySlotList_cons hsome]
    exact List.mem_cons_self
  obtain ⟨hflags,hpos,hfits⟩ := hV.ready _ hmem
  have hoffset := hV.readOffset.2 hsome
  refine ⟨?_,by omega⟩
  rintro (h | h)
  · exact hflags h
  · omega

/-- On a valid stream a release fails only when no slot is ready. -/
theorem release_eq {stream : Stream} (hV : Valid stream) :
    clStreamConsumerRelease stream=
      if stream.readySlots=0 then (stream,.empty) else (released stream,.ok) := by
  have hcount := hV.slotCount.1
  have hready := hV.readySlots
  have hread := hV.readSlot
  unfold clStreamConsumerRelease
  rw [if_neg (by omega)]
  split
  · rfl
  · rename_i hsome
    obtain ⟨hfront,hfits⟩ := hV.front hsome
    dsimp only
    rw [if_neg]
    · rfl
    · rw [←or_assoc]
      exact not_or.mpr ⟨hfront,hfits⟩

/-- A release drops the first chunk. -/
theorem chunks_released {stream : Stream} (hV : Valid stream) (hsome : stream.readySlots≠0) :
    chunks (released stream)=
      (occupied stream.slotCount (advance stream.slotCount stream.readSlot)
        (stream.readySlots-1)).map (slotBytes stream) := by
  have hnodup : (readySlotList stream).Nodup := occupied_nodup hV.readSlot hV.readySlots
  rw [readySlotList_cons hsome,List.nodup_cons] at hnodup
  unfold chunks readySlotList
  dsimp only [released]
  rw [trimFirst_zero,nextSlot_eq hV hV.readSlot]
  refine List.map_congr_left fun k hk => ?_
  have hkr : k≠stream.readSlot := fun h => hnodup.1 (h▸hk)
  unfold slotBytes
  rw [slotAt,slotAt_set_ne hkr]

/-- A release keeps the ring invariant. -/
theorem valid_released {stream : Stream} (hV : Valid stream) (hsome : stream.readySlots≠0) :
    Valid (released stream) := by
  have hnodup : (readySlotList stream).Nodup := occupied_nodup hV.readSlot hV.readySlots
  have hready := hV.readySlots
  have hlist := readySlotList_cons hsome
  rw [hlist,List.nodup_cons] at hnodup
  have hnext := nextSlot_eq hV hV.readSlot
  have hlist' : readySlotList (released stream)=
      occupied stream.slotCount (advance stream.slotCount stream.readSlot)
        (stream.readySlots-1) := by
    unfold readySlotList
    dsimp only [released]
    rw [hnext]
  have hslot : ∀ k∈readySlotList (released stream),slotAt (released stream) k=slotAt stream k := by
    intro k hk
    rw [hlist'] at hk
    exact slotAt_set_ne fun h => hnodup.1 (h▸hk)
  have hmem : ∀ k∈readySlotList (released stream),k∈readySlotList stream := by
    intro k hk
    rw [hlist'] at hk
    rw [hlist]
    exact List.mem_cons_of_mem _ hk
  refine ⟨hV.slotCount,hV.slotSize,?_,hV.buffer,hV.capacity,?_,?_,?_,?_,?_⟩
  · exact (List.length_set).trans hV.slots
  · dsimp only [released]
    rw [hnext]
    exact advance_lt hV.readSlot
  · dsimp only [released]
    omega
  · dsimp only [released]
    have hsucc : stream.readySlots=stream.readySlots-1+1 := by omega
    rw [hV.writeSlot,hnext,←Function.iterate_succ_apply,Nat.succ_eq_add_one,←hsucc]
  · intro k hk
    rw [hslot k hk]
    exact hV.ready k (hmem k hk)
  · refine ⟨fun _ => rfl,fun hmore => ?_⟩
    have hfront : (released stream).readSlot∈readySlotList (released stream) := by
      rw [readySlotList_cons hmore]
      exact List.mem_cons_self
    rw [hslot _ hfront]
    exact (hV.ready _ (hmem _ hfront)).2.1

/-- A release refines the release of the queue, with the same result. -/
theorem release_refines {stream : Stream} (hV : Valid stream) :
    chunks (clStreamConsumerRelease stream).1=(release (chunks stream)).1 ∧
    (clStreamConsumerRelease stream).2=ofFifo (release (chunks stream)).2 := by
  rw [release_eq hV]
  split
  · rename_i hnone
    rw [chunks_eq_nil hnone]
    exact ⟨rfl,rfl⟩
  · rename_i hsome
    rw [chunks_cons hsome]
    exact ⟨chunks_released hV hsome,rfl⟩

/-- A release keeps the invariant whether it succeeds or not. -/
theorem valid_release {stream : Stream} (hV : Valid stream) :
    Valid (clStreamConsumerRelease stream).1 := by
  rw [release_eq hV]
  split
  · exact hV
  · exact valid_released hV ‹_›

/-- The rest of the first chunk is as long as the consumer computes. -/
theorem length_front {stream : Stream} (hV : Valid stream) (hsome : stream.readySlots≠0) :
    ((slotBytes stream stream.readSlot).drop stream.readOffset).length=
      (slotAt stream stream.readSlot).length-stream.readOffset := by
  have hmem : stream.readSlot∈readySlotList stream := by
    rw [readySlotList_cons hsome]
    exact List.mem_cons_self
  have hfits := (hV.ready _ hmem).2.2
  have hmul := Nat.mul_le_mul_right stream.slotSize hV.readSlot
  have hcapacity := hV.capacity
  rw [Nat.succ_mul] at hmul
  rw [List.length_drop,slotBytes,List.length_take,List.length_drop,hV.buffer,
    Nat.min_eq_left (by omega)]

/-- The stream after a part of the first chunk was released. -/
def advanced (stream : Stream) (length : ℕ) : Stream :=
  { stream with readOffset := stream.readOffset+length }

/-- Releasing a proper part of the first chunk keeps the ring invariant. -/
theorem valid_advanced {stream : Stream} (hV : Valid stream) (hsome : stream.readySlots≠0)
    {length : ℕ}
    (hpart : length<(slotAt stream stream.readSlot).length-stream.readOffset) :
    Valid (advanced stream length) := by
  refine ⟨hV.slotCount,hV.slotSize,hV.slots,hV.buffer,hV.capacity,hV.readSlot,hV.readySlots,
    hV.writeSlot,hV.ready,?_⟩
  refine ⟨fun hnone => absurd hnone hsome,fun _ => ?_⟩
  show stream.readOffset+length<(slotAt stream stream.readSlot).length
  omega

/-- On a valid stream the bytes of a release are checked against the first chunk. -/
theorem releaseBytes_eq {stream : Stream} (hV : Valid stream) {length : ℕ} (hpos : length≠0) :
    clStreamConsumerReleaseBytes stream length=
      if stream.readySlots=0 then (stream,.empty)
      else if (slotAt stream stream.readSlot).length-stream.readOffset<length then
        (stream,.tooLarge)
      else if length<(slotAt stream stream.readSlot).length-stream.readOffset then
        (advanced stream length,.ok)
      else clStreamConsumerRelease stream := by
  have hcount := hV.slotCount.1
  have hready := hV.readySlots
  have hread := hV.readSlot
  unfold clStreamConsumerReleaseBytes
  rw [if_neg hpos,if_neg (by omega)]
  split
  · rfl
  · rename_i hsome
    obtain ⟨hfront,hfits⟩ := hV.front hsome
    dsimp only
    rw [if_neg]
    · rfl
    · rw [←or_assoc]
      exact not_or.mpr ⟨hfront,hfits⟩

/-- Releasing bytes refines the same operation of the queue, with the same result. -/
theorem releaseBytes_refines {stream : Stream} (hV : Valid stream) (length : ℕ) :
    chunks (clStreamConsumerReleaseBytes stream length).1=
      (releaseBytes (chunks stream) length).1 ∧
    (clStreamConsumerReleaseBytes stream length).2=
      ofFifo (releaseBytes (chunks stream) length).2 := by
  by_cases hpos : length=0
  · unfold clStreamConsumerReleaseBytes releaseBytes
    rw [if_pos hpos,if_pos hpos]
    exact ⟨rfl,rfl⟩
  · rw [releaseBytes_eq hV hpos]
    unfold releaseBytes
    rw [if_neg hpos]
    by_cases hsome : stream.readySlots=0
    · rw [if_pos hsome,chunks_eq_nil hsome]
      exact ⟨rfl,rfl⟩
    · have hcons := chunks_cons hsome
      have hrest := chunks_released hV hsome
      rw [if_neg hsome,hcons]
      dsimp only
      rw [length_front hV hsome]
      split
      · rw [hcons]
        exact ⟨rfl,rfl⟩
      · split
        · refine ⟨?_,rfl⟩
          have hcons' : chunks (advanced stream length)=_ := chunks_cons hsome
          rw [hcons',List.drop_drop]
          rfl
        · rw [release_eq hV,if_neg hsome,hrest]
          exact ⟨rfl,rfl⟩

/-- Releasing bytes keeps the invariant whether it succeeds or not. -/
theorem valid_releaseBytes {stream : Stream} (hV : Valid stream) (length : ℕ) :
    Valid (clStreamConsumerReleaseBytes stream length).1 := by
  by_cases hpos : length=0
  · unfold clStreamConsumerReleaseBytes
    rw [if_pos hpos]
    exact hV
  · rw [releaseBytes_eq hV hpos]
    split
    · exact hV
    · rename_i hsome
      split
      · exact hV
      · split
        · rename_i hpart
          exact valid_advanced hV hsome hpart
        · exact valid_release hV

/-- Reset empties the ring. -/
theorem valid_reset {stream : Stream} (hV : Valid stream) : Valid (clStreamReset stream) := by
  refine ⟨hV.slotCount,hV.slotSize,List.length_replicate,hV.buffer,hV.capacity,
    hV.slotCount.1,Nat.zero_le _,rfl,?_,fun _ => rfl,fun hsome => absurd rfl hsome⟩
  intro k hk
  cases hk

/-- A stream that was just initialised is an empty valid ring. -/
theorem valid_init {config : StreamConfig} {stream : Stream}
    (h : clStreamInit config=some stream) : Valid stream ∧ stream.readySlots=0 := by
  unfold clStreamInit at h
  split at h
  · rename_i hvalid
    cases h
    unfold streamValidConfig at hvalid
    split at hvalid
    · cases hvalid
    · rename_i hnonzero
      split at hvalid
      · cases hvalid
      · have hcapacity := of_decide_eq_true hvalid
        have hcount : 0<config.slotCount := by omega
        have hsize : 0<config.slotSize := by omega
        refine ⟨⟨⟨hcount,config.slotCount_lt⟩,hsize,List.length_replicate,config.buffer_length,
          hcapacity,hcount,Nat.zero_le _,rfl,?_,fun _ => rfl,fun hsome => absurd rfl hsome⟩,rfl⟩
        intro k hk
        cases hk
  · cases h

/-- A write into the free slot of the producer. -/
def filled (stream : Stream) (position : ℕ) (byte : UInt8) : Stream :=
  { stream with buffer := stream.buffer.set position byte }

/-- Filling the span changes no unread byte. -/
theorem chunks_filled {stream : Stream} (hV : Valid stream)
    (hroom : stream.readySlots<stream.slotCount) {position : ℕ} (byte : UInt8)
    (hstart : stream.writeSlot*stream.slotSize≤position)
    (hend : position<stream.writeSlot*stream.slotSize+stream.slotSize) :
    chunks (filled stream position byte)=chunks stream := by
  have hfree := hV.writeSlot_free hroom
  have hbytes : ∀ k∈readySlotList stream,
      slotBytes (filled stream position byte) k=slotBytes stream k := by
    intro k hk
    have hkw : k≠stream.writeSlot := fun h => hfree (h▸hk)
    have hfits := (hV.ready k hk).2.2
    have hout : position<k*stream.slotSize ∨
        k*stream.slotSize+(slotAt stream k).length≤position := by
      by_contra hin
      exact slot_disjoint hkw (by omega) (by omega) hstart hend
    exact take_drop_set stream.buffer _ _ _ byte hout
  exact congrArg (trimFirst stream.readOffset) (List.map_congr_left hbytes)

/-- Filling the span keeps the ring invariant. -/
theorem valid_filled {stream : Stream} (hV : Valid stream) (position : ℕ) (byte : UInt8) :
    Valid (filled stream position byte) :=
  ⟨hV.slotCount,hV.slotSize,hV.slots,(List.length_set).trans hV.buffer,hV.capacity,hV.readSlot,
    hV.readySlots,hV.writeSlot,hV.ready,hV.readOffset⟩

/-- On a valid stream a span is refused only when all slots are ready. -/
theorem acquire_eq {stream : Stream} (hV : Valid stream) :
    clStreamProducerAcquire stream=
      if stream.slotCount≤ stream.readySlots then (⟨none,0,stream.writeSlot⟩,.full)
      else (⟨some (stream.writeSlot*stream.slotSize),stream.slotSize,stream.writeSlot⟩,.ok) := by
  have hcount := hV.slotCount.1
  have hsize := hV.slotSize
  have hready := hV.readySlots
  unfold clStreamProducerAcquire clStreamCanReceive clStreamFreeCount
  rw [if_neg (by omega),if_neg (by omega : ¬stream.slotCount<stream.readySlots)]
  by_cases hfull : stream.slotCount≤ stream.readySlots
  · rw [if_pos hfull,if_pos]
    simp only [decide_eq_false_iff_not,not_not]
    omega
  · rw [if_neg hfull,if_neg]
    simp only [decide_eq_false_iff_not,not_not]
    omega

/-- The free slot of the producer holds no unread byte. -/
theorem span_not_unread {stream : Stream} (hV : Valid stream)
    (hroom : stream.readySlots<stream.slotCount) {position : ℕ}
    (hstart : stream.writeSlot*stream.slotSize≤position)
    (hend : position<stream.writeSlot*stream.slotSize+stream.slotSize) :
    ¬Unread stream position := by
  rintro ⟨k,hk,hfrom,hto⟩
  have hkw : k≠stream.writeSlot := fun h => hV.writeSlot_free hroom (h▸hk)
  have hfits := (hV.ready k hk).2.2
  exact slot_disjoint hkw (by omega) (by omega) hstart hend

/-- On a valid stream a peek fails only when no slot is ready. -/
theorem peek_eq {stream : Stream} (hV : Valid stream) :
    clStreamConsumerPeek stream=
      if stream.readySlots=0 then (clearView,.empty)
      else
        (⟨some (stream.readSlot*stream.slotSize+stream.readOffset),
          (slotAt stream stream.readSlot).offset+UInt32.ofNat stream.readOffset,
          (slotAt stream stream.readSlot).length-stream.readOffset,
          (slotAt stream stream.readSlot).flags,stream.readSlot⟩,.ok) := by
  have hcount := hV.slotCount.1
  have hready := hV.readySlots
  have hread := hV.readSlot
  unfold clStreamConsumerPeek
  rw [if_neg (by omega)]
  split
  · rfl
  · rename_i hsome
    obtain ⟨hfront,hfits⟩ := hV.front hsome
    dsimp only
    rw [if_neg hfront,if_neg hfits]

/-- The bytes that a view shows. -/
def viewBytes (stream : Stream) (view : StreamView) : Option (List UInt8) :=
  view.data.map fun start => (stream.buffer.drop start).take view.length

/-- A peek succeeds exactly on a queue with chunks and shows the first one. -/
theorem peek_refines {stream : Stream} (hV : Valid stream) :
    viewBytes stream (clStreamConsumerPeek stream).1=peek (chunks stream) ∧
    ((clStreamConsumerPeek stream).2=.ok ↔ chunks stream≠[]) := by
  rw [peek_eq hV]
  by_cases hsome : stream.readySlots=0
  · rw [if_pos hsome,chunks_eq_nil hsome]
    exact ⟨rfl,by simp⟩
  · rw [if_neg hsome,chunks_cons hsome]
    refine ⟨?_,by simp⟩
    unfold viewBytes slotBytes peek
    rw [Option.map_some,List.head?_cons,List.drop_take,List.drop_drop]

/-- What a call returns. -/
def resultOf (stream : Stream) : Call → StreamResult
  | .reset => .ok
  | .acquire => (clStreamProducerAcquire stream).2
  | .fill _ _ => .ok
  | .commit length => (clStreamProducerCommit stream length).2
  | .commitAt offset length => (clStreamProducerCommitAt stream offset length).2
  | .peek => (clStreamConsumerPeek stream).2
  | .release => (clStreamConsumerRelease stream).2
  | .releaseBytes length => (clStreamConsumerReleaseBytes stream length).2

/-- The same call on the abstract queue; a commit takes the bytes of the span. -/
def fifoCall (capacity size : ℕ) (queue : List (List UInt8)) (span : List UInt8) :
    Call → List (List UInt8)×Result
  | .reset => ([],.ok)
  | .acquire => (queue,if capacity≤queue.length then .full else .ok)
  | .fill _ _ => (queue,.ok)
  | .commit length => commit capacity size queue span length
  | .commitAt _ length => commit capacity size queue span length
  | .peek => (queue,if queue=[] then .empty else .ok)
  | .release => release queue
  | .releaseBytes length => releaseBytes queue length

/-- A commit that fails changes nothing. -/
theorem afterCommit_error {ring : Ring} (hV : Valid ring.stream) {offset : UInt32}
    {length : ℕ} (h : (clStreamProducerCommitAt ring.stream offset length).2≠.ok) :
    afterCommit ring (clStreamProducerCommitAt ring.stream offset length)=ring := by
  unfold afterCommit
  rw [if_neg h]
  rw [commitAt_eq hV] at h ⊢
  split
  · rfl
  · split
    · rfl
    · rename_i hroom hlength
      rw [if_neg hroom,if_neg hlength] at h
      exact absurd rfl h

/-- A commit keeps the invariant of the ring. -/
theorem validRing_afterCommit {ring : Ring} (hV : ValidRing ring) (offset : UInt32)
    (length : ℕ) :
    ValidRing (afterCommit ring (clStreamProducerCommitAt ring.stream offset length)) := by
  by_cases hok : (clStreamProducerCommitAt ring.stream offset length).2=.ok
  · refine ⟨valid_commitAt hV.stream offset length,?_⟩
    intro start capacity hheld
    unfold afterCommit at hheld
    rw [if_pos hok] at hheld
    cases hheld
  · rw [afterCommit_error hV.stream hok]
    exact hV

/-- A span that is held stays the free slot while the consumer releases. -/
theorem validRing_release {ring : Ring} (hV : ValidRing ring) {stream : Stream}
    (hvalid : Valid stream) (hslot : stream.writeSlot=ring.stream.writeSlot)
    (hsize : stream.slotSize=ring.stream.slotSize)
    (hcount : stream.slotCount=ring.stream.slotCount)
    (hready : stream.readySlots≤ ring.stream.readySlots) :
    ValidRing { ring with stream := stream } := by
  refine ⟨hvalid,fun start capacity hheld => ?_⟩
  obtain ⟨hstart,hcapacity,hroom⟩ := hV.held start capacity hheld
  dsimp only
  rw [hslot,hsize,hcount]
  exact ⟨hstart,hcapacity,by omega⟩

/-- A release moves neither the producer nor the table. -/
theorem release_frame {stream : Stream} (hV : Valid stream) :
    (clStreamConsumerRelease stream).1.writeSlot=stream.writeSlot ∧
    (clStreamConsumerRelease stream).1.slotSize=stream.slotSize ∧
    (clStreamConsumerRelease stream).1.slotCount=stream.slotCount ∧
    (clStreamConsumerRelease stream).1.readySlots≤ stream.readySlots := by
  rw [release_eq hV]
  split
  · exact ⟨rfl,rfl,rfl,le_refl _⟩
  · exact ⟨rfl,rfl,rfl,Nat.sub_le _ _⟩

/-- A release of bytes moves neither the producer nor the table. -/
theorem releaseBytes_frame {stream : Stream} (hV : Valid stream) (length : ℕ) :
    (clStreamConsumerReleaseBytes stream length).1.writeSlot=stream.writeSlot ∧
    (clStreamConsumerReleaseBytes stream length).1.slotSize=stream.slotSize ∧
    (clStreamConsumerReleaseBytes stream length).1.slotCount=stream.slotCount ∧
    (clStreamConsumerReleaseBytes stream length).1.readySlots≤ stream.readySlots := by
  by_cases hpos : length=0
  · unfold clStreamConsumerReleaseBytes
    rw [if_pos hpos]
    exact ⟨rfl,rfl,rfl,le_refl _⟩
  · rw [releaseBytes_eq hV hpos]
    split
    · exact ⟨rfl,rfl,rfl,le_refl _⟩
    · split
      · exact ⟨rfl,rfl,rfl,le_refl _⟩
      · split
        · exact ⟨rfl,rfl,rfl,le_refl _⟩
        · exact release_frame hV

/-- Every call keeps the ring invariant. -/
theorem validRing_step (ring : Ring) (call : Call) (next : Ring) (hV : ValidRing ring)
    (h : step ring call=some next) : ValidRing next := by
  cases call with
  | reset =>
    cases h
    exact ⟨valid_reset hV.stream,fun _ _ hheld => by cases hheld⟩
  | acquire =>
    simp only [step,acquire_eq hV.stream] at h
    split at h
    · rename_i start hspan
      cases h
      split at hspan
      · cases hspan
      · rename_i hroom
        cases hspan
        refine ⟨hV.stream,fun start capacity hheld => ?_⟩
        rw [if_neg hroom] at hheld
        cases hheld
        exact ⟨rfl,rfl,Nat.not_le.mp hroom⟩
    · cases h
      exact hV
  | fill position byte =>
    simp only [step] at h
    split at h
    · rename_i start capacity hheld
      split at h <;> cases h
      exact ⟨valid_filled hV.stream position byte,hV.held⟩
    · cases h
  | commit length =>
    cases h
    exact validRing_afterCommit hV _ length
  | commitAt offset length =>
    cases h
    exact validRing_afterCommit hV offset length
  | peek =>
    cases h
    exact hV
  | release =>
    cases h
    obtain ⟨hslot,hsize,hcount,hready⟩ := release_frame hV.stream
    exact validRing_release hV (valid_release hV.stream) hslot hsize hcount hready
  | releaseBytes length =>
    cases h
    obtain ⟨hslot,hsize,hcount,hready⟩ := releaseBytes_frame hV.stream length
    exact validRing_release hV (valid_releaseBytes hV.stream length) hslot hsize hcount hready

/-- One call acts on the unread chunks as the queue call, with the same result. -/
theorem refines_step {ring next : Ring} {call : Call} (hV : ValidRing ring)
    (h : step ring call=some next) :
    chunks next.stream=(fifoCall ring.stream.slotCount ring.stream.slotSize
      (chunks ring.stream) (spanBytes ring.stream) call).1 ∧
    resultOf ring.stream call=ofFifo (fifoCall ring.stream.slotCount ring.stream.slotSize
      (chunks ring.stream) (spanBytes ring.stream) call).2 := by
  cases call with
  | reset =>
    cases h
    exact ⟨rfl,rfl⟩
  | acquire =>
    have hresult : resultOf ring.stream .acquire=ofFifo
        (if ring.stream.slotCount≤(chunks ring.stream).length then .full else .ok) := by
      dsimp only [resultOf]
      rw [acquire_eq hV.stream,length_chunks]
      split <;> rfl
    refine ⟨?_,hresult⟩
    simp only [step] at h
    split at h <;> cases h <;> rfl
  | fill position byte =>
    refine ⟨?_,rfl⟩
    simp only [step] at h
    split at h
    · rename_i start capacity hheld
      obtain ⟨hstart,hcapacity,hroom⟩ := hV.held start capacity hheld
      split at h <;> cases h
      rename_i hin
      exact chunks_filled hV.stream hroom byte (by omega) (by omega)
    · cases h
  | commit length =>
    cases h
    exact commitAt_refines hV.stream _ length
  | commitAt offset length =>
    cases h
    exact commitAt_refines hV.stream offset length
  | peek =>
    cases h
    refine ⟨rfl,?_⟩
    have hpeek := (peek_refines hV.stream).2
    dsimp only [resultOf,fifoCall]
    by_cases hempty : chunks ring.stream=[]
    · have hnone : ring.stream.readySlots=0 := by
        rw [←length_chunks,hempty]
        rfl
      rw [peek_eq hV.stream,if_pos hnone,if_pos hempty]
      rfl
    · rw [if_neg hempty]
      exact hpeek.mpr hempty
  | release =>
    cases h
    exact release_refines hV.stream
  | releaseBytes length =>
    cases h
    exact releaseBytes_refines hV.stream length

/-- A call that fails leaves the stream and the producer's span alone. -/
theorem error_step {ring next : Ring} {call : Call} (hV : ValidRing ring)
    (h : step ring call=some next) (herror : resultOf ring.stream call≠.ok) : next=ring := by
  have release : (clStreamConsumerRelease ring.stream).2≠.ok →
      (clStreamConsumerRelease ring.stream).1=ring.stream := by
    intro hresult
    rw [release_eq hV.stream] at hresult ⊢
    split
    · rfl
    · rename_i hsome
      rw [if_neg hsome] at hresult
      exact absurd rfl hresult
  cases call with
  | reset => exact absurd rfl herror
  | acquire =>
    dsimp only [resultOf] at herror
    simp only [step] at h
    rw [acquire_eq hV.stream] at herror h
    split at herror
    · rename_i hfull
      rw [if_pos hfull] at h
      cases h
      rfl
    · exact absurd rfl herror
  | fill position byte => exact absurd rfl herror
  | commit length =>
    cases h
    exact afterCommit_error hV.stream herror
  | commitAt offset length =>
    cases h
    exact afterCommit_error hV.stream herror
  | peek =>
    cases h
    rfl
  | release =>
    cases h
    dsimp only [resultOf] at herror
    rw [release herror]
  | releaseBytes length =>
    cases h
    dsimp only [resultOf] at herror
    have hkeep : (clStreamConsumerReleaseBytes ring.stream length).1=ring.stream := by
      by_cases hpos : length=0
      · unfold clStreamConsumerReleaseBytes
        rw [if_pos hpos]
      · rw [releaseBytes_eq hV.stream hpos] at herror ⊢
        split
        · rfl
        · rename_i hsome
          rw [if_neg hsome] at herror
          split
          · rfl
          · rename_i hfits
            rw [if_neg hfits] at herror
            split
            · rename_i hpart
              rw [if_pos hpart] at herror
              exact absurd rfl herror
            · rename_i hpart
              rw [if_neg hpart] at herror
              exact release herror
    rw [hkeep]

/-- What holds of a ring between any two calls and at every call. -/
structure RefinesFifo (ring : Ring) : Prop where
  /-- `ready_slots` counts the chunks. -/
  readySlots : ring.stream.readySlots=(chunks ring.stream).length
  /-- A view shows the first chunk. -/
  peek : viewBytes ring.stream (clStreamConsumerPeek ring.stream).1=peek (chunks ring.stream) ∧
    ((clStreamConsumerPeek ring.stream).2=.ok ↔ chunks ring.stream≠[])
  /-- The span in the producer's hands holds no unread byte. -/
  held : ∀ start capacity position,ring.held=some (start,capacity) → start≤position →
    position<start+capacity → ¬Unread ring.stream position
  /-- Every call acts as the queue call and returns its result. -/
  call : ∀ call next,step ring call=some next →
    chunks next.stream=(fifoCall ring.stream.slotCount ring.stream.slotSize
      (chunks ring.stream) (spanBytes ring.stream) call).1 ∧
    resultOf ring.stream call=ofFifo (fifoCall ring.stream.slotCount ring.stream.slotSize
      (chunks ring.stream) (spanBytes ring.stream) call).2
  /-- A call that fails changes nothing. -/
  error : ∀ call next,step ring call=some next → resultOf ring.stream call≠.ok → next=ring

/-- A valid ring refines its queue. -/
theorem refinesFifo_of_valid {ring : Ring} (hV : ValidRing ring) : RefinesFifo ring := by
  refine ⟨(length_chunks ring.stream).symm,peek_refines hV.stream,?_,
    fun call next h => refines_step hV h,fun call next h => error_step hV h⟩
  intro start capacity position hheld hstart hend
  obtain ⟨hs,hc,hroom⟩ := hV.held start capacity hheld
  exact span_not_unread hV.stream hroom (by omega) (by omega)

/-- From an initialised stream on, through every sequence of calls, the ring
refines a queue of chunks that starts empty. -/
theorem ring_refines_fifo {config : StreamConfig} {stream : Stream}
    {trace : List (Ring×Call)} {last : Ring} (hinit : clStreamInit config=some stream)
    (run : Run step ⟨stream,none⟩ trace last) :
    chunks stream=[] ∧ Always RefinesFifo trace last := by
  obtain ⟨hvalid,hnone⟩ := valid_init hinit
  refine ⟨chunks_eq_nil hnone,run.always_of_last fun {_ last'} run' => ?_⟩
  refine refinesFifo_of_valid (run'.invariant ⟨hvalid,?_⟩ validRing_step)
  intro start capacity hheld
  cases hheld

/-- Two slots of four bytes. -/
def sampleConfig : StreamConfig where
  bufferAddress := 4096
  bufferSize := 8
  buffer := List.replicate 8 0
  buffer_length := rfl
  hasSlots := true
  slotCount := 2
  slotCount_lt := by decide
  slotSize := 4
  slotSize_lt := by decide
  flags := 0
  profile := .balanced

/-- A producer fills and commits two bytes and the consumer releases the first. -/
theorem ring_refines_fifo_sample : ∃ stream trace last,clStreamInit sampleConfig=some stream ∧
    Run step ⟨stream,none⟩ trace last ∧ chunks last.stream=[[9]] ∧
    Always RefinesFifo trace last := by
  obtain ⟨stream,hinit,hexec⟩ := Option.bind_eq_some_iff.mp
    (show ((clStreamInit sampleConfig).bind fun stream =>
        (exec step ⟨stream,none⟩ [.acquire,.fill 0 7,.fill 1 9,.commit 2,.peek,
          .releaseBytes 1]).map fun ring => chunks ring.stream)=some [[9]] by rfl)
  obtain ⟨last,hlast,hchunks⟩ := Option.map_eq_some_iff.mp hexec
  obtain ⟨trace,run⟩ := Run.nil.exec hlast
  exact ⟨stream,trace,last,hinit,run,hchunks,(ring_refines_fifo hinit run).2⟩

end ChisLink.StreamRefinement
