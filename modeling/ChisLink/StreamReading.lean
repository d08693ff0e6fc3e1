import ChisLink.BridgeStream
import ChisLink.StreamClientBoundary
import ChisLink.StreamRefinement

/-!
# Reading a stream

A read or a discard takes its bytes from the ring and receives another slot whenever the ring
is empty. The other side may split what it sends as it likes. What the calls pass of the
stream, and what is left in the ring, is followed over all calls up to the first error.
-/

namespace ChisLink.StreamReading

open DriverPrograms WireProtocol StorageClient StorageBoundary StreamRing StreamRefinement
  WireCommands StreamClient StreamClientBoundary

variable {δ : Type}

section Operations

/-- The variables of the loop of a read. -/
structure ReadState where
  /-- The stream. -/
  stream : Stream
  /-- The value in `out_length`. -/
  outLength : UInt32
  /-- The bytes of the stream that were passed. -/
  passed : List UInt8

/-- What a read or a discard comes to. -/
structure ReadReply where
  /-- The result. -/
  ret : ℤ
  /-- The stream. -/
  stream : Stream
  /-- The value in `out_length`, if it was stored. -/
  outLength : Option UInt32
  /-- The bytes of the stream that were passed. -/
  passed : List UInt8
  /-- The bytes that were stored at the destination. -/
  dst : List UInt8

/-- The stream with an error code. -/
def withError (stream : Stream) (code : ℤ) : Stream := {stream with lastError := code}

/-- A view of the next bytes of the ring, or how the loop ends. -/
def peeked (stream : Stream) : Except (ℤ×Stream) (StreamView×Stream) :=
  match clStreamConsumerPeek stream with
  | (view,.ok) => .ok (view,stream)
  | (_,result) => .error (resultCode result,withError stream (resultCode result))

/-- The first part of the loop of a read: a view of the next bytes, which are received if the
ring is empty, or how the loop ends. -/
def awaitView (transport : Transport δ) (stale : ClpHeader) (stream : Stream) :
    Prog (Link δ) (Except (ℤ×Stream) (StreamView×Stream)) :=
  match clStreamConsumerPeek stream with
  | (_,.empty) => do
    let reply ← (clStreamRecvSlot transport stream).run transport stale
    pure
      (if reply.1<0 then .error (reply.1,withError reply.2 reply.1)
      else if reply.1=0 then .error (0,reply.2)
      else peeked reply.2)
  | _ => pure (peeked stream)

/-- The loop of `stream_read_or_discard`, with old contents of the response headers. -/
def readLoop (transport : Transport δ) (stale : ℕ → ClpHeader) (length : UInt32) :
    ℕ → ReadState → Prog (Link δ) (ℤ×ReadState)
  | 0, _ => fun s => (none,s)
  | fuel+1, st =>
    if st.outLength<length then do
      let ready ← awaitView transport (stale fuel) st.stream
      match ready with
      | .error (ret,stream) => pure (ret,{st with stream := stream})
      | .ok (view,stream) =>
        let wanted := length-st.outLength
        let available := UInt32.ofNat view.length
        let take := if available<wanted then available else wanted
        let passed := st.passed++((viewBytes stream view).getD []).take take.toNat
        match clStreamConsumerReleaseBytes stream (take.toNat%65536) with
        | (stream,.ok) => readLoop transport stale length fuel ⟨stream,st.outLength+take,passed⟩
        | (stream,result) =>
          pure (resultCode result,⟨withError stream (resultCode result),st.outLength,passed⟩)
    else pure (0,st)

/-- The function `stream_read_or_discard`. -/
def streamReadOrDiscard (transport : Transport δ) (stale : ℕ → ClpHeader) (fuel : ℕ)
    (stream : Stream) (length : UInt32) (discard : Bool) : Prog (Link δ) ReadReply :=
  if stream.streamId=0 then pure ⟨-1,stream,none,[],[]⟩
  else do
    let done ← readLoop transport stale length fuel ⟨stream,0,[]⟩
    pure
      { ret := done.1
        stream := done.2.stream
        outLength := some done.2.outLength
        passed := done.2.passed
        dst := if discard then [] else done.2.passed }

/-- The function `cl_stream_read`. -/
def clStreamRead (transport : Transport δ) (stale : ℕ → ClpHeader) (fuel : ℕ)
    (stream : Stream) (length : UInt32) : Prog (Link δ) ReadReply :=
  streamReadOrDiscard transport stale fuel stream length false

/-- The function `cl_stream_discard`. -/
def clStreamDiscard (transport : Transport δ) (stale : ℕ → ClpHeader) (fuel : ℕ)
    (stream : Stream) (length : UInt32) : Prog (Link δ) ReadReply :=
  streamReadOrDiscard transport stale fuel stream length true

/-- The function `cl_stream_read_exact`: its result, and the read that it is made of. -/
def clStreamReadExact (transport : Transport δ) (stale : ℕ → ClpHeader) (fuel : ℕ)
    (stream : Stream) (length : UInt32) : Prog (Link δ) (ℤ×ReadReply) := do
  let reply ← clStreamRead transport stale fuel stream length
  pure
    (if reply.ret<0 then (reply.ret,reply)
    else if reply.outLength.getD 0=length then (0,reply)
    else (-3,reply))

/-- A call on an open stream. -/
structure ReadCall where
  /-- Whether the bytes are discarded. -/
  discard : Bool
  /-- How many. -/
  length : UInt32
  /-- Old contents of the response headers. -/
  stale : ℕ → ClpHeader

/-- Carry it out. -/
def ReadCall.run (transport : Transport δ) (fuel : ℕ) (stream : Stream) (call : ReadCall) :
    Prog (Link δ) ReadReply :=
  if call.discard then clStreamDiscard transport call.stale fuel stream call.length
  else clStreamRead transport call.stale fuel stream call.length

/-- Carry out calls one after another, up to the first one that returns an error. -/
def runCalls (transport : Transport δ) (fuel : ℕ) :
    List ReadCall → Stream → Prog (Link δ) (List ReadReply)
  | [], _ => pure []
  | call::calls, stream => do
    let reply ← call.run transport fuel stream
    if reply.ret<0 then pure [reply]
    else do
      let rest ← runCalls transport fuel calls reply.stream
      pure (reply::rest)

end Operations

/-- What an accepted answer to a receive carries are the next bytes of the remote side, as
many as it likes, and whenever its payload is received as a whole it arrives as it is. The
relation tells how far the remote side is. -/
def SendsNext (transport : Transport δ) (streamId : UInt8) (remote : List UInt8)
    (At : ℕ → δ → Prop) : Prop :=
  ∀ position (s t : Link δ) capacity stale ret response,At position s.device →
    capacity.toNat<65536 → clWireCommandChunks transport clpChStream clpStreamRecv
      [storeLe32 streamId.toUInt32 4++storeLe32 capacity 4] stale s=(some (ret,response),t) →
    0≤ ret → response.imm=clpStatusOk → response.length≤ capacity →
    ∃ data,data<+:remote.drop position ∧ data.length=response.length.toNat ∧
      (data=[] → At position t.device) ∧
      ∀ received u,readPayloadFastOrWords transport response.length t=
          (some (.ok received),u) →
        received=data ∧ At (position+data.length) u.device

section Receiving

variable {transport : Transport δ} {remote : List UInt8} {At : ℕ → δ → Prop}
  {stream : Stream} {stale : ClpHeader} {capacity : UInt32}

/-- A payload that is not received as a whole has a negative code. -/
theorem wp_readPayload_error (transport : Transport δ) (length : UInt32) (s : Link δ) :
    wp (readPayloadFastOrWords transport length)
      (fun reply _ => ∀ code,reply=.error code → code<0) (fun _ => True) s := by
  unfold readPayloadFastOrWords receiveFastOrWords
  rw [wp_bind]
  split
  · rw [wp_bind]
    refine wp_mono (wp_any _ s) (fun reply t _ => ?_) fun _ _ => trivial
    split
    next hneg =>
      rw [wp_bind]
      refine wp_mono (wp_any _ t) (fun _ _ _ => ?_) fun _ _ => trivial
      intro code hcode
      cases hcode
      exact hneg
    next =>
      intro code hcode
      cases hcode
  · rw [wp_bind]
    refine wp_mono (wp_any _ s) (fun words t _ => ?_) fun _ _ => trivial
    intro code hcode
    cases hcode

/-- A receive on an open stream fails or gives the next bytes, and the stream stays as it
is. -/
theorem wp_recvPayload (hserver : SendsNext transport stream.streamId remote At)
    (hopen : stream.streamId≠0) (hcapacity : capacity≠0)
    (hslot : capacity.toNat≤ stream.slotSize) (hsmall : capacity.toNat<65536) {position : ℕ}
    {s : Link δ} (hat : At position s.device) :
    wp ((streamRecvPayload transport (readPayloadFastOrWords transport) stream capacity).run
        transport stale)
      (fun reply t => (∀ code,reply.1=.error code → code<0) ∧
        ∀ received data,reply.1=.ok (received,data) → reply.2=stream ∧ received≤ capacity ∧
          data.length=received.toNat ∧ data<+:remote.drop position ∧
          At (position+data.length) t.device)
      (fun _ => False) s := by
  have hfailed : ∀ (code : ℤ) (after : Stream) (u : Link δ),code<0 →
      wp (pure (.error code,after) : Prog (Link δ) (Except ℤ (UInt32×List UInt8)×Stream))
        (fun reply t => (∀ code,reply.1=.error code → code<0) ∧
          ∀ received data,reply.1=.ok (received,data) → reply.2=stream ∧ received≤ capacity ∧
            data.length=received.toNat ∧ data<+:remote.drop position ∧
            At (position+data.length) t.device)
        (fun _ => False) u := by
    intro code after u hneg
    refine ⟨fun other hother => ?_,fun received data hdata => ?_⟩
    · cases hother
      exact hneg
    · cases hdata
  have hbad : ¬(capacity=0 ∨ stream.slotSize<capacity.toNat) :=
    not_or_intro hcapacity (not_lt.mpr hslot)
  unfold streamRecvPayload onOpen
  rw [if_neg hbad,if_neg hopen]
  unfold StreamOp.run
  dsimp only
  obtain ⟨⟨ret,response⟩,t,events,hrun,-,-⟩ :=
    (emits_clWireCommandChunks transport clpChStream clpStreamRecv
      [idRequest stream (storeLe32 capacity 4)] stale).returns s
  have hnext := hserver position s t capacity stale ret response hat hsmall hrun
  rw [wp_bind_run hrun]
  unfold finishRecv
  rw [wp_bind]
  by_cases hret : ret<0
  · rw [streamCommandStatus_failed hret,wp_pure,if_pos hret]
    exact hfailed _ _ _ hret
  unfold streamCommandStatus
  rw [if_neg hret]
  by_cases himm : response.imm≠clpStatusOk
  · unfold streamStatusError setClient
    rw [if_pos himm,wp_bind,wp_update,wp_pure,if_pos (clClientStatusError_neg himm)]
    exact hfailed _ _ _ (clClientStatusError_neg himm)
  rw [if_neg himm,wp_pure,if_neg (by decide)]
  split
  next =>
    obtain ⟨done,u,-,hdiscard,-⟩ :=
      (emits_clWireDiscardPayload transport response.length).returns t
    rw [wp_bind_run hdiscard]
    exact hfailed _ _ _ (by decide)
  next hfits =>
    have hle := UInt32.not_lt.mp hfits
    obtain ⟨data,hdata,hlength,hempty,hwhole⟩ :=
      hnext (not_lt.mp hret) (not_not.mp himm) hle
    split
    next =>
      obtain ⟨reply,u,-,hread,-⟩ :=
        (emits_readPayloadFastOrWords transport response.length).returns t
      have hcode := wp_readPayload_error transport response.length t
      unfold wp at hcode
      rw [hread] at hcode
      rw [wp_bind_run hread]
      cases reply with
      | error code => exact hfailed _ _ _ (hcode code rfl)
      | ok received =>
        obtain ⟨rfl,hafter⟩ := hwhole received u hread
        refine ⟨fun code hcode => ?_,fun count bytes hbytes => ?_⟩
        · cases hcode
        · cases hbytes
          exact ⟨rfl,hle,hlength,hdata,hafter⟩
    next hzero =>
      have hnone : response.length=0 := not_not.mp hzero
      have hnil : data=[] := by
        rw [hnone] at hlength
        exact List.length_eq_zero_iff.mp hlength
      refine ⟨fun code hcode => ?_,fun count bytes hbytes => ?_⟩
      · cases hcode
      · cases hbytes
        exact ⟨rfl,UInt32.zero_le,rfl,List.nil_prefix,hempty hnil⟩

end Receiving

section Slots

variable {transport : Transport δ} {remote : List UInt8} {At : ℕ → δ → Prop}
  {stream : Stream} {stale : ClpHeader} {done : List UInt8} {id : UInt8} {d : δ}

/-- The bytes that were passed and those in the ring are the first ones of the remote side,
which is behind them. -/
structure Reading (remote : List UInt8) (At : ℕ → δ → Prop) (id : UInt8) (done : List UInt8)
    (stream : Stream) (d : δ) : Prop where
  /-- The ring is in order. -/
  valid : Valid stream
  /-- The size of a slot is a sixteen-bit number. -/
  slotSize : stream.slotSize<65536
  /-- The stream is open. -/
  isOpen : stream.streamId=id
  /-- The bytes. -/
  successive : done++(chunks stream).flatten<+:remote
  /-- Where the remote side is. -/
  position : At (done++(chunks stream).flatten).length d

theorem run_map {α β : Type} (f : α → β) (op : StreamOp δ α) :
    (op.map f).run transport stale=op.run transport stale >>= fun a => pure (f a) := by
  cases op with
  | refused result => rfl
  | command call =>
    unfold StreamOp.map StreamOp.run
    exact (bind_bind _ _ _).symm

/-- The stream with bytes in the slot that is filled next. -/
def filling (stream : Stream) (data : List UInt8) : Stream :=
  { stream with
    buffer := spliced stream.buffer (stream.writeSlot*stream.slotSize) data }

/-- A slot that is filled, with an empty ring. -/
theorem valid_filling (hV : Valid stream) (hempty : stream.readySlots=0) {data : List UInt8}
    (hdata : data.length≤ stream.slotSize) :
    Valid (filling stream data) ∧ chunks (filling stream data)=[] ∧
      (spanBytes (filling stream data)).take data.length=data := by
  have hwrite := hV.writeSlot_lt
  have hcapacity := hV.capacity
  have hbuffer := hV.buffer
  have hmul : (stream.writeSlot+1)*stream.slotSize≤ stream.slotCount*stream.slotSize :=
    Nat.mul_le_mul_right _ hwrite
  rw [Nat.add_mul,Nat.one_mul] at hmul
  have hstart : stream.writeSlot*stream.slotSize≤ stream.buffer.length := by omega
  have hlength : (spliced stream.buffer (stream.writeSlot*stream.slotSize) data).length=
      stream.buffer.length := by
    unfold spliced
    rw [List.length_append,List.length_append,List.length_take,List.length_drop]
    omega
  refine ⟨⟨hV.slotCount,hV.slotSize,hV.slots,hlength.trans hbuffer,hcapacity,hV.readSlot,
    hV.readySlots,hV.writeSlot,hV.ready,hV.readOffset⟩,chunks_eq_nil hempty,?_⟩
  have hfront : (stream.buffer.take (stream.writeSlot*stream.slotSize)).length=
      stream.writeSlot*stream.slotSize := by
    rw [List.length_take]
    omega
  unfold spanBytes filling spliced
  dsimp only
  rw [List.append_assoc,List.drop_left' hfront,List.take_take,Nat.min_eq_left hdata,
    List.take_left]

theorem commitAt_frame (stream : Stream) (offset : UInt32) (length : ℕ) :
    (clStreamProducerCommitAt stream offset length).1.slotSize=stream.slotSize ∧
    (clStreamProducerCommitAt stream offset length).1.streamId=stream.streamId := by
  unfold clStreamProducerCommitAt
  split_ifs <;> exact ⟨rfl,rfl⟩

/-- Received bytes are the contents of a ring that was empty. -/
theorem commit_received (hV : Valid stream) (hempty : stream.readySlots=0) {received : UInt32}
    {data : List UInt8} (hlength : data.length=received.toNat)
    (hdata : data.length≤ stream.slotSize) (hsome : received≠0) :
    ∃ after,commitReceived (stream.writeSlot*stream.slotSize) (.ok (received,data),stream)=
        ((received.toNat : ℤ),after) ∧
      Valid after ∧ chunks after=[data] ∧ after.slotSize=stream.slotSize ∧
      after.streamId=stream.streamId := by
  obtain ⟨hvalid,hnone,hspan⟩ := valid_filling hV hempty hdata
  obtain ⟨filled,hfilled⟩ : ∃ filled,filled=filling stream data := ⟨_,rfl⟩
  have hcount : 0<stream.slotCount := hV.slotCount.1
  have hpositive : data.length≠0 := by
    rw [hlength]
    exact fun h => hsome (UInt32.toNat_inj.mp h)
  rw [← hfilled] at hvalid hnone hspan
  obtain ⟨hchunks,hresult⟩ := commitAt_refines hvalid filled.rxOffset received.toNat
  have hslots : filled.slotCount=stream.slotCount ∧ filled.slotSize=stream.slotSize ∧
      filled.streamId=stream.streamId ∧ filled.rxOffset=stream.rxOffset := by
    rw [hfilled]
    exact ⟨rfl,rfl,rfl,rfl⟩
  obtain ⟨hslotCount,hslotSize,hstreamId,hoffset⟩ := hslots
  obtain ⟨hsize,hid⟩ := commitAt_frame filled filled.rxOffset received.toNat
  have hvalidAfter := valid_commitAt hvalid filled.rxOffset received.toNat
  have hcommit : CircularFifo.commit filled.slotCount filled.slotSize (chunks filled)
      (spanBytes filled) received.toNat=([data],.ok) := by
    unfold CircularFifo.commit
    rw [hnone,hslotCount,hslotSize,← hlength,hspan,List.length_nil,if_neg (by omega),
      if_neg (by omega)]
    rfl
  rw [hcommit] at hchunks hresult
  have hok : (clStreamProducerCommitAt filled filled.rxOffset received.toNat).2=.ok := hresult
  refine ⟨(clStreamProducerCommitAt filled filled.rxOffset received.toNat).1,?_,hvalidAfter,
    hchunks,hsize.trans hslotSize,hid.trans hstreamId⟩
  unfold commitReceived clStreamProducerCommit
  unfold filling at hfilled
  dsimp only
  rw [if_neg hsome,← hfilled,← hoffset]
  rcases hcase : clStreamProducerCommitAt filled filled.rxOffset received.toNat with
    ⟨after,result⟩
  rw [hcase] at hok
  obtain rfl : result=.ok := hok
  rfl

/-- A receive into the ring of an open stream, which is empty. -/
theorem wp_recvSlot (hserver : SendsNext transport id remote At) (hopen : id≠0)
    (hempty : stream.readySlots=0) {s : Link δ}
    (h : Reading remote At id done stream s.device) :
    wp ((clStreamRecvSlot transport stream).run transport stale)
      (fun reply t => (0≤ reply.1 → Reading remote At id done reply.2 t.device) ∧
        (0< reply.1 → reply.2.readySlots≠0))
      (fun _ => False) s := by
  have hV := h.valid
  have hcount := hV.slotCount.1
  have hsize := hV.slotSize
  have hlt := h.slotSize
  have hid := h.isOpen
  have hposition := h.position
  have hsuccessive := h.successive
  rw [chunks_eq_nil hempty,List.flatten_nil,List.append_nil] at hposition hsuccessive
  have hcapacity : (UInt32.ofNat stream.slotSize).toNat=stream.slotSize :=
    UInt32.toNat_ofNat_of_lt' (by unfold UInt32.size; omega)
  have hgo : ¬(stream.streamId=0 ∨ clStreamCanReceive stream=false) := by
    unfold clStreamCanReceive clStreamFreeCount
    rw [hid,if_neg (by omega),decide_eq_false_iff_not]
    rintro (hzero | hfull)
    · exact hopen hzero
    · omega
  unfold clStreamRecvSlot
  rw [if_neg hgo,acquire_eq hV,if_neg (by omega)]
  dsimp only
  rw [if_neg (by omega),run_map,wp_bind]
  subst hid
  refine wp_post (wp_recvPayload hserver hopen ?_ (Nat.le_of_eq hcapacity)
    (by rw [hcapacity]; exact hlt) hposition) ?_
  · intro hzero
    rw [← UInt32.toNat_inj,hcapacity] at hzero
    have hnone : (0 : UInt32).toNat=0 := rfl
    omega
  · rintro ⟨answer,after⟩ t ⟨hfailed,hnext⟩
    rw [wp_pure]
    cases answer with
    | error code =>
      have hneg := hfailed code rfl
      refine ⟨fun hcode => ?_,fun hcode => ?_⟩
      · exact absurd hneg (not_lt.mpr hcode)
      · exact absurd hneg (not_lt.mpr (Int.le_of_lt hcode))
    | ok received =>
      obtain ⟨received,data⟩ := received
      obtain ⟨rfl,hle,hlength,hdata,hat⟩ := hnext received data rfl
      rw [UInt32.le_iff_toNat_le,hcapacity] at hle
      by_cases hnone : received=0
      · have hnil : data=[] := by
          rw [hnone] at hlength
          exact List.length_eq_zero_iff.mp hlength
        have hsame : commitReceived (after.writeSlot*after.slotSize)
            (.ok (received,data),after)=(0,after) := by
          unfold commitReceived
          exact if_pos hnone
        rw [hnil,List.length_nil,Nat.add_zero] at hat
        rw [hsame]
        refine ⟨fun _ => ⟨hV,hlt,rfl,?_,?_⟩,fun hpositive => absurd hpositive (Int.lt_irrefl 0)⟩
        · rw [chunks_eq_nil hempty,List.flatten_nil,List.append_nil]
          exact hsuccessive
        · rw [chunks_eq_nil hempty,List.flatten_nil,List.append_nil]
          exact hat
      · obtain ⟨filled,hcommit,hvalid,hchunks,hslotSize,hstreamId⟩ :=
          commit_received hV hempty hlength (by omega) hnone
        rw [hcommit]
        refine ⟨fun _ => ⟨hvalid,by rw [hslotSize]; exact hlt,hstreamId,?_,?_⟩,fun _ => ?_⟩
        · rw [hchunks,List.flatten_singleton]
          obtain ⟨rest,hrest⟩ := hsuccessive
          rw [← hrest,List.drop_left] at hdata
          rw [← hrest]
          exact (List.prefix_append_right_inj _).mpr hdata
        · rw [hchunks,List.flatten_singleton,List.length_append]
          exact hat
        · rw [← length_chunks,hchunks]
          exact Nat.one_ne_zero

/-- The view of a ring that is not empty. -/
theorem peek_ready (hV : Valid stream) (hsome : stream.readySlots≠0) :
    ∃ view chunk rest,clStreamConsumerPeek stream=(view,.ok) ∧
      viewBytes stream view=some chunk ∧ chunks stream=chunk::rest ∧
      view.length=chunk.length ∧ chunk≠[] ∧ chunk.length≤ stream.slotSize := by
  obtain ⟨hview,-⟩ := peek_refines hV
  have hpeek := peek_eq hV
  have hcons := chunks_cons hsome
  have hfront := length_front hV hsome
  have hmem : stream.readSlot∈readySlotList stream := by
    rw [readySlotList_cons hsome]
    exact List.mem_cons_self
  have hready := hV.ready _ hmem
  have hoffset := hV.readOffset.2 hsome
  rw [if_neg hsome] at hpeek
  rw [hpeek,hcons] at hview
  refine ⟨_,_,_,hpeek,hview,hcons,hfront.symm,?_,by rw [hfront]; omega⟩
  rw [← List.length_pos_iff,hfront]
  omega

/-- Before a view is taken the ring is filled if it is empty. -/
theorem wp_awaitView (hserver : SendsNext transport id remote At) (hopen : id≠0)
    {s : Link δ} (h : Reading remote At id done stream s.device) :
    wp (awaitView transport stale stream)
      (fun ready t => (∀ ret after,ready=.error (ret,after) →
          0≤ ret → Reading remote At id done after t.device) ∧
        ∀ view after,ready=.ok (view,after) → Reading remote At id done after t.device ∧
          after.readySlots≠0 ∧ clStreamConsumerPeek after=(view,.ok))
      (fun _ => False) s := by
  have hpeeked : ∀ (after : Stream) (t : Link δ),Reading remote At id done after t.device →
      after.readySlots≠0 →
      (∀ ret last,peeked after=.error (ret,last) →
          0≤ ret → Reading remote At id done last t.device) ∧
        ∀ view last,peeked after=.ok (view,last) → Reading remote At id done last t.device ∧
          last.readySlots≠0 ∧ clStreamConsumerPeek last=(view,.ok) := by
    intro after t hreading hsome
    obtain ⟨view,chunk,rest,hpeek,-⟩ := peek_ready hreading.valid hsome
    have heq : peeked after=.ok (view,after) := by
      unfold peeked
      rw [hpeek]
    rw [heq]
    refine ⟨fun ret last hlast => ?_,fun other last hlast => ?_⟩
    · cases hlast
    · cases hlast
      exact ⟨hreading,hsome,hpeek⟩
  unfold awaitView
  by_cases hsome : stream.readySlots=0
  · have hpeek := peek_eq h.valid
    rw [if_pos hsome] at hpeek
    rw [hpeek]
    dsimp only
    refine wp_seq (wp_recvSlot hserver hopen hsome h) (fun reply t hreply => ?_)
    obtain ⟨hreading,hready⟩ := hreply
    rw [wp_pure]
    split
    next hneg =>
      refine ⟨fun ret after hafter hret => ?_,fun view after hafter => ?_⟩
      · cases hafter
        exact absurd hneg (not_lt.mpr hret)
      · cases hafter
    next hneg =>
      split
      next hzero =>
        refine ⟨fun ret after hafter _ => ?_,fun view after hafter => ?_⟩
        · cases hafter
          exact hreading (not_lt.mp hneg)
        · cases hafter
      next hzero =>
        exact hpeeked _ _ (hreading (not_lt.mp hneg)) (hready (by omega))
  · obtain ⟨view,chunk,rest,hpeek,-⟩ := peek_ready h.valid hsome
    rw [hpeek]
    exact hpeeked stream s h hsome

/-- Bytes that are taken from a view leave the ring. -/
theorem release_taken {view : StreamView} {count : ℕ}
    (h : Reading remote At id done stream d) (hsome : stream.readySlots≠0)
    (hpeek : clStreamConsumerPeek stream=(view,.ok)) (hcount : count≠0)
    (hle : count≤view.length) :
    ∃ after,clStreamConsumerReleaseBytes stream (count%65536)=(after,.ok) ∧
      (((viewBytes stream view).getD []).take count).length=count ∧
      Reading remote At id (done++((viewBytes stream view).getD []).take count) after d := by
  have hV := h.valid
  have hlt := h.slotSize
  obtain ⟨other,chunk,rest,hother,hview,hchunks,hlength,hchunk,hsize⟩ := peek_ready hV hsome
  rw [hpeek] at hother
  obtain ⟨rfl,-⟩ := Prod.mk.inj hother
  have hmod : count%65536=count := Nat.mod_eq_of_lt (by omega)
  have htake : (chunk.take count).length=count := by
    rw [List.length_take]
    omega
  obtain ⟨hafter,hresult⟩ := releaseBytes_refines hV count
  have hvalid := valid_releaseBytes hV count
  obtain ⟨-,hslotSize,-,-⟩ := releaseBytes_frame hV count
  have hid : (clStreamConsumerReleaseBytes stream count).1.streamId=stream.streamId := by
    unfold clStreamConsumerReleaseBytes clStreamConsumerRelease
    dsimp only
    split_ifs <;> rfl
  have hqueue : (CircularFifo.releaseBytes (chunks stream) count).2=.ok ∧
      (CircularFifo.releaseBytes (chunks stream) count).1.flatten=
        chunk.drop count++rest.flatten := by
    unfold CircularFifo.releaseBytes
    rw [if_neg hcount,hchunks]
    dsimp only
    rw [if_neg (by omega)]
    split
    next => exact ⟨rfl,by rw [List.flatten_cons]⟩
    next hall =>
      rw [List.drop_eq_nil_of_le (by omega),List.nil_append]
      exact ⟨rfl,rfl⟩
  obtain ⟨hok,hflat⟩ := hqueue
  rw [hok] at hresult
  have hsame : done++chunk.take count++
      (chunks (clStreamConsumerReleaseBytes stream count).1).flatten=
        done++(chunks stream).flatten := by
    rw [hafter,hflat,hchunks,List.flatten_cons,List.append_assoc,
      ← List.append_assoc (chunk.take count),List.take_append_drop]
  rw [hview,Option.getD_some,hmod]
  refine ⟨(clStreamConsumerReleaseBytes stream count).1,?_,htake,hvalid,?_,?_,?_,?_⟩
  · have hok' : (clStreamConsumerReleaseBytes stream count).2=.ok := hresult
    rw [← hok']
  · rw [hslotSize]
    exact hlt
  · rw [hid]
    exact h.isOpen
  · rw [hsame]
    exact h.successive
  · rw [hsame]
    exact h.position

end Slots

section Calls

variable {transport : Transport δ} {remote : List UInt8} {At : ℕ → δ → Prop}
  {stream : Stream} {done : List UInt8} {id : UInt8}

/-- What a loop leaves behind what was passed before it: it counted the bytes that it passed,
they are the next ones of the remote side, and the stream is in order unless it failed. -/
structure Passed (remote : List UInt8) (At : ℕ → δ → Prop) (id : UInt8) (done : List UInt8)
    (reply : ℤ×ReadState) (d : δ) : Prop where
  /-- The count. -/
  exact_length : reply.2.outLength.toNat=reply.2.passed.length
  /-- The bytes. -/
  successive : done++reply.2.passed<+:remote
  /-- The stream. -/
  reading : 0≤ reply.1 → Reading remote At id (done++reply.2.passed) reply.2.stream d

/-- How many bytes are taken from a view. -/
theorem taken_bounds {length outLength : UInt32} {available : ℕ} (hlt : outLength<length)
    (havailable : available<65536) (hsome : available≠0) (take : UInt32)
    (htake : take=if UInt32.ofNat available<length-outLength then UInt32.ofNat available
      else length-outLength) :
    take.toNat≠0 ∧ take.toNat≤available ∧
      (outLength+take).toNat=outLength.toNat+take.toNat ∧ outLength+take≤length := by
  have hbound := length.toNat_lt
  have hword : (UInt32.ofNat available).toNat=available :=
    UInt32.toNat_ofNat_of_lt' (by unfold UInt32.size; omega)
  have hwanted : (length-outLength).toNat=length.toNat-outLength.toNat :=
    UInt32.toNat_sub_of_le _ _ (UInt32.le_of_lt hlt)
  rw [UInt32.lt_iff_toNat_lt] at hlt
  have hmin : take.toNat=min available (length.toNat-outLength.toNat) := by
    rw [htake]
    split
    next h =>
      rw [UInt32.lt_iff_toNat_lt,hword,hwanted] at h
      omega
    next h =>
      rw [UInt32.lt_iff_toNat_lt,hword,hwanted] at h
      omega
  have hsum : (outLength+take).toNat=outLength.toNat+take.toNat := by
    rw [UInt32.toNat_add]
    omega
  refine ⟨by omega,by omega,hsum,?_⟩
  rw [UInt32.le_iff_toNat_le,hsum]
  omega

/-- The loop of a read ends, and passes the next bytes of the remote side. -/
theorem wp_readLoop (hserver : SendsNext transport id remote At) (hopen : id≠0)
    (stale : ℕ → ClpHeader) (length : UInt32) (fuel : ℕ) (st : ReadState) {s : Link δ}
    (hexact : st.outLength.toNat=st.passed.length) (hle : st.outLength≤length)
    (hfuel : length.toNat<st.outLength.toNat+fuel)
    (h : Reading remote At id (done++st.passed) st.stream s.device) :
    wp (readLoop transport stale length fuel st)
      (fun reply t => Passed remote At id done reply t.device) (fun _ => False) s := by
  have hbefore : done++st.passed<+:remote := (List.prefix_append _ _).trans h.successive
  induction fuel generalizing st s with
  | zero =>
    rw [UInt32.le_iff_toNat_le] at hle
    omega
  | succ fuel ih =>
    unfold readLoop
    split
    next hlt =>
      refine wp_seq (wp_awaitView hserver hopen h) (fun ready t hready => ?_)
      obtain ⟨hended,hview⟩ := hready
      cases ready with
      | error ended =>
        obtain ⟨ret,after⟩ := ended
        exact ⟨hexact,hbefore,hended ret after rfl⟩
      | ok ready =>
        obtain ⟨view,after⟩ := ready
        obtain ⟨hreading,hsome,hpeek⟩ := hview view after rfl
        obtain ⟨other,chunk,rest,hother,-,-,hlength,hchunk,hsize⟩ :=
          peek_ready hreading.valid hsome
        rw [hpeek] at hother
        obtain ⟨rfl,-⟩ := Prod.mk.inj hother
        have hslot := hreading.slotSize
        have hpositive := List.length_pos_iff.mpr hchunk
        obtain ⟨take,htake⟩ : ∃ take,take=
            if UInt32.ofNat view.length<length-st.outLength then UInt32.ofNat view.length
            else length-st.outLength := ⟨_,rfl⟩
        obtain ⟨hnonzero,hfits,hsum,hwithin⟩ :=
          taken_bounds hlt (by omega) (by omega) take htake
        obtain ⟨last,hrelease,hcount,hlast⟩ :=
          release_taken hreading hsome hpeek hnonzero hfits
        dsimp only
        rw [← htake,hrelease]
        dsimp only
        rw [List.append_assoc] at hlast
        refine ih _ ?_ hwithin ?_ hlast ?_
        · rw [List.length_append,hcount,hsum,hexact]
        · dsimp only
          rw [hsum]
          omega
        · exact (List.prefix_append _ _).trans hlast.successive
    next => exact ⟨hexact,hbefore,fun _ => h⟩

/-- A call passes the next bytes of the remote side and ends. -/
theorem wp_call (hserver : SendsNext transport id remote At) (hopen : id≠0) (fuel : ℕ)
    (call : ReadCall) (hfuel : call.length.toNat<fuel) {s : Link δ}
    (h : Reading remote At id done stream s.device) :
    wp (call.run transport fuel stream)
      (fun reply t => (∃ outLength,reply.outLength=some outLength ∧
          outLength.toNat=reply.passed.length) ∧
        reply.dst=(if call.discard then [] else reply.passed) ∧
        done++reply.passed<+:remote ∧
        (0≤ reply.ret → Reading remote At id (done++reply.passed) reply.stream t.device))
      (fun _ => False) s := by
  have hid := h.isOpen
  have hloop : wp (readLoop transport call.stale call.length fuel ⟨stream,0,[]⟩)
      (fun reply t => Passed remote At id done reply t.device) (fun _ => False) s := by
    refine wp_readLoop hserver hopen call.stale call.length fuel _ rfl UInt32.zero_le ?_ ?_
    · have hzero : (0 : UInt32).toNat=0 := rfl
      dsimp only
      rw [hzero]
      omega
    · dsimp only
      rw [List.append_nil]
      exact h
  have hrun : call.run transport fuel stream=
      streamReadOrDiscard transport call.stale fuel stream call.length call.discard := by
    unfold ReadCall.run
    cases call.discard <;> rfl
  rw [hrun]
  unfold streamReadOrDiscard
  rw [if_neg (by rw [hid]; exact hopen)]
  refine wp_seq hloop (fun reply t hpassed => ?_)
  exact ⟨⟨_,rfl,hpassed.exact_length⟩,rfl,hpassed.successive,hpassed.reading⟩

/-- The calls of a run end, and pass the first bytes of the remote side in order. -/
theorem wp_runCalls (hserver : SendsNext transport id remote At) (hopen : id≠0) (fuel : ℕ)
    (calls : List ReadCall) (hfuel : ∀ call∈calls,call.length.toNat<fuel) {s : Link δ}
    (h : Reading remote At id done stream s.device) :
    wp (runCalls transport fuel calls stream)
      (fun replies _ => done++replies.flatMap ReadReply.passed<+:remote ∧
        (∀ reply∈replies,∃ outLength,reply.outLength=some outLength ∧
          outLength.toNat=reply.passed.length) ∧
        replies.map ReadReply.dst=
          (calls.zip replies).map fun pair => if pair.1.discard then [] else pair.2.passed)
      (fun _ => False) s := by
  induction calls generalizing done stream s with
  | nil =>
    refine ⟨?_,fun reply hreply => absurd hreply List.not_mem_nil,rfl⟩
    rw [List.flatMap_nil,List.append_nil]
    exact (List.prefix_append _ _).trans h.successive
  | cons call calls ih =>
    obtain ⟨hcall,hcalls⟩ := List.forall_mem_cons.mp hfuel
    unfold runCalls
    refine wp_seq (wp_call hserver hopen fuel call hcall h) (fun reply t hreply => ?_)
    obtain ⟨hexact,hdst,hsuccessive,hreading⟩ := hreply
    split
    next =>
      refine ⟨?_,fun other hother => ?_,?_⟩
      · rw [List.flatMap_cons,List.flatMap_nil,List.append_nil]
        exact hsuccessive
      · obtain rfl := List.mem_singleton.mp hother
        exact hexact
      · rw [List.zip_cons_cons,List.zip_nil_right,List.map_cons,List.map_cons,hdst]
        rfl
    next hgo =>
      refine wp_seq (ih hcalls (hreading (not_lt.mp hgo))) (fun replies u hrest => ?_)
      obtain ⟨hall,hexacts,hdsts⟩ := hrest
      rw [wp_pure]
      refine ⟨?_,List.forall_mem_cons.mpr ⟨hexact,hexacts⟩,?_⟩
      · rw [List.flatMap_cons,← List.append_assoc]
        exact hall
      · rw [List.zip_cons_cons,List.map_cons,List.map_cons,hdst,hdsts]

/-- An open that succeeds leaves an empty ring. -/
theorem wp_opened (transport : Transport δ) {before : Stream} (hV : Valid before)
    (kind : UInt8) (target : CString) (stale : ClpHeader) (s : Link δ) :
    wp ((clStreamOpen transport before kind target).run transport stale)
      (fun reply _ => reply.1=0 → reply.2.streamId≠0 ∧ reply.2.slotSize=before.slotSize ∧
        reply.2.readySlots=0 ∧ Valid reply.2) (fun _ => True) s := by
  have hfailed : ∀ (code : ℤ) (after : Stream) (t : Link δ),code≠0 →
      wp (pure (code,after) : Prog (Link δ) (ℤ×Stream))
        (fun reply _ => reply.1=0 → reply.2.streamId≠0 ∧ reply.2.slotSize=before.slotSize ∧
          reply.2.readySlots=0 ∧ Valid reply.2) (fun _ => True) t :=
    fun code after t hcode hzero => absurd hzero hcode
  unfold clStreamOpen
  split
  · exact hfailed _ _ _ (by decide)
  · split
    · exact hfailed _ _ _ (by decide)
    · split
      · exact hfailed _ _ _ (by decide)
      · unfold StreamOp.run
        dsimp only
        rw [wp_bind]
        refine wp_mono (wp_any _ s) (fun reply t _ => ?_) fun _ _ => trivial
        unfold finishExact
        rw [wp_bind]
        refine wp_mono (wp_any _ t) (fun code u _ => ?_) fun _ _ => trivial
        split
        next hneg => exact hfailed _ _ _ (by omega)
        next =>
          split
          · rw [wp_bind]
            refine wp_mono (wp_any _ u) (fun _ v _ => ?_) fun _ _ => trivial
            exact hfailed _ _ _ (by decide)
          · rw [wp_bind]
            refine wp_mono (wp_any _ u) (fun payload v _ => ?_) fun _ _ => trivial
            rw [wp_pure]
            unfold opened
            dsimp only
            intro hzero
            split at hzero
            next => exact absurd hzero (by decide)
            next hid =>
              have hreset := valid_reset hV
              exact ⟨hid,rfl,rfl,⟨hreset.slotCount,hreset.slotSize,hreset.slots,hreset.buffer,
                hreset.capacity,hreset.readSlot,hreset.readySlots,hreset.writeSlot,
                hreset.ready,hreset.readOffset⟩⟩

/-- On a stream that was just opened, all calls of a run of reads and discards end, up to and
including the first one that returns an error. However the other side splits what it sends,
the bytes that they return or skip are the first ones of the remote side in order, each call
stores how many it passed also when an error ends it early, and a read stores the bytes. -/
theorem reads_successive {transport : Transport δ} {before : Stream} (hV : Valid before)
    (hsize : before.slotSize<65536) {kind : UInt8} {target : CString} {stale : ClpHeader}
    {s t : Link δ}
    (hopened : (clStreamOpen transport before kind target).run transport stale s=
      (some (0,stream),t))
    (hserver : SendsNext transport stream.streamId remote At) (hat : At 0 t.device)
    (calls : List ReadCall) {fuel : ℕ} (hfuel : ∀ call∈calls,call.length.toNat<fuel) :
    ∃ replies u,runCalls transport fuel calls stream t=(some replies,u) ∧
      replies.flatMap ReadReply.passed<+:remote ∧
      (∀ reply∈replies,∃ outLength,reply.outLength=some outLength ∧
        outLength.toNat=reply.passed.length) ∧
      replies.map ReadReply.dst=
        (calls.zip replies).map fun pair => if pair.1.discard then [] else pair.2.passed := by
  have hready := wp_opened transport hV kind target stale s
  unfold wp at hready
  rw [hopened] at hready
  obtain ⟨hid,hslot,hempty,hvalid⟩ := hready rfl
  have hchunks := chunks_eq_nil hempty
  have hreading : Reading remote At stream.streamId [] stream t.device := by
    refine ⟨hvalid,by rw [hslot]; exact hsize,rfl,?_,?_⟩
    · rw [hchunks]
      exact List.nil_prefix
    · rw [hchunks]
      exact hat
  obtain ⟨replies,u,hrun,hpassed,hrest⟩ :=
    wp_total (wp_runCalls hserver hid fuel calls hfuel hreading)
  exact ⟨replies,u,hrun,hpassed,hrest⟩

end Calls

section Servers

open StreamServer BridgeStream

/-- The server is at this position of its image, and awaits a command. -/
def ServerAt (image : List UInt8) (id : UInt8) (position : ℕ) (device : Device) : Prop :=
  device.inbox=[] ∧ device.server.image=image ∧ device.server.position id=position

/-- A server that sent bytes is behind them. -/
theorem serverAt_moved {image : List UInt8} {id : UInt8} {before : Server} {device : Device}
    {count : ℕ} (himage : before.image=image) (hidle : device.inbox=[])
    (hserver : device.server=before.move id (before.position id+count)) :
    ServerAt image id (before.position id+count) device := by
  refine ⟨hidle,?_,?_⟩
  · rw [hserver]
    exact himage
  · rw [hserver]
    exact Function.update_self ..

/-- A server sends the next bytes of its image, whatever becomes of the commands. -/
theorem server_sendsNext (image : List UInt8) (id : UInt8) :
    SendsNext wire id image (ServerAt image id) := by
  rintro position s t capacity stale ret response ⟨hinbox,himage,hposition⟩ hsmall hrun hret
    himm hle
  have hwords : payloadWords [storeLe32 id.toUInt32 4++storeLe32 capacity 4].flatten=
      [id.toUInt32,capacity] := by
    have hstored : payloadWords ([id.toUInt32,capacity].flatMap fun word =>
        storeLe32 word 4)=[id.toUInt32,capacity] :=
      payloadWords_stored (by change 2<2^30-1; omega)
    rw [List.flatMap_cons,List.flatMap_singleton] at hstored
    rw [List.flatten_singleton]
    exact hstored
  have hcommand : wp (clWireCommandChunks wire clpChStream clpStreamRecv
      [storeLe32 id.toUInt32 4++storeLe32 capacity 4] stale)
      (fun reply u => Outcome s.device clpStreamRecv [id.toUInt32,capacity] stale reply
        u.device) (fun _ => True) s := by
    refine wp_command hinbox (wirePayloadLength_single (by change 8≤32768; omega))
      fun reply u houtcome => ?_
    rw [hwords] at houtcome
    exact houtcome
  unfold wp at hcommand
  rw [hrun] at hcommand
  obtain ⟨hserver,hidle,-,-,hanswer⟩ := hcommand
  rw [carryOut_recv] at hserver hanswer
  cases hkind : (s.device.fates.headD lost).answer with
  | silent =>
    rw [hkind] at hanswer
    cases hanswer
    exact absurd hret (by decide)
  | failure status hstatus extra =>
    rw [hkind] at hanswer
    exact absurd (hanswer.2.symm.trans himm) hstatus
  | success =>
    rw [hkind] at hanswer
    obtain ⟨-,-,hlength,houtbox⟩ := hanswer
    rw [if_pos ((s.device.fates.headD lost).honest hkind)] at hserver
    obtain ⟨data,hdata⟩ : ∃ data,
        data=s.device.server.sent id (s.device.fates.headD lost).count := ⟨_,rfl⟩
    rw [← hdata] at hserver hlength houtbox
    have hlt : data.length<2^32 := by
      rw [hdata]
      unfold Server.sent
      rw [List.length_take]
      exact (Nat.min_le_left _ _).trans_lt (UInt32.toNat_lt _)
    have htoNat : response.length.toNat=data.length := by
      rw [hlength]
      exact UInt32.toNat_ofNat_of_lt' (by unfold UInt32.size; omega)
    rw [UInt32.le_iff_toNat_le] at hle
    refine ⟨data,?_,htoNat.symm,fun hnil => ?_,fun received u hreceived => ?_⟩
    · rw [hdata,← hposition,← himage]
      exact List.take_prefix _ _
    · have hat := serverAt_moved himage hidle hserver
      rw [hnil,List.length_nil,Nat.add_zero,hposition] at hat
      exact hat
    · have hdevice : t.device=t.device.delivering (payloadWords data) := by
        rw [← houtbox]
        exact (delivering_self hidle).symm
      have hread : wp (readPayloadFastOrWords wire response.length)
          (fun reply v => ∀ received,reply=.ok received → received=data ∧
            ∃ rest,v.device=t.device.delivering rest) (fun _ => True) t := by
        refine wp_readPayloadFastOrWords hdevice (by omega) hlength fun v rest hv => ?_
        intro received hreceived
        split at hreceived
        · cases hreceived
        · cases hreceived
          exact ⟨rfl,rest,hv⟩
      unfold wp at hread
      rw [hreceived] at hread
      obtain ⟨hsame,rest,hu⟩ := hread received rfl
      have hafter : u.device.server=t.device.server ∧ u.device.inbox=[] := by
        rw [hu]
        exact ⟨rfl,rfl⟩
      rw [← hposition]
      exact ⟨hsame,serverAt_moved himage hafter.2 (hafter.1.trans hserver)⟩

/-- A stream with two slots of two bytes that was initialised. -/
def twoSlots : Stream :=
  { zeroStream with
    buffer := [0,0,0,0]
    bufferSize := 4
    slots := [clearSlot,clearSlot]
    slotSize := 2
    slotCount := 2
    state := .idle }

/-- Its memory. -/
def twoSlotsConfig : StreamConfig :=
  { bufferAddress := 4
    bufferSize := 4
    buffer := [0,0,0,0]
    buffer_length := firstFour.memory_length
    hasSlots := true
    slotCount := 2
    slotCount_lt := sampleConfig.slotCount_lt
    slotSize := 2
    slotSize_lt := by decide
    flags := 0
    profile := .balanced }

/-- A command that is carried out and answered, with this many bytes at most. -/
def answered (count : UInt32) : Fate :=
  { carriedOut := true
    answer := .success
    honest := fun _ => rfl
    asAck := false
    streamId := 3
    count := count
    bulkResult := 0 }

/-- A server of five bytes that sends two of them, then one, and then is silent. -/
def fiveBytes : Link Device :=
  ⟨⟨⟨[1,2,3,4,5],fun _ => 0⟩,[],[],[answered 0,answered 2,answered 1],0⟩,
    ⟨.idle,0,clpStatusOk,0⟩,[]⟩

/-- The name of the image. -/
def imageName : CString := ⟨[97],by decide⟩

/-- A header that was not written yet. -/
def noHeader : ClpHeader := ⟨0,0,0,0,0,0,0,0⟩

/-- A byte is read, one is discarded, and an error ends another read. -/
def threeCalls : List ReadCall :=
  [⟨false,1,fun _ => noHeader⟩,⟨true,1,fun _ => noHeader⟩,⟨false,8,fun _ => noHeader⟩]

theorem reads_successive_five : ∃ stream t replies u,
    (clStreamOpen wire twoSlots clpStreamKindFile imageName).run wire noHeader fiveBytes=
      (some (0,stream),t) ∧
    runCalls wire 9 threeCalls stream t=(some replies,u) ∧
    replies.flatMap ReadReply.passed<+:[1,2,3,4,5] := by
  have hcode : ((clStreamOpen wire twoSlots clpStreamKindFile imageName).run wire noHeader
      fiveBytes).1.map Prod.fst=some 0 := by decide +kernel
  have hat : wp ((clStreamOpen wire twoSlots clpStreamKindFile imageName).run wire noHeader)
      (fun reply t => reply.1=0 → ServerAt [1,2,3,4,5] reply.2.streamId 0 t.device)
      (fun _ => True) fiveBytes := by
    have hsubscribe : clStreamOpen wire twoSlots clpStreamKindFile imageName=
        clStreamSubscribeFile wire twoSlots imageName := rfl
    have hclosed : twoSlots.streamId=0 := rfl
    have hinbox : fiveBytes.device.inbox=[] := rfl
    rw [hsubscribe]
    refine wp_open hclosed hinbox (fun t after _ _ hposition himage hidle _ => ?_)
      fun t code after hneg _ _ _ hzero => ?_
    · exact fun _ => ⟨hidle,himage,hposition⟩
    · exact absurd hzero (ne_of_lt hneg)
  rcases hopened : (clStreamOpen wire twoSlots clpStreamKindFile imageName).run wire noHeader
    fiveBytes with ⟨_ | reply,t⟩
  · rw [hopened] at hcode
    cases hcode
  · obtain ⟨code,stream⟩ := reply
    rw [hopened] at hcode
    obtain rfl : code=0 := Option.some.inj hcode
    unfold wp at hat
    rw [hopened] at hat
    have hfuel : ∀ call∈threeCalls,call.length.toNat<9 := by decide
    have hinit : clStreamInit twoSlotsConfig=some twoSlots := rfl
    obtain ⟨hvalid,-⟩ := valid_init hinit
    obtain ⟨replies,u,hrun,hpassed,-⟩ := reads_successive hvalid (by decide) hopened
      (server_sendsNext [1,2,3,4,5] stream.streamId) (hat rfl) threeCalls hfuel
    exact ⟨stream,t,replies,u,rfl,hrun,hpassed⟩

end Servers

end ChisLink.StreamReading
