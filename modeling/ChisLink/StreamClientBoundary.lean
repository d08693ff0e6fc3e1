import ChisLink.StreamClient

/-!
# Frame boundaries of the stream client

What an operation does after its exchange decides whether the next command begins
at a frame. After an accepted answer it has to exchange exactly the payload; after
a failed exchange it has nothing to exchange and the header says nothing. The
operations without an expected payload discard by the header also after a failed
exchange, the others return on an error status without discarding.
-/

namespace ChisLink.StreamClientBoundary

open DriverPrograms WireProtocol StorageClient StorageBoundary StreamRing WireCommands
  StreamClient

/-- The stream operations with their arguments. -/
inductive StreamRequest where
  /-- Open a stream. -/
  | openStream (kind : UInt8) (target : CString)
  /-- Close the stream. -/
  | close
  /-- Ask for the remote status. -/
  | poll
  /-- Give credit. -/
  | credit (consumedBytes : UInt32)
  /-- Move the position. -/
  | seek (offset : UInt64)
  /-- Receive into the next free slot. -/
  | recvSlot
  /-- Receive into memory. -/
  | recvInto (length : UInt32)
  /-- Receive through a writer. -/
  | recvWithWriter (length : UInt32)
  /-- Send data. -/
  | send (data : List UInt8)
  /-- Hand the stream over. -/
  | pump

variable {δ α β ρ : Type}

/-- Only the code of a result. -/
def codeOnly (reply : Except ℤ β×Stream) : ℤ×Stream :=
  match reply with
  | (.error code,stream) => (code,stream)
  | (.ok _,stream) => (0,stream)

/-- The operation of a request. -/
def StreamRequest.op (transport : Transport δ) (stream : Stream) :
    StreamRequest → StreamOp δ (ℤ×Stream)
  | .openStream kind target => clStreamOpen transport stream kind target
  | .close => clStreamClose transport stream
  | .poll => (clStreamPoll transport stream).map codeOnly
  | .credit consumedBytes => clStreamCredit transport stream consumedBytes
  | .seek offset => clStreamSeek transport stream offset
  | .recvSlot => clStreamRecvSlot transport stream
  | .recvInto length => (clStreamRecvInto transport stream length).map codeOnly
  | .recvWithWriter length => (clStreamRecvWithWriter transport stream length).map codeOnly
  | .send data => clStreamSend transport stream data
  | .pump => clStreamPump transport stream

/-- After an accepted answer exactly the words of its payload are exchanged. After
a failed exchange nothing is exchanged, and every header gives the same run. -/
def KeepsFrame (finish : ℤ → ClpHeader → Prog (Link δ) α) (ret : ℤ) (response : ClpHeader)
    (s : Link δ) : Prop :=
  (0≤ ret → ∃ a t pairs,finish ret response s=(some a,t) ∧ t.log=s.log++wordEvents pairs ∧
    pairs.length=wordCount response.length) ∧
  (ret<0 → ∃ a t,t.log=s.log ∧ ∀ other,finish ret other s=(some a,t))

/-- The requests whose operation leaves the header alone after a failed exchange. -/
def StreamRequest.LeavesHeader : StreamRequest → Prop
  | .openStream _ _ | .poll | .recvSlot | .recvInto _ | .recvWithWriter _ | .send _ => True
  | .close | .credit _ | .seek _ | .pump => False

/-- A payload that can be discarded: rounding up its length does not wrap around. -/
def Discardable (response : ClpHeader) : Prop := response.length≤0xfffffffc

/-- The answer to an operation that expects a payload is a success that can be
discarded, or it has no payload. -/
def DrainsExact (response : ClpHeader) : Prop :=
  response.length=0 ∨ (response.imm=clpStatusOk ∧ Discardable response)

/-- The same for a receive; a payload within its capacity may also be taken by a
hook of the transport. -/
def DrainsRecv (hook : Option ((length : UInt32) → Bulk δ length)) (capacity : UInt32)
    (response : ClpHeader) : Prop :=
  response.length=0 ∨
    (response.imm=clpStatusOk ∧
      (Discardable response ∨
        (response.length≤ capacity ∧ (fastHook hook response.length).isSome)))

/-- The condition on an accepted answer under which all of its payload is exchanged. -/
def StreamRequest.Drains (transport : Transport δ) (stream : Stream) :
    StreamRequest → ClpHeader → Prop
  | .openStream _ _ | .poll | .send _ => DrainsExact
  | .recvSlot => DrainsRecv transport.readPayload (UInt32.ofNat stream.slotSize)
  | .recvInto length => DrainsRecv transport.readPayload length
  | .recvWithWriter length => DrainsRecv transport.readPayloadWriter length
  | .close | .credit _ | .seek _ | .pump => Discardable

/-- What the end of an operation exchanges, for every code and header. -/
structure FinishSpec (finish : ℤ → ClpHeader → Prog (Link δ) α) (leaves : Prop)
    (drains : ClpHeader → Prop) : Prop where
  /-- After an accepted answer words are exchanged, as many as its payload has
  exactly under the condition. -/
  accepted : ∀ ret response,0≤ ret → Emits Link.log (finish ret response) fun _ events =>
    ∃ pairs,events=wordEvents pairs ∧
      (pairs.length=wordCount response.length ↔ drains response)
  /-- An operation that leaves the header alone exchanges nothing. -/
  silent : leaves → ∀ ret,ret<0 → ∃ p,(∀ response,finish ret response=p) ∧
    Emits Link.log p fun _ events => events=[]
  /-- The others exchange the words of whatever length the header holds. -/
  loud : ¬leaves → ∀ ret response,ret<0 → Emits Link.log (finish ret response) fun _ events =>
    ∃ pairs,events=wordEvents pairs ∧
      pairs.length=(clpAlignedLength response.length).toNat/4

section Spec

variable {leaves : Prop} {drains : ClpHeader → Prop}
  {finish : ℤ → ClpHeader → Prog (Link δ) α}

/-- The number of words that a program exchanges is determined by its run. -/
theorem exchanged_unique {p : Prog (Link δ) α} {P : List (UInt32×UInt32) → Prop} {s t : Link δ}
    {a : α} {pairs : List (UInt32×UInt32)} (hrun : p s=(some a,t))
    (hlog : t.log=s.log++wordEvents pairs)
    (h : Emits Link.log p fun _ events => ∃ pairs,events=wordEvents pairs ∧ P pairs) :
    ∃ same : List (UInt32×UInt32),same.length=pairs.length ∧ P same := by
  obtain ⟨a',t',events,hrun',hlog',same,rfl,hP⟩ := h.returns s
  have hstate : t=t' := congrArg Prod.snd (hrun.symm.trans hrun')
  rw [← hstate,hlog] at hlog'
  have hlen := congrArg List.length (List.append_cancel_left hlog')
  refine ⟨same,?_,hP⟩
  simpa [wordEvents] using hlen.symm

/-- The boundary is kept exactly under the conditions of the specification. -/
theorem FinishSpec.keepsFrame_iff (h : FinishSpec finish leaves drains) (ret : ℤ)
    (response : ClpHeader) (s : Link δ) :
    KeepsFrame finish ret response s ↔ (0≤ ret → drains response) ∧ (ret<0 → leaves) := by
  unfold KeepsFrame
  refine and_congr (imp_congr_right fun hret => ?_) (imp_congr_right fun hret => ?_)
  · have hspec := h.accepted ret response hret
    constructor
    · rintro ⟨a,t,pairs,hrun,hlog,hlen⟩
      obtain ⟨same,hsame,hiff⟩ := exchanged_unique hrun hlog hspec
      exact hiff.mp (hsame.trans hlen)
    · intro hdrains
      obtain ⟨a,t,_,hrun,hlog,pairs,rfl,hiff⟩ := hspec.returns s
      exact ⟨a,t,pairs,hrun,hlog,hiff.mpr hdrains⟩
  · constructor
    · rintro ⟨a,t,hlog,hall⟩
      by_contra hleaves
      -- A header that claims one word is told apart from one that claims none.
      have hloud := h.loud hleaves ret { response with length := 4 } hret
      have hnone : t.log=s.log++wordEvents [] := by rw [hlog]; exact (List.append_nil _).symm
      obtain ⟨same,hsame,hwords⟩ := exchanged_unique (hall _) hnone hloud
      have hone : (clpAlignedLength 4).toNat/4=1 := by decide
      rw [hwords,hone] at hsame
      cases hsame
    · intro hleaves
      obtain ⟨p,hp,hemits⟩ := h.silent hleaves ret hret
      obtain ⟨a,t,_,hrun,hlog,rfl⟩ := hemits.returns s
      refine ⟨a,t,by rw [hlog,List.append_nil],fun other => ?_⟩
      rw [hp other,hrun]

/-- A change of the result exchanges nothing. -/
theorem FinishSpec.map (h : FinishSpec finish leaves drains) (f : α → β) :
    FinishSpec (fun ret response => do
      let result ← finish ret response
      pure (f result)) leaves drains where
  accepted ret response hret := by
    refine (h.accepted ret response hret).bind ?_
    rintro a _ ⟨pairs,rfl,hiff⟩
    exact emits_pure ⟨pairs,List.append_nil _,hiff⟩
  silent hleaves ret hret := by
    obtain ⟨p,hp,hemits⟩ := h.silent hleaves ret hret
    refine ⟨p >>= fun result => pure (f result),fun response => ?_,?_⟩
    · rw [hp response]
    · refine hemits.bind ?_
      rintro a _ rfl
      exact emits_pure rfl
  loud hleaves ret response hret := by
    refine (h.loud hleaves ret response hret).bind ?_
    rintro a _ ⟨pairs,rfl,hlen⟩
    exact emits_pure ⟨pairs,List.append_nil _,hlen⟩

end Spec

/-- The status of an error answer is a negative code. -/
theorem clClientStatusError_neg {status : UInt8} (h : status≠clpStatusOk) :
    clClientStatusError status<0 := by
  unfold clClientStatusError
  rw [if_neg h]
  omega

/-- An accepted answer gives a negative code exactly if its status is an error. -/
theorem emits_streamCommandStatus {ret : ℤ} (hret : 0≤ ret) (response : ClpHeader) :
    Emits (Link.log (δ := δ)) (streamCommandStatus ret response)
      (fun code events => events=[] ∧ (code<0 ↔ response.imm≠clpStatusOk)) := by
  unfold streamCommandStatus
  rw [if_neg (by omega)]
  split
  next himm =>
    refine (emits_setClient _).bind ?_
    rintro _ _ rfl
    exact emits_pure ⟨rfl,iff_of_true (clClientStatusError_neg himm) himm⟩
  next himm => exact emits_pure ⟨rfl,iff_of_false (by decide) himm⟩

/-- A failed exchange keeps its code. -/
theorem streamCommandStatus_failed {ret : ℤ} (hret : ret<0) (response : ClpHeader) :
    streamCommandStatus (δ := δ) ret response=pure ret := by
  unfold streamCommandStatus
  rw [if_pos hret]

/-- A discarded payload is exchanged as a whole unless its length wraps around. -/
theorem emits_discarded (transport : Transport δ) (response : ClpHeader) :
    Emits Link.log (clWireDiscardPayload transport response.length) (fun _ events =>
      ∃ pairs,events=wordEvents pairs ∧
        (pairs.length=wordCount response.length ↔ Discardable response)) := by
  refine (emits_clWireDiscardPayload transport response.length).mono ?_
  rintro _ _ ⟨pairs,rfl,hlen⟩
  refine ⟨pairs,rfl,?_⟩
  rw [hlen]
  exact words_eq_wordCount

/-- Discarding is only left out where there is nothing to discard. -/
theorem emits_discardIfAny (transport : Transport δ) (response : ClpHeader) :
    Emits Link.log (discardIfAny transport response) (fun _ events =>
      ∃ pairs,events=wordEvents pairs ∧
        pairs.length=(clpAlignedLength response.length).toNat/4) := by
  unfold discardIfAny
  split
  next => exact emits_clWireDiscardPayload transport response.length
  next h =>
    refine emits_pure ⟨[],rfl,?_⟩
    rw [not_not.mp h]
    rfl

/-- An answer without payload where none is taken. -/
theorem nothing_iff {response : ClpHeader} {C : Prop} (h : C ↔ response.length=0) :
    [].length (α := UInt32×UInt32)=wordCount response.length ↔ C := by
  rw [h,← wordCount_eq_zero]
  exact eq_comm

theorem finishAck_spec (transport : Transport δ) (stream done : Stream) :
    FinishSpec (finishAck transport stream done) False Discardable where
  accepted ret response hret := by
    refine (emits_streamCommandStatus hret response).bind ?_
    rintro code _ ⟨rfl,-⟩
    refine (emits_discardIfAny transport response).bind ?_
    rintro _ _ ⟨pairs,rfl,hlen⟩
    refine emits_pure ⟨pairs,by simp,?_⟩
    rw [hlen]
    exact words_eq_wordCount
  silent h := h.elim
  loud _ ret response hret := by
    unfold finishAck
    rw [streamCommandStatus_failed hret]
    refine (emits_discardIfAny transport response).bind ?_
    rintro _ _ ⟨pairs,rfl,hlen⟩
    exact emits_pure ⟨pairs,by simp,hlen⟩

theorem finishExact_spec (transport : Transport δ) (expected : UInt32) (failure : ℤ → α)
    (other : α) (use : List UInt8 → α) :
    FinishSpec (finishExact transport expected failure other use) True DrainsExact where
  accepted ret response hret := by
    refine (emits_streamCommandStatus hret response).bind ?_
    rintro code _ ⟨rfl,hcode⟩
    split
    next hneg =>
      have himm := hcode.mp hneg
      refine emits_pure ⟨[],rfl,nothing_iff ?_⟩
      exact ⟨fun h => h.resolve_right fun h => himm h.1,Or.inl⟩
    next hpos =>
      have himm : response.imm=clpStatusOk := by
        by_contra h
        exact hpos (hcode.mpr h)
      have hdrains : DrainsExact response ↔ Discardable response := by
        constructor
        · rintro (hzero | ⟨-,h⟩)
          · unfold Discardable
            rw [hzero]
            decide
          · exact h
        · exact fun h => Or.inr ⟨himm,h⟩
      split
      next =>
        refine (emits_discarded transport response).bind ?_
        rintro _ _ ⟨pairs,rfl,hiff⟩
        exact emits_pure ⟨pairs,by simp,hiff.trans hdrains.symm⟩
      next hlen =>
        have hlen := not_not.mp hlen
        refine (emits_readPayloadWords transport expected).bind ?_
        rintro _ _ ⟨pairs,rfl,-,hpairs⟩
        refine emits_pure ⟨pairs,by simp,?_⟩
        rw [hpairs,hdrains,hlen]
        unfold Discardable
        rw [hlen]
        exact words_eq_wordCount
  silent _ ret hret := by
    refine ⟨pure (failure ret),fun response => ?_,emits_pure rfl⟩
    unfold finishExact
    rw [streamCommandStatus_failed hret]
    exact if_pos hret
  loud h := absurd trivial h

/-- A receiver takes words of the payload, all of them exactly if it can. -/
def Receives (receive : UInt32 → Prog (Link δ) (Except ℤ (List ρ)))
    (hook : Option ((length : UInt32) → Bulk δ length)) : Prop :=
  ∀ length,Emits Link.log (receive length) fun _ events => ∃ pairs,events=wordEvents pairs ∧
    (pairs.length=wordCount length ↔ Receivable hook length)

theorem drainsRecv_iff {hook : Option ((length : UInt32) → Bulk δ length)}
    {capacity : UInt32} {response : ClpHeader} (himm : response.imm=clpStatusOk) :
    DrainsRecv hook capacity response ↔ Discardable response ∨
      (response.length≤ capacity ∧ (fastHook hook response.length).isSome) := by
  constructor
  · rintro (hzero | ⟨-,h⟩)
    · left
      unfold Discardable
      rw [hzero]
      decide
    · exact h
  · exact fun h => Or.inr ⟨himm,h⟩

theorem finishRecv_spec (transport : Transport δ)
    {receive : UInt32 → Prog (Link δ) (Except ℤ (List ρ))}
    {hook : Option ((length : UInt32) → Bulk δ length)} (hreceive : Receives receive hook)
    (stream : Stream) (capacity : UInt32) :
    FinishSpec (finishRecv transport receive stream capacity) True
      (DrainsRecv hook capacity) where
  accepted ret response hret := by
    refine (emits_streamCommandStatus hret response).bind ?_
    rintro code _ ⟨rfl,hcode⟩
    split
    next hneg =>
      have himm := hcode.mp hneg
      refine emits_pure ⟨[],rfl,nothing_iff ?_⟩
      exact ⟨fun h => h.resolve_right fun h => himm h.1,Or.inl⟩
    next hpos =>
      have himm : response.imm=clpStatusOk := by
        by_contra h
        exact hpos (hcode.mpr h)
      rw [drainsRecv_iff himm]
      split
      next hover =>
        have hnot : ¬response.length≤ capacity := UInt32.not_le.mpr hover
        refine (emits_discarded transport response).bind ?_
        rintro _ _ ⟨pairs,rfl,hiff⟩
        refine emits_pure ⟨pairs,by simp,hiff.trans ?_⟩
        exact ⟨Or.inl,fun h => h.resolve_right fun h => hnot h.1⟩
      next hwithin =>
        have hle : response.length≤ capacity := UInt32.not_lt.mp hwithin
        split
        next =>
          refine (hreceive response.length).bind ?_
          rintro reply _ ⟨pairs,rfl,hiff⟩
          have hwords : pairs.length=wordCount response.length ↔ Discardable response ∨
              (response.length≤ capacity ∧ (fastHook hook response.length).isSome) := by
            rw [hiff]
            exact ⟨fun h => h.elim (fun h => Or.inr ⟨hle,h⟩) Or.inl,
              fun h => h.elim Or.inr fun h => Or.inl h.2⟩
          cases reply with
          | error code => exact emits_pure ⟨pairs,by simp,hwords⟩
          | ok data => exact emits_pure ⟨pairs,by simp,hwords⟩
        next hzero =>
          have hzero := not_not.mp hzero
          refine emits_pure ⟨[],rfl,nothing_iff (iff_of_true (Or.inl ?_) hzero)⟩
          unfold Discardable
          rw [hzero]
          decide
  silent _ ret hret := by
    refine ⟨pure (.error ret,failed stream ret),fun response => ?_,emits_pure rfl⟩
    unfold finishRecv
    rw [streamCommandStatus_failed hret]
    exact if_pos hret
  loud h := absurd trivial h

theorem receives_memory (transport : Transport δ) :
    Receives (readPayloadFastOrWords transport) transport.readPayload :=
  emits_readPayloadFastOrWords transport

theorem receives_writer (transport : Transport δ) :
    Receives (readPayloadWriterFastOrWords transport) transport.readPayloadWriter := by
  intro length
  refine (emits_receiveFastOrWords transport transport.readPayloadWriter length).bind ?_
  rintro reply _ ⟨pairs,rfl,hlen⟩
  exact emits_pure ⟨pairs,List.append_nil _,hlen⟩

/-- An operation whose command, if there is one, ends as specified. -/
def OpSpec (op : StreamOp δ α) (leaves : Prop) (drains : ClpHeader → Prop) : Prop :=
  ∀ call,op=.command call → FinishSpec call.finish leaves drains

section Ops

variable {leaves : Prop} {drains : ClpHeader → Prop}

theorem opSpec_refused (result : α) : OpSpec (δ := δ) (.refused result) leaves drains := by
  intro call h
  cases h

theorem opSpec_command {call : StreamCall δ α} (h : FinishSpec call.finish leaves drains) :
    OpSpec (.command call) leaves drains := by
  intro call' hcall
  cases hcall
  exact h

theorem opSpec_onOpen {stream : Stream} {refusal : α} {call : StreamCall δ α}
    (h : FinishSpec call.finish leaves drains) :
    OpSpec (onOpen stream refusal call) leaves drains := by
  unfold onOpen
  split
  · exact opSpec_refused _
  · exact opSpec_command h

theorem OpSpec.map {op : StreamOp δ α} (h : OpSpec op leaves drains) (f : α → β) :
    OpSpec (op.map f) leaves drains := by
  cases op with
  | refused result => exact opSpec_refused _
  | command call => exact opSpec_command ((h call rfl).map f)

theorem streamRecvPayload_spec (transport : Transport δ)
    {receive : UInt32 → Prog (Link δ) (Except ℤ (List ρ))}
    {hook : Option ((length : UInt32) → Bulk δ length)} (hreceive : Receives receive hook)
    (stream : Stream) (capacity : UInt32) :
    OpSpec (streamRecvPayload transport receive stream capacity) True
      (DrainsRecv hook capacity) := by
  unfold streamRecvPayload
  split
  · exact opSpec_refused _
  · exact opSpec_onOpen (finishRecv_spec transport hreceive stream capacity)

theorem clStreamRecvSlot_spec (transport : Transport δ) (stream : Stream) :
    OpSpec (clStreamRecvSlot transport stream) True
      (DrainsRecv transport.readPayload (UInt32.ofNat stream.slotSize)) := by
  unfold clStreamRecvSlot
  split
  · exact opSpec_refused _
  · unfold clStreamProducerAcquire
    split_ifs
    · exact opSpec_refused _
    · exact opSpec_refused _
    · dsimp only
      split
      · exact opSpec_refused _
      · exact (streamRecvPayload_spec transport (receives_memory transport) stream _).map _

theorem clStreamOpen_spec (transport : Transport δ) (stream : Stream) (kind : UInt8)
    (target : CString) : OpSpec (clStreamOpen transport stream kind target) True DrainsExact := by
  unfold clStreamOpen
  split_ifs
  · exact opSpec_refused _
  · exact opSpec_refused _
  · exact opSpec_refused _
  · exact opSpec_command (finishExact_spec transport _ _ _ _)

theorem clStreamSend_spec (transport : Transport δ) (stream : Stream) (data : List UInt8) :
    OpSpec (clStreamSend transport stream data) True DrainsExact := by
  unfold clStreamSend
  split
  · exact opSpec_refused _
  · exact opSpec_onOpen (finishExact_spec transport _ _ _ _)

/-- Every operation ends as its request says. -/
theorem op_spec (transport : Transport δ) (stream : Stream) (request : StreamRequest) :
    OpSpec (request.op transport stream) request.LeavesHeader
      (request.Drains transport stream) := by
  cases request with
  | openStream kind target => exact clStreamOpen_spec transport stream kind target
  | close => exact opSpec_onOpen (finishAck_spec transport stream _)
  | poll =>
    have hpoll : OpSpec (clStreamPoll transport stream) True DrainsExact :=
      opSpec_onOpen (finishExact_spec transport _ _ _ _)
    exact hpoll.map codeOnly
  | credit consumedBytes => exact opSpec_onOpen (finishAck_spec transport stream _)
  | seek offset => exact opSpec_onOpen (finishAck_spec transport stream _)
  | recvSlot => exact clStreamRecvSlot_spec transport stream
  | recvInto length =>
    exact ((streamRecvPayload_spec transport (receives_memory transport) stream length).map
      advance).map codeOnly
  | recvWithWriter length =>
    exact ((streamRecvPayload_spec transport (receives_writer transport) stream length).map
      advance).map codeOnly
  | send data => exact clStreamSend_spec transport stream data
  | pump => exact opSpec_onOpen (finishAck_spec transport stream _)

end Ops

/-- Whatever the transport answers and whatever the header held before, an operation
is refused without touching the link, or its exchange ends and the boundary is kept
exactly if an accepted answer can be drained, and after a failed exchange the
operation is one that leaves the header alone. -/
theorem keeps_frame_iff (transport : Transport δ) (stream : Stream) (request : StreamRequest)
    (stale : ClpHeader) (s : Link δ) :
    match request.op transport stream with
    | .refused result => (request.op transport stream).run transport stale s=(some result,s)
    | .command call => ∃ ret response t events,
        clWireCommandChunks transport clpChStream call.opcode call.chunks stale s=
          (some (ret,response),t) ∧
        t.log=s.log++events ∧ Exchanged (ret,response) events ∧
        (request.op transport stream).run transport stale s=call.finish ret response t ∧
        (KeepsFrame call.finish ret response t ↔
          (0≤ ret → request.Drains transport stream response) ∧
            (ret<0 → request.LeavesHeader)) := by
  cases hop : request.op transport stream with
  | refused result => rfl
  | command call =>
    obtain ⟨⟨ret,response⟩,t,events,hrun,hlog,hexchanged⟩ :=
      (emits_clWireCommandChunks transport clpChStream call.opcode call.chunks stale).returns s
    refine ⟨ret,response,t,events,hrun,hlog,hexchanged,bind_run hrun,?_⟩
    exact (op_spec transport stream request call hop).keepsFrame_iff ret response t

/-- An open stream with one slot. -/
def smallStream : Stream where
  buffer := [0,0,0,0]
  bufferSize := 4
  slots := [clearSlot]
  flags := 0
  slotSize := 4
  slotCount := 1
  readSlot := 0
  writeSlot := 0
  readySlots := 0
  state := .opened
  readOffset := 0
  profile := .balanced
  streamId := 1
  rxOffset := 0
  txOffset := 0
  remoteSizeLow := 0
  remoteSizeHigh := 0
  lastError := 0

/-- The header of a late response to an earlier close, with one word of payload. -/
def lateResponse : ClpHeader := ⟨clpTypeResponse,clpChStream,clpStreamClose,0,4,7,0,0⟩

/-- After the five words of the command the late response arrives. -/
def lateScript : List UInt32 := [0,0,0,0,0]++clpEncodeHeaderWords lateResponse++[0]

/-- What the close does with the outcome of its exchange. -/
def closeFinish : ℤ → ClpHeader → Prog (Link (List UInt32)) (ℤ×Stream) :=
  finishAck scriptTransport smallStream (closed smallStream)

/-- The link after the exchange of a close that received the late response. -/
def lateLink : Link (List UInt32) :=
  (clWireCommandChunks scriptTransport clpChStream clpStreamClose [idRequest smallStream []]
    lateResponse (scriptLink lateScript)).2

/-- A close that receives a late response fails, but it exchanges a payload word by
the length of the rejected header. -/
theorem frame_fails :
    ¬∀ (δ : Type) (transport : Transport δ) (stream : Stream) (request : StreamRequest)
      (stale : ClpHeader) (s : Link δ) (call : StreamCall δ (ℤ×Stream)) (ret : ℤ)
      (response : ClpHeader) (t : Link δ),request.op transport stream=.command call →
      clWireCommandChunks transport clpChStream call.opcode call.chunks stale s=
        (some (ret,response),t) →
      KeepsFrame call.finish ret response t := by
  intro hall
  have hrun : clWireCommandChunks scriptTransport clpChStream clpStreamClose
      [idRequest smallStream []] lateResponse (scriptLink lateScript)=
      (some (-2,lateResponse),lateLink) := by
    refine Prod.ext ?_ rfl
    decide
  have hkeeps := hall _ scriptTransport smallStream .close lateResponse (scriptLink lateScript)
    ⟨clpStreamClose,[idRequest smallStream []],closeFinish⟩ (-2) lateResponse lateLink rfl hrun
  have hleaves := ((finishAck_spec scriptTransport smallStream (closed smallStream)).keepsFrame_iff
    (-2) lateResponse lateLink).mp hkeeps
  exact hleaves.2 (by decide)

end ChisLink.StreamClientBoundary
