import ChisLink.StreamReading

/-!
# The life of a stream

The operations that expect no payload end in one of two ways: the stream is as the operation
wants it if the command was accepted, and it is marked as failed and keeps its identity
otherwise. A pump is such an operation. A seek resets the stream and puts its identity back,
but not its remote size.
-/

namespace ChisLink.StreamLifecycle

open DriverPrograms LabelledRuns WireProtocol StorageClient StorageBoundary StreamRing
  StreamRefinement WireCommands StreamClient StreamClientBoundary StreamReading

variable {δ : Type}

/-- The calls of the stream client. -/
inductive ClientCall where
  /-- An operation with one command at most. -/
  | request (asked : StreamRequest)
  /-- A read or a discard. -/
  | read (call : ReadCall)
  /-- `cl_stream_read_exact`. -/
  | readExact (length : UInt32) (stale : ℕ → ClpHeader)

/-- Carry out a call whose header holds something at the beginning. -/
def ClientCall.run (transport : Transport δ) (stale : ClpHeader) (stream : Stream) :
    ClientCall → Prog (Link δ) (ℤ×Stream)
  | .request asked => (asked.op transport stream).run transport stale
  | .read call => do
    let reply ← call.run transport (call.length.toNat+1) stream
    pure (reply.ret,reply.stream)
  | .readExact length stales => do
    let reply ← clStreamReadExact transport stales (length.toNat+1) stream length
    pure (reply.1,reply.2.stream)

/-- A call that was made. -/
structure Made where
  /-- The call. -/
  call : ClientCall
  /-- Its result. -/
  ret : ℤ
  /-- The stream before it. -/
  before : Stream

/-- A stream client in use. -/
structure Session (δ : Type) where
  /-- The link. -/
  link : Link δ
  /-- The stream. -/
  stream : Stream
  /-- The last call, if there was one. -/
  made : Option Made

/-- A call with the old contents of its response header. -/
structure Action where
  /-- The call. -/
  call : ClientCall
  /-- The header. -/
  stale : ClpHeader

/-- One call. -/
def step (transport : Transport δ) (s : Session δ) (action : Action) : Option (Session δ) :=
  match action.call.run transport action.stale s.stream s.link with
  | (some (ret,stream),link) => some ⟨link,stream,some ⟨action.call,ret,s.stream⟩⟩
  | (none,_) => none

/-- The stream is marked as closed on the client side. -/
def IsClosed (stream : Stream) : Prop := stream.streamId=0 ∧ stream.state=.closed

/-- A stream keeps its identity and its remote size, and its ring is empty. -/
structure Moved (before after : Stream) : Prop where
  /-- The identity. -/
  streamId : after.streamId=before.streamId
  /-- The remote size, low word. -/
  remoteSizeLow : after.remoteSizeLow=before.remoteSizeLow
  /-- The remote size, high word. -/
  remoteSizeHigh : after.remoteSizeHigh=before.remoteSizeHigh
  /-- The ring. -/
  emptied : chunks after=[]

/-- The stream is closed if the last call was a pump, and it was only moved if the last call
was a seek that succeeded. -/
def Lawful (s : Session δ) : Prop :=
  ∀ made,s.made=some made → (made.call=.request .pump → IsClosed s.stream) ∧
    ∀ offset,made.call=.request (.seek offset) → made.ret=0 → Moved made.before s.stream

/-- A command with this payload is answered, and the answer says that it succeeded. -/
def Accepted (transport : Transport δ) (opcode : UInt8) (request : List UInt8)
    (stale : ClpHeader) (link : Link δ) : Prop :=
  ∃ ret response t,clWireCommandChunks transport clpChStream opcode [request] stale link=
    (some (ret,response),t) ∧ 0≤ ret ∧ response.imm=clpStatusOk

/-- The payload of a seek. -/
def seekRequest (stream : Stream) (offset : UInt64) : List UInt8 :=
  idRequest stream (storeLe32 offset.toUInt32 4++storeLe32 (offset >>> 32).toUInt32 4)

/-- A pump is accepted or the stream is closed already, and a seek that is accepted finds a
remote size of zero. -/
def Meets (transport : Transport δ) (s : Session δ) (action : Action) : Prop :=
  (action.call=.request .pump → IsClosed s.stream ∨ (s.stream.streamId≠0 ∧
    Accepted transport clpStreamPump (idRequest s.stream []) action.stale s.link)) ∧
  ∀ offset,action.call=.request (.seek offset) → s.stream.streamId≠0 →
    Accepted transport clpStreamSeek (seekRequest s.stream offset) action.stale s.link →
    s.stream.remoteSizeLow=0 ∧ s.stream.remoteSizeHigh=0

/-- An operation that expects no payload succeeds exactly if its command is accepted. -/
theorem wp_ackOperation (transport : Transport δ) {stream : Stream} (done : Stream)
    (opcode : UInt8) (request : List UInt8) (stale : ClpHeader) (hopen : stream.streamId≠0)
    (s : Link δ) :
    wp ((onOpen stream (-1,stream)
        { opcode := opcode
          chunks := [request]
          finish := finishAck transport stream done }).run transport stale)
      (fun reply _ => (Accepted transport opcode request stale s ∧ reply=(0,done)) ∨
        (¬Accepted transport opcode request stale s ∧ reply.1<0 ∧
          reply.2=failed stream reply.1))
      (fun _ => False) s := by
  obtain ⟨⟨ret,response⟩,t,-,hrun,-,-⟩ :=
    (emits_clWireCommandChunks transport clpChStream opcode [request] stale).returns s
  have haccepted : Accepted transport opcode request stale s ↔
      0≤ ret ∧ response.imm=clpStatusOk := by
    constructor
    · rintro ⟨code,header,u,hother,hcode,hstatus⟩
      rw [hrun] at hother
      cases hother
      exact ⟨hcode,hstatus⟩
    · rintro ⟨hcode,hstatus⟩
      exact ⟨ret,response,t,hrun,hcode,hstatus⟩
  unfold onOpen
  rw [if_neg hopen]
  unfold StreamOp.run
  dsimp only
  rw [wp_bind_run hrun,haccepted]
  have hend : ∀ (code : ℤ) (u : Link δ),(code<0 ↔ ¬(0≤ ret ∧ response.imm=clpStatusOk)) →
      wp (discardIfAny transport response >>= fun _ =>
          pure (if code<0 then (code,failed stream code) else (0,done)))
        (fun reply _ => ((0≤ ret ∧ response.imm=clpStatusOk) ∧ reply=(0,done)) ∨
          (¬(0≤ ret ∧ response.imm=clpStatusOk) ∧ reply.1<0 ∧ reply.2=failed stream reply.1))
        (fun _ => False) u := by
    intro code u hcode
    obtain ⟨_,v,-,hdiscard,-⟩ := (emits_discardIfAny transport response).returns u
    rw [wp_bind_run hdiscard,wp_pure]
    by_cases hneg : code<0
    · rw [if_pos hneg]
      exact Or.inr ⟨hcode.mp hneg,hneg,rfl⟩
    · rw [if_neg hneg]
      exact Or.inl ⟨not_not.mp (mt hcode.mpr hneg),rfl⟩
  unfold finishAck streamCommandStatus
  by_cases hret : ret<0
  · rw [if_pos hret,wp_bind,wp_pure]
    exact hend ret t (iff_of_true hret fun h => absurd hret (not_lt.mpr h.1))
  · rw [if_neg hret]
    by_cases himm : response.imm≠clpStatusOk
    · have hneg := clClientStatusError_neg himm
      unfold streamStatusError setClient
      rw [if_pos himm,wp_bind,wp_bind,wp_update,wp_pure]
      exact hend _ _ (iff_of_true hneg fun h => himm h.2)
    · rw [if_neg himm,wp_bind,wp_pure]
      exact hend 0 t (iff_of_false (lt_irrefl 0) fun h => h ⟨not_lt.mp hret,not_not.mp himm⟩)

section Steps

variable {transport : Transport δ} {s t : Session δ} {action : Action}

/-- A step makes its call. -/
theorem step_some (h : step transport s action=some t) :
    ∃ ret,action.call.run transport action.stale s.stream s.link=
        (some (ret,t.stream),t.link) ∧
      t.made=some ⟨action.call,ret,s.stream⟩ := by
  unfold step at h
  split at h
  next ret stream link hrun =>
    cases h
    exact ⟨ret,hrun,rfl⟩
  next => cases h

/-- A pump closes the stream exactly if it is accepted or the stream is closed already. -/
theorem pump_iff (h : step transport s action=some t) (hcall : action.call=.request .pump) :
    IsClosed t.stream ↔ IsClosed s.stream ∨ (s.stream.streamId≠0 ∧
      Accepted transport clpStreamPump (idRequest s.stream []) action.stale s.link) := by
  obtain ⟨ret,hrun,-⟩ := step_some h
  rw [hcall] at hrun
  have hrun : (clStreamPump transport s.stream).run transport action.stale s.link=
      (some (ret,t.stream),t.link) := hrun
  by_cases hopen : s.stream.streamId=0
  · have hrefused : clStreamPump transport s.stream=.refused (-1,s.stream) := if_pos hopen
    rw [hrefused] at hrun
    have hsame : s.stream=t.stream :=
      (Prod.mk.inj (Option.some.inj (Prod.mk.inj hrun).1)).2
    rw [← hsame]
    exact ⟨Or.inl,fun h => h.resolve_right fun h => h.1 hopen⟩
  · have hnot : ¬IsClosed s.stream := fun h => hopen h.1
    have hend := wp_ackOperation transport (closed s.stream) clpStreamPump
      (idRequest s.stream []) action.stale hopen s.link
    unfold wp at hend
    unfold clStreamPump at hrun
    rw [hrun] at hend
    rcases hend with ⟨haccepted,hreply⟩ | ⟨hrejected,-,hreply⟩
    · have hstream : t.stream=closed s.stream := (Prod.mk.inj hreply).2
      refine iff_of_true ?_ (Or.inr ⟨hopen,haccepted⟩)
      rw [hstream]
      exact ⟨rfl,rfl⟩
    · have hstream : t.stream=failed s.stream ret := hreply
      refine iff_of_false (fun h => hopen ?_) fun h => hrejected (h.resolve_left hnot).2
      rw [hstream] at h
      exact h.1

/-- A seek that succeeds keeps the identity and empties the ring, and it keeps the remote size
exactly if that is zero. -/
theorem seek_iff {offset : UInt64} (h : step transport s action=some t)
    (hcall : action.call=.request (.seek offset)) :
    (∀ made,t.made=some made → made.ret=0 → Moved s.stream t.stream) ↔
      (s.stream.streamId≠0 →
        Accepted transport clpStreamSeek (seekRequest s.stream offset) action.stale s.link →
        s.stream.remoteSizeLow=0 ∧ s.stream.remoteSizeHigh=0) := by
  obtain ⟨ret,hrun,hmade⟩ := step_some h
  rw [hcall] at hrun
  have hret : (∀ made,t.made=some made → made.ret=0 → Moved s.stream t.stream) ↔
      (ret=0 → Moved s.stream t.stream) := by
    rw [hmade]
    constructor
    · exact fun h => h _ rfl
    · rintro h made hmade
      cases hmade
      exact h
  rw [hret]
  have hrun : (clStreamSeek transport s.stream offset).run transport action.stale s.link=
      (some (ret,t.stream),t.link) := hrun
  by_cases hopen : s.stream.streamId=0
  · have hrefused : clStreamSeek transport s.stream offset=.refused (-1,s.stream) :=
      if_pos hopen
    rw [hrefused] at hrun
    have hcode : -1=ret := (Prod.mk.inj (Option.some.inj (Prod.mk.inj hrun).1)).1
    refine iff_of_true (fun hzero => ?_) fun h => absurd hopen h
    rw [← hcode] at hzero
    exact absurd hzero (by decide)
  · have hend := wp_ackOperation transport (sought s.stream offset) clpStreamSeek
      (seekRequest s.stream offset) action.stale hopen s.link
    unfold wp at hend
    unfold clStreamSeek at hrun
    unfold seekRequest at hend ⊢
    rw [hrun] at hend
    rcases hend with ⟨haccepted,hreply⟩ | ⟨hrejected,hneg,-⟩
    · obtain ⟨hzero,hstream⟩ := Prod.mk.inj hreply
      rw [hstream]
      constructor
      · intro hmoved _ _
        exact ⟨(hmoved hzero).remoteSizeLow.symm,(hmoved hzero).remoteSizeHigh.symm⟩
      · intro hsize _
        obtain ⟨hlow,hhigh⟩ := hsize hopen haccepted
        exact ⟨rfl,hlow.symm,hhigh.symm,chunks_eq_nil rfl⟩
    · refine iff_of_true (fun hzero => ?_) fun _ h => absurd h hrejected
      have hcode : ret<0 := hneg
      exact absurd hzero (ne_of_lt hcode)

/-- A step ends lawfully exactly if it meets the condition. -/
theorem lawful_iff (h : step transport s action=some t) :
    Lawful t ↔ Meets transport s action := by
  obtain ⟨ret,-,hmade⟩ := step_some h
  have hlawful : Lawful t ↔ (action.call=.request .pump → IsClosed t.stream) ∧
      ∀ offset,action.call=.request (.seek offset) →
        ∀ made,t.made=some made → made.ret=0 → Moved s.stream t.stream := by
    unfold Lawful
    rw [hmade]
    constructor
    · intro hall
      obtain ⟨hpump,hseek⟩ := hall _ rfl
      refine ⟨hpump,fun offset hcall made hsome => ?_⟩
      cases hsome
      exact hseek offset hcall
    · rintro ⟨hpump,hseek⟩ made hsome
      cases hsome
      exact ⟨hpump,fun offset hcall => hseek offset hcall _ rfl⟩
  rw [hlawful]
  unfold Meets
  refine and_congr (forall_congr' fun hcall => pump_iff h hcall) ?_
  exact forall_congr' fun offset => forall_congr' fun hcall => seek_iff h hcall

/-- In a run of calls of the stream client, whatever is answered, every pump leaves the stream
closed and every seek that succeeds keeps its identity and its remote size and empties the
ring, exactly if every pump is accepted or finds the stream closed, and every seek that is
accepted finds a remote size of zero. -/
theorem lifecycle_iff {start last : Session δ} {trace : List (Session δ×Action)}
    (run : Run (step transport) start trace last) (hstart : start.made=none) :
    Always Lawful trace last ↔ EveryStep (Meets transport) trace := by
  have hkeep : ∀ s action t,True → step transport s action=some t → True :=
    fun _ _ _ _ _ => trivial
  refine run.always_iff_everyStep trivial hkeep ?_ fun s action t _ _ henabled => lawful_iff henabled
  intro made hmade
  rw [hstart] at hmade
  cases hmade

end Steps

/-- A header that was not written yet. -/
def unwritten : ClpHeader := ⟨0,0,0,0,0,0,0,0⟩

/-- An open stream on a link where nothing arrives, and a pump. -/
def pumpStart : Session (List UInt32) := ⟨scriptLink [],smallStream,none⟩

/-- The pump. -/
def pumpAction : Action := ⟨.request .pump,unwritten⟩

/-- A run of a pump that is not answered. -/
theorem pump_run : ∃ t,Run (step scriptTransport) pumpStart [(pumpStart,pumpAction)] t ∧
    t.stream.streamId=1 ∧ t.made.map Made.call=some (.request .pump) := by
  have hid : (step scriptTransport pumpStart pumpAction).map (fun t => t.stream.streamId)=
      some 1 := by decide +kernel
  obtain ⟨t,ht,hstream⟩ := Option.map_eq_some_iff.mp hid
  obtain ⟨ret,-,hmade⟩ := step_some ht
  refine ⟨t,Run.nil.snoc ht,hstream,?_⟩
  rw [hmade]
  rfl

theorem lifecycle_iff_pump : ∃ t,
    Run (step scriptTransport) pumpStart [(pumpStart,pumpAction)] t ∧
    (Always Lawful [(pumpStart,pumpAction)] t ↔
      EveryStep (Meets scriptTransport) [(pumpStart,pumpAction)]) := by
  obtain ⟨t,hrun,-⟩ := pump_run
  exact ⟨t,hrun,lifecycle_iff hrun rfl⟩

/-- An open stream of a file of five bytes, and a server that accepts a seek. -/
def seekStart : Session (List UInt32) :=
  ⟨scriptLink ([0,0,0,0,0,0,0]++[clpMakeWord clpTypeAck clpChStream clpStreamSeek 0]),
    {smallStream with remoteSizeLow := 5},none⟩

/-- A pump that is not answered leaves the stream open, and a seek that is accepted loses the
remote size. -/
theorem lifecycle_fails :
    (¬∀ (transport : Transport (List UInt32)) start trace last,
      Run (step transport) start trace last → start.made=none → Always Lawful trace last) ∧
    (step scriptTransport seekStart ⟨.request (.seek 2),unwritten⟩).map
      (fun t => (t.made.map Made.ret,t.stream.streamId,t.stream.remoteSizeLow))=
        some (some 0,1,0) := by
  refine ⟨fun hall => ?_,by decide +kernel⟩
  obtain ⟨t,hrun,hid,hcall⟩ := pump_run
  obtain ⟨-,hlawful⟩ := hall _ _ _ _ hrun rfl
  obtain ⟨made,hmade,hpump⟩ := Option.map_eq_some_iff.mp hcall
  have hclosed := ((hlawful made hmade).1 hpump).1
  rw [hid] at hclosed
  exact absurd hclosed (by decide)

end ChisLink.StreamLifecycle
