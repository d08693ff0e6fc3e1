import ChisLink.LabelledRuns
import ChisLink.StreamServer

/-!
# Reading an image through the bridge

The bridge keeps one stream of the image open. A read seeks unless it begins where
the stream says that the last one ended, and then receives. The stream's own count
and the position at the server are two variables on two machines: a command that
the server carried out and whose answer was lost moves one of them only.
-/

namespace ChisLink.BridgeStream

open DriverPrograms WireProtocol StorageClient StorageBoundary StreamRing WireCommands
  StreamClient StreamServer LabelledRuns

/-- Stream flag of a receiver. -/
def clpStreamFlagRx : UInt32 := 0x00000001

/-- The variables of the bridge that the reads use. -/
structure Bridge where
  /-- `s_open`. -/
  isOpen : Bool
  /-- The size in `s_launch`. -/
  launchSize : UInt32
  /-- The path in `s_launch`. -/
  launchPath : CString
  /-- `s_rom_stream`. -/
  romStream : Stream
  /-- `s_rom_stream_max`. -/
  romStreamMax : ℕ

/-- A stream after `memset`. -/
def zeroStream : Stream :=
  { buffer := []
    bufferSize := 0
    slots := []
    flags := 0
    slotSize := 0
    slotCount := 0
    readSlot := 0
    writeSlot := 0
    readySlots := 0
    state := .closed
    readOffset := 0
    profile := .balanced
    streamId := 0
    rxOffset := 0
    txOffset := 0
    remoteSizeLow := 0
    remoteSizeHigh := 0
    lastError := 0 }

/-- The arguments of `chislink_bridge_read_stream` with the memory they point to, and
what the response headers of its commands hold before they are written. -/
structure Call where
  /-- Where the read begins in the image. -/
  offset : UInt32
  /-- Bytes to read. -/
  length : UInt32
  /-- Address of the destination, zero for a null pointer. -/
  address : ℕ
  /-- The bytes at the destination. -/
  memory : List UInt8
  /-- There is room for the read. -/
  memory_length : memory.length=length.toNat
  /-- Old contents of the response header, for each opcode. -/
  stale : UInt8 → ClpHeader

variable {δ : Type}

/-- The length as a sixteen-bit number. -/
def Call.slotSize (call : Call) : ℕ := call.length.toNat%65536

/-- The configuration of the stream. -/
def streamConfig (call : Call) : StreamConfig :=
  { bufferAddress := call.address
    bufferSize := call.length.toNat
    buffer := call.memory
    buffer_length := call.memory_length
    hasSlots := true
    slotCount := 1
    slotCount_lt := by decide
    slotSize := call.slotSize
    slotSize_lt := Nat.mod_lt _ (by decide)
    flags := clpStreamFlagRx
    profile := .highThroughput }

/-- The function `bridge_stream_open`. -/
def bridgeStreamOpen (transport : Transport δ) (bridge : Bridge) (call : Call) :
    Prog (Link δ) (ℤ×Bridge) :=
  if bridge.isOpen=false ∨ call.address=0 ∨ call.length=0 ∨ 65535<call.length.toNat then
    pure (-1,bridge)
  else
    match clStreamInit (streamConfig call) with
    | none => pure (-2,bridge)
    | some stream => do
      let reply ← (clStreamSubscribeFile transport stream bridge.launchPath).run transport
        (call.stale clpStreamOpen)
      pure
        (if reply.1<0 then (reply.1,{ bridge with romStream := reply.2 })
        else (0,{ bridge with romStream := reply.2, romStreamMax := call.slotSize }))

/-- The part of `bridge_stream_prepare` behind the open. -/
def bridgeStreamSeek (transport : Transport δ) (bridge : Bridge) (call : Call) :
    Prog (Link δ) (ℤ×Bridge) :=
  if call.address=0 ∨ call.length=0 ∨ bridge.romStreamMax<call.length.toNat ∨
      bridge.launchSize<call.offset ∨ bridge.launchSize-call.offset<call.length then
    pure (-1,bridge)
  else if bridge.romStream.rxOffset≠call.offset then do
    let reply ← (clStreamSeek transport bridge.romStream call.offset.toUInt64).run transport
      (call.stale clpStreamSeek)
    pure (if reply.1<0 then reply.1 else 0,{ bridge with romStream := reply.2 })
  else pure (0,bridge)

/-- The function `bridge_stream_prepare`. -/
def bridgeStreamPrepare (transport : Transport δ) (bridge : Bridge) (call : Call) :
    Prog (Link δ) (ℤ×Bridge) :=
  if bridge.romStream.streamId=0 then do
    let reply ← bridgeStreamOpen transport bridge call
    if reply.1<0 then pure reply else bridgeStreamSeek transport reply.2 call
  else bridgeStreamSeek transport bridge call

/-- The part of `chislink_bridge_read_stream` behind the preparation. -/
def bridgeStreamReceive (transport : Transport δ) (call : Call) (ready : ℤ×Bridge) :
    Prog (Link δ) (Except ℤ (List UInt8)×Bridge) :=
  if ready.1<0 then pure (.error ready.1,ready.2)
  else do
    let reply ← (clStreamRecvInto transport ready.2.romStream call.length).run transport
      (call.stale clpStreamRecv)
    pure
      (match reply.1 with
        | .error code => .error code
        | .ok (got,data) => if got=call.length then .ok data else .error (-3),
      { ready.2 with romStream := reply.2 })

/-- The function `chislink_bridge_read_stream`: the code, or the bytes at the
destination. -/
def chislinkBridgeReadStream (transport : Transport δ) (bridge : Bridge) (call : Call) :
    Prog (Link δ) (Except ℤ (List UInt8)×Bridge) := do
  let ready ← bridgeStreamPrepare transport bridge call
  bridgeStreamReceive transport call ready

/-- The bridge and the server with the wire between them. -/
structure World where
  /-- The client and the server. -/
  link : Link Device
  /-- The bridge. -/
  bridge : Bridge

/-- A read with what becomes of its commands. -/
structure Action where
  /-- The read. -/
  call : Call
  /-- Its commands in order. -/
  fates : List Fate

/-- The link on which a read runs. -/
def linkFor (s : World) (action : Action) : Link Device :=
  { s.link with device := { s.link.device with fates := action.fates } }

/-- The run of a read. -/
def runOf (s : World) (action : Action) :
    Option (Except ℤ (List UInt8)×Bridge)×Link Device :=
  chislinkBridgeReadStream wire s.bridge action.call (linkFor s action)

/-- One read. -/
def step (s : World) (action : Action) : Option World :=
  match runOf s action with
  | (some reply,link) => some ⟨link,reply.2⟩
  | (none,_) => none

/-- A bridge that was just opened. -/
def Bridge.opened (size : UInt32) (path : CString) : Bridge :=
  { isOpen := true
    launchSize := size
    launchPath := path
    romStream := zeroStream
    romStreamMax := 0 }

/-- The start: an opened bridge, and a server that awaits a command. -/
def start (client : Client) (server : Server) (size : UInt32) (path : CString) : World :=
  { link := ⟨⟨server,[],[],[],0⟩,client,[]⟩
    bridge := Bridge.opened size path }

/-- A read that succeeds has the bytes of the image. -/
def Exact (image : List UInt8) (s : World) (action : Action) : Prop :=
  ∀ data bridge,(runOf s action).1=some (.ok data,bridge) →
    data=(image.drop action.call.offset.toNat).take action.call.length.toNat ∧
      data.length=action.call.length.toNat

/-- A read on an open stream that does not seek finds the server where it begins. -/
def AtPosition (s : World) (action : Action) : Prop :=
  s.bridge.romStream.streamId≠0 → s.bridge.romStream.rxOffset=action.call.offset →
    s.link.device.server.position s.bridge.romStream.streamId=action.call.offset.toNat

/-- What the server carries out is answered: with success, with no more than was asked
for, and so that the payload arrives. -/
def SettledFates (call : Call) (fates : List Fate) : Prop :=
  ∀ fate∈fates,(fate.carriedOut=true → fate.answer=.success ∧ 0≤fate.bulkResult) ∧
    fate.count≤ call.length

/-- A read all of whose commands are answered if they are carried out. -/
def Settled (_ : World) (action : Action) : Prop := SettledFates action.call action.fates

/-- The server is where the stream says. -/
def Synced (device : Device) (bridge : Bridge) : Prop :=
  bridge.romStream.streamId≠0 →
    device.server.position bridge.romStream.streamId=bridge.romStream.rxOffset.toNat

section Operations

variable {D : Link Device → Prop} {s : Link Device}

theorem delivering_self {device : Device} (h : device.inbox=[]) :
    device.delivering device.outbox=device := by
  obtain ⟨server,inbox,outbox,fates,bulkResult⟩ := device
  cases h
  rfl

/-- A single chunk that is not too long. -/
theorem wirePayloadLength_single {chunk : List UInt8}
    (h : chunk.length≤ clpFrameMaxPayloadBytes) :
    wirePayloadLength [chunk]=some chunk.length := by
  unfold wirePayloadLength wirePayloadLengthFrom
  rw [if_neg (by omega),Nat.zero_add]
  rfl

/-- A request of words arrives as these words. -/
theorem payloadWords_request {stream : Stream} {words : List UInt32}
    (h : words.length<2^30-2) :
    payloadWords [idRequest stream (words.flatMap fun word => storeLe32 word 4)].flatten=
      stream.streamId.toUInt32::words := by
  have hflat : [idRequest stream (words.flatMap fun word => storeLe32 word 4)].flatten=
      (stream.streamId.toUInt32::words).flatMap fun word => storeLe32 word 4 := by
    rw [List.flatten_singleton,List.flatMap_cons]
    rfl
  rw [hflat]
  exact payloadWords_stored (by rw [List.length_cons]; omega)

/-- A command succeeds with code zero or fails with a negative code. -/
theorem code_of_outcome {before after : Device} {opcode : UInt8} {request : List UInt32}
    {stale : ClpHeader} {reply : ℤ×ClpHeader}
    (h : Outcome before opcode request stale reply after) :
    ((before.fates.headD lost).answer=.success ∧ commandCode reply=0) ∨
      ((before.fates.headD lost).answer≠.success ∧ commandCode reply<0) := by
  obtain ⟨-,-,-,-,hanswer⟩ := h
  unfold commandCode
  cases hkind : (before.fates.headD lost).answer with
  | silent =>
    rw [hkind] at hanswer
    refine Or.inr ⟨by simp,?_⟩
    rw [hanswer]
    change (if (-2 : ℤ)<0 then (-2 : ℤ) else _)<0
    rw [if_pos (by decide)]
    decide
  | failure status hstatus extra =>
    rw [hkind] at hanswer
    refine Or.inr ⟨by simp,?_⟩
    rw [hanswer.1,if_neg (by decide),hanswer.2]
    exact clClientStatusError_neg hstatus
  | success =>
    rw [hkind] at hanswer
    refine Or.inl ⟨rfl,?_⟩
    rw [hanswer.1,if_neg (by decide),hanswer.2.1]
    rfl

/-- The server after a seek. -/
def seekServer (before : Device) (stream : Stream) (offset : UInt32) : Server :=
  if (before.fates.headD lost).carriedOut then
    before.server.move stream.streamId offset.toNat
  else before.server

/-- A seek of an open stream moves both sides if it succeeds, and only the server if it
was carried out and failed. -/
theorem wp_seek {stream : Stream} {offset : UInt32} {stale : ClpHeader}
    {Q : ℤ×Stream → Link Device → Prop} (hopen : stream.streamId≠0)
    (hinbox : s.device.inbox=[])
    (hdone : ∀ t : Link Device,(s.device.fates.headD lost).answer=.success →
      t.device.inbox=[] → t.device.fates=s.device.fates.tail →
      t.device.server=seekServer s.device stream offset →
      Q (0,sought stream offset.toUInt64) t)
    (hfailed : ∀ (t : Link Device) (code : ℤ),code<0 →
      (s.device.fates.headD lost).answer≠.success →
      t.device.inbox=[] → t.device.fates=s.device.fates.tail →
      t.device.server=seekServer s.device stream offset →
      Q (code,failed stream code) t) :
    wp ((clStreamSeek wire stream offset.toUInt64).run wire stale) Q D s := by
  have hhigh : (offset.toUInt64 >>> 32).toUInt32=0 := by
    apply UInt32.toNat_inj.mp
    have hlt := offset.toNat_lt
    simp
    omega
  have hchunks : storeLe32 offset.toUInt64.toUInt32 4++
      storeLe32 (offset.toUInt64 >>> 32).toUInt32 4=
        [offset,0].flatMap fun word => storeLe32 word 4 := by
    rw [hhigh,UInt32.toUInt32_toUInt64]
    rfl
  unfold clStreamSeek onOpen
  rw [if_neg hopen,hchunks]
  unfold StreamOp.run
  rw [wp_bind]
  refine wp_command hinbox (wirePayloadLength_single (by change 12≤32768; omega))
    fun reply t hreply => ?_
  rw [payloadWords_request (by simp)] at hreply
  have hcode := code_of_outcome hreply
  obtain ⟨hserver,hidle,hfates,-,-⟩ := hreply
  have hmoved : t.device.server=seekServer s.device stream offset := by
    rw [hserver,carryOut_seek]
    unfold seekServer
    have hzero : (0 : UInt32).toNat=0 := rfl
    rw [hzero,Nat.zero_mul,Nat.add_zero]
  refine wp_finishAck (delivering_self hidle).symm fun u rest hu => ?_
  have huserver : u.device.server=t.device.server := by rw [hu]; rfl
  have hufates : u.device.fates=t.device.fates := by rw [hu]; rfl
  have huinbox : u.device.inbox=[] := by rw [hu]; rfl
  rcases hcode with ⟨hsuccess,hzero⟩ | ⟨hfailure,hneg⟩
  · rw [hzero,if_neg (by decide)]
    exact hdone u hsuccess huinbox (hufates.trans hfates) (huserver.trans hmoved)
  · rw [if_pos hneg]
    exact hfailed u _ hneg hfailure huinbox (hufates.trans hfates) (huserver.trans hmoved)

/-- The bytes that the server sends for a receive. -/
def sentData (before : Device) (stream : Stream) : List UInt8 :=
  before.server.sent stream.streamId (before.fates.headD lost).count

/-- The server after a receive. -/
def recvServer (before : Device) (stream : Stream) : Server :=
  if (before.fates.headD lost).carriedOut then
    before.server.move stream.streamId
      (before.server.position stream.streamId+(sentData before stream).length)
  else before.server

/-- A receive that arrives. -/
def Arrives (before : Device) (stream : Stream) (capacity : UInt32) : Prop :=
  (before.fates.headD lost).answer=.success ∧
    (sentData before stream).length≤ capacity.toNat ∧
    ¬(256≤(sentData before stream).length ∧ (before.fates.headD lost).bulkResult<0)

theorem length_sentData_lt (before : Device) (stream : Stream) :
    (sentData before stream).length<2^32 := by
  unfold sentData Server.sent
  rw [List.length_take]
  exact (Nat.min_le_left _ _).trans_lt (UInt32.toNat_lt _)

/-- A receive on an open stream returns the bytes from the position of the server, and
counts them, if they arrive. -/
theorem wp_recv {stream : Stream} {capacity : UInt32} {stale : ClpHeader}
    {Q : Except ℤ (UInt32×List UInt8)×Stream → Link Device → Prop}
    (hopen : stream.streamId≠0) (hpositive : capacity≠0)
    (hslot : ¬stream.slotSize<capacity.toNat) (hsmall : capacity.toNat<2^16)
    (hinbox : s.device.inbox=[])
    (hdone : ∀ t : Link Device,Arrives s.device stream capacity → t.device.inbox=[] →
      t.device.fates=s.device.fates.tail → t.device.server=recvServer s.device stream →
      Q (.ok (UInt32.ofNat (sentData s.device stream).length,sentData s.device stream),
        { stream with
          rxOffset := stream.rxOffset+UInt32.ofNat (sentData s.device stream).length }) t)
    (hfailed : ∀ (t : Link Device) (code : ℤ) (after : Stream),
      ¬Arrives s.device stream capacity → after.streamId=stream.streamId →
      after.rxOffset=stream.rxOffset → t.device.inbox=[] →
      t.device.fates=s.device.fates.tail → t.device.server=recvServer s.device stream →
      Q (.error code,after) t) :
    wp ((clStreamRecvInto wire stream capacity).run wire stale) Q D s := by
  have hchunks : storeLe32 capacity 4=[capacity].flatMap fun word => storeLe32 word 4 := by
    rw [List.flatMap_singleton]
  unfold clStreamRecvInto streamRecvPayload onOpen
  rw [if_neg (not_or.mpr ⟨hpositive,hslot⟩),if_neg hopen,hchunks]
  unfold StreamOp.map StreamOp.run
  dsimp only
  rw [wp_bind]
  refine wp_command hinbox (wirePayloadLength_single (by change 8≤32768; omega))
    fun reply t hreply => ?_
  rw [payloadWords_request (by simp)] at hreply
  have hcode := code_of_outcome hreply
  obtain ⟨hserver,hidle,hfates,hbulk,hanswer⟩ := hreply
  rw [carryOut_recv] at hserver hanswer
  have hmoved : t.device.server=recvServer s.device stream := hserver
  have hlt := length_sentData_lt s.device stream
  rw [wp_bind]
  unfold finishRecv
  rw [wp_bind]
  refine wp_streamCommandStatus fun u hu => ?_
  rcases hcode with ⟨hsuccess,hzero⟩ | ⟨hfailure,hneg⟩
  · rw [hzero,if_neg (by decide)]
    rw [hsuccess] at hanswer
    obtain ⟨-,-,hlength,hwords⟩ := hanswer
    have hdata : (s.device.server.sent stream.streamId
      (s.device.fates.headD lost).count)=sentData s.device stream := rfl
    rw [hdata] at hlength hwords
    have htoNat : reply.2.length.toNat=(sentData s.device stream).length := by
      rw [hlength]
      exact UInt32.toNat_ofNat_of_lt' (by unfold UInt32.size; omega)
    have hdevice : u.device=t.device.delivering (payloadWords (sentData s.device stream)) := by
      rw [hu,← hwords]
      exact (delivering_self hidle).symm
    split
    next hlong =>
      rw [wp_bind]
      refine wp_clWireDiscardPayload hdevice fun v rest hv => ?_
      rw [wp_pure,wp_pure]
      refine hfailed v _ _ ?_ rfl rfl (by rw [hv]; rfl) (by rw [hv]; exact hfates)
        (by rw [hv]; exact hmoved)
      rintro ⟨-,hle,-⟩
      have hgt := UInt32.lt_iff_toNat_lt.mp hlong
      omega
    next hfits =>
      have hle : (sentData s.device stream).length≤ capacity.toNat := by
        rw [← htoNat]
        exact UInt32.le_iff_toNat_le.mp (UInt32.not_lt.mp hfits)
      split
      next hsome =>
        rw [wp_bind]
        refine wp_readPayloadFastOrWords hdevice (by omega) hlength fun v rest hv => ?_
        rw [hbulk]
        by_cases hbad : 256≤(sentData s.device stream).length ∧
            (s.device.fates.headD lost).bulkResult<0
        · rw [if_pos hbad]
          exact hfailed v _ _ (fun h => h.2.2 hbad) rfl rfl (by rw [hv]; rfl)
            (by rw [hv]; exact hfates) (by rw [hv]; exact hmoved)
        · rw [if_neg hbad]
          dsimp only
          rw [wp_pure,wp_pure,hlength]
          exact hdone v ⟨hsuccess,hle,hbad⟩ (by rw [hv]; rfl) (by rw [hv]; exact hfates)
            (by rw [hv]; exact hmoved)
      next hnone =>
        have hempty : (sentData s.device stream).length=0 := by
          rw [← htoNat,not_not.mp hnone]
          rfl
        have hnil := List.length_eq_zero_iff.mp hempty
        rw [wp_pure,wp_pure]
        have hend := hdone u ⟨hsuccess,hle,by omega⟩ (by rw [hdevice]; rfl)
          (by rw [hdevice]; exact hfates) (by rw [hdevice]; exact hmoved)
        rw [hnil] at hend
        exact hend
  · rw [if_pos hneg,wp_pure,wp_pure]
    exact hfailed u _ _ (fun h => hfailure h.1) rfl rfl (by rw [hu]; exact hidle)
      (by rw [hu]; exact hfates) (by rw [hu]; exact hmoved)

/-- An open gives a stream at the beginning of the image, or none. -/
theorem wp_open {stream : Stream} {path : CString} {stale : ClpHeader}
    {Q : ℤ×Stream → Link Device → Prop} (hclosed : stream.streamId=0)
    (hinbox : s.device.inbox=[])
    (hdone : ∀ (t : Link Device) (after : Stream),after.streamId≠0 → after.rxOffset=0 →
      t.device.server.position after.streamId=0 →
      t.device.server.image=s.device.server.image → t.device.inbox=[] →
      t.device.fates=s.device.fates.tail → Q (0,after) t)
    (hfailed : ∀ (t : Link Device) (code : ℤ) (after : Stream),code<0 → after.streamId=0 →
      t.device.server.image=s.device.server.image → t.device.inbox=[] →
      Q (code,after) t) :
    wp ((clStreamSubscribeFile wire stream path).run wire stale) Q D s := by
  unfold clStreamSubscribeFile clStreamOpen
  split
  · exact hfailed s _ _ (by decide) hclosed rfl hinbox
  rw [if_neg (not_not.mpr hclosed)]
  split
  · exact hfailed s _ _ (by decide) hclosed rfl hinbox
  unfold StreamOp.run
  dsimp only
  rw [wp_bind]
  obtain ⟨chunks,hchunks⟩ : ∃ chunks : List (List UInt8),chunks=
      [storeLe32 clpStreamKindFile.toUInt32 4++storeLe32 (clStreamReset stream).flags 4++
        storeLe32 (UInt32.ofNat (clStreamReset stream).slotSize) 4++
        storeLe32 (UInt32.ofNat (clStreamReset stream).slotCount) 4++
        storeLe32 (clStreamCapacity (clStreamReset stream)) 4,path.wire] := ⟨_,rfl⟩
  rw [← hchunks]
  cases hlength : wirePayloadLength chunks with
  | none =>
    refine wp_command_tooLong hlength ?_
    have hneg : commandCode (-1,stale)<0 := by
      change (if (-1 : ℤ)<0 then (-1 : ℤ) else _)<0
      rw [if_pos (by decide)]
      decide
    refine wp_finishExact_failed hneg fun t ht => ?_
    exact hfailed t _ _ hneg rfl (by rw [ht]) (by rw [ht]; exact hinbox)
  | some length =>
    refine wp_command hinbox hlength fun reply t hreply => ?_
    have hcode := code_of_outcome hreply
    obtain ⟨hserver,hidle,hfates,-,hanswer⟩ := hreply
    have himage : t.device.server.image=s.device.server.image := by
      rw [hserver]
      split
      · exact image_carryOut _ _ _ _
      · rfl
    rcases hcode with ⟨hsuccess,hzero⟩ | ⟨-,hneg⟩
    · rw [carryOut_open] at hserver hanswer
      rw [hsuccess] at hanswer
      obtain ⟨-,-,hlen,hwords⟩ := hanswer
      rw [if_pos ((s.device.fates.headD lost).honest hsuccess)] at hserver
      have hdevice : t.device=t.device.delivering
          (payloadWords (s.device.server.openPayload (s.device.fates.headD lost))) := by
        rw [← hwords]
        exact (delivering_self hidle).symm
      refine wp_finishExact_done hzero hdevice hlen rfl (by change 16≤_; omega)
        fun u rest hu => ?_
      have hid : (loadLe32 (s.device.server.openPayload
          (s.device.fates.headD lost))).toUInt8=(s.device.fates.headD lost).streamId := by
        unfold Server.openPayload
        rw [List.append_assoc,List.append_assoc,loadLe32_stored,UInt8.toUInt8_toUInt32]
      have huserver : u.device.server=t.device.server := by rw [hu]; rfl
      have huinbox : u.device.inbox=[] := by rw [hu]; rfl
      have hufates : u.device.fates=t.device.fates := by rw [hu]; rfl
      unfold opened
      rw [hid]
      dsimp only
      by_cases hnone : (s.device.fates.headD lost).streamId=0
      · rw [if_pos hnone]
        exact hfailed u _ _ (by decide) hnone (by rw [huserver]; exact himage) huinbox
      · rw [if_neg hnone]
        refine hdone u _ hnone rfl ?_ (by rw [huserver]; exact himage) huinbox
          (hufates.trans hfates)
        rw [huserver,hserver]
        exact Function.update_self _ _ _
    · refine wp_finishExact_failed hneg fun u hu => ?_
      exact hfailed u _ _ hneg rfl (by rw [hu]; exact himage) (by rw [hu]; exact hidle)

end Operations

/-- What a read leaves: a server that awaits a command, the bytes that were asked for if
the positions agreed and the read succeeds, and positions that agree if they did and
every command was settled. -/
structure After (image : List UInt8) (call : Call) (right settled : Prop)
    (answer : Except ℤ (List UInt8)) (bridge : Bridge) (device : Device) : Prop where
  /-- The server awaits a command. -/
  inbox : device.inbox=[]
  /-- The largest read is a sixteen-bit number. -/
  max_lt : bridge.romStreamMax<2^16
  /-- The image does not change. -/
  image_eq : device.server.image=image
  /-- A read that succeeds has the bytes of the image. -/
  exact : right → ∀ data,answer=.ok data →
    data=(image.drop call.offset.toNat).take call.length.toNat ∧
      data.length=call.length.toNat
  /-- The positions agree. -/
  synced : settled → Synced device bridge

section Reads

variable {s : Link Device} {bridge : Bridge} {call : Call}

/-- The first of the settled commands, or one that is lost. -/
theorem SettledFates.head {fates : List Fate} (h : SettledFates call fates) :
    ((fates.headD lost).carriedOut=true →
      (fates.headD lost).answer=.success ∧ 0≤(fates.headD lost).bulkResult) ∧
    (fates.headD lost).count≤ call.length := by
  cases fates with
  | nil => exact ⟨fun hlost => (by cases hlost),Nat.zero_le _⟩
  | cons fate fates => exact h fate List.mem_cons_self

theorem SettledFates.tail {fates : List Fate} (h : SettledFates call fates) :
    SettledFates call fates.tail :=
  fun fate hfate => h fate (List.mem_of_mem_tail hfate)

/-- The receive of a read, from a stream that counts the offset. -/
theorem wp_receive (hopen : bridge.romStream.streamId≠0)
    (hoffset : bridge.romStream.rxOffset=call.offset) (hpositive : call.length≠0)
    (hfits : call.offset.toNat+call.length.toNat<2^32)
    (hlimit : call.length.toNat≤ bridge.romStreamMax) (hmax : bridge.romStreamMax<2^16)
    (hinbox : s.device.inbox=[]) :
    wp (bridgeStreamReceive wire call (0,bridge)) (fun reply t =>
      After s.device.server.image call
        (s.device.server.position bridge.romStream.streamId=call.offset.toNat)
        (SettledFates call s.device.fates ∧ Synced s.device bridge)
        reply.1 reply.2 t.device) (fun _ => False) s := by
  have hready : ¬(0 : ℤ)<0 := by decide
  unfold bridgeStreamReceive
  dsimp only
  rw [if_neg hready,wp_bind]
  by_cases hslot : bridge.romStream.slotSize<call.length.toNat
  · have hrefused : clStreamRecvInto wire bridge.romStream call.length=
        .refused (.error (-1),bridge.romStream) := by
      unfold clStreamRecvInto streamRecvPayload
      rw [if_pos (Or.inr hslot)]
      rfl
    rw [hrefused]
    exact ⟨hinbox,hmax,rfl,fun _ data hdata => (by cases hdata),fun hsettled => hsettled.2⟩
  · have hsmall : call.length.toNat<2^16 := by omega
    have hlt := length_sentData_lt s.device bridge.romStream
    have hlength : (UInt32.ofNat (sentData s.device bridge.romStream).length).toNat=
        (sentData s.device bridge.romStream).length :=
      UInt32.toNat_ofNat_of_lt' (by unfold UInt32.size; omega)
    have himage : (recvServer s.device bridge.romStream).image=s.device.server.image := by
      unfold recvServer
      split <;> rfl
    refine wp_recv hopen hpositive hslot hsmall hinbox ?_ ?_
    · intro t harrives htinbox _ hserver
      refine ⟨htinbox,hmax,by rw [hserver]; exact himage,?_,?_⟩
      · intro hat data hdata
        dsimp only at hdata
        split at hdata
        next hgot =>
          have hall : (sentData s.device bridge.romStream).length=call.length.toNat := by
            rw [← hlength,hgot]
          cases hdata
          refine ⟨?_,hall⟩
          unfold sentData Server.sent at hall ⊢
          rw [hat] at hall ⊢
          rw [List.length_take] at hall
          rw [List.take_eq_take_iff]
          omega
        next => cases hdata
      · intro hsettled _
        have hcarried := (s.device.fates.headD lost).honest harrives.1
        have hbefore := hsettled.2 hopen
        rw [hserver]
        unfold recvServer
        rw [if_pos hcarried]
        change Function.update _ _ _ _=_
        rw [Function.update_self,hbefore,UInt32.toNat_add,hlength,hoffset]
        have hle := harrives.2.1
        rw [Nat.mod_eq_of_lt (by omega)]
    · intro t code after hmissed hid hrx htinbox _ hserver
      refine ⟨htinbox,hmax,by rw [hserver]; exact himage,fun _ data hdata => (by cases hdata),?_⟩
      intro hsettled _
      have hhead := hsettled.1.head
      have hnot : (s.device.fates.headD lost).carriedOut=false := by
        by_contra hcarried
        have hsuccess := hhead.1 (Bool.eq_true_of_not_eq_false hcarried)
        apply hmissed
        refine ⟨hsuccess.1,?_,fun hbad => absurd hbad.2 (by omega)⟩
        have hcount := UInt32.le_iff_toNat_le.mp hhead.2
        refine le_trans ?_ hcount
        unfold sentData Server.sent
        rw [List.length_take]
        exact Nat.min_le_left _ _
      have hsame : recvServer s.device bridge.romStream=s.device.server := by
        unfold recvServer
        rw [hnot]
        rfl
      rw [hserver,hsame]
      change s.device.server.position after.streamId=after.rxOffset.toNat
      rw [hid,hrx]
      exact hsettled.2 hopen

theorem After.mono {image : List UInt8} {right right' settled settled' : Prop}
    {answer : Except ℤ (List UInt8)} {after : Bridge} {device : Device}
    (h : After image call right settled answer after device) (hright : right' → right)
    (hsettled : settled' → settled) :
    After image call right' settled' answer after device :=
  ⟨h.inbox,h.max_lt,h.image_eq,fun hr => h.exact (hright hr),fun hs => h.synced (hsettled hs)⟩

/-- A preparation that fails ends the read. -/
theorem wp_receive_failed {image : List UInt8} {right settled : Prop} {code : ℤ}
    (hcode : code<0) (hinbox : s.device.inbox=[]) (hmax : bridge.romStreamMax<2^16)
    (himage : s.device.server.image=image) (hsynced : settled → Synced s.device bridge) :
    wp (bridgeStreamReceive wire call (code,bridge)) (fun reply t =>
      After image call right settled reply.1 reply.2 t.device) (fun _ => False) s := by
  unfold bridgeStreamReceive
  rw [if_pos hcode]
  exact ⟨hinbox,hmax,himage,fun _ data hdata => (by cases hdata),hsynced⟩

/-- The rest of a read on an open stream. -/
theorem wp_positioned (hopen : bridge.romStream.streamId≠0)
    (hmax : bridge.romStreamMax<2^16) (hinbox : s.device.inbox=[]) :
    wp (bridgeStreamSeek wire bridge call >>= bridgeStreamReceive wire call) (fun reply t =>
      After s.device.server.image call
        (bridge.romStream.rxOffset=call.offset →
          s.device.server.position bridge.romStream.streamId=call.offset.toNat)
        (SettledFates call s.device.fates ∧ Synced s.device bridge)
        reply.1 reply.2 t.device) (fun _ => False) s := by
  have hrefused : (-1 : ℤ)<0 := by decide
  have hready : ¬(0 : ℤ)<0 := by decide
  rw [wp_bind]
  unfold bridgeStreamSeek
  split
  · exact wp_receive_failed hrefused hinbox hmax rfl And.right
  next hrange =>
    simp only [not_or] at hrange
    obtain ⟨-,hpositive,hlimit,hoffset,hlength⟩ := hrange
    have hfits : call.offset.toNat+call.length.toNat<2^32 := by
      have hle := UInt32.le_iff_toNat_le.mp (UInt32.not_lt.mp hoffset)
      have hrest := UInt32.le_iff_toNat_le.mp (UInt32.not_lt.mp hlength)
      rw [UInt32.toNat_sub_of_le _ _ (UInt32.not_lt.mp hoffset)] at hrest
      have hlt := bridge.launchSize.toNat_lt
      omega
    have hle := Nat.le_of_not_lt hlimit
    split
    next hmoves =>
      rw [wp_bind]
      refine wp_seek hopen hinbox ?_ ?_
      · intro t hsuccess htinbox htfates hserver
        have hcarried := (s.device.fates.headD lost).honest hsuccess
        unfold seekServer at hserver
        rw [if_pos hcarried] at hserver
        have hposition : t.device.server.position bridge.romStream.streamId=
            call.offset.toNat := by
          rw [hserver]
          exact Function.update_self _ _ _
        have hrx : (sought bridge.romStream call.offset.toUInt64).rxOffset=call.offset :=
          UInt32.toUInt32_toUInt64 _
        have hsame : (sought bridge.romStream call.offset.toUInt64).streamId=
            bridge.romStream.streamId := rfl
        have hreceive := @wp_receive t
          { bridge with romStream := sought bridge.romStream call.offset.toUInt64 } call
          hopen hrx hpositive hfits hle hmax htinbox
        rw [wp_pure]
        dsimp only
        rw [if_neg hready]
        refine wp_post hreceive (fun reply u hafter => ?_)
        have himage : t.device.server.image=s.device.server.image := by
          rw [hserver]
          rfl
        rw [himage] at hafter
        refine hafter.mono (fun _ => hposition) fun hsettled => ⟨?_,fun _ => ?_⟩
        · rw [htfates]
          exact hsettled.1.tail
        · change t.device.server.position _=
            (sought bridge.romStream call.offset.toUInt64).rxOffset.toNat
          rw [hrx]
          exact hposition
      · intro t code hneg hfailure htinbox _ hserver
        have hcode : (if code<0 then code else 0)<0 := by
          rw [if_pos hneg]
          exact hneg
        refine wp_receive_failed hcode htinbox hmax ?_ ?_
        · rw [hserver]
          unfold seekServer
          split <;> rfl
        · rintro ⟨hsettled,hsynced⟩
          have hnot : (s.device.fates.headD lost).carriedOut=false := by
            by_contra hcarried
            exact hfailure (hsettled.head.1 (Bool.eq_true_of_not_eq_false hcarried)).1
          unfold seekServer at hserver
          rw [hnot] at hserver
          intro _
          rw [hserver]
          exact hsynced hopen
    next hstays =>
      have hrx := not_not.mp hstays
      rw [wp_pure]
      refine wp_post (wp_receive hopen hrx hpositive hfits hle hmax hinbox)
        (fun reply t hafter => ?_)
      exact hafter.mono (fun hright => hright hrx) id

/-- A whole read. -/
theorem wp_read (hmax : bridge.romStreamMax<2^16) (hinbox : s.device.inbox=[]) :
    wp (chislinkBridgeReadStream wire bridge call) (fun reply t =>
      After s.device.server.image call
        (bridge.romStream.streamId≠0 → bridge.romStream.rxOffset=call.offset →
          s.device.server.position bridge.romStream.streamId=call.offset.toNat)
        (SettledFates call s.device.fates ∧ Synced s.device bridge)
        reply.1 reply.2 t.device) (fun _ => False) s := by
  unfold chislinkBridgeReadStream bridgeStreamPrepare
  by_cases hopen : bridge.romStream.streamId=0
  · rw [if_pos hopen,bind_bind,wp_bind]
    have hready : ¬(0 : ℤ)<0 := by decide
    have hrefused : (-1 : ℤ)<0 := by decide
    have hinvalid : (-2 : ℤ)<0 := by decide
    unfold bridgeStreamOpen
    split
    · rw [wp_pure,if_pos hrefused]
      exact wp_receive_failed hrefused hinbox hmax rfl And.right
    · cases hinit : clStreamInit (streamConfig call) with
      | none =>
        dsimp only
        rw [wp_pure,if_pos hinvalid]
        exact wp_receive_failed hinvalid hinbox hmax rfl And.right
      | some stream =>
        have hclosed : stream.streamId=0 := by
          unfold clStreamInit at hinit
          split at hinit
          · cases hinit
            rfl
          · cases hinit
        dsimp only
        rw [wp_bind]
        refine wp_open hclosed hinbox ?_ ?_
        · intro t after hid hrx hposition himage htinbox htfates
          rw [wp_pure]
          dsimp only
          rw [if_neg hready]
          dsimp only
          rw [if_neg hready]
          have hslot : call.slotSize<2^16 := Nat.mod_lt _ (by decide)
          have hpositioned := @wp_positioned t
            { bridge with romStream := after, romStreamMax := call.slotSize } call hid hslot
            htinbox
          refine wp_post hpositioned (fun reply u hafter => ?_)
          rw [himage] at hafter
          refine hafter.mono (fun _ hstart => ?_) fun hsettled => ⟨?_,fun _ => ?_⟩
          · rw [← hstart,hrx]
            exact hposition
          · rw [htfates]
            exact hsettled.1.tail
          · change t.device.server.position after.streamId=after.rxOffset.toNat
            rw [hposition,hrx]
            rfl
        · intro t code after hneg hid himage htinbox
          rw [wp_pure]
          dsimp only
          rw [if_pos hneg,if_pos hneg]
          exact wp_receive_failed hneg htinbox hmax himage fun _ h => absurd hid h
  · rw [if_neg hopen]
    refine wp_post (wp_positioned hopen hmax hinbox) (fun reply t hafter => ?_)
    exact hafter.mono (fun hright => hright hopen) id

end Reads

/-- What holds between reads. -/
structure Inv (image : List UInt8) (s : World) : Prop where
  /-- The server awaits a command. -/
  inbox : s.link.device.inbox=[]
  /-- The largest read is a sixteen-bit number. -/
  max_lt : s.bridge.romStreamMax<2^16
  /-- The image is the one at the start. -/
  image_eq : s.link.device.server.image=image

section Steps

variable {image : List UInt8} {s t : World} {action : Action}

/-- The outcome of a read. -/
theorem runOf_cases (hs : Inv image s) :
    ∃ answer bridge link,runOf s action=(some (answer,bridge),link) ∧
      After image action.call (AtPosition s action)
        (Settled s action ∧ Synced s.link.device s.bridge) answer bridge link.device := by
  obtain ⟨⟨answer,bridge⟩,link,hrun,hafter⟩ :=
    wp_total (@wp_read (linkFor s action) s.bridge action.call hs.max_lt hs.inbox)
  have himage : (linkFor s action).device.server.image=image := hs.image_eq
  rw [himage] at hafter
  exact ⟨answer,bridge,link,hrun,hafter⟩

/-- A read that finds the server where it begins is exact. -/
theorem exact_of_atPosition (hs : Inv image s) (hat : AtPosition s action) :
    Exact image s action := by
  obtain ⟨answer,bridge,link,hrun,hafter⟩ := @runOf_cases image s action hs
  intro data after hdata
  rw [hrun] at hdata
  cases hdata
  exact hafter.exact hat data rfl

/-- A read keeps the invariant, and positions that agree if its commands are settled. -/
theorem Inv.step (hs : Inv image s) (h : step s action=some t) :
    Inv image t ∧
      (Settled s action → Synced s.link.device s.bridge → Synced t.link.device t.bridge) := by
  obtain ⟨answer,bridge,link,hrun,hafter⟩ := @runOf_cases image s action hs
  unfold BridgeStream.step at h
  rw [hrun] at h
  cases h
  exact ⟨⟨hafter.inbox,hafter.max_lt,hafter.image_eq⟩,
    fun hsettled hsynced => hafter.synced ⟨hsettled,hsynced⟩⟩

end Steps

/-- In every history of reads all successful reads are exact if every read that does not
seek finds the server where it begins. It does if the server answers what it carries
out. -/
theorem reads_exact (client : Client) (server : Server) (size : UInt32) (path : CString)
    {trace : List (World×Action)} {last : World}
    (run : Run step (start client server size path) trace last) :
    (EveryStep AtPosition trace → EveryStep (Exact server.image) trace) ∧
      (EveryStep Settled trace → EveryStep AtPosition trace) := by
  have hstart : Inv server.image (start client server size path) :=
    ⟨rfl,by change 0<2^16; decide,rfl⟩
  have hkeep : ∀ s action t,Inv server.image s → step s action=some t → Inv server.image t :=
    fun _ _ _ hs h => (hs.step h).1
  have hinv := run.always hstart hkeep
  constructor
  · intro hat entry hentry
    exact exact_of_atPosition (hinv.1 entry hentry) (hat entry hentry)
  · intro hsettled entry hentry hopen hrx
    have hsynced : Always (fun s => Synced s.link.device s.bridge) trace last :=
      run.always_of_everyStep hstart hkeep (fun h => absurd rfl h)
        (fun _ _ _ hs hbefore hstep h => (hs.step h).2 hstep hbefore) hsettled
    have hentry' := hsynced.1 entry hentry hopen
    rw [hentry',hrx]

/-- A server with eight bytes. -/
def eightBytes : Server := ⟨[1,2,3,4,5,6,7,8],fun _ => 0⟩

/-- The read of the first four bytes. -/
def firstFour : Call :=
  { offset := 0
    length := 4
    address := 4
    memory := [0,0,0,0]
    memory_length := rfl
    stale := fun _ => closeFailure }

/-- A command that is carried out and answered. -/
def answered : Fate :=
  { carriedOut := true
    answer := .success
    honest := fun _ => rfl
    asAck := false
    streamId := 1
    count := 4
    bulkResult := 0 }

/-- A command that is carried out and whose answer is lost. -/
def unanswered : Fate :=
  { carriedOut := true
    answer := .silent
    honest := fun h => by cases h
    asAck := false
    streamId := 1
    count := 4
    bulkResult := 0 }

/-- The bridge at the start. -/
def smallStart : World :=
  start ⟨.idle,0,clpStatusOk,0⟩ eightBytes 8 ⟨[47],slash_noNul⟩

/-- The data of a read, if it succeeds. -/
def dataOf (s : World) (action : Action) : Option (List UInt8) :=
  match (runOf s action).1 with
  | some (.ok data,_) => some data
  | _ => none

theorem dataOf_eq_some {s : World} {action : Action} {data : List UInt8}
    (h : dataOf s action=some data) :
    ∃ bridge,(runOf s action).1=some (.ok data,bridge) := by
  unfold dataOf at h
  split at h
  next other bridge hrun =>
    cases h
    exact ⟨bridge,hrun⟩
  next => cases h

/-- A read that is answered, and the same read again. -/
theorem exec_answered : (exec step smallStart [⟨firstFour,[answered,answered]⟩]).bind
    (fun s => dataOf s ⟨firstFour,[answered,answered]⟩)=some [1,2,3,4] := by
  decide +kernel

/-- A read whose answer is lost, and the same read again. -/
theorem exec_unanswered : (exec step smallStart [⟨firstFour,[answered,unanswered]⟩]).bind
    (fun s => dataOf s ⟨firstFour,[answered,answered]⟩)=some [5,6,7,8] := by
  decide +kernel

/-- The rule on a read that is answered. -/
theorem reads_exact_answered : ∃ trace last,Run step smallStart trace last ∧
    ((EveryStep AtPosition trace → EveryStep (Exact eightBytes.image) trace) ∧
      (EveryStep Settled trace → EveryStep AtPosition trace)) := by
  obtain ⟨s,hexec,-⟩ := Option.bind_eq_some_iff.mp exec_answered
  obtain ⟨trace,run⟩ := Run.nil.exec hexec
  exact ⟨trace,s,run,reads_exact _ _ _ _ run⟩

/-- A read that is repeated after its answer was lost succeeds with other bytes. -/
theorem read_fails :
    ¬∀ (client : Client) (server : Server) (size : UInt32) (path : CString)
      (trace : List (World×Action)) (last : World),
      Run step (start client server size path) trace last →
        EveryStep (Exact server.image) trace := by
  intro hall
  obtain ⟨s,hexec,hdata⟩ := Option.bind_eq_some_iff.mp exec_unanswered
  obtain ⟨bridge,hrun⟩ := dataOf_eq_some hdata
  obtain ⟨trace,run⟩ := Run.nil.exec hexec
  have hnext : ∃ t,step s ⟨firstFour,[answered,answered]⟩=some t := by
    unfold step
    rcases hcall : runOf s ⟨firstFour,[answered,answered]⟩ with ⟨reply,link⟩
    rw [hcall] at hrun
    dsimp only at hrun
    rw [hrun]
    exact ⟨_,rfl⟩
  obtain ⟨t,ht⟩ := hnext
  have hexact := hall _ _ _ _ _ _ (run.snoc ht) (s,⟨firstFour,[answered,answered]⟩)
    (by simp) _ _ hrun
  have hbytes : ([5,6,7,8] : List UInt8)=
      (eightBytes.image.drop firstFour.offset.toNat).take firstFour.length.toNat := hexact.1
  exact absurd hbytes (by decide)

end ChisLink.BridgeStream
