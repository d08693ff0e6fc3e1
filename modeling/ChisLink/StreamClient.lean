import ChisLink.StreamRing
import ChisLink.WireCommands

/-!
# The stream client

Each stream operation checks its arguments, exchanges one command and then goes
on with the code and the response header of the exchange. The header is a local
variable without an initial value. An operation is kept here in these two parts,
so that what it does after an exchange can be compared for different headers.
Pointer arguments are not null.
-/

namespace ChisLink.StreamClient

open DriverPrograms WireProtocol StorageClient StreamRing WireCommands

/-- The stream channel. -/
def clpChStream : UInt8 := 0x07

/-- Opcode of open. -/
def clpStreamOpen : UInt8 := 0x01
/-- Opcode of close. -/
def clpStreamClose : UInt8 := 0x02
/-- Opcode of poll. -/
def clpStreamPoll : UInt8 := 0x03
/-- Opcode of credit. -/
def clpStreamCredit : UInt8 := 0x04
/-- Opcode of seek. -/
def clpStreamSeek : UInt8 := 0x05
/-- Opcode of recv. -/
def clpStreamRecv : UInt8 := 0x08
/-- Opcode of send. -/
def clpStreamSend : UInt8 := 0x09
/-- Opcode of pump. -/
def clpStreamPump : UInt8 := 0x0a

/-- The kind of a file stream. -/
def clpStreamKindFile : UInt8 := 1

/-- Bytes before the path of an open request. -/
def clpStreamOpenPathOffset : ℕ := 20

/-- Bytes before the data of a send request. -/
def clpStreamSendDataOffset : ℕ := 4

/-- Bytes of an open answer. -/
def clpStreamOpenResponseBytes : UInt32 := 16

/-- Bytes of a poll answer. -/
def clpStreamPollResponseBytes : UInt32 := 16

/-- Bytes of a send answer. -/
def clpStreamSendResponseBytes : UInt32 := 4

/-- The largest block, which is also the largest payload. -/
def clpDefaultBlockSize : ℕ := clpFrameMaxPayloadBytes

/-- The struct `cl_stream_remote_status_t`. -/
structure StreamRemoteStatus where
  /-- Bytes ready to be received. -/
  available : UInt32
  /-- Position on the remote side. -/
  offset : UInt32
  /-- Flags. -/
  flags : UInt32
  /-- Last error there. -/
  lastError : UInt32
deriving DecidableEq

/-- A command and what the operation does with the code and the header of its
exchange. -/
structure StreamCall (δ α : Type) where
  /-- Opcode of the command. -/
  opcode : UInt8
  /-- Its payload. -/
  chunks : List (List UInt8)
  /-- The rest of the operation. -/
  finish : ℤ → ClpHeader → Prog (Link δ) α

/-- A stream operation on given arguments. -/
inductive StreamOp (δ α : Type) where
  /-- It is refused before anything is exchanged. -/
  | refused (result : α)
  /-- It exchanges a command. -/
  | command (call : StreamCall δ α)

variable {δ α β ρ : Type}

/-- Change the result of an operation. -/
def StreamOp.map (f : α → β) : StreamOp δ α → StreamOp δ β
  | .refused result => .refused (f result)
  | .command call =>
    .command
      { opcode := call.opcode
        chunks := call.chunks
        finish := fun ret response => do
          let result ← call.finish ret response
          pure (f result) }

/-- Carry out an operation whose header holds something at the beginning. -/
def StreamOp.run (transport : Transport δ) (stale : ClpHeader) :
    StreamOp δ α → Prog (Link δ) α
  | .refused result => pure result
  | .command call => do
    let reply ← clWireCommandChunks transport clpChStream call.opcode call.chunks stale
    call.finish reply.1 reply.2

/-- The function `stream_status_error`. -/
def streamStatusError (response : ClpHeader) : Prog (Link δ) ℤ := do
  setClient fun c =>
    {c with
      lastStatus := response.imm
      state := if response.imm=clpStatusOk then .idle else .error}
  pure (clClientStatusError response.imm)

/-- The function `stream_command` behind the exchange. -/
def streamCommandStatus (ret : ℤ) (response : ClpHeader) : Prog (Link δ) ℤ :=
  if ret<0 then pure ret
  else if response.imm≠clpStatusOk then streamStatusError response
  else pure 0

/-- The stream after a fatal error. -/
def failed (stream : Stream) (ret : ℤ) : Stream :=
  { stream with state := .error, lastError := ret }

/-- The stream after an answer of an unexpected length. -/
def unexpected (stream : Stream) : Stream :=
  { stream with lastError := clClientStatusError clpStatusBadPacket }

/-- Discard the payload if the header says that there is one. -/
def discardIfAny (transport : Transport δ) (response : ClpHeader) : Prog (Link δ) Unit :=
  if response.length≠0 then clWireDiscardPayload transport response.length else pure ()

/-- The end of an operation that expects no payload: whatever the header says is
discarded, then the code is looked at. -/
def finishAck (transport : Transport δ) (stream done : Stream) (ret : ℤ)
    (response : ClpHeader) : Prog (Link δ) (ℤ×Stream) := do
  let ret ← streamCommandStatus ret response
  discardIfAny transport response
  pure (if ret<0 then (ret,failed stream ret) else (0,done))

/-- The end of an operation that expects a payload of one length. -/
def finishExact (transport : Transport δ) (expected : UInt32) (failure : ℤ → α) (other : α)
    (use : List UInt8 → α) (ret : ℤ) (response : ClpHeader) : Prog (Link δ) α := do
  let ret ← streamCommandStatus ret response
  if ret<0 then pure (failure ret)
  else if response.length≠expected then do
    clWireDiscardPayload transport response.length
    pure other
  else do
    let payload ← readPayloadWords transport expected
    pure (use payload)

/-- The end of a receive, with the function that takes the payload: the code or
the bytes received, and the data. -/
def finishRecv (transport : Transport δ)
    (receive : UInt32 → Prog (Link δ) (Except ℤ (List ρ))) (stream : Stream)
    (capacity : UInt32) (ret : ℤ) (response : ClpHeader) :
    Prog (Link δ) (Except ℤ (UInt32×List ρ)×Stream) := do
  let ret ← streamCommandStatus ret response
  if ret<0 then pure (.error ret,failed stream ret)
  else if capacity< response.length then do
    clWireDiscardPayload transport response.length
    pure (.error (-3),unexpected stream)
  else if response.length≠0 then do
    let reply ← receive response.length
    match reply with
    | .error code => pure (.error code,failed stream code)
    | .ok data => pure (.ok (response.length,data),stream)
  else pure (.ok (0,[]),stream)

/-- The code of a ring operation. -/
def resultCode : StreamResult → ℤ
  | .ok => 0
  | .invalid => -1
  | .full => -2
  | .empty => -3
  | .tooLarge => -4

/-- The function `cl_stream_capacity`. -/
def clStreamCapacity (stream : Stream) : UInt32 :=
  UInt32.ofNat (stream.slotCount*stream.slotSize)

/-- The stream after an open answer with this payload. -/
def opened (stream : Stream) (payload : List UInt8) : ℤ×Stream :=
  let streamId := (loadLe32 payload).toUInt8
  (if streamId=0 then -4 else 0,
    { stream with
      streamId := streamId
      remoteSizeLow := loadLe32 (payload.drop 4)
      remoteSizeHigh := loadLe32 (payload.drop 8)
      rxOffset := 0
      txOffset := 0
      lastError := 0
      state := if streamId=0 then .error else .opened })

/-- The function `cl_stream_open`. -/
def clStreamOpen (transport : Transport δ) (stream : Stream) (kind : UInt8)
    (target : CString) : StreamOp δ (ℤ×Stream) :=
  if target.1=[] ∨ stream.slotCount=0 ∨ stream.slotSize=0 then .refused (-1,stream)
  else if stream.streamId≠0 then .refused (-5,stream)
  else if clpDefaultBlockSize<clpStreamOpenPathOffset+(target.1.length+1) then
    .refused (-2,stream)
  else
    let reset := clStreamReset stream
    .command
      { opcode := clpStreamOpen
        chunks :=
          [storeLe32 kind.toUInt32 4++storeLe32 reset.flags 4++
              storeLe32 (UInt32.ofNat reset.slotSize) 4++
              storeLe32 (UInt32.ofNat reset.slotCount) 4++storeLe32 (clStreamCapacity reset) 4,
            target.wire]
        finish := finishExact transport clpStreamOpenResponseBytes
          (fun ret => (ret,failed reset ret)) (-3,{unexpected reset with state := .error})
          (opened reset) }

/-- The function `cl_stream_subscribe_file`. -/
def clStreamSubscribeFile (transport : Transport δ) (stream : Stream) (path : CString) :
    StreamOp δ (ℤ×Stream) :=
  clStreamOpen transport stream clpStreamKindFile path

/-- A stream that was closed. -/
def closed (stream : Stream) : Stream := { stream with streamId := 0, state := .closed }

/-- A request that begins with the stream id. -/
def idRequest (stream : Stream) (rest : List UInt8) : List UInt8 :=
  storeLe32 stream.streamId.toUInt32 4++rest

/-- An operation that needs an open stream. -/
def onOpen (stream : Stream) (refusal : α) (call : StreamCall δ α) : StreamOp δ α :=
  if stream.streamId=0 then .refused refusal else .command call

/-- The function `cl_stream_close`. -/
def clStreamClose (transport : Transport δ) (stream : Stream) : StreamOp δ (ℤ×Stream) :=
  onOpen stream (-1,stream)
    { opcode := clpStreamClose
      chunks := [idRequest stream []]
      finish := finishAck transport stream (closed stream) }

/-- A signed result from a word. -/
def toInt (word : UInt32) : ℤ := word.toBitVec.toInt

/-- The remote status of a poll answer. -/
def remoteStatusOf (payload : List UInt8) : StreamRemoteStatus :=
  { available := loadLe32 payload
    offset := loadLe32 (payload.drop 4)
    flags := loadLe32 (payload.drop 8)
    lastError := loadLe32 (payload.drop 12) }

/-- The function `cl_stream_poll`. -/
def clStreamPoll (transport : Transport δ) (stream : Stream) :
    StreamOp δ (Except ℤ StreamRemoteStatus×Stream) :=
  onOpen stream (.error (-1),stream)
    { opcode := clpStreamPoll
      chunks := [idRequest stream []]
      finish := finishExact transport clpStreamPollResponseBytes
        (fun ret => (.error ret,failed stream ret)) (.error (-2),unexpected stream)
        fun payload =>
          (.ok (remoteStatusOf payload),
            { stream with lastError := toInt (remoteStatusOf payload).lastError }) }

/-- The function `cl_stream_credit`. -/
def clStreamCredit (transport : Transport δ) (stream : Stream) (consumedBytes : UInt32) :
    StreamOp δ (ℤ×Stream) :=
  onOpen stream (-1,stream)
    { opcode := clpStreamCredit
      chunks :=
        [idRequest stream (storeLe32 consumedBytes 4++
          storeLe32 (UInt32.ofNat (clStreamFreeCount stream)) 4)]
      finish := finishAck transport stream stream }

/-- The stream after a seek. -/
def sought (stream : Stream) (offset : UInt64) : Stream :=
  { clStreamReset stream with
    streamId := stream.streamId
    rxOffset := offset.toUInt32
    state := .opened }

/-- The function `cl_stream_seek`. -/
def clStreamSeek (transport : Transport δ) (stream : Stream) (offset : UInt64) :
    StreamOp δ (ℤ×Stream) :=
  onOpen stream (-1,stream)
    { opcode := clpStreamSeek
      chunks :=
        [idRequest stream (storeLe32 offset.toUInt32 4++storeLe32 (offset >>> 32).toUInt32 4)]
      finish := finishAck transport stream (sought stream offset) }

/-- The function `stream_recv_payload`. -/
def streamRecvPayload (transport : Transport δ)
    (receive : UInt32 → Prog (Link δ) (Except ℤ (List ρ))) (stream : Stream)
    (capacity : UInt32) : StreamOp δ (Except ℤ (UInt32×List ρ)×Stream) :=
  if capacity=0 ∨ stream.slotSize<capacity.toNat then .refused (.error (-1),stream)
  else
    onOpen stream (.error (-1),stream)
      { opcode := clpStreamRecv
        chunks := [idRequest stream (storeLe32 capacity 4)]
        finish := finishRecv transport receive stream capacity }

/-- The bytes of a buffer with some of them replaced. -/
def spliced (buffer : List UInt8) (start : ℕ) (data : List UInt8) : List UInt8 :=
  buffer.take start++data++buffer.drop (start+data.length)

/-- The end of `cl_stream_recv_slot`: the slot is committed. What a failed receive
leaves in the free slot is not kept. -/
def commitReceived (start : ℕ) : Except ℤ (UInt32×List UInt8)×Stream → ℤ×Stream
  | (.error code,stream) => (code,stream)
  | (.ok (received,data),stream) =>
    if received=0 then (0,stream)
    else
      let filled := { stream with buffer := spliced stream.buffer start data }
      match clStreamProducerCommit filled received.toNat with
      | (done,.ok) => (received.toNat,done)
      | (done,result) => (resultCode result,failed done (resultCode result))

/-- The function `cl_stream_recv_slot`. -/
def clStreamRecvSlot (transport : Transport δ) (stream : Stream) : StreamOp δ (ℤ×Stream) :=
  if stream.streamId=0 ∨ clStreamCanReceive stream=false then .refused (-1,stream)
  else
    match clStreamProducerAcquire stream with
    | (span,.ok) =>
      match span.data with
      | some start =>
        if span.capacity=0 then .refused (-2,stream)
        else
          (streamRecvPayload transport (readPayloadFastOrWords transport) stream
            (UInt32.ofNat span.capacity)).map (commitReceived start)
      | none => .refused (-2,stream)
    | (_,result) =>
      .refused (resultCode result,{stream with lastError := resultCode result})

/-- The stream has received so many more bytes. -/
def advance (reply : Except ℤ (UInt32×List ρ)×Stream) : Except ℤ (UInt32×List ρ)×Stream :=
  match reply with
  | (.error code,stream) => (.error code,stream)
  | (.ok (received,data),stream) =>
    (.ok (received,data),{stream with rxOffset := stream.rxOffset+received})

/-- The function `cl_stream_recv_into`. -/
def clStreamRecvInto (transport : Transport δ) (stream : Stream) (length : UInt32) :
    StreamOp δ (Except ℤ (UInt32×List UInt8)×Stream) :=
  (streamRecvPayload transport (readPayloadFastOrWords transport) stream length).map advance

/-- The function `cl_stream_recv_with_writer`. -/
def clStreamRecvWithWriter (transport : Transport δ) (stream : Stream) (length : UInt32) :
    StreamOp δ (Except ℤ (UInt32×List StoreCall)×Stream) :=
  (streamRecvPayload transport (readPayloadWriterFastOrWords transport) stream length).map
    advance

/-- The function `cl_stream_send`. -/
def clStreamSend (transport : Transport δ) (stream : Stream) (data : List UInt8) :
    StreamOp δ (ℤ×Stream) :=
  if clpDefaultBlockSize-clpStreamSendDataOffset<data.length then .refused (-1,stream)
  else
    onOpen stream (-1,stream)
      { opcode := clpStreamSend
        chunks := [idRequest stream [],data]
        finish := finishExact transport clpStreamSendResponseBytes
          (fun ret => (ret,failed stream ret)) (-2,unexpected stream)
          fun payload =>
            (toInt (loadLe32 payload),
              {stream with txOffset := stream.txOffset+loadLe32 payload}) }

/-- The function `cl_stream_pump`. -/
def clStreamPump (transport : Transport δ) (stream : Stream) : StreamOp δ (ℤ×Stream) :=
  onOpen stream (-1,stream)
    { opcode := clpStreamPump
      chunks := [idRequest stream []]
      finish := finishAck transport stream (closed stream) }

end ChisLink.StreamClient
