import ChisLink.LabelledRuns
import ChisLink.CircularFifo

/-!
# The slot ring of a stream

A stream owns a byte buffer that is divided into slots of equal size, and a
table with one record for each slot. The producer fills the slot at
`write_slot` and commits it; the consumer reads the slot at `read_slot`, in
parts if it wants to. The functions follow the C code with all their error
exits. Eight-bit counters are natural numbers with their increments reduced.
-/

namespace ChisLink.StreamRing

open LabelledRuns

/-- Alignment of stream buffers. -/
def clpDefaultAlignment : ℕ := 4

/-- Flag of a slot that holds data. -/
def clpStreamSlotReady : UInt16 := 0x0001

/-- Flag of a slot whose data was consumed. -/
def clpStreamSlotConsumed : UInt16 := 0x0002

/-- Stream flag of the low latency profile. -/
def clpStreamFlagLowLatency : UInt32 := 0x00000008

/-- Stream flag of the high throughput profile. -/
def clpStreamFlagHighThroughput : UInt32 := 0x00000010

/-- The states of a stream. -/
inductive StreamState where
  /-- Not open. -/
  | closed
  /-- Initialised but not opened. -/
  | idle
  /-- Open and active. -/
  | opened
  /-- Reserved. -/
  | paused
  /-- A fatal error happened. -/
  | error
deriving DecidableEq

/-- The performance profiles. -/
inductive StreamProfile where
  /-- The default. -/
  | balanced
  /-- Prefer smaller chunks. -/
  | lowLatency
  /-- Prefer larger chunks. -/
  | highThroughput
deriving DecidableEq

/-- Result codes of the ring operations. -/
inductive StreamResult where
  /-- `CL_STREAM_OK`. -/
  | ok
  /-- `CL_STREAM_ERR_INVALID`. -/
  | invalid
  /-- `CL_STREAM_ERR_FULL`. -/
  | full
  /-- `CL_STREAM_ERR_EMPTY`. -/
  | empty
  /-- `CL_STREAM_ERR_TOO_LARGE`. -/
  | tooLarge
deriving DecidableEq

/-- One record of the slot table. -/
structure StreamSlot where
  /-- Byte offset of the slot in the logical stream. -/
  offset : UInt32
  /-- Number of valid bytes. -/
  length : ℕ
  /-- Ready or consumed. -/
  flags : UInt16
deriving DecidableEq

/-- A cleared record. -/
def clearSlot : StreamSlot := ⟨0,0,0⟩

/-- Parameters of `cl_stream_init` with the caller's memory behind them. -/
structure StreamConfig where
  /-- Address of the buffer, zero for a null pointer. -/
  bufferAddress : ℕ
  /-- Size of the buffer. -/
  bufferSize : ℕ
  /-- The bytes of the buffer. -/
  buffer : List UInt8
  /-- The size is the one of the memory. -/
  buffer_length : buffer.length=bufferSize
  /-- Whether the slot table is not a null pointer. -/
  hasSlots : Bool
  /-- Number of slots. -/
  slotCount : ℕ
  /-- It is an eight-bit number. -/
  slotCount_lt : slotCount<256
  /-- Bytes of each slot. -/
  slotSize : ℕ
  /-- It is a sixteen-bit number. -/
  slotSize_lt : slotSize<65536
  /-- Stream flags. -/
  flags : UInt32
  /-- Performance profile. -/
  profile : StreamProfile

/-- The struct `cl_stream_t` with the memory it points to. -/
structure Stream where
  /-- The bytes of the buffer. -/
  buffer : List UInt8
  /-- Size of the buffer. -/
  bufferSize : ℕ
  /-- The slot table. -/
  slots : List StreamSlot
  /-- Stream flags. -/
  flags : UInt32
  /-- Bytes of each slot. -/
  slotSize : ℕ
  /-- Number of slots. -/
  slotCount : ℕ
  /-- Next slot of the consumer. -/
  readSlot : ℕ
  /-- Next slot of the producer. -/
  writeSlot : ℕ
  /-- Number of slots with data. -/
  readySlots : ℕ
  /-- State of the stream. -/
  state : StreamState
  /-- Bytes of the slot at `readSlot` that were consumed. -/
  readOffset : ℕ
  /-- Performance profile. -/
  profile : StreamProfile
  /-- Identity on the remote side, zero when closed. -/
  streamId : UInt8
  /-- Bytes received. -/
  rxOffset : UInt32
  /-- Bytes sent. -/
  txOffset : UInt32
  /-- Remote size, low word. -/
  remoteSizeLow : UInt32
  /-- Remote size, high word. -/
  remoteSizeHigh : UInt32
  /-- Last error code. -/
  lastError : ℤ
deriving DecidableEq

/-- The struct `cl_stream_span_t`; the data pointer is a buffer index. -/
structure StreamSpan where
  /-- Start in the buffer, or a null pointer. -/
  data : Option ℕ
  /-- Writable bytes. -/
  capacity : ℕ
  /-- Slot index. -/
  slotIndex : ℕ
deriving DecidableEq

/-- The struct `cl_stream_view_t`; the data pointer is a buffer index. -/
structure StreamView where
  /-- Start in the buffer, or a null pointer. -/
  data : Option ℕ
  /-- Byte offset in the logical stream. -/
  offset : UInt32
  /-- Readable bytes. -/
  length : ℕ
  /-- Flags of the slot. -/
  flags : UInt16
  /-- Slot index. -/
  slotIndex : ℕ
deriving DecidableEq

/-- The flags that a profile implies. -/
def clStreamFlagsForProfile : StreamProfile → UInt32
  | .lowLatency => clpStreamFlagLowLatency
  | .highThroughput => clpStreamFlagHighThroughput
  | .balanced => 0

/-- `stream_valid_config`. -/
def streamValidConfig (config : StreamConfig) : Bool :=
  if config.bufferAddress=0 ∨ config.hasSlots=false ∨ config.bufferSize=0 ∨
      config.slotCount=0 ∨ config.slotSize=0 then false
  else if config.bufferAddress%clpDefaultAlignment≠0 then false
  else config.slotCount*config.slotSize≤ config.bufferSize

/-- `cl_stream_init`, `none` where it returns false. -/
def clStreamInit (config : StreamConfig) : Option Stream :=
  if streamValidConfig config then
    some {
      buffer := config.buffer
      bufferSize := config.bufferSize
      slots := List.replicate config.slotCount clearSlot
      flags := config.flags ||| clStreamFlagsForProfile config.profile
      slotSize := config.slotSize
      slotCount := config.slotCount
      readSlot := 0
      writeSlot := 0
      readySlots := 0
      state := .idle
      readOffset := 0
      profile := config.profile
      streamId := 0
      rxOffset := 0
      txOffset := 0
      remoteSizeLow := 0
      remoteSizeHigh := 0
      lastError := 0 }
  else none

/-- `cl_stream_reset`. -/
def clStreamReset (stream : Stream) : Stream :=
  { stream with
    readSlot := 0
    writeSlot := 0
    readySlots := 0
    state := .idle
    readOffset := 0
    streamId := 0
    rxOffset := 0
    txOffset := 0
    remoteSizeLow := 0
    remoteSizeHigh := 0
    lastError := 0
    slots := List.replicate stream.slotCount clearSlot }

/-- `cl_stream_free_count`. -/
def clStreamFreeCount (stream : Stream) : ℕ :=
  if stream.slotCount<stream.readySlots then 0 else stream.slotCount-stream.readySlots

/-- `cl_stream_can_receive`. -/
def clStreamCanReceive (stream : Stream) : Bool := clStreamFreeCount stream≠0

/-- `cl_stream_producer_acquire`. -/
def clStreamProducerAcquire (stream : Stream) : StreamSpan×StreamResult :=
  if stream.slotSize=0 ∨ stream.slotCount=0 ∨ stream.slotCount<stream.readySlots then
    (⟨none,0,0⟩,.invalid)
  else if clStreamCanReceive stream=false then (⟨none,0,stream.writeSlot⟩,.full)
  else (⟨some (stream.writeSlot*stream.slotSize),stream.slotSize,stream.writeSlot⟩,.ok)

/-- The record of a slot. -/
def slotAt (stream : Stream) (k : ℕ) : StreamSlot := stream.slots.getD k clearSlot

/-- `++` on an eight-bit slot index, back to zero at the end of the table. -/
def nextSlot (stream : Stream) (k : ℕ) : ℕ :=
  if stream.slotCount≤(k+1)%256 then 0 else (k+1)%256

/-- `cl_stream_producer_commit_at`. -/
def clStreamProducerCommitAt (stream : Stream) (offset : UInt32) (length : ℕ) :
    Stream×StreamResult :=
  if stream.slotCount=0 ∨ stream.slotSize=0 ∨ stream.slotCount<stream.readySlots ∨
      stream.slotCount≤ stream.writeSlot then (stream,.invalid)
  else if stream.slotCount≤ stream.readySlots then (stream,.full)
  else if length=0 ∨ stream.slotSize<length then (stream,.tooLarge)
  else
    ({ stream with
      slots := stream.slots.set stream.writeSlot ⟨offset,length,clpStreamSlotReady⟩
      rxOffset := offset+UInt32.ofNat length
      writeSlot := nextSlot stream stream.writeSlot
      readySlots := (stream.readySlots+1)%256 },.ok)

/-- `cl_stream_producer_commit`. -/
def clStreamProducerCommit (stream : Stream) (length : ℕ) : Stream×StreamResult :=
  clStreamProducerCommitAt stream stream.rxOffset length

/-- A view that was cleared. -/
def clearView : StreamView := ⟨none,0,0,0,0⟩

/-- `cl_stream_consumer_peek`. -/
def clStreamConsumerPeek (stream : Stream) : StreamView×StreamResult :=
  if stream.slotCount=0 ∨ stream.slotCount<stream.readySlots ∨
      stream.slotCount≤ stream.readSlot then (clearView,.invalid)
  else if stream.readySlots=0 then (clearView,.empty)
  else
    let slot := slotAt stream stream.readSlot
    if slot.flags &&& clpStreamSlotReady=0 ∨ slot.length=0 then (clearView,.empty)
    else if stream.slotSize<slot.length ∨ slot.length≤ stream.readOffset then
      (clearView,.invalid)
    else
      (⟨some (stream.readSlot*stream.slotSize+stream.readOffset),
        slot.offset+UInt32.ofNat stream.readOffset,slot.length-stream.readOffset,slot.flags,
        stream.readSlot⟩,.ok)

/-- `cl_stream_consumer_release`. -/
def clStreamConsumerRelease (stream : Stream) : Stream×StreamResult :=
  if stream.slotCount=0 ∨ stream.slotCount<stream.readySlots ∨
      stream.slotCount≤ stream.readSlot then (stream,.invalid)
  else if stream.readySlots=0 then (stream,.empty)
  else
    let slot := slotAt stream stream.readSlot
    if slot.flags &&& clpStreamSlotReady=0 ∨ slot.length=0 ∨ stream.slotSize<slot.length ∨
        slot.length≤ stream.readOffset then (stream,.invalid)
    else
      ({ stream with
        slots := stream.slots.set stream.readSlot
          { slot with flags := clpStreamSlotConsumed, length := 0 }
        readOffset := 0
        readSlot := nextSlot stream stream.readSlot
        readySlots := stream.readySlots-1 },.ok)

/-- `cl_stream_consumer_release_bytes`. -/
def clStreamConsumerReleaseBytes (stream : Stream) (length : ℕ) : Stream×StreamResult :=
  if length=0 then (stream,.ok)
  else if stream.slotCount=0 ∨ stream.slotCount<stream.readySlots ∨
      stream.slotCount≤ stream.readSlot then (stream,.invalid)
  else if stream.readySlots=0 then (stream,.empty)
  else
    let slot := slotAt stream stream.readSlot
    if slot.flags &&& clpStreamSlotReady=0 ∨ slot.length=0 ∨ stream.slotSize<slot.length ∨
        slot.length≤ stream.readOffset then (stream,.invalid)
    else
      let remaining := slot.length-stream.readOffset
      if remaining<length then (stream,.tooLarge)
      else if length< remaining then
        ({ stream with readOffset := stream.readOffset+length },.ok)
      else clStreamConsumerRelease stream

/-- A stream with the span that its producer was handed and has not committed. -/
structure Ring where
  /-- The stream. -/
  stream : Stream
  /-- Start and capacity of the span in the producer's hands. -/
  held : Option (ℕ×ℕ)
deriving DecidableEq

/-- The calls on a stream, and the producer's writes into its span. -/
inductive Call where
  /-- `cl_stream_reset`. -/
  | reset
  /-- `cl_stream_producer_acquire`. -/
  | acquire
  /-- The producer writes one byte. -/
  | fill (position : ℕ) (byte : UInt8)
  /-- `cl_stream_producer_commit`. -/
  | commit (length : ℕ)
  /-- `cl_stream_producer_commit_at`. -/
  | commitAt (offset : UInt32) (length : ℕ)
  /-- `cl_stream_consumer_peek`. -/
  | peek
  /-- `cl_stream_consumer_release`. -/
  | release
  /-- `cl_stream_consumer_release_bytes`. -/
  | releaseBytes (length : ℕ)
deriving DecidableEq

/-- A commit that succeeds takes the span out of the producer's hands. -/
def afterCommit (ring : Ring) (result : Stream×StreamResult) : Ring :=
  ⟨result.1,if result.2=.ok then none else ring.held⟩

/-- One call. The producer only writes into the span it holds. -/
def step (ring : Ring) : Call → Option Ring
  | .reset => some ⟨clStreamReset ring.stream,none⟩
  | .acquire =>
    let (span,_) := clStreamProducerAcquire ring.stream
    match span.data with
    | some start => some { ring with held := some (start,span.capacity) }
    | none => some ring
  | .fill position byte =>
    match ring.held with
    | some (start,capacity) =>
      if start≤position ∧ position<start+capacity then
        some { ring with stream :=
          { ring.stream with buffer := ring.stream.buffer.set position byte } }
      else none
    | none => none
  | .commit length => some (afterCommit ring (clStreamProducerCommit ring.stream length))
  | .commitAt offset length =>
    some (afterCommit ring (clStreamProducerCommitAt ring.stream offset length))
  | .peek => some ring
  | .release => some { ring with stream := (clStreamConsumerRelease ring.stream).1 }
  | .releaseBytes length =>
    some { ring with stream := (clStreamConsumerReleaseBytes ring.stream length).1 }

end ChisLink.StreamRing
