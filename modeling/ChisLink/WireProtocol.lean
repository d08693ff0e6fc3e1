import Mathlib.Data.Vector.Basic
import Mathlib.Tactic.IntervalCases
import ChisLink.DriverPrograms

/-!
# The word protocol of the link

Every exchange on the link moves one word in each direction. A command is a
header of four words followed by its payload; the microcontroller answers with
an ACK word or with a RESPONSE header and its payload. The transport is a
parameter: its word exchange, and optional hooks that move a whole payload and
exchange as many words as the payload has. The record of the link holds every
word exchanged, with marks where a command begins and where an answer was
accepted. The driver never reads the record.
-/

namespace ChisLink.WireProtocol

open DriverPrograms

/-- Protocol version in every first word. -/
def clpVersion : UInt8 := 2

/-- Flag of a command that wants an answer. -/
def clpFlagNeedsAck : UInt16 := 0x0010

/-- Capability of the CRC command. -/
def clpCapCrc32 : UInt32 := 0x00000001

/-- Capability of the copy command. -/
def clpCapStreamCopy : UInt32 := 0x00000002

/-- Capability of the list command. -/
def clpCapDirList : UInt32 := 0x00000040

/-- Largest payload of a frame. -/
def clpFrameMaxPayloadBytes : ℕ := 32768

/-- Packet type of an idle word. -/
def clpTypeNop : UInt8 := 0x0

/-- Packet type of a command. -/
def clpTypeCommand : UInt8 := 0x1

/-- Packet type of an answer with a payload. -/
def clpTypeResponse : UInt8 := 0x2

/-- Packet type of an answer in one word. -/
def clpTypeAck : UInt8 := 0x7

/-- The control channel. -/
def clpChControl : UInt8 := 0x00

/-- The storage channel. -/
def clpChStorage : UInt8 := 0x03

/-- Opcode of an idle word. -/
def clpCtrlNop : UInt8 := 0x00

/-- Status of a success. -/
def clpStatusOk : UInt8 := 0

/-- Status the client keeps after an answer it could not use. -/
def clpStatusBadPacket : UInt8 := 3

/-- Status the client keeps after a failed transfer. -/
def clpStatusTimeout : UInt8 := 5

/-- Status of a missing file. -/
def clpStatusNotFound : UInt8 := 8

/-- The struct `clp_header_t`. -/
structure ClpHeader where
  /-- Packet type. -/
  type : UInt8
  /-- Channel. -/
  channel : UInt8
  /-- Opcode in the channel. -/
  opcode : UInt8
  /-- Status of an answer. -/
  imm : UInt8
  /-- Bytes of the payload. -/
  length : UInt32
  /-- Sequence number. -/
  seq : UInt16
  /-- Frame flags. -/
  flags : UInt16
  /-- Checksum, not used by the client. -/
  crc32 : UInt32
deriving DecidableEq

/-- The first word of a frame. -/
def clpMakeWord (type channel opcode imm : UInt8) : UInt32 :=
  (clpVersion.toUInt32 <<< 28) ||| ((type &&& 0x0f).toUInt32 <<< 24) |||
    (channel.toUInt32 <<< 16) ||| (opcode.toUInt32 <<< 8) ||| imm.toUInt32

/-- Version field of a word. -/
def clpWordVersion (word : UInt32) : UInt8 := ((word &&& 0xf0000000) >>> 28).toUInt8

/-- Type field of a word. -/
def clpWordType (word : UInt32) : UInt8 := ((word &&& 0x0f000000) >>> 24).toUInt8

/-- Channel field of a word. -/
def clpWordChannel (word : UInt32) : UInt8 := ((word &&& 0x00ff0000) >>> 16).toUInt8

/-- Opcode field of a word. -/
def clpWordOpcode (word : UInt32) : UInt8 := ((word &&& 0x0000ff00) >>> 8).toUInt8

/-- Immediate field of a word. -/
def clpWordImm (word : UInt32) : UInt8 := (word &&& 0x000000ff).toUInt8

/-- Sequence number and flags in one word. -/
def clpMakeSeqFlags (seq flags : UInt16) : UInt32 :=
  (seq.toUInt32 <<< 16) ||| flags.toUInt32

/-- Sequence number of the third header word. -/
def clpSeqFromWord (word : UInt32) : UInt16 := (word >>> 16).toUInt16

/-- Flags of the third header word. -/
def clpFlagsFromWord (word : UInt32) : UInt16 := word.toUInt16

/-- Whether a word carries the protocol version. -/
def clpIsProtocolWord (word : UInt32) : Bool := clpWordVersion word=clpVersion

/-- Length rounded up to whole words, in thirty-two bits. -/
def clpAlignedLength (length : UInt32) : UInt32 := (length+3) &&& ~~~3

/-- Decode the four words of a header. -/
def clpDecodeHeaderWords (w0 w1 w2 w3 : UInt32) : Option ClpHeader :=
  if clpIsProtocolWord w0 then
    some
      { type := clpWordType w0
        channel := clpWordChannel w0
        opcode := clpWordOpcode w0
        imm := clpWordImm w0
        length := w1
        seq := clpSeqFromWord w2
        flags := clpFlagsFromWord w2
        crc32 := w3 }
  else none

/-- Encode a header in four words. -/
def clpEncodeHeaderWords (header : ClpHeader) : List UInt32 :=
  [clpMakeWord header.type header.channel header.opcode header.imm,header.length,
    clpMakeSeqFlags header.seq header.flags,header.crc32]

/-- Little-endian word of at most four bytes. -/
def loadLe32 (src : List UInt8) : UInt32 :=
  ((src.take 4).zipIdx).foldl
    (fun word byte => word ||| (byte.1.toUInt32 <<< (UInt32.ofNat (byte.2*8)))) 0

/-- The bytes of a word, as many of them as there is room for. -/
def storeLe32 (word : UInt32) (available : ℕ) : List UInt8 :=
  (List.range (min 4 available)).map fun i => (word >>> UInt32.ofNat (i*8)).toUInt8

/-- Number of words that hold so many bytes. -/
def wordCount (length : UInt32) : ℕ := (length.toNat+3)/4

/-- States of the client. -/
inductive ClientState where
  /-- Not yet connected. -/
  | offline
  /-- Ready for commands. -/
  | idle
  /-- Command in flight. -/
  | busy
  /-- The last operation failed. -/
  | error
deriving DecidableEq

/-- The struct `cl_client_t` without its configuration. -/
structure Client where
  /-- State of the protocol. -/
  state : ClientState
  /-- Last sequence number used. -/
  nextSeq : UInt16
  /-- Status of the last answer. -/
  lastStatus : UInt8
  /-- Capabilities of the server. -/
  caps : UInt32

/-- One entry of the record: a word sent with the word received, or a mark. -/
inductive LinkEvent where
  /-- One exchange. -/
  | word (sent received : UInt32)
  /-- A command with this header begins. -/
  | command (header : ClpHeader)
  /-- An answer with this header was accepted. -/
  | accepted (response : ClpHeader)

/-- How a direct window is read. -/
inductive DirectWindowAccess where
  /-- Byte by byte. -/
  | bytes
  /-- Through the sixteen-bit bus of a cartridge. -/
  | rom16Le
deriving DecidableEq

/-- The struct `cl_direct_window_t` with the memory behind it. -/
structure DirectWindow where
  /-- The memory of the window. -/
  data : List UInt8
  /-- Bytes in the window. -/
  length : UInt32
  /-- The memory has this length. -/
  data_length : data.length=length.toNat
  /-- How it is read. -/
  access : DirectWindowAccess

/-- A bulk transfer: the result and the words sent and received. -/
def Bulk (δ : Type) (length : UInt32) : Type :=
  δ → (ℤ×List.Vector (UInt32×UInt32) (wordCount length))×δ

/-- The callbacks of `cl_client_config_t` over the state of the transport. The
optional hooks exchange all the words of the payload they are asked for. -/
structure Transport (δ : Type) where
  /-- Exchange one word. -/
  xfer32 : UInt32 → δ → UInt32×δ
  /-- Receive a payload into memory. -/
  readPayload : Option ((length : UInt32) → Bulk δ length)
  /-- Receive a payload through a writer. -/
  readPayloadWriter : Option ((length : UInt32) → Bulk δ length)
  /-- Send a payload from memory. -/
  writePayload : Option (List UInt8 → (length : UInt32) → Bulk δ length)
  /-- Send a part of a direct window, from an offset. -/
  writeWindowPayload : Option (DirectWindow → UInt32 → (length : UInt32) → Bulk δ length)

/-- The client with its transport and the record of the link. -/
structure Link (δ : Type) where
  /-- State behind the callbacks. -/
  device : δ
  /-- The client. -/
  client : Client
  /-- The record. -/
  log : List LinkEvent

variable {δ : Type}

/-- Exchange one word. -/
def xfer (transport : Transport δ) (sent : UInt32) : Prog (Link δ) UInt32 :=
  access fun s =>
    let reply := transport.xfer32 sent s.device
    (reply.1,{s with device := reply.2,log := s.log++[.word sent reply.1]})

/-- Put a mark in the record. -/
def mark (event : LinkEvent) : Prog (Link δ) Unit :=
  update fun s => {s with log := s.log++[event]}

/-- Change the client. -/
def setClient (f : Client → Client) : Prog (Link δ) Unit :=
  update fun s => {s with client := f s.client}

/-- The client gives up on an answer. -/
def badPacket : Prog (Link δ) Unit :=
  setClient fun c => {c with lastStatus := clpStatusBadPacket,state := .error}

/-- The word that is sent while reading. -/
def nopWord : UInt32 := clpMakeWord clpTypeNop clpChControl clpCtrlNop 0

/-- Send words and drop what is received. -/
def sendWords (transport : Transport δ) : List UInt32 → Prog (Link δ) Unit
  | [] => pure ()
  | word::words => do
    let _ ← xfer transport word
    sendWords transport words

/-- Receive words. -/
def receiveWords (transport : Transport δ) : ℕ → Prog (Link δ) (List UInt32)
  | 0 => pure []
  | count+1 => do
    let word ← xfer transport nopWord
    let words ← receiveWords transport count
    pure (word::words)

/-- Call a transport hook. -/
def callHook {length : UInt32} (hook : Bulk δ length) : Prog (Link δ) (ℤ×List UInt32) :=
  access fun s =>
    let reply := hook s.device
    ((reply.1.1,reply.1.2.toList.map Prod.snd),
      {s with
        device := reply.2
        log := s.log++reply.1.2.toList.map fun pair => .word pair.1 pair.2})

/-- The next sequence number; zero is skipped. -/
def clClientNextSeq : Prog (Link δ) UInt16 :=
  access fun s =>
    let next := s.client.nextSeq+1
    let seq := if next=0 then 1 else next
    (seq,{s with client := {s.client with nextSeq := seq}})

/-- The client keeps the status of an accepted answer. -/
def acceptResponse (response : ClpHeader) : Prog (Link δ) Unit := do
  setClient fun c =>
    {c with
      lastStatus := response.imm
      state := if response.imm=clpStatusOk then .idle else .error}
  mark (.accepted response)

/-- The header that stands for an ACK word. -/
def ackHeader (first : UInt32) (seq : UInt16) : ClpHeader :=
  { type := clpWordType first
    channel := clpWordChannel first
    opcode := clpWordOpcode first
    imm := clpWordImm first
    length := 0
    seq := seq
    flags := 0
    crc32 := 0 }

/-- Whether a response answers the command of this channel, opcode and number. -/
def answers (response : ClpHeader) (channel opcode : UInt8) (seq : UInt16) : Bool :=
  response.type=clpTypeResponse && response.channel=channel &&
    response.opcode=opcode && response.seq=seq

/-- Wait for the answer to a command. Words that are idle or do not belong to
the protocol are skipped, at most as many as there are attempts. -/
def readResponseFrom (transport : Transport δ) (channel opcode : UInt8) (seq : UInt16) :
    ℕ → Prog (Link δ) (Except ℤ ClpHeader)
  | 0 => do
    badPacket
    pure (.error (-2))
  | attempts+1 => do
    let first ← xfer transport nopWord
    if clpIsProtocolWord first=false ∨ clpWordType first=clpTypeNop then
      readResponseFrom transport channel opcode seq attempts
    else if clpWordType first=clpTypeAck then
      if clpWordChannel first≠channel ∨ clpWordOpcode first≠opcode then do
        badPacket
        pure (.error (-2))
      else do
        acceptResponse (ackHeader first seq)
        pure (.ok (ackHeader first seq))
    else if clpWordType first≠clpTypeResponse then do
      badPacket
      pure (.error (-2))
    else do
      let w1 ← xfer transport nopWord
      let w2 ← xfer transport nopWord
      let w3 ← xfer transport nopWord
      match clpDecodeHeaderWords first w1 w2 w3 with
      | some response =>
        if answers response channel opcode seq then do
          acceptResponse response
          pure (.ok response)
        else do
          badPacket
          pure (.error (-2))
      | none => do
        badPacket
        pure (.error (-2))

/-- The function `cl_wire_read_response`, with its nine attempts. -/
def clWireReadResponse (transport : Transport δ) (channel opcode : UInt8) (seq : UInt16) :
    Prog (Link δ) (Except ℤ ClpHeader) :=
  readResponseFrom transport channel opcode seq 9

/-- The words received after a mark, up to the next mark. -/
def payloadOf : List LinkEvent → List UInt32
  | .word _ received::events => received::payloadOf events
  | _ => []

/-- The answers accepted in a record, each with the payload words received of it. -/
def exchanged : List LinkEvent → List (ClpHeader×List UInt32)
  | [] => []
  | .accepted response::events => (response,payloadOf events)::exchanged events
  | _::events => exchanged events

/-- Exactly the words of the payload were exchanged, so that the next word is
the first of a frame. -/
def OnBoundary (answer : ClpHeader×List UInt32) : Prop :=
  answer.2.length=wordCount answer.1.length

instance (answer : ClpHeader×List UInt32) : Decidable (OnBoundary answer) :=
  inferInstanceAs (Decidable (answer.2.length=wordCount answer.1.length))

section Words

theorem clpWordVersion_clpMakeWord (type channel opcode imm : UInt8) :
    clpWordVersion (clpMakeWord type channel opcode imm)=clpVersion := by
  unfold clpWordVersion clpMakeWord clpVersion
  apply UInt8.toBitVec_inj.mp
  ext i hi
  interval_cases i <;> simp

theorem clpWordType_clpMakeWord (type channel opcode imm : UInt8) :
    clpWordType (clpMakeWord type channel opcode imm)=type &&& 0x0f := by
  unfold clpWordType clpMakeWord clpVersion
  apply UInt8.toBitVec_inj.mp
  ext i hi
  interval_cases i <;> simp

theorem clpWordChannel_clpMakeWord (type channel opcode imm : UInt8) :
    clpWordChannel (clpMakeWord type channel opcode imm)=channel := by
  unfold clpWordChannel clpMakeWord clpVersion
  apply UInt8.toBitVec_inj.mp
  ext i hi
  interval_cases i <;> simp

theorem clpWordOpcode_clpMakeWord (type channel opcode imm : UInt8) :
    clpWordOpcode (clpMakeWord type channel opcode imm)=opcode := by
  unfold clpWordOpcode clpMakeWord clpVersion
  apply UInt8.toBitVec_inj.mp
  ext i hi
  interval_cases i <;> simp

theorem clpWordImm_clpMakeWord (type channel opcode imm : UInt8) :
    clpWordImm (clpMakeWord type channel opcode imm)=imm := by
  unfold clpWordImm clpMakeWord clpVersion
  apply UInt8.toBitVec_inj.mp
  ext i hi
  interval_cases i <;> simp

theorem clpSeqFromWord_clpMakeSeqFlags (seq flags : UInt16) :
    clpSeqFromWord (clpMakeSeqFlags seq flags)=seq := by
  unfold clpSeqFromWord clpMakeSeqFlags
  apply UInt16.toBitVec_inj.mp
  ext i hi
  interval_cases i <;> simp

theorem clpFlagsFromWord_clpMakeSeqFlags (seq flags : UInt16) :
    clpFlagsFromWord (clpMakeSeqFlags seq flags)=flags := by
  unfold clpFlagsFromWord clpMakeSeqFlags
  apply UInt16.toBitVec_inj.mp
  ext i hi
  interval_cases i <;> simp

theorem clpIsProtocolWord_clpMakeWord (type channel opcode imm : UInt8) :
    clpIsProtocolWord (clpMakeWord type channel opcode imm)=true := by
  unfold clpIsProtocolWord
  rw [clpWordVersion_clpMakeWord]
  rfl

/-- A header of a type of four bits is decoded from its words. -/
theorem clpDecodeHeaderWords_clpEncodeHeaderWords {header : ClpHeader}
    (htype : header.type &&& 0x0f=header.type) :
    clpDecodeHeaderWords (clpMakeWord header.type header.channel header.opcode header.imm)
      header.length (clpMakeSeqFlags header.seq header.flags) header.crc32=some header := by
  unfold clpDecodeHeaderWords
  rw [if_pos (clpIsProtocolWord_clpMakeWord _ _ _ _),clpWordType_clpMakeWord,
    clpWordChannel_clpMakeWord,clpWordOpcode_clpMakeWord,clpWordImm_clpMakeWord,
    clpSeqFromWord_clpMakeSeqFlags,clpFlagsFromWord_clpMakeSeqFlags,htype]

/-- A word does not change with zeros behind its bytes. -/
theorem loadLe32_padded (payload : List UInt8) :
    loadLe32 payload=loadLe32 ((payload++[0,0,0,0]).take 4) := by
  rcases payload with _ | ⟨a,_ | ⟨b,_ | ⟨c,_ | ⟨d,rest⟩⟩⟩⟩
  · rfl
  · simp [loadLe32,List.zipIdx]
  · simp [loadLe32,List.zipIdx]
  · simp [loadLe32,List.zipIdx]
  · rfl

/-- Four bytes are stored as they were loaded. -/
theorem storeLe32_loadLe32_four (a b c d : UInt8) :
    storeLe32 (loadLe32 [a,b,c,d]) 4=[a,b,c,d] := by
  simp only [storeLe32,loadLe32,List.zipIdx,List.take,List.foldl,List.range,List.range.loop,
    List.map,Nat.min_self]
  congr 1
  · apply UInt8.toBitVec_inj.mp
    ext i hi
    interval_cases i <;> simp
  congr 1
  · apply UInt8.toBitVec_inj.mp
    ext i hi
    interval_cases i <;> simp
  congr 1
  · apply UInt8.toBitVec_inj.mp
    ext i hi
    interval_cases i <;> simp
  congr 1
  · apply UInt8.toBitVec_inj.mp
    ext i hi
    interval_cases i <;> simp

/-- The bytes of a word are those it was made of, with zeros behind. -/
theorem storeLe32_loadLe32 (payload : List UInt8) :
    storeLe32 (loadLe32 payload) 4=(payload++[0,0,0,0]).take 4 := by
  rw [loadLe32_padded]
  obtain ⟨a,b,c,d,hfour⟩ : ∃ a b c d,(payload++[0,0,0,0]).take 4=[a,b,c,d] := by
    rcases payload with _ | ⟨a,_ | ⟨b,_ | ⟨c,_ | ⟨d,rest⟩⟩⟩⟩
    · exact ⟨0,0,0,0,rfl⟩
    · exact ⟨a,0,0,0,rfl⟩
    · exact ⟨a,b,0,0,rfl⟩
    · exact ⟨a,b,c,0,rfl⟩
    · exact ⟨a,b,c,d,rfl⟩
  rw [hfour]
  exact storeLe32_loadLe32_four a b c d

/-- A word is loaded as it was stored. -/
theorem loadLe32_stored (word : UInt32) (rest : List UInt8) :
    loadLe32 (storeLe32 word 4++rest)=word := by
  simp only [storeLe32,loadLe32,List.zipIdx,List.take,List.foldl,List.range,List.range.loop,
      List.map,Nat.min_self,List.cons_append]
  apply UInt32.toBitVec_inj.mp
  ext i hi
  interval_cases i <;> simp [-UInt32.toUInt32_toUInt8]

end Words

end ChisLink.WireProtocol
