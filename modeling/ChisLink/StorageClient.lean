import Mathlib.Data.List.Range
import ChisLink.WireProtocol

/-!
# The storage client

The storage operations send one command each and read the answer; a write sends
one command for each part of the data. The requests are built as lists of
bytes, the scratch buffer is there only with its size. Pointer arguments are
not null here. Results are the codes of the C functions; an operation with an
output returns it with the code zero.
-/

namespace ChisLink.StorageClient

open DriverPrograms WireProtocol

/-- Opcode of open. -/
def clpStorageOpen : UInt8 := 0x01
/-- Opcode of close. -/
def clpStorageClose : UInt8 := 0x02
/-- Opcode of read. -/
def clpStorageRead : UInt8 := 0x03
/-- Opcode of write. -/
def clpStorageWrite : UInt8 := 0x04
/-- Opcode of seek. -/
def clpStorageSeek : UInt8 := 0x05
/-- Opcode of stat. -/
def clpStorageStat : UInt8 := 0x06
/-- Opcode of copy. -/
def clpStorageCopy : UInt8 := 0x07
/-- Opcode of flush. -/
def clpStorageFlush : UInt8 := 0x08
/-- Opcode of list. -/
def clpStorageList : UInt8 := 0x09
/-- Opcode of remove. -/
def clpStorageRemove : UInt8 := 0x0a
/-- Opcode of mkdir. -/
def clpStorageMkdir : UInt8 := 0x0b
/-- Opcode of rename. -/
def clpStorageRename : UInt8 := 0x0c
/-- Opcode of fstat. -/
def clpStorageFstat : UInt8 := 0x0d
/-- Opcode of the CRC command. -/
def clpStorageCrc32 : UInt8 := 0x0e

/-- Longest path on the wire with its terminator. -/
def clpStoragePathMaxBytes : ℕ := 1024

/-- Most data bytes in one write frame. -/
def clpStorageWriteFrameMaxData : ℕ := clpFrameMaxPayloadBytes-4

/-- Bytes of a stat answer. -/
def clpStorageStatResponseBytes : UInt32 := 20

/-- Bytes before the entries of a list answer. -/
def clpStorageListResponseHeaderBytes : UInt32 := 8

/-- Bytes before the checksums of a CRC answer. -/
def clpStorageCrc32ResponseFixedBytes : UInt32 := 12

/-- Length from which a transport hook is used. -/
def clClientFastPayloadThreshold : UInt32 := 256

/-- A C string: its bytes before the terminator. -/
def CString : Type := {bytes : List UInt8 // 0∉bytes}

theorem slash_noNul : (0 : UInt8)∉[47] := by decide

/-- The bytes of a string with the terminator. -/
def CString.wire (path : CString) : List UInt8 := path.1++[0]

/-- The storage client with its transport and the size of the scratch buffer, if
there is one. -/
structure Storage (δ : Type) where
  /-- The transport of the client. -/
  transport : Transport δ
  /-- Size of the scratch buffer. -/
  scratchSize : Option ℕ

/-- Metadata of a file. -/
structure FileStat where
  /-- Size in bytes. -/
  size : UInt64
  /-- Preferred block size. -/
  preferredBlockSize : UInt32
  /-- Largest block size. -/
  maxBlockSize : UInt32
  /-- Required alignment. -/
  alignment : UInt16
  /-- Type of the file. -/
  type : UInt8
  /-- Flags. -/
  flags : UInt8
deriving DecidableEq

/-- A call of the word writer of a read. -/
structure StoreCall where
  /-- Byte offset in the payload. -/
  offset : ℕ
  /-- The word. -/
  word : UInt32
  /-- Valid bytes in it. -/
  validBytes : ℕ
deriving DecidableEq

variable {δ : Type}

/-- Word of a payload at a byte offset, zero past its end. -/
def payloadWord (payload : List UInt8) (offset : ℕ) : UInt32 :=
  loadLe32 (payload.drop offset)

/-- Word of a direct window at a byte offset. Reads through the sixteen-bit bus
give the same bytes. -/
def directWindowWord (window : DirectWindow) (offset : UInt32) : UInt32 :=
  loadLe32 (window.data.drop offset.toNat)

/-- Bytes that are stored for received words. -/
def payloadBytes (words : List UInt32) (length : UInt32) : List UInt8 :=
  (words.flatMap fun word => storeLe32 word 4).take length.toNat

/-- Calls of a writer for received words. -/
def writerCalls (words : List UInt32) (length : UInt32) : List StoreCall :=
  words.zipIdx.map fun entry =>
    ⟨4*entry.2,entry.1,min 4 (length.toNat-4*entry.2)⟩

/-- Receive a payload word by word. -/
def receivePayload (transport : Transport δ) (length : UInt32) :
    Prog (Link δ) (List UInt32) :=
  receiveWords transport ((clpAlignedLength length).toNat/4)

/-- Receive a payload word by word into memory. -/
def readPayloadWords (transport : Transport δ) (length : UInt32) :
    Prog (Link δ) (List UInt8) := do
  let words ← receivePayload transport length
  pure (payloadBytes words length)

/-- The hook that is used for a payload of this length. -/
def fastHook (hook : Option ((length : UInt32) → Bulk δ length)) (length : UInt32) :
    Option (Bulk δ length) :=
  if clClientFastPayloadThreshold≤length then hook.map fun h => h length else none

/-- The client gives up after a failed bulk transfer. -/
def transferTimeout : Prog (Link δ) Unit :=
  setClient fun c => {c with state := .error,lastStatus := clpStatusTimeout}

/-- Receive a payload through the hook if there is one for this length, else
word by word. -/
def receiveFastOrWords (transport : Transport δ)
    (hook : Option ((length : UInt32) → Bulk δ length)) (length : UInt32) :
    Prog (Link δ) (Except ℤ (List UInt32)) :=
  match fastHook hook length with
  | some bulk => do
    let reply ← callHook bulk
    if reply.1<0 then do
      transferTimeout
      pure (.error reply.1)
    else pure (.ok reply.2)
  | none => do
    let words ← receivePayload transport length
    pure (.ok words)

/-- Receive a payload into memory. -/
def readPayloadFastOrWords (transport : Transport δ) (length : UInt32) :
    Prog (Link δ) (Except ℤ (List UInt8)) := do
  let reply ← receiveFastOrWords transport transport.readPayload length
  pure (reply.map fun words => payloadBytes words length)

/-- Receive a payload through a writer. -/
def readPayloadWriterFastOrWords (transport : Transport δ) (length : UInt32) :
    Prog (Link δ) (Except ℤ (List StoreCall)) := do
  let reply ← receiveFastOrWords transport transport.readPayloadWriter length
  pure (reply.map fun words => writerCalls words length)

/-- The words of a window from an offset, as many as the length needs. -/
def windowWords (window : DirectWindow) (offset length : UInt32) : List UInt32 :=
  (List.range ((clpAlignedLength length).toNat/4)).map fun i =>
    directWindowWord window (offset+UInt32.ofNat (4*i))

/-- The hook that is used to send a part of a window. -/
def writeHook (transport : Transport δ) (window : DirectWindow) (offset length : UInt32) :
    Option (Bulk δ length) :=
  match window.access,transport.writePayload with
  | .bytes,some hook =>
    fastHook (some fun n => hook (window.data.drop offset.toNat) n) length
  | _,_ => fastHook (transport.writeWindowPayload.map fun hook n => hook window offset n) length

/-- Send a part of a window. -/
def writePayloadFastOrWords (transport : Transport δ) (window : DirectWindow)
    (offset length : UInt32) : Prog (Link δ) ℤ :=
  match writeHook transport window offset length with
  | some bulk => do
    let reply ← callHook bulk
    if reply.1<0 then do
      transferTimeout
      pure reply.1
    else pure 0
  | none => do
    sendWords transport (windowWords window offset length)
    pure 0

/-- Header of a storage command. -/
def storageHeader (opcode : UInt8) (length : UInt32) (seq : UInt16) : ClpHeader :=
  { type := clpTypeCommand
    channel := clpChStorage
    opcode := opcode
    imm := 0
    length := length
    seq := seq
    flags := clpFlagNeedsAck
    crc32 := 0 }

/-- Begin a command: take a sequence number and send the header. -/
def beginCommand (transport : Transport δ) (opcode : UInt8) (length : UInt32) :
    Prog (Link δ) UInt16 := do
  let seq ← clClientNextSeq
  mark (.command (storageHeader opcode length seq))
  sendWords transport (clpEncodeHeaderWords (storageHeader opcode length seq))
  pure seq

/-- Send one part of a write and read its answer: the code and the bytes written. -/
def storageWriteChunk (storage : Storage δ) (handle : UInt16) (window : DirectWindow)
    (offset length : UInt32) : Prog (Link δ) (ℤ×UInt32) :=
  if clpStorageWriteFrameMaxData<length.toNat then pure (-1,0)
  else do
    let seq ← beginCommand storage.transport clpStorageWrite (4+length)
    let _ ← xfer storage.transport (payloadWord (storeLe32 handle.toUInt32 4) 0)
    let sent ← writePayloadFastOrWords storage.transport window offset length
    if sent<0 then pure (-2,0)
    else do
      let answer ← clWireReadResponse storage.transport clpChStorage clpStorageWrite seq
      match answer with
      | .error _ => do
        badPacket
        pure (-2,0)
      | .ok response =>
        if response.length≠4 ∨ response.imm≠clpStatusOk then do
          badPacket
          pure (-2,0)
        else do
          let payload ← readPayloadWords storage.transport 4
          if length<loadLe32 payload then do
            badPacket
            pure (-2,0)
          else do
            setClient fun c => {c with lastStatus := clpStatusOk,state := .idle}
            pure (0,loadLe32 payload)

/-- Bytes of a path on the wire, unless it is too long. -/
def storagePathLength (path : CString) : Option ℕ :=
  if clpStoragePathMaxBytes≤path.1.length then none else some (path.1.length+1)

/-- Whether the scratch buffer has room for a request. -/
def storageRequestScratch (storage : Storage δ) (required : ℕ) : Bool :=
  required≤ clpFrameMaxPayloadBytes &&
    storage.scratchSize.any fun size => required≤ size

/-- Words of a request. -/
def payloadWords (payload : List UInt8) : List UInt32 :=
  (List.range ((clpAlignedLength (UInt32.ofNat payload.length)).toNat/4)).map fun i =>
    payloadWord payload (4*i)

/-- Send a command with its payload and wait for the answer. -/
def sendCommand (storage : Storage δ) (opcode : UInt8) (payload : List UInt8) :
    Prog (Link δ) (Except ℤ ClpHeader) := do
  let seq ← beginCommand storage.transport opcode (UInt32.ofNat payload.length)
  sendWords storage.transport (payloadWords payload)
  clWireReadResponse storage.transport clpChStorage opcode seq

/-- Send a command and go on with an accepted answer. -/
def withResponse {α : Type} (storage : Storage δ) (opcode : UInt8) (payload : List UInt8)
    (finish : ClpHeader → Prog (Link δ) (Except ℤ α)) : Prog (Link δ) (Except ℤ α) := do
  let answer ← sendCommand storage opcode payload
  match answer with
  | .error code => pure (.error code)
  | .ok response => finish response

/-- Send a command whose answer is only a status. -/
def statusCommand (storage : Storage δ) (opcode : UInt8) (payload : List UInt8) :
    Prog (Link δ) (Except ℤ Unit) :=
  withResponse storage opcode payload fun response =>
    pure (if response.imm=clpStatusOk then .ok () else .error (-3))

/-- Refuse a request before anything is sent. -/
def refuse {α : Type} (code : ℤ) : Prog (Link δ) (Except ℤ α) := pure (.error code)

/-- The function `cl_storage_open`. -/
def clStorageOpen (storage : Storage δ) (path : CString) (flags : UInt32) :
    Prog (Link δ) (Except ℤ UInt16) :=
  match storagePathLength path with
  | none => refuse (-2)
  | some pathLen =>
    if storageRequestScratch storage (4+pathLen) then
      withResponse storage clpStorageOpen (storeLe32 flags 4++path.wire) fun response =>
        if response.imm≠clpStatusOk ∨ response.length≠4 then pure (.error (-3))
        else do
          let payload ← readPayloadWords storage.transport 4
          let handle := (loadLe32 payload).toUInt16
          pure (if handle=0 then .error (-4) else .ok handle)
    else refuse (-2)

/-- The function `cl_storage_close`. -/
def clStorageClose (storage : Storage δ) (handle : UInt16) :
    Prog (Link δ) (Except ℤ Unit) :=
  statusCommand storage clpStorageClose (storeLe32 handle.toUInt32 4)

/-- The function `storage_read`, with the receiving function as a parameter. -/
def storageRead {β : Type} (storage : Storage δ)
    (receive : UInt32 → Prog (Link δ) (Except ℤ β)) (handle : UInt16) (length : UInt32) :
    Prog (Link δ) (Except ℤ (UInt32×β)) :=
  withResponse storage clpStorageRead (storeLe32 handle.toUInt32 4++storeLe32 length 4)
    fun response =>
      if response.imm≠clpStatusOk ∨ length< response.length then pure (.error (-3))
      else do
        let reply ← receive response.length
        match reply with
        | .error _ => pure (.error (-2))
        | .ok data => pure (.ok (response.length,data))

/-- The function `cl_storage_read`. -/
def clStorageRead (storage : Storage δ) (handle : UInt16) (length : UInt32) :
    Prog (Link δ) (Except ℤ (UInt32×List UInt8)) :=
  storageRead storage (readPayloadFastOrWords storage.transport) handle length

/-- The function `cl_storage_read_with_writer`. -/
def clStorageReadWithWriter (storage : Storage δ) (handle : UInt16) (length : UInt32) :
    Prog (Link δ) (Except ℤ (UInt32×List StoreCall)) :=
  storageRead storage (readPayloadWriterFastOrWords storage.transport) handle length

/-- The loop of `cl_storage_write_direct`: the code and the bytes written in all. -/
def writeLoop (storage : Storage δ) (handle : UInt16) (window : DirectWindow)
    (offset : UInt32) (length total : ℕ) (written : UInt32) : Prog (Link δ) (ℤ×UInt32) := do
  let chunk := min (length-total) clpStorageWriteFrameMaxData
  let reply ← storageWriteChunk storage handle window (offset+UInt32.ofNat total)
    (UInt32.ofNat chunk)
  if reply.1<0 then pure (reply.1,written+reply.2)
  else if reply.2.toNat≠chunk then pure (0,written+reply.2)
  else if _more : total+chunk<length then
    writeLoop storage handle window offset length (total+chunk) (written+reply.2)
  else pure (0,written+reply.2)
termination_by length-total
decreasing_by
  have hmax : 0<clpStorageWriteFrameMaxData := by decide
  omega

/-- The function `cl_storage_write_direct`. -/
def clStorageWriteDirect (storage : Storage δ) (handle : UInt16) (window : DirectWindow)
    (offset length : UInt32) : Prog (Link δ) (ℤ×UInt32) :=
  if window.length<offset ∨ window.length-offset<length then pure (-1,0)
  else writeLoop storage handle window offset length.toNat 0 0

/-- The window over a buffer of bytes. -/
def bytesWindow (src : List UInt8) (length : UInt32) (h : src.length=length.toNat) :
    DirectWindow :=
  ⟨src,length,h,.bytes⟩

/-- The function `cl_storage_write`. -/
def clStorageWrite (storage : Storage δ) (handle : UInt16) (src : List UInt8)
    (length : UInt32) (h : src.length=length.toNat) : Prog (Link δ) (ℤ×UInt32) :=
  clStorageWriteDirect storage handle (bytesWindow src length h) 0 length

/-- The function `cl_storage_seek`. -/
def clStorageSeek (storage : Storage δ) (handle : UInt16) (offset : UInt64) :
    Prog (Link δ) (Except ℤ Unit) :=
  statusCommand storage clpStorageSeek
    (storeLe32 handle.toUInt32 4++storeLe32 offset.toUInt32 4++
      storeLe32 (offset >>> 32).toUInt32 4)

/-- The function `cl_storage_flush`. -/
def clStorageFlush (storage : Storage δ) (handle : UInt16) :
    Prog (Link δ) (Except ℤ Unit) :=
  statusCommand storage clpStorageFlush (storeLe32 handle.toUInt32 4)

/-- The client keeps a status. -/
def setLastStatus (status : UInt8) : Prog (Link δ) Unit :=
  setClient fun c => {c with lastStatus := status}

/-- Metadata from the payload of a stat answer. -/
def fileStatOf (payload : List UInt8) : FileStat :=
  { size := (loadLe32 payload).toUInt64 |||
      ((loadLe32 (payload.drop 4)).toUInt64 <<< 32)
    preferredBlockSize := loadLe32 (payload.drop 8)
    maxBlockSize := loadLe32 (payload.drop 12)
    alignment := (loadLe32 (payload.drop 16)).toUInt16
    type := ((loadLe32 (payload.drop 16) >>> 16) &&& 0xff).toUInt8
    flags := ((loadLe32 (payload.drop 16) >>> 24) &&& 0xff).toUInt8 }

/-- The function `cl_storage_stat`. -/
def clStorageStat (storage : Storage δ) (path : CString) :
    Prog (Link δ) (Except ℤ FileStat) :=
  match storagePathLength path with
  | none => refuse (-2)
  | some pathLen =>
    if storageRequestScratch storage pathLen then
      withResponse storage clpStorageStat path.wire fun response =>
        if response.imm≠clpStatusOk then do
          setLastStatus response.imm
          pure (.error (if response.imm=clpStatusNotFound then -clpStatusNotFound.toNat else -3))
        else if response.length≠clpStorageStatResponseBytes then do
          setLastStatus clpStatusBadPacket
          pure (.error (-3))
        else do
          let payload ← readPayloadWords storage.transport clpStorageStatResponseBytes
          setLastStatus clpStatusOk
          pure (.ok (fileStatOf payload))
    else refuse (-2)

/-- The function `cl_storage_fstat`. -/
def clStorageFstat (storage : Storage δ) (handle : UInt16) :
    Prog (Link δ) (Except ℤ FileStat) :=
  withResponse storage clpStorageFstat (storeLe32 handle.toUInt32 4) fun response =>
    if response.imm≠clpStatusOk ∨ response.length≠clpStorageStatResponseBytes then
      pure (.error (-3))
    else do
      let payload ← readPayloadWords storage.transport clpStorageStatResponseBytes
      pure (.ok (fileStatOf payload))

/-- Go on only if the server has a capability. -/
def requireCap {α : Type} (cap : UInt32) (run : Prog (Link δ) (Except ℤ α)) :
    Prog (Link δ) (Except ℤ α) := do
  let caps ← inspect fun s => s.client.caps
  if caps &&& cap=0 then refuse (-4) else run

/-- The function `cl_storage_copy`. -/
def clStorageCopy (storage : Storage δ) (srcPath dstPath : CString) (flags : UInt32) :
    Prog (Link δ) (Except ℤ Unit) :=
  requireCap clpCapStreamCopy
    (match storagePathLength srcPath,storagePathLength dstPath with
    | some srcLen,some dstLen =>
      if storageRequestScratch storage (4+srcLen+dstLen) then
        statusCommand storage clpStorageCopy (storeLe32 flags 4++srcPath.wire++dstPath.wire)
      else refuse (-2)
    | _,_ => refuse (-2))

/-- The function `cl_storage_single_path_ack`. -/
def clStorageSinglePathAck (storage : Storage δ) (opcode : UInt8) (path : CString) :
    Prog (Link δ) (Except ℤ Unit) :=
  match storagePathLength path with
  | none => refuse (-2)
  | some pathLen =>
    if storageRequestScratch storage pathLen then
      statusCommand storage opcode path.wire
    else refuse (-2)

/-- The function `cl_storage_remove`. -/
def clStorageRemove (storage : Storage δ) (path : CString) : Prog (Link δ) (Except ℤ Unit) :=
  clStorageSinglePathAck storage clpStorageRemove path

/-- The function `cl_storage_mkdir`. -/
def clStorageMkdir (storage : Storage δ) (path : CString) : Prog (Link δ) (Except ℤ Unit) :=
  clStorageSinglePathAck storage clpStorageMkdir path

/-- The function `cl_storage_rename`. -/
def clStorageRename (storage : Storage δ) (oldPath newPath : CString) :
    Prog (Link δ) (Except ℤ Unit) :=
  match storagePathLength oldPath,storagePathLength newPath with
  | some oldLen,some newLen =>
    if storageRequestScratch storage (oldLen+newLen) then
      statusCommand storage clpStorageRename (oldPath.wire++newPath.wire)
    else refuse (-2)
  | _,_ => refuse (-2)

/-- What the CRC command returns. -/
structure CrcResult where
  /-- Length of the data. -/
  length : UInt64
  /-- Number of checksums. -/
  chunks : UInt32
  /-- The checksums, as bytes. -/
  crc32 : List UInt8

/-- Number of checksums that fit in an answer of this length. -/
def wireChunks (length : UInt32) : UInt32 := (length-clpStorageCrc32ResponseFixedBytes)/4

/-- The function `cl_storage_crc32_ex`. -/
def clStorageCrc32Ex (storage : Storage δ) (path : CString) (offset length : UInt64)
    (chunkSize flags maxChunks : UInt32) : Prog (Link δ) (Except ℤ CrcResult) :=
  if chunkSize=0 ∨ maxChunks=0 then refuse (-1)
  else requireCap clpCapCrc32
    (match storagePathLength path with
    | none => refuse (-2)
    | some pathLen =>
      if storageRequestScratch storage (28+pathLen) then
        withResponse storage clpStorageCrc32
          (storeLe32 offset.toUInt32 4++storeLe32 (offset >>> 32).toUInt32 4++
            storeLe32 length.toUInt32 4++storeLe32 (length >>> 32).toUInt32 4++
            storeLe32 chunkSize 4++storeLe32 maxChunks 4++storeLe32 flags 4++path.wire)
          fun response =>
            if response.imm≠clpStatusOk ∨
                response.length<clpStorageCrc32ResponseFixedBytes ∨
                (response.length-clpStorageCrc32ResponseFixedBytes)%4≠0 then
              pure (.error (-3))
            else if maxChunks<wireChunks response.length then pure (.error (-3))
            else do
              let header ← readPayloadWords storage.transport clpStorageCrc32ResponseFixedBytes
              if loadLe32 (header.drop 8)≠wireChunks response.length then pure (.error (-3))
              else
                let total := (loadLe32 header).toUInt64 |||
                  ((loadLe32 (header.drop 4)).toUInt64 <<< 32)
                if wireChunks response.length=0 then pure (.ok ⟨total,0,[]⟩)
                else do
                  let reply ← readPayloadFastOrWords storage.transport
                    (wireChunks response.length*4)
                  pure (reply.map fun data => ⟨total,wireChunks response.length,data⟩)
      else refuse (-2))

/-- The function `cl_storage_crc32`. -/
def clStorageCrc32 (storage : Storage δ) (path : CString) (offset length : UInt64)
    (chunkSize maxChunks : UInt32) : Prog (Link δ) (Except ℤ CrcResult) :=
  clStorageCrc32Ex storage path offset length chunkSize 0 maxChunks

/-- What the list command returns. -/
structure ListResult where
  /-- Bytes received. -/
  length : UInt32
  /-- Index to go on from. -/
  nextIndex : UInt32
  /-- Number of entries. -/
  entryCount : UInt32
  /-- The payload. -/
  payload : List UInt8

/-- The function `cl_storage_list`. -/
def clStorageList (storage : Storage δ) (path : CString)
    (startIndex maxEntries capacity : UInt32) : Prog (Link δ) (Except ℤ ListResult) :=
  if capacity<clpStorageListResponseHeaderBytes then refuse (-1)
  else requireCap clpCapDirList
    (match storagePathLength path with
    | none => refuse (-2)
    | some pathLen =>
      if storageRequestScratch storage (12+pathLen) then
        withResponse storage clpStorageList
          (storeLe32 startIndex 4++storeLe32 maxEntries 4++storeLe32 capacity 4++path.wire)
          fun response =>
            if response.imm≠clpStatusOk ∨
                response.length<clpStorageListResponseHeaderBytes ∨
                capacity< response.length then
              pure (.error (-3))
            else do
              let payload ← readPayloadWords storage.transport response.length
              pure (.ok
                ⟨response.length,loadLe32 payload,loadLe32 (payload.drop 4),payload⟩)
      else refuse (-2))

end ChisLink.StorageClient
