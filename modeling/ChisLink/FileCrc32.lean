import ChisLink.Crc32Chunks
import ChisLink.FileOperations

/-!
# Checks of files

The helpers that check files read them chunk by chunk through a buffer of any size,
with reads that may be short. One calculates a manifest, the others compare two files
or a file with a manifest.
-/

namespace ChisLink.FileCrc32

open Crc32 Crc32Chunks DriverPrograms FileLayer FileOperations StorageClient

variable {W : Type}

/-- Two checks differ. -/
def clFileCrc32Mismatch : ℤ := -100

/-- A file is too short. -/
def clFileCrc32SizeMismatch : ℤ := -101

/-- A transform of the source, given an offset and the bytes there. -/
abbrev Transform (W : Type) : Type := Option (UInt64 → List UInt8 → W → (ℤ×List UInt8)×W)

/-- Transform the bytes in the buffer. -/
def callTransform (transform : Transform W) (offset : UInt64) (data : List UInt8)
    (s : Files W) : (ℤ×List UInt8)×Files W :=
  match transform with
  | none => ((0,data),s)
  | some f =>
    let reply := f offset data s.world
    (reply.1,{s with world := reply.2})

/-- The loop of `read_chunk_crc`. Every round reads a byte, so that the length bounds the
rounds. -/
def readChunkRounds (file : ℕ) (offset : UInt64) (length bufferSize : UInt32)
    (transform : Transform W) : ℕ → UInt32 → UInt32 → Prog (Files W) (Except ℤ UInt32)
  | 0,_,crc => pure (.ok (clCrc32Finalize crc))
  | rounds+1,done,crc =>
    if done<length then do
      let want := if length-done<bufferSize then length-done else bufferSize
      let reply ← access (clFileRead file want true)
      if reply.ret<0 then pure (.error reply.ret)
      else if reply.length=0 ∨ want< reply.length then pure (.error (-4))
      else do
        let changed ← access (callTransform transform (offset+done.toUInt64) reply.data)
        if changed.1<0 then pure (.error changed.1)
        else
          readChunkRounds file offset length bufferSize transform rounds
            (done+reply.length) (clCrc32Update crc changed.2)
    else pure (.ok (clCrc32Finalize crc))

/-- The function `read_chunk_crc`. -/
def readChunkCrc (file : ℕ) (offset : UInt64) (length bufferSize : UInt32)
    (transform : Transform W) : Prog (Files W) (Except ℤ UInt32) :=
  readChunkRounds file offset length bufferSize transform length.toNat 0 clCrc32Init

/-- Bytes of the chunk at an offset. -/
def chunkLength (chunkSize : UInt32) (offset length : UInt64) : UInt32 :=
  if length-offset<chunkSize.toUInt64 then (length-offset).toUInt32 else chunkSize

/-- Take the check of a chunk of a file. -/
def addChunk (chunks : ClCrc32Chunks) (crc length : UInt32) : ClCrc32Chunks :=
  {chunks with
    values := Function.update chunks.values chunks.count.toNat crc
    count := chunks.count+1
    totalBytes := chunks.totalBytes+length.toUInt64}

/-- The loop of `cl_file_calculate_crc32_chunks`. Every round reads a chunk. -/
def calculateRounds (file : ℕ) (length : UInt64) (bufferSize : UInt32)
    (progress : Progress W) :
    ℕ → UInt64 → ClCrc32Chunks → Prog (Files W) (ℤ×ClCrc32Chunks)
  | 0,_,chunks => pure (0,chunks)
  | rounds+1,offset,chunks =>
    if offset<length then do
      let chunk := chunkLength chunks.chunkSize offset length
      match ← readChunkCrc file offset chunk bufferSize none with
      | .error ret => pure (ret,chunks)
      | .ok crc => do
        let offset := offset+chunk.toUInt64
        let ret ← access (callProgress progress offset length)
        if ret<0 then pure (ret,addChunk chunks crc chunk)
        else
          calculateRounds file length bufferSize progress rounds offset
            (addChunk chunks crc chunk)
    else pure (0,chunks)

/-- Number of chunks of a length of 64 bits. -/
def requiredChunks (length : UInt64) (chunkSize : UInt32) : UInt64 :=
  if length%chunkSize.toUInt64≠0 then length/chunkSize.toUInt64+1
  else length/chunkSize.toUInt64

/-- The struct `cl_file_crc32_result_t`. -/
structure FileCrc32Result where
  /-- Bytes that agree. -/
  verifiedBytes : UInt64
  /-- Where the files differ. -/
  mismatchOffset : UInt64
  /-- Chunks that agree. -/
  chunksVerified : UInt32
  /-- Check of the last chunk of the source. -/
  sourceCrc32 : UInt32
  /-- Check of the last chunk of the target. -/
  targetCrc32 : UInt32

/-- The function `clear_result`. -/
def clearResult : FileCrc32Result := ⟨0,0xffffffffffffffff,0,0,0⟩

/-- The struct `cl_file_crc32_options_t`, with a buffer. -/
structure FileCrc32Options (W : Type) where
  /-- Bytes of a chunk. -/
  chunkSize : UInt32
  /-- Size of the buffer. -/
  bufferSize : UInt32
  /-- Transform of the source. -/
  sourceTransform : Transform W
  /-- Progress callback. -/
  progress : Progress W

/-- A chunk agrees. -/
def FileCrc32Result.advance (result : FileCrc32Result) (offset : UInt64) : FileCrc32Result :=
  {result with verifiedBytes := offset,chunksVerified := result.chunksVerified+1}

/-- The loop of `verify_range`. Every round compares a chunk. -/
def verifyRounds (source target : ℕ) (length : UInt64) (options : FileCrc32Options W) :
    ℕ → UInt64 → FileCrc32Result → Prog (Files W) (ℤ×FileCrc32Result)
  | 0,_,result => pure (0,result)
  | rounds+1,offset,result =>
    if offset<length then do
      let chunk := chunkLength options.chunkSize offset length
      match ← readChunkCrc source offset chunk options.bufferSize options.sourceTransform with
      | .error ret => pure (ret,result)
      | .ok sourceCrc => do
        let result := {result with sourceCrc32 := sourceCrc}
        match ← readChunkCrc target offset chunk options.bufferSize none with
        | .error ret => pure (ret,result)
        | .ok targetCrc => do
          let result := {result with targetCrc32 := targetCrc}
          if sourceCrc≠targetCrc then
            pure (clFileCrc32Mismatch,{result with mismatchOffset := offset})
          else do
            let offset := offset+chunk.toUInt64
            let result := result.advance offset
            let ret ← access (callProgress options.progress offset length)
            if ret<0 then pure (ret,result)
            else verifyRounds source target length options rounds offset result
    else pure (0,result)

/-- Compare a chunk with its value, reading it again if it differs: the result, and the
check that was read last. -/
def compareChunk (target : ℕ) (offset : UInt64) (chunk bufferSize value old : UInt32) :
    Prog (Files W) (ℤ×UInt32) := do
  match ← readChunkCrc target offset chunk bufferSize none with
  | .error ret => pure (ret,old)
  | .ok crc =>
    if value=crc then pure (0,crc)
    else do
      let ret ← access (clFileSeek target offset)
      if ret<0 then pure (ret,crc)
      else
        match ← readChunkCrc target offset chunk bufferSize none with
        | .error ret => pure (ret,crc)
        | .ok again => pure (0,again)

/-- The loop of `cl_file_verify_crc32_chunks`, with so many chunks left. -/
def verifyChunksRounds (target : ℕ) (chunks : ClCrc32Chunks) (bufferSize : UInt32)
    (progress : Progress W) :
    ℕ → UInt64 → FileCrc32Result → Prog (Files W) (ℤ×FileCrc32Result)
  | 0,_,result => pure (0,result)
  | left+1,offset,result => do
    let chunk := chunkLength chunks.chunkSize offset chunks.totalBytes
    let value := chunks.values (chunks.count.toNat-(left+1))
    let reply ← compareChunk target offset chunk bufferSize value result.targetCrc32
    let result := {result with sourceCrc32 := value,targetCrc32 := reply.2}
    if reply.1<0 then pure (reply.1,result)
    else if value≠reply.2 then
      pure (clFileCrc32Mismatch,{result with mismatchOffset := offset})
    else do
      let offset := offset+chunk.toUInt64
      let result := result.advance offset
      let ret ← access (callProgress progress offset chunks.totalBytes)
      if ret<0 then pure (ret,result)
      else verifyChunksRounds target chunks bufferSize progress left offset result

section Helpers

variable (backends : List (Backend W)) (others : Others W)

/-- The function `cl_file_calculate_crc32_chunks`. -/
def clFileCalculateCrc32Chunks (path : CString) (length : UInt64) (chunks : ClCrc32Chunks)
    (bufferSize : UInt32) (progress : Progress W) : Prog (Files W) (ℤ×ClCrc32Chunks) :=
  if chunks.capacity=0 ∨ chunks.count≠0 ∨ chunks.chunkBytes≠0 ∨ chunks.totalBytes≠0 ∨
      bufferSize=0 ∨ length=0 then pure (-1,chunks)
  else if chunks.capacity.toUInt64< requiredChunks length chunks.chunkSize then
    pure (-2,chunks)
  else do
    let stat ← access (clFileStat backends others path)
    if stat.1<0 then pure (stat.1,chunks)
    else if stat.2.size<length then pure (clFileCrc32SizeMismatch,chunks)
    else
      match ← access (clFileOpen backends path clpOpenRead) with
      | .error ret => pure (ret,chunks)
      | .ok file => do
        let reply ← calculateRounds file length bufferSize progress length.toNat 0 chunks
        let closeRet ← access (clFileClose file)
        pure (if reply.1<0 then reply.1 else closeRet,reply.2)

/-- The smaller of two sizes. -/
def smallerSize (source target : UInt64) : UInt64 := if source<target then source else target

/-- The function `verify_range`, which is `cl_file_verify_crc32_range`. -/
def clFileVerifyCrc32Range (sourcePath targetPath : CString) (length : UInt64)
    (options : FileCrc32Options W) : Prog (Files W) (ℤ×FileCrc32Result) :=
  if options.chunkSize=0 ∨ options.bufferSize=0 then pure (-1,clearResult)
  else do
    let sourceStat ← access (clFileStat backends others sourcePath)
    if sourceStat.1<0 then pure (sourceStat.1,clearResult)
    else do
      let targetStat ← access (clFileStat backends others targetPath)
      if targetStat.1<0 then pure (targetStat.1,clearResult)
      else if sourceStat.2.size<length ∨ targetStat.2.size<length then
        pure (clFileCrc32SizeMismatch,{clearResult with
          mismatchOffset := smallerSize sourceStat.2.size targetStat.2.size})
      else
        match ← access (clFileOpen backends sourcePath clpOpenRead) with
        | .error ret => pure (ret,clearResult)
        | .ok source =>
          match ← access (clFileOpen backends targetPath clpOpenRead) with
          | .error ret => do
            let _ ← access (clFileClose source)
            pure (ret,clearResult)
          | .ok target => do
            let reply ← verifyRounds source target length options length.toNat 0 clearResult
            let closeTarget ← access (clFileClose target)
            let closeSource ← access (clFileClose source)
            pure (firstError reply.1 closeTarget closeSource,reply.2)

/-- The function `cl_file_verify_crc32`. Without a size it leaves the result as it was. -/
def clFileVerifyCrc32 (sourcePath targetPath : CString) (options : FileCrc32Options W)
    (result : FileCrc32Result) : Prog (Files W) (ℤ×FileCrc32Result) := do
  let sourceStat ← access (clFileStat backends others sourcePath)
  if sourceStat.1<0 then pure (sourceStat.1,result)
  else do
    let targetStat ← access (clFileStat backends others targetPath)
    if targetStat.1<0 then pure (targetStat.1,result)
    else if sourceStat.2.size≠targetStat.2.size then
      pure (clFileCrc32SizeMismatch,{clearResult with
        mismatchOffset := smallerSize sourceStat.2.size targetStat.2.size})
    else clFileVerifyCrc32Range backends others sourcePath targetPath sourceStat.2.size options

/-- The function `cl_file_verify_crc32_chunks`. -/
def clFileVerifyCrc32Chunks (targetPath : CString) (chunks : ClCrc32Chunks)
    (bufferSize : UInt32) (progress : Progress W) : Prog (Files W) (ℤ×FileCrc32Result) :=
  if bufferSize=0 then pure (-1,clearResult)
  else if requiredChunks chunks.totalBytes chunks.chunkSize≠chunks.count.toUInt64 then
    pure (-2,clearResult)
  else do
    let targetStat ← access (clFileStat backends others targetPath)
    if targetStat.1<0 then pure (targetStat.1,clearResult)
    else if targetStat.2.size<chunks.totalBytes then
      pure (clFileCrc32SizeMismatch,{clearResult with mismatchOffset := targetStat.2.size})
    else
      match ← access (clFileOpen backends targetPath clpOpenRead) with
      | .error ret => pure (ret,clearResult)
      | .ok target => do
        let reply ← verifyChunksRounds target chunks bufferSize progress chunks.count.toNat 0
          clearResult
        let closeRet ← access (clFileClose target)
        pure (if reply.1<0 then reply.1 else closeRet,reply.2)

end Helpers

end ChisLink.FileCrc32
