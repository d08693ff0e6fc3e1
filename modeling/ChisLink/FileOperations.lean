import ChisLink.CopyStream
import ChisLink.FileLayer

/-!
# Operations on files

The helpers of the file layer open the files they are given, work on the handles and
close them on every path. Beside the operations that move a position, the backends
have others that a helper calls. A backend may lack any of them.
-/

namespace ChisLink.FileOperations

open CopyStream DriverPrograms FileLayer StorageClient WireProtocol

variable {W : Type}

/-- Open for reading. -/
def clpOpenRead : UInt32 := 1

/-- Open for writing. -/
def clpOpenWrite : UInt32 := 2

/-- Create the file if there is none. -/
def clpOpenCreate : UInt32 := 4

/-- Empty the file. -/
def clpOpenTruncate : UInt32 := 8

/-- Copy over an existing file. -/
def clpCopyOverwrite : UInt32 := 2

/-- Block size of a file that prefers none. -/
def clpDefaultBlockSize : UInt32 := 32768

/-- What is left in a struct `cl_file_stat_t` that was not filled. -/
def noStat : FileStat := ⟨0,0,0,0,0,0⟩

/-- The operations of `cl_file_backend_ops_t` that the helpers call beside those that
move a position. -/
structure OtherOps (W : Type) where
  /-- Metadata of a path. -/
  stat : Option (CString → W → (ℤ×FileStat)×W)
  /-- Metadata of a local handle. -/
  fstat : Option (UInt16 → W → (ℤ×FileStat)×W)
  /-- Set the size. -/
  truncate : Option (UInt16 → UInt64 → W → ℤ×W)
  /-- Flush. -/
  flush : Option (UInt16 → W → ℤ×W)
  /-- Take a direct window. -/
  directRead : Option (UInt16 → UInt32 → W → (ℤ×WindowReply)×W)
  /-- Give the direct window back. -/
  releaseDirect : Option (UInt16 → W → ℤ×W)
  /-- Write from a direct window, from an offset, so many bytes. -/
  directWrite : Option (UInt16 → DirectWindow → ℕ → ℕ → W → (ℤ×ℕ)×W)

/-- The length in the struct of a window. -/
def windowLength : WindowReply → UInt32
  | .null length => length
  | .window window => window.length

/-- The other operations of every backend. -/
structure Others (W : Type) where
  /-- Those of a backend. -/
  ops : Backend W → OtherOps W
  /-- A window is taken by one operation. -/
  directRead_eq : ∀ backend,backend.ops.directRead=
    (ops backend).directRead.map fun directRead l length w =>
      (((directRead l length w).1.1,windowLength (directRead l length w).1.2),
        (directRead l length w).2)

section Calls

variable (backends : List (Backend W)) (others : Others W)

/-- The function `cl_file_stat`. -/
def clFileStat (path : CString) (s : Files W) : (ℤ×FileStat)×Files W :=
  match findBackend backends path with
  | none => ((-2,noStat),s)
  | some backend =>
    match (others.ops backend).stat with
    | none => ((-2,noStat),s)
    | some stat =>
      let reply := stat path s.world
      (reply.1,{s with world := reply.2})

/-- Call another operation of the backend of a handle, if there are both. -/
def callOther {γ ρ : Type} (s : Files W) (file : ℕ) (op : OtherOps W → Option γ)
    (missing : ρ) (call : UInt16 → γ → W → ρ×W) : ρ×Files W :=
  match slotFromHandle s file with
  | none => (missing,s)
  | some (_,slot) =>
    match op (others.ops slot.backend) with
    | none => (missing,s)
    | some f =>
      let reply := call slot.localHandle f s.world
      (reply.1,{s with world := reply.2})

/-- The function `cl_file_truncate_open`. -/
def clFileTruncateOpen (file : ℕ) (size : UInt64) (s : Files W) : ℤ×Files W :=
  callOther others s file OtherOps.truncate 0 fun l truncate => truncate l size

/-- The function `cl_file_flush`, as a copy calls it. -/
def copyFlushFile (file : ℕ) (s : Files W) : ℤ×Files W :=
  callOther others s file OtherOps.flush 0 fun l flush => flush l

/-- The function `cl_file_fstat`. -/
def clFileFstat (file : ℕ) (s : Files W) : (ℤ×FileStat)×Files W :=
  if (slotFromHandle s file).isNone then ((-1,noStat),s)
  else callOther others s file OtherOps.fstat (-2,noStat) fun l fstat => fstat l

/-- The function `copy_read_file`. -/
def copyReadFile (file want : ℕ) (s : Files W) : (ℤ×List UInt8)×Files W :=
  let reply := clFileRead file (UInt32.ofNat want) true s
  ((reply.1.ret,reply.1.data),reply.2)

/-- The function `copy_write_file`. -/
def copyWriteFile (file : ℕ) (src : List UInt8) (s : Files W) : (ℤ×ℕ)×Files W :=
  let reply := clFileWrite file src true s
  ((reply.1.ret,reply.1.length.toNat),reply.2)

/-- The function `copy_direct_read_file`, with the window. -/
def copyDirectWindow (file want : ℕ) (s : Files W) : (ℤ×WindowReply)×Files W :=
  callOther others s file OtherOps.directRead (-1,.null 0) fun l directRead =>
    directRead l (UInt32.ofNat want)

/-- The function `copy_direct_release_file`. -/
def copyDirectReleaseFile (file : ℕ) (s : Files W) : ℤ×Files W :=
  callOther others s file OtherOps.releaseDirect 0 fun l release => release l

/-- The function `copy_direct_write_file`. -/
def copyDirectWriteFile (file : ℕ) (window : DirectWindow) (offset length : ℕ)
    (s : Files W) : (ℤ×ℕ)×Files W :=
  callOther others s file OtherOps.directWrite (-1,0) fun l directWrite =>
    directWrite l window offset length

/-- The backend of a handle has an operation. -/
def hasOther {γ : Type} (s : Files W) (file : ℕ) (op : OtherOps W → Option γ) : Bool :=
  match slotFromHandle s file with
  | none => false
  | some (_,slot) => (op (others.ops slot.backend)).isSome

/-- The source of a copy. -/
def fileSource (s : Files W) (file : ℕ) (stat : FileStat) : CopySource (Files W) where
  read := some (copyReadFile file)
  directRead := if hasOther others s file OtherOps.directRead then
    some (copyDirectWindow others file) else none
  releaseDirect := if hasOther others s file OtherOps.releaseDirect then
    some (copyDirectReleaseFile others file) else none
  size := stat.size
  preferredBlockSize := stat.preferredBlockSize
  maxBlockSize := stat.maxBlockSize

/-- The sink of a copy. -/
def fileSink (s : Files W) (file : ℕ) (stat : FileStat) : CopySink (Files W) where
  write := some (copyWriteFile file)
  directWrite := if hasOther others s file OtherOps.directWrite then
    some (copyDirectWriteFile others file) else none
  flush := some (copyFlushFile others file)
  preferredBlockSize := stat.preferredBlockSize
  maxBlockSize := stat.maxBlockSize

/-- The function `cl_file_default_block_size`. -/
def clFileDefaultBlockSize (stat : FileStat) : UInt32 :=
  if stat.preferredBlockSize≠0 then stat.preferredBlockSize else clpDefaultBlockSize

/-- A progress callback. It may change whatever the backends are part of. -/
abbrev Progress (W : Type) : Type := Option (UInt64 → UInt64 → W → ℤ×W)

/-- Call a progress callback over the open files. -/
def callProgress (progress : Progress W) (done size : UInt64) (s : Files W) : ℤ×Files W :=
  match progress with
  | none => (0,s)
  | some f =>
    let reply := f done size s.world
    (reply.1,{s with world := reply.2})

/-- The options of a copy of files. -/
def fileCopyOptions (stat : FileStat) (bufferSize : UInt32) (progress : Progress W) :
    CopyOptions (Files W) where
  buffer := true
  bufferSize := bufferSize
  blockSize := clFileDefaultBlockSize stat
  progress := progress.map fun f done size s => callProgress (some f) done size s
  flushOnFinish := true

/-- The flags the destination of a copy is opened with. -/
def destinationFlags (flags : UInt32) : UInt32 :=
  if flags &&& clpCopyOverwrite≠0 then clpOpenWrite ||| clpOpenCreate ||| clpOpenTruncate
  else clpOpenWrite ||| clpOpenCreate

/-- The result of a helper that closes its files: the first error. -/
def firstError (ret closeFirst closeSecond : ℤ) : ℤ :=
  if ret<0 then ret else if closeFirst<0 then closeFirst else closeSecond

/-- Copy between two open files, and close them. The destination limits the blocks if its
metadata are known, otherwise the source does. -/
def copyBetween (srcFile dstFile : ℕ) (srcStat : FileStat) (dstStat : ℤ×FileStat)
    (bufferSize : UInt32) (progress : Progress W) (fuel : ℕ) : Prog (Files W) ℤ := do
  let source ← inspect fun s => fileSource others s srcFile srcStat
  let sink ← inspect fun s =>
    fileSink others s dstFile (if dstStat.1=0 then dstStat.2 else srcStat)
  let ret ← clCopyStream source sink (fileCopyOptions srcStat bufferSize progress) fuel
  let closeDst ← access (clFileClose dstFile)
  let closeSrc ← access (clFileClose srcFile)
  pure (firstError ret closeDst closeSrc)

/-- The copy once both files are open. -/
def copyOpened (srcFile dstFile : ℕ) (srcStat : FileStat) (dstStat : ℤ×FileStat)
    (bufferSize : UInt32) (progress : Progress W) (fuel : ℕ) : Prog (Files W) ℤ := do
  let ret ← access (clFileTruncateOpen others dstFile srcStat.size)
  if ret<0 then do
    let _ ← access (clFileClose dstFile)
    let _ ← access (clFileClose srcFile)
    pure ret
  else if dstStat.1=0 then
    copyBetween others srcFile dstFile srcStat dstStat bufferSize progress fuel
  else do
    let dstStat ← access (clFileFstat others dstFile)
    copyBetween others srcFile dstFile srcStat dstStat bufferSize progress fuel

/-- The function `cl_file_copy_buffered_progress`. -/
def clFileCopyBufferedProgress (srcPath dstPath : CString) (flags bufferSize : UInt32)
    (progress : Progress W) (fuel : ℕ) : Prog (Files W) ℤ :=
  if bufferSize<4 then pure (-1)
  else do
    let srcStat ← access (clFileStat backends others srcPath)
    if srcStat.1<0 then pure srcStat.1
    else do
      let dstStat ← access (clFileStat backends others dstPath)
      match ← access (clFileOpen backends srcPath clpOpenRead) with
      | .error ret => pure ret
      | .ok srcFile =>
        match ← access (clFileOpen backends dstPath (destinationFlags flags)) with
        | .error ret => do
          let _ ← access (clFileClose srcFile)
          pure ret
        | .ok dstFile =>
          copyOpened others srcFile dstFile srcStat.2 dstStat bufferSize progress fuel

/-- The function `cl_file_copy_buffered`. -/
def clFileCopyBuffered (srcPath dstPath : CString) (flags bufferSize : UInt32) (fuel : ℕ) :
    Prog (Files W) ℤ :=
  clFileCopyBufferedProgress backends others srcPath dstPath flags bufferSize none fuel

end Calls

section Rules

variable {others : Others W} {s : Files W}

/-- The window that a copy takes has the result and the length that the file layer
tells. -/
theorem copyDirectWindow_eq (file want : ℕ) (s : Files W) :
    copyDirectReadFile file (UInt32.ofNat want) s=
      (((copyDirectWindow others file want s).1.1,
        windowLength (copyDirectWindow others file want s).1.2),
        (copyDirectWindow others file want s).2) := by
  unfold copyDirectReadFile copyDirectWindow callSlot callOther
  cases slotFromHandle s file with
  | none => rfl
  | some found =>
    obtain ⟨i,slot⟩ := found
    dsimp only
    rw [others.directRead_eq slot.backend]
    cases (others.ops slot.backend).directRead <;> rfl

end Rules

end ChisLink.FileOperations
