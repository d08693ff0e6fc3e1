import Mathlib.Data.List.TakeWhile
import ChisLink.DirectoryListing
import ChisLink.WritableFiles

/-!
# Directory streams

A directory stream fetches pages of eight entries into a buffer of 512 bytes and takes
the entries from there one by one. A page that does not fit the buffer ends the stream
with an error. The path is kept in 256 bytes.
-/

namespace ChisLink.DirectoryStream

open DirectoryListing FileLayer FileOperations StorageClient WritableFiles

/-- Longest name of an entry. -/
def clPosixDirNameMax : ℕ := 255

/-- Bytes of an entry before its name. -/
def clpStorageDirEntryBytes : ℕ := 12

/-- Size of the buffer of a stream. -/
def dirEntriesBytes : ℕ := 512

/-- The bytes of a size. -/
def le64 (size : UInt64) : List UInt8 :=
  (List.range 8).map fun i => (size >>> UInt64.ofNat (i*8)).toUInt8

/-- The size in some bytes. -/
def loadLe64 (bytes : List UInt8) : UInt64 :=
  ((bytes.take 8).zipIdx).foldl
    (fun size byte => size ||| (byte.1.toUInt64 <<< UInt64.ofNat (byte.2*8))) 0

/-- The part of a name that a stream keeps. -/
def keptName (entry : ClFileDirEntry) : List UInt8 := entry.name.1.take clPosixDirNameMax

/-- The bytes of an entry. -/
def entryBytes (entry : ClFileDirEntry) : List UInt8 :=
  [UInt8.ofNat (keptName entry).length,entry.type,entry.flags,0]++le64 entry.size++
    keptName entry++[0]

/-- The struct `cl_posix_dir_t`. -/
structure ClPosixDir where
  /-- Path of the directory. -/
  path : CString
  /-- Index of the next page. -/
  nextIndex : UInt32
  /-- The buffer. -/
  entries : List UInt8
  /-- Place of the next entry in it. -/
  cursor : ℕ
  /-- End of the entries in it. -/
  stop : ℕ
  /-- Entries of the page. -/
  entryCount : UInt32
  /-- The stream is open. -/
  isOpen : Bool

/-- The struct `cl_posix_dirent_t`. -/
structure ClPosixDirent where
  /-- Name. -/
  dName : List UInt8
  /-- Type. -/
  dType : UInt8
  /-- Size in bytes. -/
  dSize : UInt64
deriving DecidableEq

/-- The function `cl_posix_errno_from_result`. -/
def clPosixErrnoFromResult (result : ℤ) : ℕ :=
  if 0≤ result then 0
  else if result=-1 then 22
  else if result=-2 then 2
  else if result=-3 then 5
  else if result=-4 ∨ result=-5 ∨ result=-6 then 13
  else if result=-7 then 23
  else 5

/-- What a read of a stream gives: an entry, the end, or an error. -/
inductive ReaddirReply where
  /-- An entry. -/
  | entry (dirent : ClPosixDirent)
  /-- The end of the stream. -/
  | ended
  /-- A null pointer and an error number. -/
  | failed (errno : ℕ)

variable {W : Type}

section Calls

variable (backends : List (Backend W)) (lists : Backend W → ListOps W) (others : Others W)

/-- Take the entry at the cursor. -/
def parseEntry (dir : ClPosixDir) : ReaddirReply×ClPosixDir :=
  let raw := dir.entries.drop dir.cursor
  let nameLen := (raw.getD 0 0).toNat
  if nameLen=0 then (.failed 5,{dir with isOpen := false})
  else
    (.entry
      { dName := ((raw.drop clpStorageDirEntryBytes).take
          (min nameLen clPosixDirNameMax)).takeWhile (· ≠0)
        dType := raw.getD 1 0
        dSize := loadLe64 (raw.drop 4) },
      {dir with cursor := dir.cursor+(clpStorageDirEntryBytes+nameLen+1)})

end Calls

/-- What a stream gives of an entry. -/
def dirent (entry : ClFileDirEntry) : ClPosixDirent := ⟨keptName entry,entry.type,entry.size⟩

/-- Some entries fit the buffer. -/
def Fits (entries : List ClFileDirEntry) : Prop :=
  (entries.flatMap entryBytes).length≤dirEntriesBytes

section Bytes

/-- A size is loaded as it was stored. -/
theorem loadLe64_le64 (size : UInt64) (rest : List UInt8) :
    loadLe64 (le64 size++rest)=size := by
  have hstore : le64 size=[(size >>> 0).toUInt8,(size >>> 8).toUInt8,(size >>> 16).toUInt8,
      (size >>> 24).toUInt8,(size >>> 32).toUInt8,(size >>> 40).toUInt8,
      (size >>> 48).toUInt8,(size >>> 56).toUInt8] := rfl
  rw [hstore]
  simp only [loadLe64,List.cons_append,List.take,List.zipIdx,List.foldl]
  apply UInt64.toBitVec_inj.mp
  ext i hi
  simp [-UInt64.toUInt64_toUInt8]
  interval_cases i <;> simp

theorem length_keptName (entry : ClFileDirEntry) :
    (keptName entry).length≤255 := by
  unfold keptName clPosixDirNameMax
  rw [List.length_take]
  omega

theorem length_entryBytes (entry : ClFileDirEntry) :
    (entryBytes entry).length=clpStorageDirEntryBytes+(keptName entry).length+1 := by
  simp [entryBytes,le64,clpStorageDirEntryBytes]
  omega

theorem zero_notMem_keptName (entry : ClFileDirEntry) : (0 : UInt8)∉keptName entry :=
  fun h => entry.name.2 (List.mem_of_mem_take h)

/-- An entry at the cursor is taken. -/
theorem parseEntry_entryBytes {dir : ClPosixDir} {entry : ClFileDirEntry} {rest : List UInt8}
    (h : dir.entries.drop dir.cursor=entryBytes entry++rest) (hname : entry.name.1≠[]) :
    parseEntry dir=(.entry (dirent entry),
      {dir with cursor := dir.cursor+(entryBytes entry).length}) := by
  have hlength := length_keptName entry
  have hsize : (UInt8.ofNat (keptName entry).length).toNat=(keptName entry).length :=
    UInt8.toNat_ofNat_of_lt' (by unfold UInt8.size; omega)
  have hpos : (keptName entry).length≠0 := by
    unfold keptName clPosixDirNameMax
    rw [List.length_take]
    have hne := List.length_pos_iff.mpr hname
    omega
  have hbytes : entryBytes entry++rest=UInt8.ofNat (keptName entry).length::entry.type::
      entry.flags::0::(le64 entry.size++(keptName entry++(0::rest))) := by
    simp [entryBytes]
  have hdropName : (entryBytes entry++rest).drop clpStorageDirEntryBytes=
      keptName entry++(0::rest) := by
    rw [hbytes]
    change (le64 entry.size++(keptName entry++(0::rest))).drop 8=_
    exact List.drop_left' (by simp [le64])
  have hdropSize : (entryBytes entry++rest).drop 4=
      le64 entry.size++(keptName entry++(0::rest)) := by
    rw [hbytes]
    rfl
  have hzero : (entryBytes entry++rest).getD 0 0=UInt8.ofNat (keptName entry).length := by
    rw [hbytes]
    rfl
  have hone : (entryBytes entry++rest).getD 1 0=entry.type := by
    rw [hbytes]
    rfl
  have hmin : min (keptName entry).length clPosixDirNameMax=(keptName entry).length := by
    unfold clPosixDirNameMax
    omega
  have hwhole : (keptName entry).takeWhile (· ≠0)=keptName entry := by
    apply List.takeWhile_eq_self_iff.mpr
    intro byte hbyte
    have hne : byte≠0 := fun heq => zero_notMem_keptName entry (heq▸hbyte)
    simpa using hne
  unfold parseEntry
  rw [h]
  dsimp only
  rw [hdropName,hdropSize,hzero,hone,hsize]
  rw [if_neg hpos,hmin,List.take_left' rfl,hwhole,loadLe64_le64,length_entryBytes]
  rfl

end Bytes

/-- The entries that are read page by page from an index on. -/
inductive Reads (page : UInt32 → List ClFileDirEntry×UInt32) :
    UInt32 → List ClFileDirEntry → Prop where
  /-- There is no page behind this one. -/
  | last {start : UInt32} : Fits (page start).1 →
      (page start).2=clpStorageListDone ∨ (page start).1=[] → Reads page start (page start).1
  /-- There are others. -/
  | more {start : UInt32} {rest : List ClFileDirEntry} : Fits (page start).1 →
      (page start).2≠clpStorageListDone → (page start).1≠[] → Reads page (page start).2 rest →
      Reads page start ((page start).1++rest)

section Paging

variable {page : UInt32 → List ClFileDirEntry×UInt32} {valid : UInt32 → Prop}
  {entries : List ClFileDirEntry}

end Paging

section Pages

variable {backends : List (Backend W)} {lists : Backend W → ListOps W}
  {view : DirectoryView W} {path : CString} {entries : List ClFileDirEntry}

/-- The indexes at which pages begin. -/
def ValidStart (backends : List (Backend W)) (lists : Backend W → ListOps W)
    (path : CString) (entries : List ClFileDirEntry) (start : UInt32) : Prop :=
  start.toNat≤entries.length ∧ (HasNoPages backends lists path → start.toNat%8=0)

end Pages

section Streams

variable {backends : List (Backend W)} {lists : Backend W → ListOps W} {others : Others W}
  {view : DirectoryView W} {path : CString} {entries rest : List ClFileDirEntry}
  {dir : ClPosixDir} {s : Files W}

/-- A stream whose buffer holds some entries behind the cursor. -/
structure Reading (path : CString) (dir : ClPosixDir) (rest : List ClFileDirEntry) : Prop where
  /-- The directory. -/
  path_eq : dir.path=path
  /-- The stream is open. -/
  open_eq : dir.isOpen=true
  /-- The buffer. -/
  length_eq : dir.entries.length=dirEntriesBytes
  /-- The cursor is not behind the end. -/
  cursor_le : dir.cursor≤dir.stop
  /-- The end is in the buffer. -/
  stop_le : dir.stop≤dirEntriesBytes
  /-- The entries. -/
  bytes_eq : (dir.entries.take dir.stop).drop dir.cursor=rest.flatMap entryBytes

/-- The next entry is taken. -/
theorem Reading.parse {entry : ClFileDirEntry} (h : Reading path dir (entry::rest))
    (hname : entry.name.1≠[]) :
    (parseEntry dir).1=.entry (dirent entry) ∧ Reading path (parseEntry dir).2 rest ∧
      (parseEntry dir).2.nextIndex=dir.nextIndex ∧
      (parseEntry dir).2.entryCount=dir.entryCount := by
  have hcursor := h.cursor_le
  have hlength := congrArg List.length h.bytes_eq
  rw [List.length_drop,List.length_take,h.length_eq,Nat.min_eq_left h.stop_le,
    List.flatMap_cons,List.length_append] at hlength
  have hraw : dir.entries.drop dir.cursor=
      entryBytes entry++(rest.flatMap entryBytes++dir.entries.drop dir.stop) := by
    have hall := List.take_append_drop dir.stop dir.entries
    conv_lhs => rw [← hall]
    have hle : dir.cursor≤(dir.entries.take dir.stop).length := by
      rw [List.length_take,h.length_eq,Nat.min_eq_left h.stop_le]
      exact hcursor
    rw [List.drop_append_of_le_length hle,h.bytes_eq,List.flatMap_cons,List.append_assoc]
  rw [parseEntry_entryBytes hraw hname]
  refine ⟨rfl,⟨h.path_eq,h.open_eq,h.length_eq,?_,h.stop_le,?_⟩,rfl,rfl⟩
  · dsimp only
    omega
  · dsimp only
    rw [← List.drop_drop,h.bytes_eq,List.flatMap_cons]
    exact List.drop_left

/-- The names of the entries are not empty. -/
def Named (entries : List ClFileDirEntry) : Prop := ∀ entry∈entries,entry.name.1≠[]

/-- A stream behind a page, with some of its entries left in the buffer. -/
structure Streaming (backends : List (Backend W)) (lists : Backend W → ListOps W)
    (view : DirectoryView W) (path : CString) (entries : List ClFileDirEntry)
    (last : List ClFileDirEntry×UInt32) (rest : List ClFileDirEntry) (dir : ClPosixDir)
    (s : Files W) : Prop extends Reading path dir rest where
  /-- The directory is as it was. -/
  holds : view.holds s.world
  /-- The entries that are left have names. -/
  named : Named rest
  /-- The next page. -/
  next_eq : dir.nextIndex=last.2
  /-- The page was empty or not. -/
  count_iff : dir.entryCount=0 ↔ last.1=[]
  /-- The index of the next page is one. -/
  valid : last.2≠clpStorageListDone → ValidStart backends lists path entries last.2

end Streams

/-- Name, type and size of an entry. -/
def told (entry : ClFileDirEntry) : ClPosixDirent := ⟨entry.name.1,entry.type,entry.size⟩

section Whole

variable {backends : List (Backend W)} {lists : Backend W → ListOps W} {others : Others W}
  {view : DirectoryView W} {path : CString} {entries rest : List ClFileDirEntry}
  {s : Files W}

end Whole

/-- A backend without files under the root. -/
def dirBackend : Backend Unit :=
  ⟨⟨[47],slash_noNul⟩,1,
    { openPath := fun _ _ w => ((-2,0),w)
      close := none
      read := none
      write := none
      directRead := none
      seek := none }⟩

/-- It lists the same entries for every path, and has no pages. -/
def dirLists (entries : List ClFileDirEntry) : Backend Unit → ListOps Unit := fun _ =>
  { listDir := some fun _ _ callback user w => (deliver callback entries user,w)
    listPage := none }

/-- An entry with a name of so many letters. -/
def lettered (n : ℕ) (letter : UInt8) (h : letter≠0) : ClFileDirEntry :=
  ⟨⟨List.replicate n letter,fun hmem => h (List.eq_of_mem_replicate hmem).symm⟩,7,1,0⟩

theorem a_ne_zero : (97 : UInt8)≠0 := by decide

/-- Two entries with short names. -/
def shortNames : List ClFileDirEntry := [lettered 1 97 a_ne_zero,lettered 2 98 (by decide)]

/-- The root. -/
def rootPath : CString := ⟨[47],slash_noNul⟩

end ChisLink.DirectoryStream
