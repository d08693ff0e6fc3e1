import Mathlib.Data.List.Basic
import ChisLink.FileCrc32
import ChisLink.ReadableFiles

/-!
# Reading chunks

A chunk of a file is read through a buffer in as many pieces as the backend likes. The
check is that of the bytes of the chunk, however they are cut, and the handle ends behind
the chunk.
-/

namespace ChisLink.ChunkReading

open Crc32 DriverPrograms FileCrc32 FileOperations ReadableFiles StorageClient
open FileLayer hiding Leaves

variable {W : Type}

/-- A transform acts byte by byte on an offset and the byte there. -/
def Bytewise (view : FileView W) (transform : Transform W) (f : ℕ → UInt8 → UInt8) : Prop :=
  match transform with
  | none => ∀ i b,f i b=b
  | some g => ∀ offset data w,0≤(g offset data w).1.1 ∧
    (g offset data w).1.2=data.mapIdx (fun i b => f (offset.toNat+i) b) ∧
    view.Same w (g offset data w).2

/-- A progress callback does not abort and leaves the files alone. -/
def Progresses (view : FileView W) (progress : Progress W) : Prop :=
  ∀ g,progress=some g → ∀ done size w,0≤(g done size w).1 ∧ view.Same w (g done size w).2

/-- The next bytes of a file, transformed. -/
def nextBytes (f : ℕ → UInt8 → UInt8) (content : List UInt8) (start count : ℕ) : List UInt8 :=
  ((content.mapIdx f).drop start).take count

section Bytes

variable {f : ℕ → UInt8 → UInt8} {content : List UInt8} {start : ℕ}

/-- Transforming bytes that were read is reading transformed bytes. -/
theorem mapIdx_read (f : ℕ → UInt8 → UInt8) (content : List UInt8) (start count : ℕ) :
    ((content.drop start).take count).mapIdx (fun i b => f (start+i) b)=
      nextBytes f content start count := by
  unfold nextBytes
  apply List.ext_getElem?
  intro i
  rw [List.getElem?_mapIdx,List.getElem?_take,List.getElem?_take]
  by_cases hi : i<count
  · rw [if_pos hi,if_pos hi,List.getElem?_drop,List.getElem?_drop,List.getElem?_mapIdx]
  · rw [if_neg hi,if_neg hi]
    rfl

/-- Bytes may be read in two parts. -/
theorem nextBytes_add (f : ℕ → UInt8 → UInt8) (content : List UInt8) (start m n : ℕ) :
    nextBytes f content start (m+n)=
      nextBytes f content start m++nextBytes f content (start+m) n := by
  unfold nextBytes
  rw [List.take_add,List.drop_drop]

theorem nextBytes_zero (f : ℕ → UInt8 → UInt8) (content : List UInt8) (start : ℕ) :
    nextBytes f content start 0=[] := List.take_zero

end Bytes

section Reading

variable {backends : List (Backend W)} {others : Others W} {view : FileView W}
  {s : Files W} {file : ℕ} {key : BackendOps W×UInt16} {path : CString}
  {content : List UInt8} {position : ℕ} {transform : Transform W} {f : ℕ → UInt8 → UInt8}

/-- A call that changes nothing leaves the handles alone. -/
theorem leaves_same {w : W} (hsame : view.Same s.world w) :
    Leaves backends others view s {s with world := w} key :=
  fun _ _ _ _ _ _ h => h.of_same hsame

/-- Transforming the bytes that were read. -/
theorem callTransform_spec (htransform : Bytewise view transform f)
    (hheld : Held backends others view s file key path content position) (offset : UInt64)
    (count : ℕ) :
    ∃ ret t,callTransform transform offset ((content.drop offset.toNat).take count) s=
        ((ret,nextBytes f content offset.toNat count),t) ∧ 0≤ ret ∧
      Held backends others view t file key path content position ∧
      Leaves backends others view s t key := by
  have hbytes := mapIdx_read f content offset.toNat count
  unfold callTransform
  cases transform with
  | none =>
    have hsame : f=fun _ b => b := by
      funext i b
      exact htransform i b
    have hnone : (content.drop offset.toNat).take count=
        nextBytes f content offset.toNat count := by
      rw [← hbytes,hsame]
      exact (List.mapIdx_eq_iff.mpr fun i => Option.map_id'.symm).symm
    rw [hnone]
    exact ⟨0,s,rfl,le_refl _,hheld,Leaves.refl s key⟩
  | some g =>
    obtain ⟨hret,hdata,hsame⟩ := htransform offset
      ((content.drop offset.toNat).take count) s.world
    rw [hbytes] at hdata
    dsimp only
    rw [← hdata]
    exact ⟨_,_,rfl,hret,hheld.of_same hsame,leaves_same hsame⟩

/-- A chunk that is read. -/
theorem readChunk_end {offset : UInt64} {length done crc : UInt32}
    (hdone : done.toNat=length.toNat)
    (hheld : Held backends others view s file key path content (offset.toNat+done.toNat)) :
    ∃ t,(pure (.ok (clCrc32Finalize crc)) : Prog (Files W) (Except ℤ UInt32)) s=
        (some (.ok (clCrc32Finalize (clCrc32Update crc (nextBytes f content
          (offset.toNat+done.toNat) (length.toNat-done.toNat))))),t) ∧
      Held backends others view t file key path content (offset.toNat+length.toNat) ∧
      Leaves backends others view s t key := by
  rw [hdone] at hheld ⊢
  rw [Nat.sub_self,nextBytes_zero]
  exact ⟨s,rfl,hheld,Leaves.refl s key⟩

/-- The loop that reads a chunk. -/
theorem readChunkRounds_spec (htransform : Bytewise view transform f) {offset : UInt64}
    {length bufferSize : UInt32} (hbuffer : 0<bufferSize.toNat)
    (hlength : offset.toNat+length.toNat≤ content.length)
    (hsize : content.length<2^64) (rounds : ℕ) (done crc : UInt32) (s : Files W)
    (hheld : Held backends others view s file key path content (offset.toNat+done.toNat))
    (hdone : done.toNat≤length.toNat) (hrounds : length.toNat-done.toNat≤ rounds) :
    ∃ t,readChunkRounds file offset length bufferSize transform rounds done crc s=
        (some (.ok (clCrc32Finalize (clCrc32Update crc (nextBytes f content
          (offset.toNat+done.toNat) (length.toNat-done.toNat))))),t) ∧
      Held backends others view t file key path content (offset.toNat+length.toNat) ∧
      Leaves backends others view s t key := by
  induction rounds generalizing done crc s with
  | zero => exact readChunk_end (by omega) hheld
  | succ rounds ih =>
    unfold readChunkRounds
    by_cases hmore : done<length
    · have hlt := UInt32.lt_iff_toNat_lt.mp hmore
      have hrest : (length-done).toNat=length.toNat-done.toNat :=
        UInt32.toNat_sub_of_le _ _ (UInt32.le_iff_toNat_le.mpr hdone)
      obtain ⟨want,hwant⟩ : ∃ want,want=if length-done<bufferSize then length-done
        else bufferSize := ⟨_,rfl⟩
      have hbounds : 0<want.toNat ∧ want.toNat≤length.toNat-done.toNat := by
        rw [hwant]
        split
        next h => exact ⟨by omega,by omega⟩
        next h =>
          have hle := UInt32.le_iff_toNat_le.mp (UInt32.not_lt.mp h)
          exact ⟨hbuffer,by omega⟩
      obtain ⟨reply,u,hread,hdelivered,hheldu,hleaves⟩ :=
        clFileRead_held hheld hbounds.1 (by omega)
      have hle := hdelivered.data_le
      have hne := List.length_pos_of_ne_nil hdelivered.data_ne
      have hgot := hdelivered.length_eq
      have hret : ¬reply.ret<0 := by
        have hpos := hdelivered.ret
        omega
      have hcount : ¬(reply.length=0 ∨ want< reply.length) := by
        rintro (hzero | hlt)
        · have hzero : reply.length.toNat=0 := congrArg UInt32.toNat hzero
          omega
        · have hlt := UInt32.lt_iff_toNat_lt.mp hlt
          omega
      have hnext : (done+reply.length).toNat=done.toNat+reply.data.length := by
        rw [UInt32.toNat_add,hgot]
        have hbound := length.toNat_lt
        exact Nat.mod_eq_of_lt (by omega)
      have hplace : (offset+done.toUInt64).toNat=offset.toNat+done.toNat := by
        rw [UInt64.toNat_add,UInt32.toNat_toUInt64]
        exact Nat.mod_eq_of_lt (by omega)
      obtain ⟨ret,v,hchange,hretv,hheldv,hleavesv⟩ := callTransform_spec htransform hheldu
        (offset+done.toUInt64) reply.data.length
      have hdata := hdelivered.data_eq
      rw [hplace,← hdata] at hchange
      obtain ⟨t,hrun,hheldt,hleavest⟩ := ih (done+reply.length)
        (clCrc32Update crc (nextBytes f content (offset.toNat+done.toNat) reply.data.length))
        v (by rw [hnext]; rw [← Nat.add_assoc]; exact hheldv) (by omega) (by omega)
      have hsplit : length.toNat-done.toNat=
          reply.data.length+(length.toNat-(done.toNat+reply.data.length)) := by omega
      rw [if_pos hmore,← hwant,bind_run (access_run hread),
        if_neg hret,if_neg hcount,bind_run (access_run hchange),
        if_neg (by omega),hrun,hnext,hsplit,nextBytes_add,clCrc32Update_append,Nat.add_assoc]
      exact ⟨t,rfl,hheldt,(hleaves.trans hleavesv).trans hleavest⟩
    · rw [if_neg hmore]
      have hle := UInt32.le_iff_toNat_le.mp (UInt32.not_lt.mp hmore)
      exact readChunk_end (by omega) hheld

/-- Reading a chunk. -/
theorem readChunkCrc_spec (htransform : Bytewise view transform f) {offset : UInt64}
    {length bufferSize : UInt32} (hbuffer : 0<bufferSize.toNat)
    (hlength : offset.toNat+length.toNat≤ content.length) (hsize : content.length<2^64)
    (hheld : Held backends others view s file key path content offset.toNat) :
    ∃ t,readChunkCrc file offset length bufferSize transform s=
        (some (.ok (clCrc32Calculate (nextBytes f content offset.toNat length.toNat))),t) ∧
      Held backends others view t file key path content (offset.toNat+length.toNat) ∧
      Leaves backends others view s t key :=
  readChunkRounds_spec htransform hbuffer hlength hsize length.toNat 0 clCrc32Init s hheld
    (Nat.zero_le _) (le_refl _)

end Reading

end ChisLink.ChunkReading
