import ChisLink.ChunkReading
import ChisLink.MemoryStore

/-!
# Manifests agree

A manifest is made while the bytes of a file go by, or afterwards from the file. Bytes
come in pieces, files in reads, and neither is cut where the chunks are. Both ways give
the checks of the same chunks. With too few places both say so, and the memory behind
the array stays as it was.
-/

namespace ChisLink.ChunkAgreement

open ChunkReading Crc32 Crc32Chunks DriverPrograms FileCrc32 FileOperations MemoryStore
open ReadableFiles StorageClient
open FileLayer hiding Leaves

variable {W : Type}

section Chunks

variable {chunkSize : UInt32} {offset length : UInt64} {k : ℕ}

/-- Number of chunks, in 64 bits. -/
theorem toNat_requiredChunks (hsize : 0<chunkSize.toNat) (length : UInt64) :
    (requiredChunks length chunkSize).toNat=chunkCount chunkSize.toNat length.toNat := by
  have hmod : (length%chunkSize.toUInt64).toNat=length.toNat%chunkSize.toNat := by
    rw [UInt64.toNat_mod,UInt32.toNat_toUInt64]
  have hdiv : (length/chunkSize.toUInt64).toNat=length.toNat/chunkSize.toNat := by
    rw [UInt64.toNat_div,UInt32.toNat_toUInt64]
  unfold requiredChunks chunkCount
  by_cases hrest : length%chunkSize.toUInt64=0
  · have hzero : length.toNat%chunkSize.toNat=0 := hmod ▸ congrArg UInt64.toNat hrest
    rw [if_neg (not_not.mpr hrest),if_pos hzero,hdiv,Nat.add_zero]
  · have hne : length.toNat%chunkSize.toNat≠0 := fun hzero =>
      hrest (UInt64.toNat_inj.mp (hmod.trans hzero))
    have hlt := length.toNat_lt
    have hdivmod := Nat.div_add_mod length.toNat chunkSize.toNat
    have hle : length.toNat/chunkSize.toNat≤ chunkSize.toNat*(length.toNat/chunkSize.toNat) :=
      Nat.le_mul_of_pos_left _ hsize
    rw [if_pos hrest,if_neg hne,UInt64.toNat_add,hdiv]
    exact Nat.mod_eq_of_lt (by have hone : (1 : UInt64).toNat=1 := rfl; omega)

/-- The bytes of the chunk at an offset. -/
theorem toNat_chunkLength (chunkSize : UInt32) (hoffset : offset.toNat≤length.toNat) :
    (chunkLength chunkSize offset length).toNat=
      min chunkSize.toNat (length.toNat-offset.toNat) := by
  have hrest : (length-offset).toNat=length.toNat-offset.toNat :=
    UInt64.toNat_sub_of_le _ _ (UInt64.le_iff_toNat_le.mpr hoffset)
  have hsize := chunkSize.toNat_lt
  unfold chunkLength
  by_cases hshort : length-offset<chunkSize.toUInt64
  · have hlt := UInt64.lt_iff_toNat_lt.mp hshort
    rw [UInt32.toNat_toUInt64,hrest] at hlt
    rw [if_pos hshort,UInt64.toNat_toUInt32,hrest,Nat.mod_eq_of_lt (by omega)]
    omega
  · have hle := UInt64.le_iff_toNat_le.mp (UInt64.not_lt.mp hshort)
    rw [UInt32.toNat_toUInt64,hrest] at hle
    rw [if_neg hshort]
    omega

/-- The chunk with a number ends where the next one begins, or at the end. -/
theorem toNat_chunkEnd (hoffset : offset.toNat=k*chunkSize.toNat)
    (hmore : offset.toNat<length.toNat) :
    (offset+(chunkLength chunkSize offset length).toUInt64).toNat=
      min ((k+1)*chunkSize.toNat) length.toNat := by
  have hchunk := toNat_chunkLength chunkSize (Nat.le_of_lt hmore)
  have hlt := length.toNat_lt
  rw [UInt64.toNat_add,UInt32.toNat_toUInt64,hchunk,Nat.mod_eq_of_lt (by omega),
    Nat.succ_mul,hoffset]
  omega

/-- The bytes of a chunk of the beginning of a file. -/
theorem nextBytes_chunk (f : ℕ → UInt8 → UInt8) (content : List UInt8)
    (hoffset : offset.toNat=k*chunkSize.toNat) (hmore : offset.toNat<length.toNat) :
    nextBytes f content offset.toNat (chunkLength chunkSize offset length).toNat=
      chunkSlice chunkSize.toNat ((content.mapIdx f).take length.toNat) k := by
  unfold nextBytes chunkSlice
  rw [toNat_chunkLength _ (Nat.le_of_lt hmore),List.drop_take,List.take_take,hoffset]

/-- There is a chunk with a number if it has a first byte. -/
theorem lt_chunkCount_iff (hsize : 0<chunkSize.toNat) (length k : ℕ) :
    k<chunkCount chunkSize.toNat length ↔ k*chunkSize.toNat<length := by
  have hle := chunkCount_le_iff hsize length k
  omega

end Chunks

/-- A manifest that was started has so many chunks of some bytes. -/
structure Counted (start : ClCrc32Chunks) (data : List UInt8) (k : ℕ)
    (chunks : ClCrc32Chunks) : Prop where
  /-- The array is the same. -/
  capacity_eq : chunks.capacity=start.capacity
  /-- So is the size of the chunks. -/
  chunkSize_eq : chunks.chunkSize=start.chunkSize
  /-- The chunks are counted. -/
  count_eq : chunks.count.toNat=k
  /-- So are their bytes. -/
  totalBytes_eq : chunks.totalBytes.toNat=min (k*start.chunkSize.toNat) data.length
  /-- Their checks are in the array, the memory behind them is as it was. -/
  values_eq : ∀ i,chunks.values i=
    if i<k then clCrc32Calculate (chunkSlice start.chunkSize.toNat data i) else start.values i

section Files

variable {start chunks : ClCrc32Chunks} {data : List UInt8} {k : ℕ}

/-- All chunks of some bytes. -/
theorem Counted.list_eq
    (h : Counted start data (chunkCount start.chunkSize.toNat data.length) chunks) :
    chunks.list=chunkCrcs start.chunkSize.toNat data := by
  unfold ClCrc32Chunks.list chunkCrcs
  rw [h.count_eq]
  apply List.map_congr_left
  intro i hi
  rw [h.values_eq i,if_pos (List.mem_range.mp hi)]

/-- One chunk more. -/
theorem Counted.addChunk {length : UInt32} (h : Counted start data k chunks)
    (hplace : k<start.capacity.toNat) (hdata : data.length<2^64)
    (hlength : min (k*start.chunkSize.toNat) data.length+length.toNat=
      min ((k+1)*start.chunkSize.toNat) data.length) :
    Counted start data (k+1) (addChunk chunks
      (clCrc32Calculate (chunkSlice start.chunkSize.toNat data k)) length) := by
  have hcount := h.count_eq
  have hcapacity := start.capacity.toNat_lt
  have hadd : (chunks.count+1).toNat=k+1 := by
    rw [UInt32.toNat_add,hcount]
    exact Nat.mod_eq_of_lt (by have hone : (1 : UInt32).toNat=1 := rfl; omega)
  refine ⟨h.capacity_eq,h.chunkSize_eq,hadd,?_,fun i => ?_⟩
  · change (chunks.totalBytes+length.toUInt64).toNat=_
    rw [UInt64.toNat_add,UInt32.toNat_toUInt64,h.totalBytes_eq,hlength]
    exact Nat.mod_eq_of_lt (by omega)
  · change Function.update chunks.values chunks.count.toNat _ i=_
    rw [hcount]
    by_cases hi : i=k
    · rw [hi,Function.update_self,if_pos (by omega)]
    · rw [Function.update_of_ne hi,h.values_eq i]
      by_cases hlt : i<k
      · rw [if_pos hlt,if_pos (by omega)]
      · rw [if_neg hlt,if_neg (by omega)]

variable {backends : List (Backend W)} {others : Others W} {view : FileView W}
  {s : Files W} {file : ℕ} {key : BackendOps W×UInt16} {path : CString}
  {content : List UInt8} {progress : Progress W} {bufferSize : UInt32} {length : UInt64}

/-- Progress leaves the handles alone. -/
theorem callProgress_spec (hprogress : Progresses view progress) (done size : UInt64)
    (s : Files W) :
    ∃ ret w,callProgress progress done size s=(ret,{s with world := w}) ∧ 0≤ ret ∧
      view.Same s.world w := by
  unfold callProgress
  cases progress with
  | none => exact ⟨0,s.world,rfl,le_refl _,⟨⟨fun _ => rfl⟩,fun _ => rfl,rfl⟩⟩
  | some g =>
    obtain ⟨hret,hsame⟩ := hprogress g rfl done size s.world
    exact ⟨_,_,rfl,hret,hsame⟩

/-- The loop over the chunks of a file. -/
theorem calculateRounds_spec (hprogress : Progresses view progress)
    (hbuffer : 0<bufferSize.toNat) (hlength : length.toNat≤ content.length)
    (hsize : content.length<2^64) (hdata : data=content.take length.toNat)
    (hfits : chunkCount start.chunkSize.toNat data.length≤ start.capacity.toNat)
    (rounds k : ℕ) (offset : UInt64) (chunks : ClCrc32Chunks) (s : Files W)
    (hcounted : Counted start data k chunks)
    (hk : k≤ chunkCount start.chunkSize.toNat data.length)
    (hoffset : offset.toNat=min (k*start.chunkSize.toNat) data.length)
    (hheld : Held backends others view s file key path content offset.toNat)
    (hrounds : length.toNat-offset.toNat≤ rounds) :
    ∃ t last,calculateRounds file length bufferSize progress rounds offset chunks s=
        (some (0,last),t) ∧
      Counted start data (chunkCount start.chunkSize.toNat data.length) last ∧
      Held backends others view t file key path content data.length := by
  have hpos := start.chunkSize_pos
  have hdatalength : data.length=length.toNat := by
    rw [hdata,List.length_take]
    omega
  have hend : ∀ {k : ℕ} {offset : UInt64} {chunks : ClCrc32Chunks} {s : Files W},
      offset.toNat=min (k*start.chunkSize.toNat) data.length →
      k≤ chunkCount start.chunkSize.toNat data.length → ¬offset.toNat<length.toNat →
      Counted start data k chunks →
      Held backends others view s file key path content offset.toNat →
      ∃ t last,(pure (0,chunks) : Prog (Files W) (ℤ×ClCrc32Chunks)) s=(some (0,last),t) ∧
        Counted start data (chunkCount start.chunkSize.toNat data.length) last ∧
        Held backends others view t file key path content data.length := by
    intro k offset chunks s hoffset hk hover hcounted hheld
    have hcount := (chunkCount_le_iff hpos data.length k).mpr (by omega)
    have heq : k=chunkCount start.chunkSize.toNat data.length := by omega
    have hplace : offset.toNat=data.length := by omega
    rw [hplace] at hheld
    rw [heq] at hcounted
    exact ⟨s,chunks,rfl,hcounted,hheld⟩
  induction rounds generalizing k offset chunks s with
  | zero => exact hend hoffset hk (by omega) hcounted hheld
  | succ rounds ih =>
    unfold calculateRounds
    by_cases hmore : offset<length
    · have hlt := UInt64.lt_iff_toNat_lt.mp hmore
      have hplace : offset.toNat=k*start.chunkSize.toNat := by omega
      have hnext := (lt_chunkCount_iff hpos data.length k).mpr (by omega)
      have hchunk := toNat_chunkLength start.chunkSize (Nat.le_of_lt hlt)
      have hplain : Bytewise view none fun _ b => b := fun _ _ => rfl
      have hwithin : offset.toNat+(chunkLength start.chunkSize offset length).toNat≤
          content.length := by omega
      obtain ⟨t,hread,hheldt,hleaves⟩ := readChunkCrc_spec hplain hbuffer hwithin hsize hheld
      have hbytes := nextBytes_chunk (fun _ b => b) content hplace hlt
      have hsame : content.mapIdx (fun _ b => b)=content :=
        List.mapIdx_eq_iff.mpr fun i => Option.map_id'.symm
      rw [hbytes,hsame,← hdata] at hread
      have hoffsetNext := toNat_chunkEnd hplace hlt
      obtain ⟨ret,w,hprog,hret,hsameWorld⟩ := callProgress_spec hprogress
        (offset+(chunkLength start.chunkSize offset length).toUInt64) length t
      have hcovered : min (k*start.chunkSize.toNat) data.length+
          (chunkLength start.chunkSize offset length).toNat=
          min ((k+1)*start.chunkSize.toNat) data.length := by
        rw [hdatalength,← hoffsetNext,UInt64.toNat_add,UInt32.toNat_toUInt64,hplace,
          Nat.mod_eq_of_lt (by omega)]
        omega
      have hadded := hcounted.addChunk (by omega) (by omega) hcovered
      have hheldNext := hheldt.of_same hsameWorld
      have hwhere : offset.toNat+(chunkLength start.chunkSize offset length).toNat=
          (offset+(chunkLength start.chunkSize offset length).toUInt64).toNat := by
        rw [UInt64.toNat_add,UInt32.toNat_toUInt64]
        exact (Nat.mod_eq_of_lt (by omega)).symm
      rw [hwhere] at hheldNext
      obtain ⟨u,last,hrun,hlast,hheldu⟩ := ih (k+1)
        (offset+(chunkLength start.chunkSize offset length).toUInt64) _ {t with world := w}
        hadded hnext (by rw [hoffsetNext,hdatalength]) hheldNext (by omega)
      rw [if_pos hmore,hcounted.chunkSize_eq]
      dsimp only
      rw [bind_run hread]
      dsimp only
      rw [bind_run (access_run hprog),if_neg (by omega),hrun]
      exact ⟨u,last,rfl,hlast,hheldu⟩
    · rw [if_neg hmore]
      exact hend hoffset hk (fun h => hmore (UInt64.lt_iff_toNat_lt.mpr h)) hcounted hheld

/-- The manifest of a file. -/
theorem clFileCalculateCrc32Chunks_spec (hprogress : Progresses view progress)
    (hfile : Readable backends others view path content s.world)
    (hroom : 0<view.room s.world) (hfree : FreeSlots s 1) (hbuffer : 0<bufferSize.toNat)
    (hlength : length.toNat≤ content.length) (hdata : data=content.take length.toNat)
    (hne : data≠[]) (hstart : Counted start data 0 start)
    (hcapacity : 0<start.capacity.toNat) (hopen : start.chunkBytes=0) :
    if chunkCount start.chunkSize.toNat data.length≤ start.capacity.toNat then
      ∃ t last,clFileCalculateCrc32Chunks backends others path length start bufferSize
          progress s=(some (0,last),t) ∧
        Counted start data (chunkCount start.chunkSize.toNat data.length) last
    else clFileCalculateCrc32Chunks backends others path length start bufferSize progress s=
      (some (-2,start),s) := by
  have hdatalength : data.length=length.toNat := by
    rw [hdata,List.length_take]
    omega
  have hpos := List.length_pos_of_ne_nil hne
  have hnonzero : ∀ {x : UInt32},0<x.toNat → x≠0 := by
    rintro x hx rfl
    exact absurd hx (by decide)
  have hchecked : ¬(start.capacity=0 ∨ start.count≠0 ∨ start.chunkBytes≠0 ∨
      start.totalBytes≠0 ∨ bufferSize=0 ∨ length=0) := by
    have hcount : start.count=0 := UInt32.toNat_inj.mp hstart.count_eq
    have htotal : start.totalBytes=0 := by
      apply UInt64.toNat_inj.mp
      rw [hstart.totalBytes_eq,Nat.zero_mul,Nat.zero_min]
      rfl
    rintro (h | h | h | h | h | h)
    · exact hnonzero hcapacity h
    · exact h hcount
    · exact h hopen
    · exact h htotal
    · exact hnonzero hbuffer h
    · have hzero : length.toNat=0 := congrArg UInt64.toNat h
      omega
  have hrequired : start.capacity.toUInt64< requiredChunks length start.chunkSize ↔
      ¬chunkCount start.chunkSize.toNat data.length≤ start.capacity.toNat := by
    rw [UInt64.lt_iff_toNat_lt,UInt32.toNat_toUInt64,
      toNat_requiredChunks start.chunkSize_pos,hdatalength]
    omega
  unfold clFileCalculateCrc32Chunks
  rw [if_neg hchecked]
  by_cases hfits : chunkCount start.chunkSize.toNat data.length≤ start.capacity.toNat
  · rw [if_pos hfits,if_neg (fun h => hrequired.mp h hfits)]
    obtain ⟨hret,hsize,hslots,hsame⟩ := clFileStat_readable hfile
    obtain ⟨stat,u,hstat⟩ : ∃ stat u,clFileStat backends others path s=(stat,u) :=
      ⟨_,_,rfl⟩
    rw [hstat] at hret hsize hslots hsame
    dsimp only at hret hsize hslots hsame
    have hlarge : ¬stat.2.size<length := by
      intro hlt
      have hlt := UInt64.lt_iff_toNat_lt.mp hlt
      omega
    have hbound : content.length<2^64 := by
      rw [← hsize]
      exact stat.2.size.toNat_lt
    obtain ⟨file,key,v,hopened,hheld,-,-,-,-,-⟩ := clFileOpen_readable (s:=u) (n:=0)
      (hfile.of_sameFiles hsame.toSameFiles) (by rw [hsame.room]; exact hroom) (by
        obtain ⟨free,hnodup,hcount,hempty⟩ := hfree
        exact ⟨free,hnodup,hcount,fun i hi => (congrFun hslots i).trans (hempty i hi)⟩)
    have hzero : (0 : UInt64).toNat=0 := rfl
    obtain ⟨t,last,hrun,hlast,hheldt⟩ := calculateRounds_spec hprogress hbuffer hlength hbound
      hdata hfits length.toNat 0 0 start v hstart (Nat.zero_le _)
      (by rw [Nat.zero_mul,Nat.zero_min]; rfl) hheld (by omega)
    obtain ⟨x,hclose,-⟩ := clFileClose_held hheldt
    have hpositive : ¬(0 : ℤ)<0 := by decide
    rw [bind_run (access_run hstat),if_neg (by omega),if_neg hlarge,
      bind_run (access_run hopened)]
    dsimp only
    rw [bind_run hrun,bind_run (access_run hclose)]
    exact ⟨x,last,by rw [if_neg hpositive]; rfl,hlast⟩
  · rw [if_neg hfits,if_pos (hrequired.mpr hfits)]
    rfl

/-- A manifest that was just started counts nothing. -/
theorem counted_init (hstart : Settled start [] start) (hcount : start.count.toNat=0) :
    Counted start data 0 start := by
  have htotal := hstart.totalBytes_eq
  refine ⟨rfl,rfl,hcount,?_,fun i => (if_neg (Nat.not_lt_zero i)).symm⟩
  rw [htotal,Nat.zero_mul,Nat.zero_min]
  rfl

/-- Nothing is taken yet from a manifest that was just started. -/
theorem init_counters {chunkSize capacity : UInt32} {values : ℕ → UInt32}
    (h : clCrc32ChunksInit chunkSize values capacity=some chunks) :
    chunks.count.toNat=0 ∧ chunks.chunkBytes=0 ∧ 0<chunks.capacity.toNat := by
  unfold clCrc32ChunksInit at h
  split at h
  next hpos =>
    obtain rfl := Option.some.inj h
    exact ⟨rfl,rfl,hpos.2⟩
  next => cases h

/-- After finishing, the memory behind the array is as it was. -/
theorem finish_values_behind (h : Settled start data chunks) {i : ℕ}
    (hi : start.capacity.toNat≤ i) : (clCrc32ChunksFinish chunks).2.values i=start.values i := by
  have hcount := h.count_le
  rw [h.capacity_eq] at hcount
  have hvalues := h.values_eq i
  rw [if_neg (by omega)] at hvalues
  unfold clCrc32ChunksFinish chunksFinishCurrent
  split
  · split
    · exact hvalues
    next hplace =>
      rw [h.capacity_eq] at hplace
      dsimp only
      rw [Function.update_of_ne (by omega)]
      exact hvalues
  · exact hvalues

end Files

/-- The same bytes give the same manifest, however they come. The first part is about an
update after any others: the total is that of the chunks, nothing is written behind the
array, and the update fails from the one on that fills a chunk without a place. The other
two are about a byte string that comes in any pieces, and about the beginning of a
file: with places for all chunks both give the check of each, else both fail. -/
theorem chunk_crcs_agree (chunkSize capacity : UInt32) (values : ℕ → UInt32)
    (start : ClCrc32Chunks) (hinit : clCrc32ChunksInit chunkSize values capacity=some start) :
    (∀ (parts : List (List UInt8)) (part : List UInt8),
      let reply := clCrc32ChunksUpdate (updates start parts).2 part
      reply.2.totalBytes.toNat=
        reply.2.count.toNat*chunkSize.toNat+reply.2.chunkBytes.toNat ∧
      (∀ i,capacity.toNat≤ i → reply.2.values i=values i) ∧
      reply.1=if part≠[] ∧ (capacity.toNat+1)*chunkSize.toNat≤(parts.flatten++part).length
        then -2 else 0) ∧
    ∀ data : List UInt8,data≠[] →
      (∀ parts : List (List UInt8),parts.flatten=data →
        let finished := clCrc32ChunksFinish (updates start parts).2
        (∀ i,capacity.toNat≤ i → finished.2.values i=values i) ∧
        if chunkCount chunkSize.toNat data.length≤ capacity.toNat then
          (∀ ret∈(updates start parts).1,ret=0) ∧ finished.1=0 ∧
            finished.2.list=chunkCrcs chunkSize.toNat data
        else finished.1=-2) ∧
      ∀ (W : Type) (backends : List (Backend W)) (others : Others W) (view : FileView W)
        (s : Files W) (path : CString) (content : List UInt8) (length : UInt64)
        (bufferSize : UInt32) (progress : Progress W),
        Readable backends others view path content s.world → 0<view.room s.world →
        FreeSlots s 1 → Progresses view progress → 0<bufferSize.toNat →
        length.toNat≤ content.length → content.take length.toNat=data →
        if chunkCount chunkSize.toNat data.length≤ capacity.toNat then
          ∃ t last,clFileCalculateCrc32Chunks backends others path length start bufferSize
              progress s=(some (0,last),t) ∧
            last.list=chunkCrcs chunkSize.toNat data ∧
            last.totalBytes.toNat=data.length ∧
            ∀ i,capacity.toNat≤ i → last.values i=values i
        else clFileCalculateCrc32Chunks backends others path length start bufferSize progress
          s=(some (-2,start),s) := by
  obtain ⟨hsettled,rfl,rfl,rfl⟩ := settled_init hinit
  obtain ⟨hcount,hopen,hcapacity⟩ := init_counters hinit
  have hafter : ∀ parts : List (List UInt8),
      Settled start (parts.flatten.take start.limit) (updates start parts).2 := by
    intro parts
    have h := updates_settled hsettled parts
    rw [List.nil_append] at h
    exact h
  refine ⟨fun parts part => ?_,fun data hne => ⟨fun parts hparts => ?_,?_⟩⟩
  · obtain ⟨hnext,hret⟩ := clCrc32ChunksUpdate_spec part (hafter parts)
    have hlimit := (hafter parts).toHolds.limit_eq
    have hfits := hnext.count_le
    have hlength := hnext.length_eq
    rw [hnext.capacity_eq] at hfits
    rw [hnext.chunkSize_eq] at hlength
    refine ⟨hnext.totalBytes_eq.trans hlength.symm,fun i hi => ?_,?_⟩
    · rw [hnext.values_eq i,if_neg (by omega)]
    · rw [hret,hlimit]
      have hiff : start.limit≤(parts.flatten.take start.limit++part).length ↔
          (start.capacity.toNat+1)*start.chunkSize.toNat≤(parts.flatten++part).length := by
        rw [List.length_append,List.length_append,List.length_take]
        unfold ClCrc32Chunks.limit
        omega
      simp only [hiff]
  · have hheld := hafter parts
    rw [hparts] at hheld
    refine ⟨fun i hi => finish_values_behind hheld hi,?_⟩
    by_cases hfits : chunkCount start.chunkSize.toNat data.length≤ start.capacity.toNat
    · have hbound := (chunkCount_le_iff start.chunkSize_pos _ _).mp hfits
      have hlt : data.length<start.limit := by
        have hpos := start.chunkSize_pos
        unfold ClCrc32Chunks.limit
        rw [Nat.succ_mul]
        omega
      rw [List.take_of_length_le (Nat.le_of_lt hlt)] at hheld
      rw [if_pos hfits]
      exact ⟨updates_succeed hsettled parts (by rw [List.nil_append,hparts]; exact hlt),
        hheld.finish hfits⟩
    · rw [if_neg hfits]
      apply hheld.finish_fails
      have hbound : ¬data.length≤ start.capacity.toNat*start.chunkSize.toNat :=
        fun h => hfits ((chunkCount_le_iff start.chunkSize_pos _ _).mpr h)
      have hpos := start.chunkSize_pos
      have hmore : ¬(data.take start.limit).length≤
          start.capacity.toNat*start.chunkSize.toNat := by
        rw [List.length_take]
        unfold ClCrc32Chunks.limit
        rw [Nat.succ_mul]
        omega
      have hmany := (chunkCount_le_iff hpos (data.take start.limit).length
        start.capacity.toNat).not.mpr hmore
      omega
  · intro W backends others view s path content length bufferSize progress hfile hroom hfree
      hprogress hbuffer hlength hdata
    have hspec := clFileCalculateCrc32Chunks_spec hprogress hfile hroom hfree hbuffer hlength
      hdata.symm hne (counted_init hsettled hcount) hcapacity hopen
    by_cases hfits : chunkCount start.chunkSize.toNat data.length≤ start.capacity.toNat
    · rw [if_pos hfits] at hspec ⊢
      obtain ⟨t,last,hrun,hlast⟩ := hspec
      have hbytes := (chunkCount_le_iff start.chunkSize_pos _ _).mp
        (le_refl (chunkCount start.chunkSize.toNat data.length))
      refine ⟨t,last,hrun,hlast.list_eq,?_,fun i hi => ?_⟩
      · rw [hlast.totalBytes_eq]
        exact Nat.min_eq_right hbytes
      · rw [hlast.values_eq i,if_neg (by omega)]
    · rw [if_neg hfits] at hspec ⊢
      exact hspec

/-- A manifest of two places for chunks of two bytes. -/
def smallChunks : ClCrc32Chunks := ⟨fun _ => 0,2,0,2,0,0,clCrc32Init,by decide⟩

/-- Three bytes in two pieces, and in a file. -/
theorem chunk_crcs_agree_small :
    (clCrc32ChunksFinish (updates smallChunks [[1],[2,3]]).2).2.list=chunkCrcs 2 [1,2,3] ∧
      ∃ t last,clFileCalculateCrc32Chunks [memoryBackend] (memoryOthers true) pathA 3
          smallChunks 4 none (fresh (twoFiles [1,2,3] []))=(some (0,last),t) ∧
        last.list=chunkCrcs 2 [1,2,3] := by
  have hfits : chunkCount (2 : UInt32).toNat [(1 : UInt8),2,3].length≤(2 : UInt32).toNat := by
    decide
  obtain ⟨hparts,hfile⟩ := (chunk_crcs_agree 2 2 (fun _ => 0) smallChunks rfl).2 [1,2,3]
    (by decide)
  have hupdates := (hparts [[1],[2,3]] rfl).2
  have hcalculated := hfile Memory [memoryBackend] (memoryOthers true) memoryView
    (fresh (twoFiles [1,2,3] [])) pathA [1,2,3] 3 4 none
    (readable_memory true (by rfl) (by decide) rfl) (by rw [room_eq]; decide)
    (freeSlots_fresh _ (by decide)) (fun g h => by cases h) (by decide) (by decide) rfl
  rw [if_pos hfits] at hupdates hcalculated
  obtain ⟨t,last,hrun,hlist,-⟩ := hcalculated
  exact ⟨hupdates.2.2,t,last,hrun,hlist⟩

end ChisLink.ChunkAgreement
