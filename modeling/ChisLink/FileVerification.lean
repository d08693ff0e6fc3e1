import ChisLink.ChunkAgreement

/-!
# Verification of files

A file is verified against another file or against a manifest, chunk by chunk. What is
reported depends on the bytes and the size of the chunks alone, not on the buffer or on
how the reads are cut: nothing is wrong exactly if the check of every chunk is the
expected one, otherwise the first chunk is told whose check is not.
-/

namespace ChisLink.FileVerification

open ChunkAgreement ChunkReading Crc32 Crc32Chunks DriverPrograms FileCrc32 FileOperations
open MemoryStore ReadableFiles StorageClient
open FileLayer hiding Leaves

variable {W : Type}

/-- The first chunk whose check is not the expected one. -/
def firstMismatch (expected actual : ℕ → UInt32) (count : ℕ) : Option ℕ :=
  (List.range count).find? fun i => expected i≠actual i

/-- The report after so many chunks that agree. -/
def agreed (size length : ℕ) (expected actual : ℕ → UInt32) : ℕ → FileCrc32Result
  | 0 => clearResult
  | k+1 => {clearResult with
      verifiedBytes := UInt64.ofNat (min ((k+1)*size) length)
      chunksVerified := UInt32.ofNat (k+1)
      sourceCrc32 := expected k
      targetCrc32 := actual k}

/-- The report if a chunk does not agree and those before it do. -/
def differing (size length : ℕ) (expected actual : ℕ → UInt32) (k : ℕ) : FileCrc32Result :=
  {agreed size length expected actual k with
    mismatchOffset := UInt64.ofNat (k*size)
    sourceCrc32 := expected k
    targetCrc32 := actual k}

/-- What the verification of so many bytes reports. -/
def verdict (size length : ℕ) (expected actual : ℕ → UInt32) : ℤ×FileCrc32Result :=
  match firstMismatch expected actual (chunkCount size length) with
  | none => (0,agreed size length expected actual (chunkCount size length))
  | some k => (clFileCrc32Mismatch,differing size length expected actual k)

/-- What it reports if a file is too short. -/
def tooShort (size : ℕ) : ℤ×FileCrc32Result :=
  (clFileCrc32SizeMismatch,{clearResult with mismatchOffset := UInt64.ofNat size})

/-- The checks of the chunks of some bytes. -/
def chunkCrc (size : ℕ) (data : List UInt8) (i : ℕ) : UInt32 :=
  clCrc32Calculate (chunkSlice size data i)

/-- A report is exact: it is zero exactly if the sizes suffice and the check of every chunk
is the expected one; else, if the sizes suffice, it tells the first chunk whose check is not,
and the bytes before it. -/
structure Exact (size length : ℕ) (enough : Prop) (expected actual : ℕ → UInt32)
    (reply : ℤ×FileCrc32Result) : Prop where
  /-- Success. -/
  zero_iff : reply.1=0 ↔ enough ∧ ∀ i<chunkCount size length,expected i=actual i
  /-- The first mismatch. -/
  mismatch : enough → ∀ i<chunkCount size length,expected i≠actual i →
    (∀ j< i,expected j=actual j) → reply.1=clFileCrc32Mismatch ∧
      reply.2.mismatchOffset.toNat=i*size ∧ reply.2.verifiedBytes.toNat=i*size

section Verdict

variable {size length count k : ℕ} {expected actual : ℕ → UInt32}

theorem firstMismatch_eq_none (h : ∀ i<count,expected i=actual i) :
    firstMismatch expected actual count=none := by
  apply List.find?_eq_none.mpr
  intro i hi
  rw [decide_eq_true_iff]
  exact not_not.mpr (h i (List.mem_range.mp hi))

theorem firstMismatch_eq_some (hk : k<count) (hne : expected k≠actual k)
    (h : ∀ i<k,expected i=actual i) : firstMismatch expected actual count=some k := by
  apply List.find?_range_eq_some.mpr
  refine ⟨decide_eq_true hne,List.mem_range.mpr hk,fun i hi => ?_⟩
  rw [Bool.not_eq_true',decide_eq_false_iff_not]
  exact not_not.mpr (h i hi)

/-- Either all chunks agree or there is a first that does not. -/
theorem agree_or_first (expected actual : ℕ → UInt32) (count : ℕ) :
    (∀ i<count,expected i=actual i) ∨
      ∃ k<count,expected k≠actual k ∧ ∀ i<k,expected i=actual i := by
  induction count with
  | zero => exact Or.inl fun i hi => absurd hi (Nat.not_lt_zero i)
  | succ count ih =>
    rcases ih with hall | ⟨k,hk,hne,hbefore⟩
    · by_cases hlast : expected count=actual count
      · refine Or.inl fun i hi => ?_
        by_cases heq : i=count
        · rw [heq]
          exact hlast
        · exact hall i (by omega)
      · exact Or.inr ⟨count,by omega,hlast,hall⟩
    · exact Or.inr ⟨k,by omega,hne,hbefore⟩

theorem verdict_of_agree (h : ∀ i<chunkCount size length,expected i=actual i) :
    verdict size length expected actual=
      (0,agreed size length expected actual (chunkCount size length)) := by
  unfold verdict
  rw [firstMismatch_eq_none h]

theorem verdict_of_mismatch (hk : k<chunkCount size length) (hne : expected k≠actual k)
    (h : ∀ i<k,expected i=actual i) :
    verdict size length expected actual=
      (clFileCrc32Mismatch,differing size length expected actual k) := by
  unfold verdict
  rw [firstMismatch_eq_some hk hne h]

/-- Closing the files does not change a verdict. -/
theorem verdict_closed (size length : ℕ) (expected actual : ℕ → UInt32) :
    (firstError (verdict size length expected actual).1 0 0,
      (verdict size length expected actual).2)=verdict size length expected actual := by
  unfold verdict
  split <;> rfl

/-- The bytes of the chunks that agree. -/
theorem toNat_verifiedBytes (hlength : length<2^64) (hk : k*size≤length) :
    (agreed size length expected actual k).verifiedBytes.toNat=k*size := by
  cases k with
  | zero =>
    rw [Nat.zero_mul]
    rfl
  | succ k =>
    change (UInt64.ofNat (min ((k+1)*size) length)).toNat=_
    rw [UInt64.toNat_ofNat_of_lt' (by unfold UInt64.size; omega)]
    omega

/-- The verdict is exact. -/
theorem verdict_exact (hsize : 0<size) (hlength : length<2^64) {enough : Prop}
    (h : enough) : Exact size length enough expected actual
      (verdict size length expected actual) := by
  have hneg : clFileCrc32Mismatch≠0 := by decide
  constructor
  · rcases agree_or_first expected actual (chunkCount size length) with
      hall | ⟨k,hk,hne,hbefore⟩
    · rw [verdict_of_agree hall]
      exact ⟨fun _ => ⟨h,hall⟩,fun _ => rfl⟩
    · rw [verdict_of_mismatch hk hne hbefore]
      exact ⟨fun hzero => absurd hzero hneg,fun hall => absurd (hall.2 k hk) hne⟩
  · intro _ i hi hne hbefore
    have hle := chunkCount_le_iff hsize length i
    have hbytes : i*size<length := by omega
    rw [verdict_of_mismatch hi hne hbefore]
    refine ⟨rfl,?_,?_⟩
    · change (UInt64.ofNat (i*size)).toNat=i*size
      exact UInt64.toNat_ofNat_of_lt' (by unfold UInt64.size; omega)
    · exact toNat_verifiedBytes hlength (Nat.le_of_lt hbytes)

/-- A short file is not verified. -/
theorem refused_exact {enough : Prop} (h : ¬enough) {reply : ℤ×FileCrc32Result}
    (hret : reply.1≠0) : Exact size length enough expected actual reply :=
  ⟨⟨fun hzero => absurd hzero hret,fun hall => absurd hall.1 h⟩,fun hs => absurd hs h⟩

/-- One more chunk that agrees. -/
theorem agreed_advance (size length : ℕ) (expected actual : ℕ → UInt32) (k : ℕ)
    {offset : UInt64} (hoffset : offset.toNat=min ((k+1)*size) length) :
    ({agreed size length expected actual k with
      sourceCrc32 := expected k,targetCrc32 := actual k} : FileCrc32Result).advance offset=
      agreed size length expected actual (k+1) := by
  have hbytes : offset=UInt64.ofNat (min ((k+1)*size) length) := by
    rw [← hoffset,UInt64.ofNat_toNat]
  have hchunks : (agreed size length expected actual k).chunksVerified=UInt32.ofNat k := by
    cases k <;> rfl
  have hmismatch : (agreed size length expected actual k).mismatchOffset=
      clearResult.mismatchOffset := by
    cases k <;> rfl
  unfold FileCrc32Result.advance
  dsimp only
  rw [hchunks,hmismatch,hbytes]
  congr 1
  exact (UInt32.ofNat_add k 1).symm

end Verdict

section Loops

variable {backends : List (Backend W)} {others : Others W} {view : FileView W}
  {s : Files W} {file source target : ℕ} {key sourceKey targetKey : BackendOps W×UInt16}
  {path sourcePath targetPath : CString} {content sourceContent targetContent : List UInt8}
  {transform : Transform W} {f : ℕ → UInt8 → UInt8} {progress : Progress W}
  {bufferSize : UInt32} {length : UInt64} {options : FileCrc32Options W} {k : ℕ}

/-- Reading the chunk with a number. -/
theorem readChunk_numbered (htransform : Bytewise view transform f) {chunkSize : UInt32}
    {offset : UInt64} (hbuffer : 0<bufferSize.toNat) (hlength : length.toNat≤ content.length)
    (hsize : content.length<2^64) (hoffset : offset.toNat=k*chunkSize.toNat)
    (hmore : offset.toNat<length.toNat)
    (hheld : Held backends others view s file key path content offset.toNat) :
    ∃ t,readChunkCrc file offset (chunkLength chunkSize offset length) bufferSize transform s=
        (some (.ok (chunkCrc chunkSize.toNat ((content.mapIdx f).take length.toNat) k)),t) ∧
      Held backends others view t file key path content
        (offset+(chunkLength chunkSize offset length).toUInt64).toNat ∧
      Leaves backends others view s t key := by
  have hchunk := toNat_chunkLength chunkSize (Nat.le_of_lt hmore)
  have hlt := length.toNat_lt
  have hwithin : offset.toNat+(chunkLength chunkSize offset length).toNat≤ content.length := by
    omega
  obtain ⟨t,hread,hheldt,hleaves⟩ := readChunkCrc_spec htransform hbuffer hwithin hsize hheld
  have hwhere : (offset+(chunkLength chunkSize offset length).toUInt64).toNat=
      offset.toNat+(chunkLength chunkSize offset length).toNat := by
    rw [UInt64.toNat_add,UInt32.toNat_toUInt64]
    exact Nat.mod_eq_of_lt (by omega)
  rw [nextBytes_chunk f content hoffset hmore] at hread
  rw [hwhere]
  exact ⟨t,hread,hheldt,hleaves⟩

theorem mapIdx_id (content : List UInt8) : content.mapIdx (fun _ b => b)=content :=
  List.mapIdx_eq_iff.mpr fun _ => Option.map_id'.symm

/-- Without a transform. -/
theorem readChunk_plain {chunkSize : UInt32} {offset : UInt64} (hbuffer : 0<bufferSize.toNat)
    (hlength : length.toNat≤ content.length) (hsize : content.length<2^64)
    (hoffset : offset.toNat=k*chunkSize.toNat) (hmore : offset.toNat<length.toNat)
    (hheld : Held backends others view s file key path content offset.toNat) :
    ∃ t,readChunkCrc file offset (chunkLength chunkSize offset length) bufferSize none s=
        (some (.ok (chunkCrc chunkSize.toNat (content.take length.toNat) k)),t) ∧
      Held backends others view t file key path content
        (offset+(chunkLength chunkSize offset length).toUInt64).toNat ∧
      Leaves backends others view s t key := by
  have hplain : Bytewise view none fun _ b => b := fun _ _ => rfl
  have hnumbered := readChunk_numbered hplain hbuffer hlength hsize hoffset hmore hheld
  rw [mapIdx_id] at hnumbered
  exact hnumbered

/-- The two handles of a verification, both at an offset. -/
structure BothHeld (backends : List (Backend W)) (others : Others W) (view : FileView W)
    (s : Files W) (source target : ℕ) (sourceKey targetKey : BackendOps W×UInt16)
    (sourcePath targetPath : CString) (sourceContent targetContent : List UInt8)
    (position : ℕ) : Prop where
  /-- The source. -/
  source : Held backends others view s source sourceKey sourcePath sourceContent position
  /-- The target. -/
  target : Held backends others view s target targetKey targetPath targetContent position

/-- Comparing two files chunk by chunk. -/
theorem verifyRounds_spec (hkeys : sourceKey≠targetKey)
    (htransform : Bytewise view options.sourceTransform f)
    (hprogress : Progresses view options.progress) (hchunk : 0<options.chunkSize.toNat)
    (hbuffer : 0<options.bufferSize.toNat) (hsource : length.toNat≤ sourceContent.length)
    (htarget : length.toNat≤targetContent.length) (hsourceSize : sourceContent.length<2^64)
    (htargetSize : targetContent.length<2^64) {expected actual : ℕ → UInt32}
    (hexpected : expected=chunkCrc options.chunkSize.toNat
      ((sourceContent.mapIdx f).take length.toNat))
    (hactual : actual=chunkCrc options.chunkSize.toNat (targetContent.take length.toNat))
    (rounds k : ℕ) (offset : UInt64) (s : Files W)
    (hagree : ∀ i<k,expected i=actual i)
    (hk : k≤ chunkCount options.chunkSize.toNat length.toNat)
    (hoffset : offset.toNat=min (k*options.chunkSize.toNat) length.toNat)
    (hheld : BothHeld backends others view s source target sourceKey targetKey sourcePath
      targetPath sourceContent targetContent offset.toNat)
    (hrounds : length.toNat-offset.toNat≤ rounds) :
    ∃ t position,verifyRounds source target length options rounds offset
        (agreed options.chunkSize.toNat length.toNat expected actual k) s=
        (some (verdict options.chunkSize.toNat length.toNat expected actual),t) ∧
      BothHeld backends others view t source target sourceKey targetKey sourcePath
        targetPath sourceContent targetContent position := by
  have hend : ∀ {k : ℕ} {offset : UInt64} {s : Files W},(∀ i<k,expected i=actual i) →
      k≤ chunkCount options.chunkSize.toNat length.toNat →
      offset.toNat=min (k*options.chunkSize.toNat) length.toNat →
      ¬offset.toNat<length.toNat →
      BothHeld backends others view s source target sourceKey targetKey sourcePath
        targetPath sourceContent targetContent offset.toNat →
      ∃ t position,(pure (0,agreed options.chunkSize.toNat length.toNat expected actual k) :
          Prog (Files W) (ℤ×FileCrc32Result)) s=
          (some (verdict options.chunkSize.toNat length.toNat expected actual),t) ∧
        BothHeld backends others view t source target sourceKey targetKey sourcePath
          targetPath sourceContent targetContent position := by
    intro k offset s hagree hk hoffset hover hheld
    have hcount := (chunkCount_le_iff hchunk length.toNat k).mpr (by omega)
    have heq : k=chunkCount options.chunkSize.toNat length.toNat := by omega
    rw [heq] at hagree ⊢
    rw [verdict_of_agree hagree]
    exact ⟨s,_,rfl,hheld⟩
  induction rounds generalizing k offset s with
  | zero => exact hend hagree hk hoffset (by omega) hheld
  | succ rounds ih =>
    unfold verifyRounds
    by_cases hmore : offset<length
    · have hlt := UInt64.lt_iff_toNat_lt.mp hmore
      have hplace : offset.toNat=k*options.chunkSize.toNat := by omega
      have hnext := (lt_chunkCount_iff hchunk length.toNat k).mpr (by omega)
      have hoffsetNext := toNat_chunkEnd hplace hlt
      obtain ⟨t,hreadSource,hsourceT,hleavesT⟩ := readChunk_numbered htransform hbuffer hsource
        hsourceSize hplace hlt hheld.source
      obtain ⟨u,hreadTarget,htargetU,hleavesU⟩ := readChunk_plain hbuffer htarget htargetSize
        hplace hlt (hleavesT target targetKey targetPath targetContent _ hkeys.symm
          hheld.target)
      rw [← hexpected] at hreadSource
      rw [← hactual] at hreadTarget
      have hbothU : BothHeld backends others view u source target sourceKey targetKey
          sourcePath targetPath sourceContent targetContent
          (offset+(chunkLength options.chunkSize offset length).toUInt64).toNat :=
        ⟨hleavesU source sourceKey sourcePath sourceContent _ hkeys hsourceT,htargetU⟩
      rw [if_pos hmore]
      dsimp only
      rw [bind_run hreadSource]
      dsimp only
      rw [bind_run hreadTarget]
      dsimp only
      by_cases hequal : expected k=actual k
      · obtain ⟨ret,w,hprog,hret,hsame⟩ := callProgress_spec hprogress
          (offset+(chunkLength options.chunkSize offset length).toUInt64) length u
        have hagreeNext : ∀ i<k+1,expected i=actual i := by
          intro i hi
          by_cases heq : i=k
          · rw [heq]
            exact hequal
          · exact hagree i (by omega)
        have hbothV : BothHeld backends others view {u with world := w} source target
            sourceKey targetKey sourcePath targetPath sourceContent targetContent
            (offset+(chunkLength options.chunkSize offset length).toUInt64).toNat :=
          ⟨hbothU.source.of_same hsame,hbothU.target.of_same hsame⟩
        have hadvance := agreed_advance options.chunkSize.toNat length.toNat expected actual k
          hoffsetNext
        rw [if_neg (not_not.mpr hequal),bind_run (access_run hprog),if_neg (by omega)]
        obtain ⟨v,position,hrun,hbothLast⟩ := ih (k+1) _ _ hagreeNext hnext hoffsetNext hbothV
          (by
            have hsize : 0<options.chunkSize.toNat := hchunk
            rw [hoffsetNext,Nat.succ_mul]
            omega)
        rw [← hadvance] at hrun
        exact ⟨v,position,hrun,hbothLast⟩
      · rw [if_pos hequal,verdict_of_mismatch hnext hequal hagree]
        have hoffsetEq : offset=UInt64.ofNat (k*options.chunkSize.toNat) := by
          rw [← hplace,UInt64.ofNat_toNat]
        refine ⟨u,_,?_,hbothU⟩
        unfold differing
        rw [hoffsetEq]
        rfl
    · rw [if_neg hmore]
      exact hend hagree hk hoffset (fun h => hmore (UInt64.lt_iff_toNat_lt.mpr h)) hheld

/-- Comparing a chunk with its value. -/
theorem compareChunk_spec {chunkSize : UInt32} {offset : UInt64} (hbuffer : 0<bufferSize.toNat)
    (hlength : length.toNat≤ content.length) (hsize : content.length<2^64)
    (hoffset : offset.toNat=k*chunkSize.toNat) (hmore : offset.toNat<length.toNat)
    (hheld : Held backends others view s file key path content offset.toNat)
    (value old : UInt32) :
    ∃ t,compareChunk file offset (chunkLength chunkSize offset length) bufferSize value old s=
        (some (0,chunkCrc chunkSize.toNat (content.take length.toNat) k),t) ∧
      Held backends others view t file key path content
        (offset+(chunkLength chunkSize offset length).toUInt64).toNat := by
  obtain ⟨t,hread,hheldt,-⟩ := readChunk_plain hbuffer hlength hsize hoffset hmore hheld
  unfold compareChunk
  rw [bind_run hread]
  dsimp only
  by_cases hequal : value=chunkCrc chunkSize.toNat (content.take length.toNat) k
  · rw [if_pos hequal]
    exact ⟨t,rfl,hheldt⟩
  · have hinside : offset.toNat≤ content.length := by omega
    obtain ⟨ret,u,hseek,hret,hheldu,-⟩ := clFileSeek_held hheldt hinside
    obtain ⟨v,hagain,hheldv,-⟩ := readChunk_plain hbuffer hlength hsize hoffset hmore hheldu
    rw [if_neg hequal,bind_run (access_run hseek),if_neg (by omega),bind_run hagain]
    exact ⟨v,rfl,hheldv⟩

/-- Comparing a file with a manifest chunk by chunk. -/
theorem verifyChunksRounds_spec {chunks : ClCrc32Chunks}
    (hprogress : Progresses view progress) (hbuffer : 0<bufferSize.toNat)
    (htarget : chunks.totalBytes.toNat≤ content.length) (hsize : content.length<2^64)
    (hcount : chunks.count.toNat=chunkCount chunks.chunkSize.toNat chunks.totalBytes.toNat)
    {actual : ℕ → UInt32}
    (hactual : actual=chunkCrc chunks.chunkSize.toNat (content.take chunks.totalBytes.toNat))
    (left k : ℕ) (offset : UInt64) (s : Files W) (hleft : k+left=chunks.count.toNat)
    (hagree : ∀ i<k,chunks.values i=actual i)
    (hoffset : offset.toNat=min (k*chunks.chunkSize.toNat) chunks.totalBytes.toNat)
    (hheld : Held backends others view s file key path content offset.toNat) :
    ∃ t position,verifyChunksRounds file chunks bufferSize progress left offset
        (agreed chunks.chunkSize.toNat chunks.totalBytes.toNat chunks.values actual k) s=
        (some (verdict chunks.chunkSize.toNat chunks.totalBytes.toNat chunks.values actual),
          t) ∧
      Held backends others view t file key path content position := by
  have hchunk := chunks.chunkSize_pos
  induction left generalizing k offset s with
  | zero =>
    have heq : k=chunkCount chunks.chunkSize.toNat chunks.totalBytes.toNat := by omega
    rw [heq] at hagree ⊢
    rw [verdict_of_agree hagree]
    exact ⟨s,_,rfl,hheld⟩
  | succ left ih =>
    have hnext : k<chunkCount chunks.chunkSize.toNat chunks.totalBytes.toNat := by omega
    have hbytes := (lt_chunkCount_iff hchunk chunks.totalBytes.toNat k).mp hnext
    have hplace : offset.toNat=k*chunks.chunkSize.toNat := by omega
    have hlt : offset.toNat<chunks.totalBytes.toNat := by omega
    have hindex : chunks.count.toNat-(left+1)=k := by omega
    have hoffsetNext := toNat_chunkEnd hplace hlt
    obtain ⟨t,hcompare,hheldt⟩ := compareChunk_spec hbuffer htarget hsize hplace hlt hheld
      (chunks.values k) (agreed chunks.chunkSize.toNat chunks.totalBytes.toNat chunks.values
        actual k).targetCrc32
    rw [← hactual] at hcompare
    have hpositive : ¬(0 : ℤ)<0 := by decide
    unfold verifyChunksRounds
    dsimp only
    rw [hindex,bind_run hcompare]
    dsimp only
    rw [if_neg hpositive]
    by_cases hequal : chunks.values k=actual k
    · obtain ⟨ret,w,hprog,hret,hsame⟩ := callProgress_spec hprogress
        (offset+(chunkLength chunks.chunkSize offset chunks.totalBytes).toUInt64)
        chunks.totalBytes t
      have hagreeNext : ∀ i<k+1,chunks.values i=actual i := by
        intro i hi
        by_cases heq : i=k
        · rw [heq]
          exact hequal
        · exact hagree i (by omega)
      have hadvance := agreed_advance chunks.chunkSize.toNat chunks.totalBytes.toNat
        chunks.values actual k hoffsetNext
      rw [if_neg (not_not.mpr hequal),bind_run (access_run hprog),if_neg (by omega)]
      obtain ⟨v,position,hrun,hheldLast⟩ := ih (k+1) _ _ (by omega) hagreeNext hoffsetNext
        (hheldt.of_same hsame)
      rw [← hadvance] at hrun
      exact ⟨v,position,hrun,hheldLast⟩
    · rw [if_pos hequal,verdict_of_mismatch hnext hequal hagree]
      have hoffsetEq : offset=UInt64.ofNat (k*chunks.chunkSize.toNat) := by
        rw [← hplace,UInt64.ofNat_toNat]
      refine ⟨t,_,?_,hheldt⟩
      unfold differing
      rw [hoffsetEq]
      rfl

/-- Metadata of a readable file, as the first part of a program. -/
theorem stat_run (hfile : Readable backends others view path content s.world) :
    ∃ stat t,clFileStat backends others path s=(stat,t) ∧ 0≤ stat.1 ∧
      stat.2.size.toNat=content.length ∧ t.slots=s.slots ∧ view.Same s.world t.world := by
  obtain ⟨hret,hsize,hslots,hsame⟩ := clFileStat_readable hfile
  exact ⟨_,_,rfl,hret,hsize,hslots,hsame⟩

/-- Two files can be open together. -/
theorem openBoth (hsource : Readable backends others view sourcePath sourceContent s.world)
    (htarget : Readable backends others view targetPath targetContent s.world)
    (hroom : 2≤view.room s.world) (hfree : FreeSlots s 2) :
    ∃ source target sourceKey targetKey t u,
      clFileOpen backends sourcePath clpOpenRead s=(.ok source,t) ∧
      clFileOpen backends targetPath clpOpenRead t=(.ok target,u) ∧
      sourceKey≠targetKey ∧
      BothHeld backends others view u source target sourceKey targetKey sourcePath targetPath
        sourceContent targetContent 0 := by
  obtain ⟨source,sourceKey,t,hopenSource,hheldSource,-,-,hfiles,hless,hfreeT⟩ :=
    clFileOpen_readable (n:=1) hsource (by omega) hfree
  obtain ⟨target,targetKey,u,hopenTarget,hheldTarget,hnew,hleaves,-,-,-⟩ :=
    clFileOpen_readable (n:=0) (htarget.of_sameFiles hfiles) (by omega) hfreeT
  have hkeys : sourceKey≠targetKey := by
    rintro rfl
    have hused := hheldSource.handle_eq
    rw [hnew] at hused
    cases hused
  exact ⟨source,target,sourceKey,targetKey,t,u,hopenSource,hopenTarget,hkeys,
    hleaves source sourceKey sourcePath sourceContent 0 hkeys hheldSource,hheldTarget⟩

/-- What the verification of a range reports. -/
def rangeVerdict (size length : ℕ) (source target : List UInt8) : ℤ×FileCrc32Result :=
  if length≤ source.length ∧ length≤target.length then
    verdict size length (chunkCrc size (source.take length))
      (chunkCrc size (target.take length))
  else tooShort (min source.length target.length)

theorem toNat_smallerSize (a b : UInt64) :
    smallerSize a b=UInt64.ofNat (min a.toNat b.toNat) := by
  unfold smallerSize
  by_cases h : a<b
  · have hlt := UInt64.lt_iff_toNat_lt.mp h
    rw [if_pos h,Nat.min_eq_left (by omega),UInt64.ofNat_toNat]
  · have hle := UInt64.le_iff_toNat_le.mp (UInt64.not_lt.mp h)
    rw [if_neg h,Nat.min_eq_right hle,UInt64.ofNat_toNat]

theorem toNat_ne_zero {x : UInt32} (h : 0<x.toNat) : x≠0 := by
  rintro rfl
  exact absurd h (by decide)

/-- The verification of a range. -/
theorem clFileVerifyCrc32Range_spec
    (hsource : Readable backends others view sourcePath sourceContent s.world)
    (htarget : Readable backends others view targetPath targetContent s.world)
    (hroom : 2≤view.room s.world) (hfree : FreeSlots s 2)
    (htransform : Bytewise view options.sourceTransform f)
    (hprogress : Progresses view options.progress) (hchunk : 0<options.chunkSize.toNat)
    (hbuffer : 0<options.bufferSize.toNat) (length : UInt64) :
    ∃ t,clFileVerifyCrc32Range backends others sourcePath targetPath length options s=
      (some (rangeVerdict options.chunkSize.toNat length.toNat (sourceContent.mapIdx f)
        targetContent),t) := by
  have hchecked : ¬(options.chunkSize=0 ∨ options.bufferSize=0) := by
    rintro (h | h)
    · exact toNat_ne_zero hchunk h
    · exact toNat_ne_zero hbuffer h
  obtain ⟨sourceStat,t,hstatSource,hretSource,hsizeSource,hslotsT,hsameT⟩ := stat_run hsource
  obtain ⟨targetStat,u,hstatTarget,hretTarget,hsizeTarget,hslotsU,hsameU⟩ :=
    stat_run (htarget.of_sameFiles hsameT.toSameFiles)
  have hsourceSize : sourceContent.length<2^64 := by
    rw [← hsizeSource]
    exact sourceStat.2.size.toNat_lt
  have htargetSize : targetContent.length<2^64 := by
    rw [← hsizeTarget]
    exact targetStat.2.size.toNat_lt
  have hshort : sourceStat.2.size<length ∨ targetStat.2.size<length ↔
      ¬(length.toNat≤(sourceContent.mapIdx f).length ∧ length.toNat≤targetContent.length) := by
    rw [UInt64.lt_iff_toNat_lt,UInt64.lt_iff_toNat_lt,hsizeSource,hsizeTarget,
      List.length_mapIdx]
    omega
  unfold clFileVerifyCrc32Range rangeVerdict
  rw [if_neg hchecked,bind_run (access_run hstatSource),if_neg (by omega),
    bind_run (access_run hstatTarget),if_neg (by omega)]
  by_cases hfits : length.toNat≤(sourceContent.mapIdx f).length ∧
      length.toNat≤targetContent.length
  · rw [if_neg (fun h => hshort.mp h hfits),if_pos hfits]
    obtain ⟨source,target,sourceKey,targetKey,v,w,hopenSource,hopenTarget,hkeys,hboth⟩ :=
      openBoth (s:=u) ((hsource.of_sameFiles hsameT.toSameFiles).of_sameFiles
        hsameU.toSameFiles) ((htarget.of_sameFiles hsameT.toSameFiles).of_sameFiles
        hsameU.toSameFiles) (by rw [hsameU.room,hsameT.room]; exact hroom)
        (hfree.of_slots (hslotsU.trans hslotsT))
    rw [List.length_mapIdx] at hfits
    obtain ⟨x,position,hrun,hbothX⟩ := verifyRounds_spec hkeys htransform hprogress hchunk
      hbuffer hfits.1 hfits.2 hsourceSize htargetSize rfl rfl length.toNat 0 0 w
      (fun i hi => absurd hi (Nat.not_lt_zero i)) (Nat.zero_le _)
      (by rw [Nat.zero_mul,Nat.zero_min]; rfl) hboth (Nat.sub_le _ _)
    obtain ⟨y,hcloseTarget,hleaves⟩ := clFileClose_held hbothX.target
    obtain ⟨z,hcloseSource,-⟩ := clFileClose_held (hleaves source sourceKey sourcePath
      sourceContent position hkeys hbothX.source)
    rw [bind_run (access_run hopenSource)]
    dsimp only
    rw [bind_run (access_run hopenTarget)]
    dsimp only
    change verifyRounds source target length options length.toNat 0 clearResult w=_ at hrun
    rw [bind_run hrun,bind_run (access_run hcloseTarget),bind_run (access_run hcloseSource)]
    exact ⟨z,congrArg (fun reply => (some reply,z)) (verdict_closed _ _ _ _)⟩
  · rw [if_pos (hshort.mpr hfits),if_neg hfits,toNat_smallerSize,hsizeSource,hsizeTarget,
      List.length_mapIdx]
    exact ⟨u,rfl⟩

/-- The verification of two complete files. -/
theorem clFileVerifyCrc32_spec
    (hsource : Readable backends others view sourcePath sourceContent s.world)
    (htarget : Readable backends others view targetPath targetContent s.world)
    (hroom : 2≤view.room s.world) (hfree : FreeSlots s 2)
    (htransform : Bytewise view options.sourceTransform f)
    (hprogress : Progresses view options.progress) (hchunk : 0<options.chunkSize.toNat)
    (hbuffer : 0<options.bufferSize.toNat) (result : FileCrc32Result) :
    ∃ t,clFileVerifyCrc32 backends others sourcePath targetPath options result s=
      (some (if sourceContent.length=targetContent.length then
        rangeVerdict options.chunkSize.toNat sourceContent.length (sourceContent.mapIdx f)
          targetContent
        else tooShort (min sourceContent.length targetContent.length)),t) := by
  obtain ⟨sourceStat,t,hstatSource,hretSource,hsizeSource,hslotsT,hsameT⟩ := stat_run hsource
  obtain ⟨targetStat,u,hstatTarget,hretTarget,hsizeTarget,hslotsU,hsameU⟩ :=
    stat_run (htarget.of_sameFiles hsameT.toSameFiles)
  unfold clFileVerifyCrc32
  rw [bind_run (access_run hstatSource),if_neg (by omega),bind_run (access_run hstatTarget),
    if_neg (by omega)]
  by_cases hequal : sourceContent.length=targetContent.length
  · have hsizes : sourceStat.2.size=targetStat.2.size :=
      UInt64.toNat_inj.mp (by omega)
    obtain ⟨v,hrun⟩ := clFileVerifyCrc32Range_spec (s:=u)
      ((hsource.of_sameFiles hsameT.toSameFiles).of_sameFiles hsameU.toSameFiles)
      ((htarget.of_sameFiles hsameT.toSameFiles).of_sameFiles hsameU.toSameFiles)
      (by rw [hsameU.room,hsameT.room]; exact hroom) (hfree.of_slots (hslotsU.trans hslotsT))
      htransform hprogress hchunk hbuffer sourceStat.2.size
    rw [if_neg (not_not.mpr hsizes),if_pos hequal,hrun,hsizeSource]
    exact ⟨v,rfl⟩
  · have hsizes : sourceStat.2.size≠targetStat.2.size := by
      intro h
      rw [h] at hsizeSource
      omega
    rw [if_pos hsizes,if_neg hequal,toNat_smallerSize,hsizeSource,hsizeTarget]
    exact ⟨u,rfl⟩

/-- What the verification against a manifest reports. -/
def manifestVerdict (chunks : ClCrc32Chunks) (content : List UInt8) : ℤ×FileCrc32Result :=
  if chunks.count.toNat=chunkCount chunks.chunkSize.toNat chunks.totalBytes.toNat then
    if chunks.totalBytes.toNat≤ content.length then
      verdict chunks.chunkSize.toNat chunks.totalBytes.toNat chunks.values
        (chunkCrc chunks.chunkSize.toNat (content.take chunks.totalBytes.toNat))
    else tooShort content.length
  else (-2,clearResult)

/-- The verification against a manifest. -/
theorem clFileVerifyCrc32Chunks_spec {chunks : ClCrc32Chunks}
    (hfile : Readable backends others view path content s.world)
    (hroom : 0<view.room s.world) (hfree : FreeSlots s 1)
    (hprogress : Progresses view progress) (hbuffer : 0<bufferSize.toNat) :
    ∃ t,clFileVerifyCrc32Chunks backends others path chunks bufferSize progress s=
      (some (manifestVerdict chunks content),t) := by
  have hcount : requiredChunks chunks.totalBytes chunks.chunkSize=chunks.count.toUInt64 ↔
      chunks.count.toNat=chunkCount chunks.chunkSize.toNat chunks.totalBytes.toNat := by
    rw [← UInt64.toNat_inj,toNat_requiredChunks chunks.chunkSize_pos,UInt32.toNat_toUInt64]
    exact eq_comm
  unfold clFileVerifyCrc32Chunks manifestVerdict
  rw [if_neg (toNat_ne_zero hbuffer)]
  by_cases hwhole : chunks.count.toNat=
      chunkCount chunks.chunkSize.toNat chunks.totalBytes.toNat
  · obtain ⟨stat,t,hstat,hret,hsize,hslots,hsame⟩ := stat_run hfile
    have hbound : content.length<2^64 := by
      rw [← hsize]
      exact stat.2.size.toNat_lt
    have hshort : stat.2.size<chunks.totalBytes ↔
        ¬chunks.totalBytes.toNat≤ content.length := by
      rw [UInt64.lt_iff_toNat_lt,hsize]
      omega
    rw [if_neg (not_not.mpr (hcount.mpr hwhole)),if_pos hwhole,bind_run (access_run hstat),
      if_neg (by omega)]
    by_cases hfits : chunks.totalBytes.toNat≤ content.length
    · rw [if_neg (fun h => hshort.mp h hfits),if_pos hfits]
      obtain ⟨file,key,u,hopened,hheld,-,-,-,-,-⟩ := clFileOpen_readable (s:=t) (n:=0)
        (hfile.of_sameFiles hsame.toSameFiles) (by rw [hsame.room]; exact hroom)
        (hfree.of_slots hslots)
      obtain ⟨v,position,hrun,hheldV⟩ := verifyChunksRounds_spec hprogress hbuffer hfits hbound
        hwhole rfl chunks.count.toNat 0 0 u (Nat.zero_add _)
        (fun i hi => absurd hi (Nat.not_lt_zero i)) (by rw [Nat.zero_mul,Nat.zero_min]; rfl)
        hheld
      obtain ⟨x,hclose,-⟩ := clFileClose_held hheldV
      rw [bind_run (access_run hopened)]
      dsimp only
      change verifyChunksRounds file chunks bufferSize progress chunks.count.toNat 0
        clearResult u=_ at hrun
      rw [bind_run hrun,bind_run (access_run hclose)]
      exact ⟨x,congrArg (fun reply => (some reply,x)) (verdict_closed _ _ _ _)⟩
    · rw [if_pos (hshort.mpr hfits),if_neg hfits]
      have hsizeEq : stat.2.size=UInt64.ofNat content.length := by
        rw [← hsize,UInt64.ofNat_toNat]
      rw [hsizeEq]
      exact ⟨t,rfl⟩
  · rw [if_pos (fun h => hwhole (hcount.mp h)),if_neg hwhole]
    exact ⟨s,rfl⟩

end Loops

/-- The verifiers are exact, and what they report depends on the bytes, the transform and
the size of the chunks alone: it is fixed before the backends, the buffer and the callbacks
are. For two files up to a length and for two complete files, the expected checks are those
of the transformed source. For a manifest they are its values, and it has to list
one for each of its chunks. -/
theorem chunked_verification_exact (chunkSize : UInt32) (hchunk : 0<chunkSize.toNat)
    (source target : List UInt8) (f : ℕ → UInt8 → UInt8) :
    (∀ length : UInt64,∃ reply : ℤ×FileCrc32Result,
      Exact chunkSize.toNat length.toNat
        (length.toNat≤ source.length ∧ length.toNat≤target.length)
        (chunkCrc chunkSize.toNat ((source.mapIdx f).take length.toNat))
        (chunkCrc chunkSize.toNat (target.take length.toNat)) reply ∧
      ∀ (W : Type) (backends : List (Backend W)) (others : Others W) (view : FileView W)
        (s : Files W) (sourcePath targetPath : CString) (options : FileCrc32Options W),
        Readable backends others view sourcePath source s.world →
        Readable backends others view targetPath target s.world →
        2≤view.room s.world → FreeSlots s 2 → Bytewise view options.sourceTransform f →
        Progresses view options.progress → options.chunkSize=chunkSize →
        0<options.bufferSize.toNat →
        ∃ t,clFileVerifyCrc32Range backends others sourcePath targetPath length options s=
          (some reply,t)) ∧
    (∃ reply : ℤ×FileCrc32Result,
      ∀ (W : Type) (backends : List (Backend W)) (others : Others W) (view : FileView W)
        (s : Files W) (sourcePath targetPath : CString) (options : FileCrc32Options W)
        (result : FileCrc32Result),
        Readable backends others view sourcePath source s.world →
        Readable backends others view targetPath target s.world →
        2≤view.room s.world → FreeSlots s 2 → Bytewise view options.sourceTransform f →
        Progresses view options.progress → options.chunkSize=chunkSize →
        0<options.bufferSize.toNat →
        Exact chunkSize.toNat source.length (source.length=target.length)
          (chunkCrc chunkSize.toNat (source.mapIdx f)) (chunkCrc chunkSize.toNat target)
          reply ∧
        ∃ t,clFileVerifyCrc32 backends others sourcePath targetPath options result s=
          (some reply,t)) ∧
    ∀ chunks : ClCrc32Chunks,chunks.chunkSize=chunkSize → ∃ reply : ℤ×FileCrc32Result,
      Exact chunkSize.toNat chunks.totalBytes.toNat
        (chunks.count.toNat=chunkCount chunkSize.toNat chunks.totalBytes.toNat ∧
          chunks.totalBytes.toNat≤target.length)
        chunks.values (chunkCrc chunkSize.toNat (target.take chunks.totalBytes.toNat)) reply ∧
      ∀ (W : Type) (backends : List (Backend W)) (others : Others W) (view : FileView W)
        (s : Files W) (path : CString) (bufferSize : UInt32) (progress : Progress W),
        Readable backends others view path target s.world → 0<view.room s.world →
        FreeSlots s 1 → Progresses view progress → 0<bufferSize.toNat →
        ∃ t,clFileVerifyCrc32Chunks backends others path chunks bufferSize progress s=
          (some reply,t) := by
  have hmismatch : clFileCrc32SizeMismatch≠0 := by decide
  have htwo : (-2 : ℤ)≠0 := by decide
  refine ⟨fun length => ?_,?_,fun chunks hsize => ?_⟩
  · refine ⟨rangeVerdict chunkSize.toNat length.toNat (source.mapIdx f) target,?_,?_⟩
    · unfold rangeVerdict
      rw [List.length_mapIdx]
      by_cases hfits : length.toNat≤ source.length ∧ length.toNat≤target.length
      · rw [if_pos hfits]
        exact verdict_exact hchunk length.toNat_lt hfits
      · rw [if_neg hfits]
        exact refused_exact hfits hmismatch
    · rintro W backends others view s sourcePath targetPath options hsource htarget hroom hfree
        htransform hprogress rfl hbuffer
      exact clFileVerifyCrc32Range_spec hsource htarget hroom hfree htransform hprogress hchunk
        hbuffer length
  · refine ⟨if source.length=target.length then
      rangeVerdict chunkSize.toNat source.length (source.mapIdx f) target
      else tooShort (min source.length target.length),?_⟩
    rintro W backends others view s sourcePath targetPath options result hsource htarget hroom
      hfree htransform hprogress rfl hbuffer
    refine ⟨?_,clFileVerifyCrc32_spec hsource htarget hroom hfree htransform hprogress hchunk
      hbuffer result⟩
    obtain ⟨stat,t,-,-,hsize,-,-⟩ := stat_run hsource
    have hbound : source.length<2^64 := by
      rw [← hsize]
      exact stat.2.size.toNat_lt
    by_cases hequal : source.length=target.length
    · have htake : (source.mapIdx f).take source.length=source.mapIdx f :=
        List.take_of_length_le (by rw [List.length_mapIdx])
      have htakeTarget : target.take source.length=target :=
        List.take_of_length_le (by omega)
      rw [if_pos hequal]
      unfold rangeVerdict
      rw [if_pos ⟨by rw [List.length_mapIdx],by omega⟩,htake,htakeTarget]
      exact verdict_exact hchunk hbound hequal
    · rw [if_neg hequal]
      exact refused_exact hequal hmismatch
  · obtain rfl := hsize
    refine ⟨manifestVerdict chunks target,?_,?_⟩
    · unfold manifestVerdict
      by_cases hwhole : chunks.count.toNat=
          chunkCount chunks.chunkSize.toNat chunks.totalBytes.toNat
      · rw [if_pos hwhole]
        by_cases hfits : chunks.totalBytes.toNat≤target.length
        · rw [if_pos hfits]
          exact verdict_exact hchunk chunks.totalBytes.toNat_lt ⟨hwhole,hfits⟩
        · rw [if_neg hfits]
          exact refused_exact (fun h => hfits h.2) hmismatch
      · rw [if_neg hwhole]
        exact refused_exact (fun h => hwhole h.1) htwo
    · intro W backends others view s path bufferSize progress hfile hroom hfree hprogress
        hbuffer
      exact clFileVerifyCrc32Chunks_spec hfile hroom hfree hprogress hbuffer

/-- Two files that differ in their last byte, with chunks of two bytes. -/
theorem chunked_verification_exact_small : ∃ reply t,
    clFileVerifyCrc32Range [memoryBackend] (memoryOthers true) pathA pathB 5 ⟨2,4,none,none⟩
      (fresh (twoFiles [1,2,3,4,5] [1,2,3,4,6]))=(some reply,t) ∧
      reply.1=clFileCrc32Mismatch ∧ reply.2.mismatchOffset.toNat=2*2 ∧
      reply.2.verifiedBytes.toNat=2*2 := by
  obtain ⟨reply,hexact,hrun⟩ := (chunked_verification_exact 2 (by decide) [1,2,3,4,5]
    [1,2,3,4,6] (fun _ b => b)).1 5
  obtain ⟨t,ht⟩ := hrun Memory [memoryBackend] (memoryOthers true) memoryView
    (fresh (twoFiles [1,2,3,4,5] [1,2,3,4,6])) pathA pathB ⟨2,4,none,none⟩
    (readable_memory true (by rfl) (by decide) rfl)
    (readable_memory true (by rfl) (by decide) rfl)
    (by rw [room_eq]; decide) (freeSlots_fresh _ (by decide)) (fun _ _ => rfl)
    (fun g h => by cases h) rfl (by decide)
  exact ⟨reply,t,ht,hexact.mismatch (by decide) 2 (by decide) (by decide +kernel)
    (by decide +kernel)⟩

end ChisLink.FileVerification
