import ChisLink.MemoryStore
import ChisLink.RestrictedCopy
import ChisLink.WritableFiles

/-!
# Copies of files

A copy between two files of ordinary stores that returns zero has put the bytes of the
source over the beginning of the destination. The destination is the source then
exactly if it was emptied on opening, its size was set, or it was not longer.
-/

namespace ChisLink.FileCopy

open CopyStream DriverPrograms FileOperations RestrictedCopy StorageClient WireProtocol
open WritableFiles
open FileLayer hiding Leaves
open ReadableFiles hiding Leaves

variable {W : Type}

/-- Two open files that are copied. -/
structure Pair (W : Type) where
  /-- Handle of the source. -/
  srcFile : ℕ
  /-- Handle of the destination. -/
  dstFile : ℕ
  /-- Backend of the source. -/
  srcBackend : Backend W
  /-- Backend of the destination. -/
  dstBackend : Backend W
  /-- Local handle of the source. -/
  srcLocal : UInt16
  /-- Local handle of the destination. -/
  dstLocal : UInt16
  /-- Path of the source. -/
  srcPath : CString
  /-- Path of the destination. -/
  dstPath : CString
  /-- The bytes of the source. -/
  source : List UInt8
  /-- The bytes that the destination had at first. -/
  first : List UInt8
  /-- The local handles are different. -/
  handles_ne : (srcBackend.ops,srcLocal)≠(dstBackend.ops,dstLocal)
  /-- So are the files. -/
  paths_ne : srcPath≠dstPath

/-- What the source stands for. -/
def Pair.srcKey (pair : Pair W) : BackendOps W×UInt16 := (pair.srcBackend.ops,pair.srcLocal)

/-- What the destination stands for. -/
def Pair.dstKey (pair : Pair W) : BackendOps W×UInt16 := (pair.dstBackend.ops,pair.dstLocal)

section States

variable (view : FileView W) (pair : Pair W)

/-- Position of a local handle. -/
def position (key : BackendOps W×UInt16) (w : W) : ℕ := ((view.handle key w).map Prod.snd).getD 0

/-- The bytes of the destination before its position. -/
def accepted (w : W) : List UInt8 :=
  ((view.content pair.dstPath w).getD []).take (position view pair.dstKey w)

/-- The two handles are in their files. The source is as it was, and the destination is
behind its position. -/
structure Between (w : W) : Prop where
  /-- The bytes of the source. -/
  source : view.content pair.srcPath w=some pair.source
  /-- The handle of the source. -/
  srcHandle : ∃ p,p≤pair.source.length ∧ view.handle pair.srcKey w=some (pair.srcPath,p)
  /-- The destination. -/
  target : ∃ content q,view.content pair.dstPath w=some content ∧
    view.handle pair.dstKey w=some (pair.dstPath,q) ∧ q≤ content.length ∧
    content.drop q=pair.first.drop q

/-- The handles are open and in their files. -/
structure Copying (s : Files W) : Prop extends Between view pair s.world where
  /-- The handle of the source. -/
  srcStands : StandsFor s pair.srcFile pair.srcBackend pair.srcLocal
  /-- The handle of the destination. -/
  dstStands : StandsFor s pair.dstFile pair.dstBackend pair.dstLocal

end States

section Worlds

variable {view : FileView W} {pair : Pair W} {w w' : W}

theorem position_eq {key : BackendOps W×UInt16} {path : CString} {p : ℕ}
    (h : view.handle key w=some (path,p)) : position view key w=p := by
  simp [position,h]

/-- A call that leaves the two files and the handles that are open on them. -/
structure Spares (view : FileView W) (srcPath dstPath : CString) (w w' : W) : Prop where
  /-- The source. -/
  source : view.content srcPath w'=view.content srcPath w
  /-- The destination. -/
  target : view.content dstPath w'=view.content dstPath w
  /-- Their handles. -/
  handle : ∀ key path p,path=srcPath ∨ path=dstPath → view.handle key w=some (path,p) →
    view.handle key w'=some (path,p)

theorem Steady.spares (h : Steady view w w') (srcPath dstPath : CString) :
    Spares view srcPath dstPath w w' :=
  ⟨h.content srcPath,h.content dstPath,fun key _ _ _ hkey => (h.handle key).trans hkey⟩

/-- Such a call changes nothing for the copy. -/
theorem Between.spared (h : Between view pair w)
    (hspares : Spares view pair.srcPath pair.dstPath w w') :
    Between view pair w' ∧ accepted view pair w'=accepted view pair w ∧
      position view pair.srcKey w'=position view pair.srcKey w := by
  obtain ⟨p,hp,hsrc⟩ := h.srcHandle
  obtain ⟨content,q,hcontent,hdst,hq,hdrop⟩ := h.target
  have hsrc' := hspares.handle _ _ _ (Or.inl rfl) hsrc
  have hdst' := hspares.handle _ _ _ (Or.inr rfl) hdst
  have hcontent' := hspares.target.trans hcontent
  refine ⟨⟨hspares.source.trans h.source,⟨p,hp,hsrc'⟩,
    ⟨content,q,hcontent',hdst',hq,hdrop⟩⟩,?_,?_⟩
  · unfold accepted
    rw [hcontent,hcontent',position_eq hdst,position_eq hdst']
  · rw [position_eq hsrc,position_eq hsrc']

/-- The source moves. -/
theorem Between.moved (h : Between view pair w) {p : ℕ} (hp : p≤pair.source.length)
    (hmoves : view.Moves pair.srcKey (some (pair.srcPath,p)) w w') :
    Between view pair w' ∧ accepted view pair w'=accepted view pair w ∧
      position view pair.srcKey w'=p := by
  obtain ⟨content,q,hcontent,hdst,hq,hdrop⟩ := h.target
  have hdst' := (hmoves.others _ (Ne.symm pair.handles_ne)).trans hdst
  have hcontent' := (hmoves.content pair.dstPath).trans hcontent
  refine ⟨⟨(hmoves.content _).trans h.source,⟨p,hp,hmoves.handle⟩,
    ⟨content,q,hcontent',hdst',hq,hdrop⟩⟩,?_,position_eq hmoves.handle⟩
  have hlast : position view pair.dstKey w'=q := position_eq hdst'
  unfold accepted
  rw [hcontent,hcontent',hlast,position_eq hdst]

/-- The destination takes a beginning of the data. -/
theorem Between.wrote (h : Between view pair w) {content data : List UInt8} {q k : ℕ}
    (hcontent : view.content pair.dstPath w=some content)
    (hhandle : view.handle pair.dstKey w=some (pair.dstPath,q)) (hq : q≤ content.length)
    (hk : k≤data.length)
    (hchanges : Changes view pair.dstKey pair.dstPath (pair.dstPath,q+k)
      (some (written content q (data.take k))) w w') :
    Between view pair w' ∧ accepted view pair w'=accepted view pair w++data.take k ∧
      position view pair.srcKey w'=position view pair.srcKey w := by
  obtain ⟨p,hp,hsrc⟩ := h.srcHandle
  obtain ⟨content',q',hcontent',hhandle',-,hdrop⟩ := h.target
  rw [hcontent] at hcontent'
  rw [hhandle] at hhandle'
  obtain rfl := Option.some.inj hcontent'
  obtain ⟨-,rfl⟩ := Prod.mk.inj (Option.some.inj hhandle')
  have hsrc' := (hchanges.others _ pair.handles_ne).trans hsrc
  have hlength : (data.take k).length=k := by
    rw [List.length_take,Nat.min_eq_left hk]
  have htake := take_written content (data.take k) hq
  have hrest := drop_written content (data.take k) hq
  have hlong := length_written content (data.take k) hq
  rw [hlength] at htake hrest hlong
  refine ⟨⟨(hchanges.files _ pair.paths_ne).trans h.source,⟨p,hp,hsrc'⟩,
    ⟨_,_,hchanges.content,hchanges.handle,hlong,?_⟩⟩,?_,?_⟩
  · rw [hrest,← List.drop_drop,hdrop,List.drop_drop]
  · unfold accepted
    rw [hchanges.content,hcontent,position_eq hchanges.handle,position_eq hhandle]
    exact htake
  · rw [position_eq hsrc]
    exact position_eq hsrc'

end Worlds

section Calls

variable {others : Others W} {view : FileView W} {pair : Pair W} {s : Files W}

/-- The stream of the source. -/
def stream (pair : Pair W) (i : ℕ) : UInt8 := pair.source.getD i 0

/-- Bytes of the source from a position on. -/
theorem take_drop_eq_slice (pair : Pair W) (p : ℕ) {n : ℕ} (h : p+n≤pair.source.length) :
    (pair.source.drop p).take n=slice (stream pair) p n := by
  apply List.ext_getElem
  · simp
    omega
  · intro i hi _
    have hlt : p+i<pair.source.length := by
      rw [List.length_take,List.length_drop] at hi
      omega
    simp [slice,stream,hlt]

/-- A buffered read of the source. -/
theorem copyReadFile_copying (h : Copying view pair s)
    (hstores : Stores others view pair.srcBackend) (want : ℕ) :
    Copying view pair (copyReadFile pair.srcFile want s).2 ∧
      accepted view pair (copyReadFile pair.srcFile want s).2.world=
        accepted view pair s.world ∧
      (0≤(copyReadFile pair.srcFile want s).1.1 →
        CopyStream.Delivers (stream pair) (some pair.source.length) (UInt32.ofNat want).toNat
          (position view pair.srcKey s.world)
          (position view pair.srcKey (copyReadFile pair.srcFile want s).2.world)
          (copyReadFile pair.srcFile want s).1.2 ∧
        ((copyReadFile pair.srcFile want s).1.2=[] → 0<(UInt32.ofNat want).toNat →
          some pair.source.length=some (position view pair.srcKey s.world))) := by
  obtain ⟨p,hp,hsrc⟩ := h.srcHandle
  have hcases := transfer_cases h.srcStands BackendOps.read
    (fun l read w => read l (UInt32.ofNat want) w) true
  unfold copyReadFile clFileRead
  dsimp only at hcases ⊢
  rcases hcases with ⟨-,hresult⟩ | ⟨read,hread,hreply,hworld,hkeeps⟩
  · rw [hresult]
    have hneg : ¬(0 : ℤ)≤-1 := by decide
    exact ⟨h,rfl,fun hret => absurd hret hneg⟩
  · obtain ⟨hmoves,hle,hdata,hend⟩ := hstores.read read hread pair.srcLocal pair.srcPath
      pair.source p (UInt32.ofNat want) s.world hsrc h.source hp
    obtain ⟨now,hnow,hmoved,hafter⟩ := hmoves
    obtain ⟨hbetween,haccepted,hposition⟩ := h.toBetween.moved hnow hmoved
    rw [hreply,hworld]
    refine ⟨⟨by rw [hworld]; exact hbetween,hkeeps _ _ _ h.srcStands,
      hkeeps _ _ _ h.dstStands⟩,haccepted,fun hret => ?_⟩
    have hnext := hdata hret
    have hlast := hafter hret
    rw [hposition,position_eq hsrc]
    refine ⟨⟨hle hret,?_,hlast,fun e he => ?_⟩,fun hnil hwant => ?_⟩
    · rw [← take_drop_eq_slice pair p (by omega)]
      exact hnext
    · rw [← Option.some.inj he]
      exact hnow
    · rw [hend hret hnil hwant]

/-- A direct window of the source. -/
theorem copyDirectWindow_copying (h : Copying view pair s)
    (hstores : Stores others view pair.srcBackend) (want : ℕ) :
    Copying view pair (copyDirectWindow others pair.srcFile want s).2 ∧
      accepted view pair (copyDirectWindow others pair.srcFile want s).2.world=
        accepted view pair s.world ∧
      (0≤(copyDirectWindow others pair.srcFile want s).1.1 →
        match (copyDirectWindow others pair.srcFile want s).1.2 with
        | .null length => length=0 →
          position view pair.srcKey (copyDirectWindow others pair.srcFile want s).2.world=
            position view pair.srcKey s.world
        | .window window => window.length.toNat≤(UInt32.ofNat want).toNat →
          CopyStream.Delivers (stream pair) (some pair.source.length) (UInt32.ofNat want).toNat
            (position view pair.srcKey s.world)
            (position view pair.srcKey (copyDirectWindow others pair.srcFile want s).2.world)
            window.data) := by
  obtain ⟨p,hp,hsrc⟩ := h.srcHandle
  have hcases := callOther_cases others h.srcStands OtherOps.directRead
    (-1,WindowReply.null 0) (fun l directRead => directRead l (UInt32.ofNat want))
  unfold copyDirectWindow
  rcases hcases with ⟨-,hresult⟩ | ⟨directRead,hdirect,hresult⟩
  · rw [hresult]
    have hneg : ¬(0 : ℤ)≤-1 := by decide
    exact ⟨h,rfl,fun hret => absurd hret hneg⟩
  · obtain ⟨now,hnow,hmoved,hafter⟩ := (hstores.directRead directRead hdirect pair.srcLocal
      pair.srcPath pair.source p (UInt32.ofNat want) s.world hsrc h.source hp).moves
    obtain ⟨hbetween,haccepted,hposition⟩ := h.toBetween.moved hnow hmoved
    rw [hresult]
    dsimp only
    refine ⟨⟨hbetween,h.srcStands,h.dstStands⟩,haccepted,fun hret => ?_⟩
    have hlast := hafter hret
    revert hlast
    cases (directRead pair.srcLocal (UInt32.ofNat want) s.world).1.2 with
    | null length =>
      intro hlast hzero
      rw [hposition,position_eq hsrc]
      exact hlast hzero
    | window window =>
      intro hlast hshort
      obtain ⟨hend,hdata⟩ := hlast hshort
      have hlength := window.data_length
      rw [hposition,position_eq hsrc]
      refine ⟨by omega,?_,hend,fun e he => ?_⟩
      · rw [← take_drop_eq_slice pair p (by omega)]
        exact hdata
      · rw [← Option.some.inj he]
        exact hnow

/-- A call on the backend of a handle that changes nothing. -/
theorem callOther_copying {γ ρ : Type} (h : Copying view pair s) {file : ℕ}
    {backend : Backend W} {l : UInt16} (hstands : StandsFor s file backend l)
    (op : OtherOps W → Option γ) (missing : ρ) (call : UInt16 → γ → W → ρ×W)
    (hsteady : ∀ f,op (others.ops backend)=some f → ∀ l w,Steady view w (call l f w).2) :
    Copying view pair (callOther others s file op missing call).2 ∧
      accepted view pair (callOther others s file op missing call).2.world=
        accepted view pair s.world ∧
      position view pair.srcKey (callOther others s file op missing call).2.world=
        position view pair.srcKey s.world := by
  rcases callOther_cases others hstands op missing call with
    ⟨-,hresult⟩ | ⟨f,hf,hresult⟩
  · rw [hresult]
    exact ⟨h,rfl,rfl⟩
  · have hspares := Steady.spares (hsteady f hf l s.world) pair.srcPath pair.dstPath
    obtain ⟨hbetween,haccepted,hposition⟩ := h.toBetween.spared hspares
    rw [hresult]
    exact ⟨⟨hbetween,h.srcStands,h.dstStands⟩,haccepted,hposition⟩

/-- A progress callback that spares the two files. -/
theorem callProgress_copying (h : Copying view pair s) {progress : Progress W}
    (hprogress : ∀ f,progress=some f → ∀ done size w,
      Spares view pair.srcPath pair.dstPath w (f done size w).2) (done size : UInt64) :
    Copying view pair (callProgress progress done size s).2 ∧
      accepted view pair (callProgress progress done size s).2.world=
        accepted view pair s.world ∧
      position view pair.srcKey (callProgress progress done size s).2.world=
        position view pair.srcKey s.world := by
  unfold callProgress
  cases progress with
  | none => exact ⟨h,rfl,rfl⟩
  | some f =>
    obtain ⟨hbetween,haccepted,hposition⟩ :=
      h.toBetween.spared (hprogress f rfl done size s.world)
    exact ⟨⟨hbetween,h.srcStands,h.dstStands⟩,haccepted,hposition⟩

/-- A buffered write to the destination. -/
theorem copyWriteFile_copying (h : Copying view pair s)
    (hstores : Stores others view pair.dstBackend) (data : List UInt8) :
    Copying view pair (copyWriteFile pair.dstFile data s).2 ∧
      position view pair.srcKey (copyWriteFile pair.dstFile data s).2.world=
        position view pair.srcKey s.world ∧
      ∃ k,k≤data.length ∧ accepted view pair (copyWriteFile pair.dstFile data s).2.world=
        accepted view pair s.world++data.take k ∧
        (0≤(copyWriteFile pair.dstFile data s).1.1 →
          (copyWriteFile pair.dstFile data s).1.2=k) := by
  obtain ⟨content,q,hcontent,hdst,hq,-⟩ := h.target
  have hcases := transfer_cases h.dstStands BackendOps.write
    (fun l write w => write l data w) true
  unfold copyWriteFile clFileWrite
  dsimp only at hcases ⊢
  rcases hcases with ⟨-,hresult⟩ | ⟨write,hwrite,hreply,hworld,hkeeps⟩
  · rw [hresult]
    have hneg : ¬(0 : ℤ)≤-1 := by decide
    refine ⟨h,rfl,0,Nat.zero_le _,?_,fun hret => absurd hret hneg⟩
    rw [List.take_zero,List.append_nil]
  · obtain ⟨k,hk,htold,hchanges⟩ := hstores.write write hwrite pair.dstLocal pair.dstPath
      content q data s.world hdst hcontent hq
    obtain ⟨hbetween,haccepted,hposition⟩ := h.toBetween.wrote hcontent hdst hq hk hchanges
    rw [hreply,hworld]
    exact ⟨⟨by rw [hworld]; exact hbetween,hkeeps _ _ _ h.srcStands,
      hkeeps _ _ _ h.dstStands⟩,hposition,k,hk,haccepted,htold⟩

/-- A write to the destination from a direct window. -/
theorem copyDirectWriteFile_copying (h : Copying view pair s)
    (hstores : Stores others view pair.dstBackend) (window : DirectWindow)
    (offset length : ℕ) :
    Copying view pair (copyDirectWriteFile others pair.dstFile window offset length s).2 ∧
      position view pair.srcKey
        (copyDirectWriteFile others pair.dstFile window offset length s).2.world=
        position view pair.srcKey s.world ∧
      ∃ k,k≤((window.data.drop offset).take length).length ∧
        accepted view pair
          (copyDirectWriteFile others pair.dstFile window offset length s).2.world=
          accepted view pair s.world++((window.data.drop offset).take length).take k ∧
        (0≤(copyDirectWriteFile others pair.dstFile window offset length s).1.1 →
          (copyDirectWriteFile others pair.dstFile window offset length s).1.2=k) := by
  obtain ⟨content,q,hcontent,hdst,hq,-⟩ := h.target
  have hcases := callOther_cases others h.dstStands OtherOps.directWrite
    ((-1,0) : ℤ×ℕ) (fun l directWrite => directWrite l window offset length)
  unfold copyDirectWriteFile
  rcases hcases with ⟨-,hresult⟩ | ⟨directWrite,hdirect,hresult⟩
  · rw [hresult]
    have hneg : ¬(0 : ℤ)≤-1 := by decide
    refine ⟨h,rfl,0,Nat.zero_le _,?_,fun hret => absurd hret hneg⟩
    rw [List.take_zero,List.append_nil]
  · obtain ⟨k,hk,htold,hchanges⟩ := hstores.directWrite directWrite hdirect pair.dstLocal
      pair.dstPath content q window offset length s.world hdst hcontent hq
    obtain ⟨hbetween,haccepted,hposition⟩ := h.toBetween.wrote hcontent hdst hq hk hchanges
    rw [hresult]
    exact ⟨⟨hbetween,h.srcStands,h.dstStands⟩,hposition,k,hk,haccepted,htold⟩

end Calls

section Stream

variable {others : Others W} {view : FileView W} {pair : Pair W} {progress : Progress W}
  {first : Files W} {srcStat limits optStat : FileStat} {bufferSize : UInt32}

theorem fileSource_keeps (hstores : Stores others view pair.srcBackend) :
    SourceKeeps (Copying view pair) (fileSource others first pair.srcFile srcStat) := by
  refine ⟨?_,?_,?_⟩
  · rintro read h want s hs
    obtain rfl := Option.some.inj h
    exact (copyReadFile_copying hs hstores want).1
  · intro directRead h want s hs
    unfold fileSource at h
    dsimp only at h
    split at h
    · obtain rfl := Option.some.inj h
      exact (copyDirectWindow_copying hs hstores want).1
    · cases h
  · intro release h s hs
    unfold fileSource at h
    dsimp only at h
    split at h
    · obtain rfl := Option.some.inj h
      exact (callOther_copying hs hs.srcStands _ _ _ hstores.releaseDirect).1
    · cases h

theorem fileSink_keeps (hstores : Stores others view pair.dstBackend) :
    SinkKeeps (Copying view pair) (fileSink others first pair.dstFile limits) := by
  refine ⟨?_,?_,?_⟩
  · rintro write h data s hs
    obtain rfl := Option.some.inj h
    exact (copyWriteFile_copying hs hstores data).1
  · intro directWrite h window offset length s hs
    unfold fileSink at h
    dsimp only at h
    split at h
    · obtain rfl := Option.some.inj h
      exact (copyDirectWriteFile_copying hs hstores window offset length).1
    · cases h
  · rintro flush h s hs
    obtain rfl := Option.some.inj h
    exact (callOther_copying hs hs.dstStands _ _ _ hstores.flush).1

theorem fileCopyOptions_keep (hprogress : ∀ f,progress=some f → ∀ done size w,
      Spares view pair.srcPath pair.dstPath w (f done size w).2) :
    OptionsKeep (Copying view pair) (fileCopyOptions optStat bufferSize progress) := by
  intro report h done size s hs
  unfold fileCopyOptions at h
  dsimp only at h
  obtain ⟨f,rfl,rfl⟩ := Option.map_eq_some_iff.mp h
  exact (callProgress_copying hs hprogress done size).1

/-- The restricted source delivers the bytes of the source. -/
theorem fileSource_obeys (hstores : Stores others view pair.srcBackend) :
    (restrictSource (fileSource others first pair.srcFile srcStat)
      (fileSource_keeps hstores)).Obeys (stream pair) (some pair.source.length)
      (fun s => position view pair.srcKey s.1.world)
      (fun s => accepted view pair s.1.world) := by
  -- what is asked for fits the 32 bits of the length
  have hnat : ∀ want,(UInt32.ofNat (min want (2^32-1))).toNat=min want (2^32-1) :=
    fun want => UInt32.toNat_ofNat_of_lt' (by unfold UInt32.size; omega)
  refine ⟨?_,?_,?_⟩
  · rintro read h want ⟨s,hs⟩
    obtain rfl := Option.some.inj h
    obtain ⟨-,haccepted,hreads⟩ := copyReadFile_copying hs hstores (min want (2^32-1))
    refine ⟨haccepted,fun hret => ?_⟩
    obtain ⟨hdelivers,hend⟩ := hreads hret
    rw [hnat] at hdelivers hend
    refine ⟨⟨hdelivers.length_le.trans (Nat.min_le_left _ _),hdelivers.data_eq,
      hdelivers.after_eq,hdelivers.within⟩,fun hnil hwant => hend hnil (by omega)⟩
  · intro directRead h want
    unfold restrictSource fileSource at h
    dsimp only at h
    split at h
    · obtain rfl := Option.some.inj h
      rintro ⟨s,hs⟩
      obtain ⟨-,haccepted,hopens⟩ := copyDirectWindow_copying hs hstores (min want (2^32-1))
      refine ⟨haccepted,fun hret => ?_⟩
      have hwindow := hopens hret
      unfold restrict
      dsimp only at hwindow ⊢
      revert hwindow
      generalize (copyDirectWindow others pair.srcFile (min want (2^32-1)) s).1.2=reply
      cases reply with
      | null length =>
        intro hwindow hzero
        exact ⟨hwindow hzero,fun hnone => by cases hnone⟩
      | window window =>
        intro hwindow hshort
        have hlt := window.length.toNat_lt
        rw [hnat] at hwindow
        have hdelivers := hwindow (by omega)
        exact ⟨⟨hdelivers.length_le.trans (Nat.min_le_left _ _),hdelivers.data_eq,
          hdelivers.after_eq,hdelivers.within⟩,fun _ hnone => by cases hnone⟩
    · cases h
  · intro release h
    unfold restrictSource fileSource at h
    dsimp only at h
    split at h
    · obtain rfl := Option.some.inj h
      rintro ⟨s,hs⟩
      exact (callOther_copying hs hs.srcStands _ _ _ hstores.releaseDirect).2
    · cases h

/-- The restricted sink accepts the beginning of what it is offered. -/
theorem fileSink_obeys (hstores : Stores others view pair.dstBackend) :
    (restrictSink (fileSink others first pair.dstFile limits)
      (fileSink_keeps hstores)).Obeys (fun s => position view pair.srcKey s.1.world)
      (fun s => accepted view pair s.1.world) := by
  refine ⟨?_,?_,?_⟩
  · rintro write h data ⟨s,hs⟩
    obtain rfl := Option.some.inj h
    exact (copyWriteFile_copying hs hstores data).2
  · intro directWrite h window offset length
    unfold restrictSink fileSink at h
    dsimp only at h
    split at h
    · obtain rfl := Option.some.inj h
      rintro ⟨s,hs⟩
      exact (copyDirectWriteFile_copying hs hstores window offset length).2
    · cases h
  · rintro flush h ⟨s,hs⟩
    obtain rfl := Option.some.inj h
    exact (callOther_copying hs hs.dstStands _ _ _ hstores.flush).2.1

theorem fileCopyOptions_obey (hprogress : ∀ f,progress=some f → ∀ done size w,
      Spares view pair.srcPath pair.dstPath w (f done size w).2) :
    (restrictOptions (fileCopyOptions optStat bufferSize progress)
      (fileCopyOptions_keep hprogress)).Obeys
      (fun s : {s // Copying view pair s} => position view pair.srcKey s.1.world)
      (fun s => accepted view pair s.1.world) := by
  intro report h done size
  unfold restrictOptions fileCopyOptions at h
  cases progress with
  | none => cases h
  | some f =>
    obtain rfl := Option.some.inj h
    rintro ⟨s,hs⟩
    exact (callProgress_copying hs hprogress done size).2

/-- A copy between two open files that does not fail puts the source over the beginning of
the destination. -/
theorem copyStream_copying (hsource : Stores others view pair.srcBackend)
    (htarget : Stores others view pair.dstBackend)
    (hprogress : ∀ f,progress=some f → ∀ done size w,
      Spares view pair.srcPath pair.dstPath w (f done size w).2) {s t : Files W}
    (h : Copying view pair s) (hposition : position view pair.srcKey s.world=0)
    (haccepted : accepted view pair s.world=[])
    (hsize : srcStat.size.toNat=pair.source.length) {fuel : ℕ} {ret : ℤ}
    (hrun : clCopyStream (fileSource others first pair.srcFile srcStat)
      (fileSink others first pair.dstFile limits) (fileCopyOptions optStat bufferSize progress)
      fuel s=(some ret,t)) :
    Copying view pair t ∧ (0≤ ret → accepted view pair t.world=pair.source) := by
  have hkeepSource : SourceKeeps (Copying view pair)
    (fileSource others first pair.srcFile srcStat) := fileSource_keeps hsource
  have hkeepSink : SinkKeeps (Copying view pair)
    (fileSink others first pair.dstFile limits) := fileSink_keeps htarget
  have hkeepOptions : OptionsKeep (Copying view pair)
    (fileCopyOptions optStat bufferSize progress) := fileCopyOptions_keep hprogress
  have hobeySource : (restrictSource _ hkeepSource).Obeys (stream pair)
    (some pair.source.length) _ _ := fileSource_obeys hsource
  have hobeySink : (restrictSink _ hkeepSink).Obeys _ _ := fileSink_obeys htarget
  have hobeyOptions : (restrictOptions _ hkeepOptions).Obeys _ _ :=
    fileCopyOptions_obey hprogress
  have hfollows := restricted_follows hkeepSource hkeepSink hkeepOptions fuel ⟨s,h⟩
  obtain ⟨⟨n,hcopied,hwhole⟩,-⟩ := clCopyStream_whole
    hobeySource hobeySink hobeyOptions ⟨s,h⟩
    (fun e _ => by rw [hposition]; exact Nat.zero_le _) fuel
  change clCopyStream _ _ _ fuel s=_ at hfollows
  rw [hrun] at hfollows
  revert hcopied hwhole hfollows
  generalize clCopyStream (restrictSource _ _) (restrictSink _ _) (restrictOptions _ _) fuel
    ⟨s,h⟩=result
  intro hcopied hwhole hfollows
  obtain ⟨hret,ht⟩ := Prod.mk.inj hfollows
  rw [ht]
  refine ⟨result.2.2,fun hpos => ?_⟩
  obtain ⟨hunknown,hknown⟩ := hwhole ret hret.symm hpos
  rw [hposition,haccepted] at hcopied
  have hn : n=pair.source.length := by
    rw [hposition] at hunknown
    by_cases hzero : srcStat.size=0
    · have hstop := Option.some.inj (hunknown hzero)
      omega
    · rw [hknown hzero]
      exact hsize
  have hslice := take_drop_eq_slice pair 0 (n:=n) (by omega)
  rw [List.drop_zero,hn,List.take_length] at hslice
  rw [hcopied.1,List.nil_append,hn]
  exact hslice.symm

end Stream

section Copies

variable {backends : List (Backend W)} {others : Others W} {view : FileView W} {pair : Pair W}
  {progress : Progress W} {srcStat : FileStat} {bufferSize : UInt32} {fuel : ℕ} {s t : Files W}

/-- The source lies over the beginning of what the destination had at first. -/
def Overlaid (view : FileView W) (pair : Pair W) (w : W) : Prop :=
  view.content pair.dstPath w=some (pair.source++pair.first.drop pair.source.length)

/-- The destination when all of the source is accepted. -/
theorem Between.overlaid {w : W} (h : Between view pair w)
    (haccepted : accepted view pair w=pair.source) : Overlaid view pair w := by
  obtain ⟨content,q,hcontent,hdst,hq,hdrop⟩ := h.target
  unfold accepted at haccepted
  rw [hcontent,position_eq hdst] at haccepted
  have htake : content.take q=pair.source := haccepted
  have hlength : pair.source.length=q := by
    rw [← htake,List.length_take,Nat.min_eq_left hq]
  unfold Overlaid
  rw [hcontent,hlength,← hdrop,← htake,List.take_append_drop]

/-- Closing both files with success leaves their contents. -/
theorem close_overlaid (hsource : Stores others view pair.srcBackend)
    (htarget : Stores others view pair.dstBackend) (h : Copying view pair s)
    (hoverlaid : Overlaid view pair s.world)
    (hdst : 0≤(clFileClose pair.dstFile s).1)
    (hsrc : 0≤(clFileClose pair.srcFile (clFileClose pair.dstFile s).2).1) :
    Overlaid view pair (clFileClose pair.srcFile (clFileClose pair.dstFile s).2).2.world := by
  obtain ⟨p,-,hsrcHandle⟩ := h.srcHandle
  obtain ⟨content,q,-,hdstHandle,-,-⟩ := h.target
  have hstands := standsFor_close h.dstStands h.srcStands (Ne.symm pair.handles_ne)
  -- the destination first
  have hfirst : view.content pair.dstPath (clFileClose pair.dstFile s).2.world=
      view.content pair.dstPath s.world ∧
      view.handle pair.srcKey (clFileClose pair.dstFile s).2.world=some (pair.srcPath,p) := by
    rcases clFileClose_cases h.dstStands with ⟨-,-,hworld⟩ | ⟨close,hclose,hret,hworld⟩
    · rw [hworld]
      exact ⟨rfl,hsrcHandle⟩
    · rw [hret] at hdst
      have hmoves := htarget.close close hclose pair.dstLocal pair.dstPath q s.world
        hdstHandle hdst
      rw [hworld]
      exact ⟨hmoves.content _,(hmoves.others _ pair.handles_ne).trans hsrcHandle⟩
  obtain ⟨hcontent,hhandle⟩ := hfirst
  unfold Overlaid at hoverlaid ⊢
  rw [← hoverlaid,← hcontent]
  rcases clFileClose_cases hstands with ⟨-,-,hworld⟩ | ⟨close,hclose,hret,hworld⟩
  · rw [hworld]
  · rw [hret] at hsrc
    have hmoves := hsource.close close hclose pair.srcLocal pair.srcPath p
      (clFileClose pair.dstFile s).2.world hhandle hsrc
    rw [hworld]
    exact hmoves.content _

/-- The copy at its beginning. -/
structure Ready (view : FileView W) (pair : Pair W) (s : Files W) : Prop
    extends Copying view pair s where
  /-- Nothing was read. -/
  srcPosition : position view pair.srcKey s.world=0
  /-- Nothing was written. -/
  nothing : accepted view pair s.world=[]

/-- The copy and the two closes. -/
theorem copyBetween_overlaid (hsource : Stores others view pair.srcBackend)
    (htarget : Stores others view pair.dstBackend)
    (hprogress : ∀ f,progress=some f → ∀ done size w,
      Spares view pair.srcPath pair.dstPath w (f done size w).2) (h : Ready view pair s)
    (hsize : srcStat.size.toNat=pair.source.length) (dstStat : ℤ×FileStat) :
    wp (copyBetween others pair.srcFile pair.dstFile srcStat dstStat bufferSize progress fuel)
      (fun ret t => ret=0 → Overlaid view pair t.world) (fun _ => True) s := by
  have hstream : wp (clCopyStream (fileSource others s pair.srcFile srcStat)
      (fileSink others s pair.dstFile (if dstStat.1=0 then dstStat.2 else srcStat))
      (fileCopyOptions srcStat bufferSize progress) fuel)
      (fun ret t => Copying view pair t ∧ (0≤ ret → accepted view pair t.world=pair.source))
      (fun _ => True) s := by
    unfold wp
    rcases hrun : clCopyStream (fileSource others s pair.srcFile srcStat)
        (fileSink others s pair.dstFile (if dstStat.1=0 then dstStat.2 else srcStat))
        (fileCopyOptions srcStat bufferSize progress) fuel s with ⟨_ | ret,t⟩
    · trivial
    · exact copyStream_copying hsource htarget hprogress h.toCopying h.srcPosition h.nothing
        hsize hrun
  unfold copyBetween
  rw [wp_bind,wp_inspect,wp_bind,wp_inspect,wp_bind]
  refine wp_mono hstream ?_ fun _ _ => trivial
  rintro ret t ⟨hcopying,haccepted⟩
  rw [wp_bind,wp_access,wp_bind,wp_access,wp_pure]
  intro hzero
  unfold firstError at hzero
  split at hzero
  · omega
  · split at hzero
    · omega
    · exact close_overlaid hsource htarget hcopying
        (hcopying.toBetween.overlaid (haccepted (by omega))) (by omega) (by omega)

/-- A call that spares the two files leaves a copy at its beginning. -/
theorem Ready.spared (h : Ready view pair s) {w : W}
    (hspares : Spares view pair.srcPath pair.dstPath s.world w) :
    Ready view pair {s with world := w} := by
  obtain ⟨hbetween,haccepted,hposition⟩ := h.toBetween.spared hspares
  exact ⟨⟨hbetween,h.srcStands,h.dstStands⟩,hposition.trans h.srcPosition,
    haccepted.trans h.nothing⟩

/-- Setting the size of the destination, if there is an operation for it. -/
theorem clFileTruncateOpen_ready (htarget : Stores others view pair.dstBackend)
    (h : Ready view pair s) (size : UInt64)
    (hret : 0≤(clFileTruncateOpen others pair.dstFile size s).1) :
    ((others.ops pair.dstBackend).truncate=none ∧
      clFileTruncateOpen others pair.dstFile size s=(0,s)) ∨
    ((others.ops pair.dstBackend).truncate.isSome ∧
      Ready view {pair with first := pair.first.takeD size.toNat 0}
        (clFileTruncateOpen others pair.dstFile size s).2) := by
  unfold clFileTruncateOpen at hret ⊢
  rcases callOther_cases others h.dstStands OtherOps.truncate (0 : ℤ)
      (fun l truncate => truncate l size) with ⟨hnone,hresult⟩ | ⟨truncate,hsome,hresult⟩
  · exact Or.inl ⟨hnone,hresult⟩
  · right
    rw [hresult] at hret ⊢
    obtain ⟨p,hp,hsrc⟩ := h.srcHandle
    obtain ⟨content,q,hcontent,hdst,hq,hdrop⟩ := h.target
    have hchanges := htarget.truncate truncate hsome pair.dstLocal pair.dstPath content q size
      s.world hdst hcontent hret
    have hqzero : q=0 := by
      have hnothing := h.nothing
      unfold accepted at hnothing
      rw [hcontent,position_eq hdst] at hnothing
      have hlength := congrArg List.length hnothing
      rw [Option.getD_some,List.length_take,List.length_nil] at hlength
      omega
    have hp' := (hchanges.others _ pair.handles_ne).trans hsrc
    rw [hqzero,List.drop_zero,List.drop_zero] at hdrop
    refine ⟨(by rw [hsome]; rfl),⟨⟨⟨(hchanges.files _ pair.paths_ne).trans h.source,
      ⟨p,hp,hp'⟩,⟨_,q,hchanges.content,hchanges.handle,?_,?_⟩⟩,h.srcStands,h.dstStands⟩,?_,?_⟩⟩
    · omega
    · rw [hdrop]
    · have hposition := h.srcPosition
      rw [position_eq hsrc] at hposition
      rw [hposition] at hp'
      exact position_eq hp'
    · unfold accepted
      have hlast : position view pair.dstKey (truncate pair.dstLocal size s.world).2=q :=
        position_eq hchanges.handle
      change List.take (position view pair.dstKey _) _=[]
      rw [hlast,hqzero,List.take_zero]

/-- The copy once the size is set, with the metadata of the destination if they are
known. -/
theorem copyLimited_overlaid (pair : Pair W) (hsource : Stores others view pair.srcBackend)
    (htarget : Stores others view pair.dstBackend)
    (hprogress : ∀ f,progress=some f → ∀ done size w,
      Spares view pair.srcPath pair.dstPath w (f done size w).2) (h : Ready view pair s)
    (hsize : srcStat.size.toNat=pair.source.length) (dstStat : ℤ×FileStat) :
    wp (if dstStat.1=0 then copyBetween others pair.srcFile pair.dstFile srcStat dstStat
        bufferSize progress fuel
      else do
        let dstStat ← access (clFileFstat others pair.dstFile)
        copyBetween others pair.srcFile pair.dstFile srcStat dstStat bufferSize progress fuel)
      (fun ret t => ret=0 → Overlaid view pair t.world) (fun _ => True) s := by
  split
  · exact copyBetween_overlaid hsource htarget hprogress h hsize dstStat
  · rw [wp_bind,wp_access]
    obtain ⟨i,slot,hslot,-,-⟩ := h.dstStands
    have hfound : (slotFromHandle s pair.dstFile).isNone=false := by rw [hslot]; rfl
    have hready : Ready view pair (clFileFstat others pair.dstFile s).2 := by
      unfold clFileFstat
      rw [hfound,if_neg Bool.false_ne_true]
      rcases callOther_cases others h.dstStands OtherOps.fstat (-2,noStat)
          (fun l fstat => fstat l) with ⟨-,hresult⟩ | ⟨fstat,hfstat,hresult⟩
      · rw [hresult]
        exact h
      · rw [hresult]
        exact h.spared (Steady.spares (htarget.fstat fstat hfstat _ _) _ _)
    exact copyBetween_overlaid hsource htarget hprogress hready hsize _

/-- The whole of a copy between open files. -/
theorem copyOpened_overlaid (hsource : Stores others view pair.srcBackend)
    (htarget : Stores others view pair.dstBackend)
    (hprogress : ∀ f,progress=some f → ∀ done size w,
      Spares view pair.srcPath pair.dstPath w (f done size w).2) (h : Ready view pair s)
    (hsize : srcStat.size.toNat=pair.source.length) (dstStat : ℤ×FileStat) :
    wp (copyOpened others pair.srcFile pair.dstFile srcStat dstStat bufferSize progress fuel)
      (fun ret t => ret=0 → view.content pair.dstPath t.world=some (pair.source++
        if (others.ops pair.dstBackend).truncate.isSome then []
        else pair.first.drop pair.source.length)) (fun _ => True) s := by
  unfold copyOpened
  rw [wp_bind,wp_access]
  have hcases := clFileTruncateOpen_ready htarget h srcStat.size
  split
  next hneg =>
    rw [wp_bind,wp_access,wp_bind,wp_access,wp_pure]
    intro hzero
    omega
  next hpos =>
    rcases hcases (by omega) with ⟨hnone,hresult⟩ | ⟨hsome,hready⟩
    · rw [hnone,hresult]
      exact copyLimited_overlaid pair hsource htarget hprogress h hsize dstStat
    · have hempty : (pair.first.takeD srcStat.size.toNat 0).drop pair.source.length=[] := by
        rw [hsize]
        exact List.drop_eq_nil_of_le (by rw [List.takeD_length])
      refine wp_mono (copyLimited_overlaid
        {pair with first := pair.first.takeD srcStat.size.toNat 0} hsource htarget hprogress
        hready hsize dstStat) (fun ret t ht hzero => ?_) fun _ _ => trivial
      rw [if_pos hsome]
      have hoverlaid := ht hzero
      unfold Overlaid at hoverlaid
      dsimp only at hoverlaid
      rw [hempty] at hoverlaid
      exact hoverlaid

/-- The metadata of a path change nothing, and have the size of a file that is there. -/
theorem clFileStat_steady (hstores : ∀ backend∈backends,Stores others view backend)
    (path : CString) (s : Files W) :
    Steady view s.world (clFileStat backends others path s).2.world ∧
      (0≤(clFileStat backends others path s).1.1 → ∀ content,
        view.content path s.world=some content →
        (clFileStat backends others path s).1.2.size.toNat=content.length) := by
  have hneg : ¬(0 : ℤ)≤-2 := by decide
  unfold clFileStat
  cases hfind : findBackend backends path with
  | none => exact ⟨⟨⟨fun _ => rfl⟩,fun _ => rfl⟩,fun h => absurd h hneg⟩
  | some backend =>
    dsimp only
    cases hstat : (others.ops backend).stat with
    | none => exact ⟨⟨⟨fun _ => rfl⟩,fun _ => rfl⟩,fun h => absurd h hneg⟩
    | some stat =>
      have hspec := (hstores backend (findBackend_mem hfind)).stat stat hstat path s.world
      exact ⟨hspec.1,fun hret content hcontent => hspec.2 content hcontent hret⟩

/-- The flags of the destination create it, and empty it if it is to be overwritten. -/
theorem afterOpen_destination (flags : UInt32) (old : Option (List UInt8)) :
    afterOpen (destinationFlags flags) old=
      some (if flags &&& clpCopyOverwrite≠0 then [] else old.getD []) := by
  unfold afterOpen destinationFlags
  by_cases hover : flags &&& clpCopyOverwrite≠0
  · rw [if_pos hover,if_pos hover]
    rfl
  · rw [if_neg hover,if_neg hover]
    rfl

/-- Two files that were opened can be copied. -/
theorem ready_of_opens (hstores : ∀ backend∈backends,Stores others view backend)
    {srcPath dstPath : CString} (hne : srcPath≠dstPath) {source : List UInt8}
    (hsource : view.content srcPath s.world=some source) {flags : UInt32}
    {srcFile dstFile : ℕ} {u v : Files W}
    (hopen : clFileOpen backends srcPath clpOpenRead s=(.ok srcFile,u))
    (hopen' : clFileOpen backends dstPath (destinationFlags flags) u=(.ok dstFile,v)) :
    ∃ pair : Pair W,pair.srcFile=srcFile ∧ pair.dstFile=dstFile ∧ pair.srcPath=srcPath ∧
      pair.dstPath=dstPath ∧ pair.source=source ∧
      pair.first=(if flags &&& clpCopyOverwrite≠0 then []
        else (view.content dstPath s.world).getD []) ∧
      findBackend backends srcPath=some pair.srcBackend ∧
      findBackend backends dstPath=some pair.dstBackend ∧ Ready view pair v := by
  rcases clFileOpen_cases backends srcPath clpOpenRead s with
    ⟨ret,t,heq,-⟩ | ⟨file,t,backend,l,heq,hfind,hstands,-,hret,hl,hworld⟩
  · rw [hopen] at heq
    cases heq
  rw [hopen] at heq
  obtain ⟨hfile,hu⟩ := Prod.mk.inj heq
  obtain rfl := Except.ok.inj hfile
  obtain rfl := hu
  rcases clFileOpen_cases backends dstPath (destinationFlags flags) u with
    ⟨ret,t,heq,-⟩ | ⟨file,t,backend',l',heq,hfind',hstands',hkeeps,hret',hl',hworld'⟩
  · rw [hopen'] at heq
    cases heq
  rw [hopen'] at heq
  obtain ⟨hfile,hv⟩ := Prod.mk.inj heq
  obtain rfl := Except.ok.inj hfile
  obtain rfl := hv
  obtain ⟨-,hfirst⟩ := (hstores backend (findBackend_mem hfind)).openPath srcPath clpOpenRead
    s.world hret
  obtain ⟨hfree,hsecond⟩ := (hstores backend' (findBackend_mem hfind')).openPath dstPath
    (destinationFlags flags) u.world hret'
  rw [← hl,← hworld] at hfirst
  rw [← hl'] at hfree hsecond
  rw [← hworld'] at hsecond
  -- the second local handle was not in use
  have hdifferent : (backend.ops,l)≠(backend'.ops,l') := by
    intro hsame
    rw [← hsame,hfirst.handle] at hfree
    cases hfree
  have hbytes : view.content srcPath v.world=some source := by
    rw [hsecond.files srcPath hne,hfirst.content,hsource]
    rfl
  have hsrc := (hsecond.others _ hdifferent).trans hfirst.handle
  have hcontent := hsecond.content
  rw [afterOpen_destination,hfirst.files dstPath (Ne.symm hne)] at hcontent
  refine ⟨⟨srcFile,dstFile,backend,backend',l,l',srcPath,dstPath,source,_,hdifferent,hne⟩,rfl,
    rfl,rfl,rfl,rfl,rfl,hfind,hfind',⟨⟨⟨hbytes,⟨0,Nat.zero_le _,hsrc⟩,
    ⟨_,0,hcontent,hsecond.handle,Nat.zero_le _,rfl⟩⟩,hkeeps _ _ _ hstands,hstands'⟩,
    position_eq hsrc,?_⟩⟩
  have hlast : position view (backend'.ops,l') v.world=0 := position_eq hsecond.handle
  unfold accepted
  change List.take (position view (backend'.ops,l') _) _=[]
  rw [hlast,List.take_zero]

/-- The backend of a path can set sizes. -/
def Resizes (backends : List (Backend W)) (others : Others W) (path : CString) : Prop :=
  ∃ backend,findBackend backends path=some backend ∧ (others.ops backend).truncate.isSome

/-- A copy that returns zero leaves the source over the beginning of the destination, and
behind it what the destination had there, unless it was emptied or its size was set. -/
theorem clFileCopy_overlaid (hstores : ∀ backend∈backends,Stores others view backend)
    {srcPath dstPath : CString} (hne : srcPath≠dstPath)
    (hprogress : ∀ f,progress=some f → ∀ done size w,
      Spares view srcPath dstPath w (f done size w).2) {source : List UInt8}
    (hsource : view.content srcPath s.world=some source) (flags : UInt32) :
    wp (clFileCopyBufferedProgress backends others srcPath dstPath flags bufferSize progress
      fuel) (fun ret t => ret=0 → ∃ rest,view.content dstPath t.world=some (source++rest) ∧
        (flags &&& clpCopyOverwrite≠0 ∨ Resizes backends others dstPath → rest=[]) ∧
        (¬(flags &&& clpCopyOverwrite≠0 ∨ Resizes backends others dstPath) →
          rest=((view.content dstPath s.world).getD []).drop source.length))
      (fun _ => True) s := by
  unfold clFileCopyBufferedProgress
  split
  · exact wp_pure.mpr fun h => absurd h (by decide)
  · rw [wp_bind,wp_access]
    obtain ⟨hsteady,hsize⟩ := clFileStat_steady hstores srcPath s
    split
    next hneg =>
      rw [wp_pure]
      intro hzero
      omega
    next hpos =>
      obtain ⟨srcStat,hsrcStat⟩ : ∃ stat,stat=clFileStat backends others srcPath s :=
        ⟨_,rfl⟩
      rw [← hsrcStat] at hsteady hsize hpos ⊢
      have hlength := hsize (by omega) source hsource
      rw [wp_bind,wp_access]
      obtain ⟨hsteady',-⟩ := clFileStat_steady hstores dstPath srcStat.2
      obtain ⟨dstStat,hdstStat⟩ : ∃ stat,stat=clFileStat backends others dstPath srcStat.2 :=
        ⟨_,rfl⟩
      rw [← hdstStat] at hsteady' ⊢
      have hsource' : view.content srcPath dstStat.2.world=some source :=
        (hsteady'.content _).trans ((hsteady.content _).trans hsource)
      have hold : view.content dstPath dstStat.2.world=view.content dstPath s.world :=
        (hsteady'.content _).trans (hsteady.content _)
      rw [wp_bind,wp_access]
      have herror := clFileOpen_cases backends srcPath clpOpenRead dstStat.2
      rcases hopen : clFileOpen backends srcPath clpOpenRead dstStat.2 with ⟨ret | srcFile,u⟩
      · rw [hopen] at herror
        rcases herror with ⟨r,t,heq,hneg⟩ | ⟨_,_,_,_,heq,-⟩
        · rw [wp_pure]
          intro hzero
          rw [← Except.error.inj (Prod.mk.inj heq).1] at hneg
          omega
        · cases heq
      · dsimp only
        rw [wp_bind,wp_access]
        have herror' := clFileOpen_cases backends dstPath (destinationFlags flags) u
        rcases hopen' : clFileOpen backends dstPath (destinationFlags flags) u with
          ⟨ret | dstFile,v⟩
        · rw [hopen'] at herror'
          rcases herror' with ⟨r,t,heq,hneg⟩ | ⟨_,_,_,_,heq,-⟩
          · rw [wp_bind,wp_access,wp_pure]
            intro hzero
            rw [← Except.error.inj (Prod.mk.inj heq).1] at hneg
            omega
          · cases heq
        · dsimp only
          obtain ⟨pair,rfl,rfl,rfl,rfl,rfl,hfirst,hfind,hfind',hready⟩ :=
            ready_of_opens hstores hne hsource' hopen hopen'
          refine wp_mono (copyOpened_overlaid (hstores _ (findBackend_mem hfind))
            (hstores _ (findBackend_mem hfind')) hprogress hready hlength dstStat.1)
            (fun ret t ht hzero => ?_) fun _ _ => trivial
          refine ⟨_,ht hzero,fun hemptied => ?_,fun hkept => ?_⟩
          · split
            · rfl
            next hnone =>
              have hover : flags &&& clpCopyOverwrite≠0 := by
                rcases hemptied with hover | ⟨backend,hbackend,hsome⟩
                · exact hover
                · rw [hfind'] at hbackend
                  rw [← Option.some.inj hbackend] at hsome
                  exact absurd hsome hnone
              rw [hfirst,if_pos hover,List.drop_nil]
          · push Not at hkept
            have hnone : ¬(others.ops pair.dstBackend).truncate.isSome := fun hsome =>
              hkept.2 ⟨_,hfind',hsome⟩
            rw [if_neg hnone,hfirst,if_neg (fun h => h hkept.1),hold]

end Copies

/-- Whenever a copy returns zero, the destination has the bytes of the source exactly if it
was emptied on opening, its backend can set sizes, or it was not longer than the
source. -/
theorem copied_iff (backends : List (Backend W)) (others : Others W) (view : FileView W)
    (hstores : ∀ backend∈backends,Stores others view backend) (srcPath dstPath : CString)
    (hne : srcPath≠dstPath) (flags bufferSize : UInt32) (progress : Progress W)
    (hprogress : ∀ f,progress=some f → ∀ done size w,
      Spares view srcPath dstPath w (f done size w).2) (s t : Files W) (source : List UInt8)
    (hsource : view.content srcPath s.world=some source) (fuel : ℕ)
    (hrun : clFileCopyBufferedProgress backends others srcPath dstPath flags bufferSize
      progress fuel s=(some 0,t)) :
    view.content dstPath t.world=some source ↔ flags &&& clpCopyOverwrite≠0 ∨
      Resizes backends others dstPath ∨
      ∀ old,view.content dstPath s.world=some old → old.length≤ source.length := by
  have hcopy : wp (clFileCopyBufferedProgress backends others srcPath dstPath flags bufferSize
    progress fuel) _ _ s := clFileCopy_overlaid hstores hne hprogress hsource flags
  unfold wp at hcopy
  rw [hrun] at hcopy
  obtain ⟨rest,hcontent,hemptied,hkept⟩ := hcopy rfl
  rw [hcontent]
  have hrest : some (source++rest)=some source ↔ rest=[] := by simp
  rw [hrest]
  by_cases hset : flags &&& clpCopyOverwrite≠0 ∨ Resizes backends others dstPath
  · have hnil := hemptied hset
    refine ⟨fun _ => ?_,fun _ => hnil⟩
    rcases hset with hover | hresizes
    · exact Or.inl hover
    · exact Or.inr (Or.inl hresizes)
  · have hdrop := hkept hset
    rw [hdrop,List.drop_eq_nil_iff]
    constructor
    · intro hle
      refine Or.inr (Or.inr fun old hold => ?_)
      rw [hold] at hle
      exact hle
    · rintro (hover | hresizes | hlength)
      · exact absurd (Or.inl hover) hset
      · exact absurd (Or.inr hresizes) hset
      · cases hold : view.content dstPath s.world with
        | none => exact Nat.zero_le _
        | some old => exact hlength old hold

/-- Five bytes in one file and eight in another. -/
def longer : Files MemoryStore.Memory :=
  fresh (MemoryStore.twoFiles [1,2,3,4,5] [9,9,9,9,9,9,9,9])

/-- A copy of the five bytes over the eight, in a store with or without an operation that
sets sizes. -/
def copyOver (resizable : Bool) (flags : UInt32) : Option ℤ×Files MemoryStore.Memory :=
  clFileCopyBufferedProgress [MemoryStore.memoryBackend] (MemoryStore.memoryOthers resizable)
    MemoryStore.pathA MemoryStore.pathB flags 8 none 10 longer

/-- The equivalence for the copy that overwrites. -/
theorem copied_iff_small :
    MemoryStore.wholeView.content MemoryStore.pathB (copyOver false 2).2.world=
      some [1,2,3,4,5] ↔ (2 : UInt32) &&& clpCopyOverwrite≠0 ∨
      Resizes [MemoryStore.memoryBackend] (MemoryStore.memoryOthers false) MemoryStore.pathB ∨
      ∀ old,MemoryStore.wholeView.content MemoryStore.pathB longer.world=some old →
        old.length≤[1,2,3,4,5].length := by
  have hreturned : (copyOver false 2).1=some 0 := by decide +kernel
  refine copied_iff [MemoryStore.memoryBackend] (MemoryStore.memoryOthers false)
    MemoryStore.wholeView (fun backend hmem => ?_) MemoryStore.pathA MemoryStore.pathB
    (by decide) 2 8 none (fun f h => by cases h) longer _ [1,2,3,4,5] (by decide) 10
    (Prod.ext hreturned rfl)
  rw [List.mem_singleton.mp hmem]
  exact MemoryStore.memory_stores false

/-- In an ordinary store without an operation that sets sizes, a copy over a longer file
returns zero and leaves the tail of that file. -/
theorem copy_leaves_tail :
    Stores (MemoryStore.memoryOthers false) MemoryStore.wholeView MemoryStore.memoryBackend ∧
      MemoryStore.wholeView.content MemoryStore.pathA longer.world=some [1,2,3,4,5] ∧
      (copyOver false 0).1=some 0 ∧
      MemoryStore.wholeView.content MemoryStore.pathB (copyOver false 0).2.world=
        some [1,2,3,4,5,9,9,9] :=
  ⟨MemoryStore.memory_stores false,rfl,by decide +kernel,by
    change (copyOver false 0).2.world.files MemoryStore.pathB=_
    decide +kernel⟩

end ChisLink.FileCopy
