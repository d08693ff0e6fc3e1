import Mathlib.Algebra.BigOperators.Fin
import Mathlib.Data.Fintype.Card
import ChisLink.FileCrc32
import ChisLink.GameDatabaseFile
import ChisLink.RestrictedCopy

/-!
# The handle table

Every used slot of the file layer stands for a local handle that a backend has opened and
that was not closed. A ledger beside the state of the backends counts both. Calls and
helpers keep the books balanced: a helper leaves the slots as it has found them on every
path on which it returns, and so many local handles open.
-/

namespace ChisLink.HandleTable

open Crc32Chunks CopyStream DriverPrograms FileCrc32 FileOperations GameDatabaseFile
open LabelledRuns RestrictedCopy StorageClient WireProtocol
open FileLayer hiding Leaves Action step fresh

variable {W : Type}

/-- How often each local handle of a backend was opened, and how often its close was
called. -/
structure Ledger (W : Type) where
  /-- Opens that succeeded. -/
  opened : W → BackendOps W×UInt16 → ℕ
  /-- Calls of close. -/
  closed : W → BackendOps W×UInt16 → ℕ

/-- Nothing was opened or closed. -/
structure Ledger.Quiet (ledger : Ledger W) (w w' : W) : Prop where
  /-- Nothing was opened. -/
  opened : ledger.opened w'=ledger.opened w
  /-- Nothing was closed. -/
  closed : ledger.closed w'=ledger.closed w

/-- One more for one of several counts. -/
structure OneMore {κ : Type} (key : κ) (before after : κ → ℕ) : Prop where
  /-- This one. -/
  self : after key=before key+1
  /-- The others are as they were. -/
  others : ∀ other,other≠key → after other=before other

section Contract

variable (ledger : Ledger W)

/-- The calls of a backend are counted, whatever they return. -/
structure Counted (ops : BackendOps W) : Prop where
  /-- An open that fails opens nothing. -/
  openFails : ∀ path flags w,(ops.openPath path flags w).1.1<0 →
    ledger.Quiet w (ops.openPath path flags w).2
  /-- Otherwise it opens the local handle that it returns. -/
  openPath : ∀ path flags w,0≤(ops.openPath path flags w).1.1 →
    OneMore (ops,(ops.openPath path flags w).1.2) (ledger.opened w)
      (ledger.opened (ops.openPath path flags w).2) ∧
    ledger.closed (ops.openPath path flags w).2=ledger.closed w
  /-- Closing is counted. -/
  close : ∀ close,ops.close=some close → ∀ l w,
    OneMore (ops,l) (ledger.closed w) (ledger.closed (close l w).2) ∧
      ledger.opened (close l w).2=ledger.opened w
  /-- Reading is not. -/
  read : ∀ read,ops.read=some read → ∀ l want w,ledger.Quiet w (read l want w).2
  /-- Nor is writing. -/
  write : ∀ write,ops.write=some write → ∀ l src w,ledger.Quiet w (write l src w).2
  /-- Nor is seeking. -/
  seek : ∀ seek,ops.seek=some seek → ∀ l offset w,ledger.Quiet w (seek l offset w).2
  /-- Nor are direct windows. -/
  directRead : ∀ directRead,ops.directRead=some directRead → ∀ l want w,
    ledger.Quiet w (directRead l want w).2

/-- The other calls on such a backend open and close nothing. -/
structure OthersQuiet (others : Others W) : Prop where
  /-- Metadata of a path. -/
  stat : ∀ backend : Backend W,Counted ledger backend.ops → ∀ stat,
    (others.ops backend).stat=some stat → ∀ path w,ledger.Quiet w (stat path w).2
  /-- Metadata of a handle. -/
  fstat : ∀ backend : Backend W,Counted ledger backend.ops → ∀ fstat,
    (others.ops backend).fstat=some fstat → ∀ l w,ledger.Quiet w (fstat l w).2
  /-- Setting the size. -/
  truncate : ∀ backend : Backend W,Counted ledger backend.ops → ∀ truncate,
    (others.ops backend).truncate=some truncate → ∀ l size w,
    ledger.Quiet w (truncate l size w).2
  /-- Flushing. -/
  flush : ∀ backend : Backend W,Counted ledger backend.ops → ∀ flush,
    (others.ops backend).flush=some flush → ∀ l w,ledger.Quiet w (flush l w).2
  /-- Giving a direct window back. -/
  releaseDirect : ∀ backend : Backend W,Counted ledger backend.ops → ∀ release,
    (others.ops backend).releaseDirect=some release → ∀ l w,ledger.Quiet w (release l w).2
  /-- Direct writes. -/
  directWrite : ∀ backend : Backend W,Counted ledger backend.ops → ∀ directWrite,
    (others.ops backend).directWrite=some directWrite → ∀ l window offset length w,
    ledger.Quiet w (directWrite l window offset length w).2

/-- So do the progress callbacks. -/
def ProgressQuiet (progress : Progress W) : Prop :=
  ∀ f,progress=some f → ∀ done size w,ledger.Quiet w (f done size w).2

/-- So do the transforms. -/
def TransformQuiet (transform : Transform W) : Prop :=
  ∀ f,transform=some f → ∀ offset data w,ledger.Quiet w (f offset data w).2

/-- So does the hardware of the cartridge. -/
structure HardwareQuiet (hardware : CartHardware W) : Prop where
  /-- Reading the header. -/
  info : ∀ w,ledger.Quiet w (hardware.info w).2
  /-- Configuring the save. -/
  configureSave : ∀ saveType size w,ledger.Quiet w (hardware.configureSave saveType size w).2

end Contract

/-- The backend and the local handle of every slot. -/
def owners (s : Files W) (i : Fin clFileMaxHandles) : Option (Backend W×UInt16) :=
  (s.slots i).map fun slot => (slot.backend,slot.localHandle)

/-- The slots and the books are as they were, offsets aside. -/
structure Same (ledger : Ledger W) (s t : Files W) : Prop
    extends ledger.Quiet s.world t.world where
  /-- The slots. -/
  owners : owners t=owners s

open Classical in
/-- Number of slots that stand for a local handle. -/
noncomputable def slotCount (s : Files W) (key : BackendOps W×UInt16) : ℕ :=
  ∑ i,if (s.slots i).map FileSlot.key=some key then 1 else 0

/-- The books are balanced: of the local handles that were opened those have not been closed
that some slot stands for. Backends without a close are not told. -/
def Balanced (ledger : Ledger W) (s : Files W) : Prop :=
  ∀ key,key.1.close.isSome → ledger.opened s.world key=ledger.closed s.world key+slotCount s key

/-- The calls on every open handle are counted. -/
def Tidy (ledger : Ledger W) (s : Files W) : Prop :=
  ∀ i slot,s.slots i=some slot → Counted ledger slot.backend.ops

/-- A program that leaves the slots and the books as they were. -/
def Keeps (ledger : Ledger W) {ρ : Type} (p : Prog (Files W) ρ) : Prop :=
  ∀ s,Tidy ledger s → Same ledger s (p s).2

section Rules

variable {ledger : Ledger W} {s t u : Files W} {w : W} {ρ : Type}

theorem Ledger.Quiet.trans {w' w'' : W} (h : ledger.Quiet w w') (h' : ledger.Quiet w' w'') :
    ledger.Quiet w w'' := ⟨h'.opened.trans h.opened,h'.closed.trans h.closed⟩

theorem Same.refl (s : Files W) : Same ledger s s := ⟨⟨rfl,rfl⟩,rfl⟩

theorem Same.trans (h : Same ledger s t) (h' : Same ledger t u) : Same ledger s u :=
  ⟨h.toQuiet.trans h'.toQuiet,h'.owners.trans h.owners⟩

/-- The slots hold the same backends as before. -/
theorem Same.tidy (h : Same ledger s t) (hs : Tidy ledger s) : Tidy ledger t := by
  intro i slot hslot
  have howner := congrFun h.owners i
  unfold HandleTable.owners at howner
  rw [hslot] at howner
  obtain ⟨old,hold,hpair⟩ := Option.map_eq_some_iff.mp howner.symm
  have hbackend : old.backend=slot.backend := congrArg Prod.fst hpair
  rw [← hbackend]
  exact hs i old hold

/-- A call on the world alone. -/
theorem same_world (h : ledger.Quiet s.world w) : Same ledger s {s with world := w} := ⟨h,rfl⟩

/-- A call that also moves the offset of a slot. -/
theorem same_setSlot {i : Fin clFileMaxHandles} {slot : FileSlot W} (hslot : s.slots i=some slot)
    (h : ledger.Quiet s.world w) (offset : UInt64) :
    Same ledger s ({s with world := w}.setSlot i (some {slot with offset := offset})) := by
  refine ⟨h,?_⟩
  funext j
  unfold owners Files.setSlot
  dsimp only
  by_cases hj : j=i
  · rw [hj,Function.update_self,hslot]
    rfl
  · rw [Function.update_of_ne hj]

/-- The end of a transfer. -/
theorem finishTransfer_same {i : Fin clFileMaxHandles} {slot : FileSlot W}
    (hslot : s.slots i=some slot) (counted : Bool) {reply : Transfer×W}
    (h : ledger.Quiet s.world reply.2) :
    Same ledger s (finishTransfer s i slot counted reply).2 := by
  unfold finishTransfer
  dsimp only
  split
  · exact same_setSlot hslot h _
  · exact same_world h

/-- A call on a handle is one on its slot, or nothing. -/
theorem callSlot_same {γ : Type} (file : ℕ) (op : BackendOps W → Option γ) (refused : ρ)
    (call : Fin clFileMaxHandles → FileSlot W → γ → ρ×Files W)
    (h : ∀ i slot f,s.slots i=some slot → op slot.backend.ops=some f →
      Same ledger s (call i slot f).2) :
    Same ledger s (callSlot s file op refused call).2 := by
  unfold callSlot
  cases hfile : slotFromHandle s file with
  | none => exact Same.refl s
  | some found =>
    obtain ⟨i,slot⟩ := found
    dsimp only
    cases hop : op slot.backend.ops with
    | none => exact Same.refl s
    | some f => exact h i slot f (slots_of_slotFromHandle hfile) hop

theorem callOther_same {γ : Type} {others : Others W} (hs : Tidy ledger s) (file : ℕ)
    (op : OtherOps W → Option γ) (missing : ρ) (call : UInt16 → γ → W → ρ×W)
    (h : ∀ backend : Backend W,Counted ledger backend.ops → ∀ f,
      op (others.ops backend)=some f → ∀ l w,ledger.Quiet w (call l f w).2) :
    Same ledger s (callOther others s file op missing call).2 := by
  unfold callOther
  cases hfile : slotFromHandle s file with
  | none => exact Same.refl s
  | some found =>
    obtain ⟨i,slot⟩ := found
    dsimp only
    cases hop : op (others.ops slot.backend) with
    | none => exact Same.refl s
    | some f =>
      have hcounted := hs i slot (slots_of_slotFromHandle hfile)
      exact same_world (h slot.backend hcounted f hop _ _)

/-- A direct window is taken by a call that is counted. -/
theorem directRead_quiet {others : Others W} {backend : Backend W}
    (hcounted : Counted ledger backend.ops)
    {directRead : UInt16 → UInt32 → W → (ℤ×CopyStream.WindowReply)×W}
    (h : (others.ops backend).directRead=some directRead) (l : UInt16) (want : UInt32) (w : W) :
    ledger.Quiet w (directRead l want w).2 := by
  have hops := others.directRead_eq backend
  rw [h] at hops
  exact hcounted.directRead _ hops l want w

theorem clFileRead_same (hs : Tidy ledger s) (file : ℕ) (want : UInt32) (counted : Bool) :
    Same ledger s (clFileRead file want counted s).2 :=
  callSlot_same file _ _ _ fun i slot read hslot hread =>
    finishTransfer_same hslot counted ((hs i slot hslot).read read hread _ _ _)

theorem clFileWrite_same (hs : Tidy ledger s) (file : ℕ) (src : List UInt8) (counted : Bool) :
    Same ledger s (clFileWrite file src counted s).2 :=
  callSlot_same file _ _ _ fun i slot write hslot hwrite =>
    finishTransfer_same hslot counted ((hs i slot hslot).write write hwrite _ _ _)

theorem clFileSeek_same (hs : Tidy ledger s) (file : ℕ) (offset : UInt64) :
    Same ledger s (clFileSeek file offset s).2 := by
  refine callSlot_same file _ _ _ fun i slot seek hslot hseek => ?_
  have hquiet := (hs i slot hslot).seek seek hseek slot.localHandle offset s.world
  dsimp only
  split
  · exact same_setSlot hslot hquiet _
  · exact same_world hquiet

theorem clFileStat_same {backends : List (Backend W)} {others : Others W}
    (hbackends : ∀ backend∈backends,Counted ledger backend.ops)
    (hothers : OthersQuiet ledger others) (path : CString) :
    Same ledger s (clFileStat backends others path s).2 := by
  unfold clFileStat
  cases hfind : findBackend backends path with
  | none => exact Same.refl s
  | some backend =>
    dsimp only
    cases hstat : (others.ops backend).stat with
    | none => exact Same.refl s
    | some stat =>
      have hcounted := hbackends backend (findBackend_mem hfind)
      exact same_world (hothers.stat backend hcounted stat hstat path s.world)

theorem callProgress_same {progress : Progress W} (h : ProgressQuiet ledger progress)
    (done size : UInt64) : Same ledger s (callProgress progress done size s).2 := by
  unfold callProgress
  cases progress with
  | none => exact Same.refl s
  | some f => exact same_world (h f rfl done size s.world)

theorem callTransform_same {transform : Transform W} (h : TransformQuiet ledger transform)
    (offset : UInt64) (data : List UInt8) :
    Same ledger s (callTransform transform offset data s).2 := by
  unfold callTransform
  cases transform with
  | none => exact Same.refl s
  | some f => exact same_world (h f rfl offset data s.world)

theorem keeps_pure (a : ρ) : Keeps ledger (pure a : Prog (Files W) ρ) := fun s _ => Same.refl s

theorem keeps_access {f : Files W → ρ×Files W}
    (h : ∀ s,Tidy ledger s → Same ledger s (f s).2) : Keeps ledger (access f) := h

theorem Keeps.bind {β : Type} {p : Prog (Files W) β} {f : β → Prog (Files W) ρ}
    (hp : Keeps ledger p) (hf : ∀ b,Keeps ledger (f b)) : Keeps ledger (p >>= f) := by
  intro s hs
  have hfirst := hp s hs
  rcases hrun : p s with ⟨_ | b,t⟩
  · rw [hrun] at hfirst
    rw [bind_stuck hrun]
    exact hfirst
  · rw [hrun] at hfirst
    rw [bind_run hrun]
    exact hfirst.trans (hf b t (hfirst.tidy hs))

/-- As a part of a program that returns. -/
theorem Keeps.wp {p : Prog (Files W) ρ} (h : Keeps ledger p) (hs : Tidy ledger s) :
    wp p (fun _ t => Same ledger s t) (fun _ => True) s :=
  wp_mono (wp_iff.mpr (h s hs)) (fun _ _ h => h) (fun _ _ => trivial)

end Rules

section Loops

variable {ledger : Ledger W} {progress : Progress W} {transform : Transform W}

theorem readChunkCrc_keeps (htransform : TransformQuiet ledger transform) (file : ℕ)
    (offset : UInt64) (length bufferSize : UInt32) :
    Keeps ledger (readChunkCrc file offset length bufferSize transform) := by
  unfold readChunkCrc
  generalize length.toNat=rounds
  generalize (0 : UInt32)=done
  generalize Crc32.clCrc32Init=crc
  induction rounds generalizing done crc with
  | zero => exact keeps_pure _
  | succ rounds ih =>
    unfold readChunkRounds
    split
    · dsimp only
      generalize (if length-done<bufferSize then length-done else bufferSize)=want
      refine (keeps_access fun s hs => clFileRead_same hs _ _ _).bind fun reply => ?_
      split
      · exact keeps_pure _
      · split
        · exact keeps_pure _
        · refine (keeps_access fun s hs => callTransform_same htransform _ _).bind
            fun changed => ?_
          split
          · exact keeps_pure _
          · exact ih _ _
    · exact keeps_pure _

theorem transformQuiet_none (ledger : Ledger W) : TransformQuiet ledger none :=
  fun f h => by cases h

theorem calculateRounds_keeps (hprogress : ProgressQuiet ledger progress) (file : ℕ)
    (length : UInt64) (bufferSize : UInt32) (rounds : ℕ) (offset : UInt64)
    (chunks : ClCrc32Chunks) :
    Keeps ledger (calculateRounds file length bufferSize progress rounds offset chunks) := by
  induction rounds generalizing offset chunks with
  | zero => exact keeps_pure _
  | succ rounds ih =>
    unfold calculateRounds
    split
    · refine (readChunkCrc_keeps (transformQuiet_none ledger) _ _ _ _).bind fun reply => ?_
      cases reply with
      | error ret => exact keeps_pure _
      | ok crc =>
        refine (keeps_access fun s _ => callProgress_same hprogress _ _).bind fun ret => ?_
        split
        · exact keeps_pure _
        · exact ih _ _
    · exact keeps_pure _

theorem verifyRounds_keeps {options : FileCrc32Options W}
    (htransform : TransformQuiet ledger options.sourceTransform)
    (hprogress : ProgressQuiet ledger options.progress) (source target : ℕ) (length : UInt64)
    (rounds : ℕ) (offset : UInt64) (result : FileCrc32Result) :
    Keeps ledger (verifyRounds source target length options rounds offset result) := by
  induction rounds generalizing offset result with
  | zero => exact keeps_pure _
  | succ rounds ih =>
    unfold verifyRounds
    split
    · refine (readChunkCrc_keeps htransform _ _ _ _).bind fun reply => ?_
      cases reply with
      | error ret => exact keeps_pure _
      | ok sourceCrc =>
        refine (readChunkCrc_keeps (transformQuiet_none ledger) _ _ _ _).bind fun reply => ?_
        cases reply with
        | error ret => exact keeps_pure _
        | ok targetCrc =>
          dsimp only
          split
          · exact keeps_pure _
          · refine (keeps_access fun s _ => callProgress_same hprogress _ _).bind fun ret => ?_
            split
            · exact keeps_pure _
            · exact ih _ _
    · exact keeps_pure _

theorem compareChunk_keeps (target : ℕ) (offset : UInt64)
    (chunk bufferSize value old : UInt32) :
    Keeps ledger (compareChunk target offset chunk bufferSize value old : Prog (Files W) _) := by
  refine (readChunkCrc_keeps (transformQuiet_none ledger) _ _ _ _).bind fun reply => ?_
  cases reply with
  | error ret => exact keeps_pure _
  | ok crc =>
    dsimp only
    split
    · exact keeps_pure _
    · refine (keeps_access fun s hs => clFileSeek_same hs _ _).bind fun ret => ?_
      split
      · exact keeps_pure _
      · refine (readChunkCrc_keeps (transformQuiet_none ledger) _ _ _ _).bind fun reply => ?_
        cases reply <;> exact keeps_pure _

theorem verifyChunksRounds_keeps (hprogress : ProgressQuiet ledger progress) (target : ℕ)
    (chunks : ClCrc32Chunks) (bufferSize : UInt32) (left : ℕ) (offset : UInt64)
    (result : FileCrc32Result) :
    Keeps ledger (verifyChunksRounds target chunks bufferSize progress left offset result) := by
  induction left generalizing offset result with
  | zero => exact keeps_pure _
  | succ left ih =>
    unfold verifyChunksRounds
    refine (compareChunk_keeps _ _ _ _ _ _).bind fun reply => ?_
    dsimp only
    split
    · exact keeps_pure _
    · split
      · exact keeps_pure _
      · refine (keeps_access fun s _ => callProgress_same hprogress _ _).bind fun ret => ?_
        split
        · exact keeps_pure _
        · exact ih _ _

theorem searchRounds_keeps (file recordSize : ℕ) (gameCode : List UInt8) (rounds : ℕ)
    (left right : UInt64) :
    Keeps ledger (searchRounds file recordSize gameCode rounds left right :
      Prog (Files W) _) := by
  have hrecord : ∀ mid,Keeps ledger (readExactRecord file mid recordSize :
      Prog (Files W) _) := by
    intro mid
    refine (keeps_access fun s hs => clFileSeek_same hs _ _).bind fun ret => ?_
    split
    · exact keeps_pure _
    · refine (keeps_access fun s hs => clFileRead_same hs _ _ _).bind fun reply => ?_
      split
      · exact keeps_pure _
      · split <;> exact keeps_pure _
  induction rounds generalizing left right with
  | zero => exact keeps_pure _
  | succ rounds ih =>
    unfold searchRounds
    split
    · refine (hrecord _).bind fun reply => ?_
      cases reply with
      | error ret => exact keeps_pure _
      | ok record =>
        dsimp only
        split
        · exact keeps_pure _
        · exact ih _ _
        · exact ih _ _
    · exact keeps_pure _

/-- A copy between two open files. -/
theorem copyFiles_keeps {others : Others W} (hothers : OthersQuiet ledger others)
    (hprogress : ProgressQuiet ledger progress) (first : Files W) (source target : ℕ)
    (srcStat limits optStat : FileStat) (bufferSize : UInt32) (fuel : ℕ) :
    Keeps ledger (clCopyStream (fileSource others first source srcStat)
      (fileSink others first target limits)
      (fileCopyOptions optStat bufferSize progress) fuel) := by
  intro s hs
  have hstep : ∀ {γ : Type} (f : Files W → γ×Files W),
      (∀ t,Tidy ledger t → Same ledger t (f t).2) →
      ∀ t,Same ledger s t → Same ledger s (f t).2 :=
    fun f hf t ht => ht.trans (hf t (ht.tidy hs))
  refine clCopyStream_keeps (P:=Same ledger s) ⟨?_,?_,?_⟩ ⟨?_,?_,?_⟩ ?_ fuel (Same.refl s)
  · rintro read h want
    obtain rfl := Option.some.inj h
    exact hstep (copyReadFile source want) fun t ht => clFileRead_same ht _ _ _
  · intro directRead h want
    unfold fileSource at h
    dsimp only at h
    split at h
    · obtain rfl := Option.some.inj h
      exact hstep (copyDirectWindow others source want) fun t ht => callOther_same ht _ _ _ _
        fun backend hcounted f hf l w => directRead_quiet hcounted hf l _ w
    · cases h
  · intro release h
    unfold fileSource at h
    dsimp only at h
    split at h
    · obtain rfl := Option.some.inj h
      exact hstep (copyDirectReleaseFile others source) fun t ht => callOther_same ht _ _ _ _
        fun backend hcounted f hf l w => hothers.releaseDirect backend hcounted f hf l w
    · cases h
  · rintro write h data
    obtain rfl := Option.some.inj h
    exact hstep (copyWriteFile target data) fun t ht => clFileWrite_same ht _ _ _
  · intro directWrite h window offset length
    unfold fileSink at h
    dsimp only at h
    split at h
    · obtain rfl := Option.some.inj h
      exact hstep (copyDirectWriteFile others target window offset length) fun t ht =>
        callOther_same ht _ _ _ _ fun backend hcounted f hf l w =>
          hothers.directWrite backend hcounted f hf l _ _ _ w
    · cases h
  · rintro flush h
    obtain rfl := Option.some.inj h
    exact hstep (copyFlushFile others target) fun t ht => callOther_same ht _ _ _ _
      fun backend hcounted f hf l w => hothers.flush backend hcounted f hf l w
  · intro report h done size
    unfold fileCopyOptions at h
    dsimp only at h
    obtain ⟨f,hf,rfl⟩ := Option.map_eq_some_iff.mp h
    rw [hf] at hprogress
    exact hstep (callProgress (some f) done size) fun t ht => callProgress_same hprogress _ _

end Loops

/-- The slots are as they were, and every local handle that was opened since was closed
once. -/
structure Restored (ledger : Ledger W) (s t : Files W) : Prop where
  /-- The slots. -/
  owners : owners t=owners s
  /-- The books. -/
  balance : ∀ key,key.1.close.isSome →
    ledger.opened t.world key+ledger.closed s.world key=
      ledger.opened s.world key+ledger.closed t.world key

/-- A handle was opened: a free slot stands for a local handle of the backend. -/
structure Holding (ledger : Ledger W) (backend : Backend W) (s t : Files W) (file : ℕ) :
    Prop where
  /-- The slot. -/
  slot : ∃ i l,file=i.val+1 ∧ s.slots i=none ∧
    owners t=Function.update (owners s) i (some (backend,l)) ∧
    OneMore (backend.ops,l) (ledger.opened s.world) (ledger.opened t.world)
  /-- Nothing was closed. -/
  closed : ledger.closed t.world=ledger.closed s.world

/-- A handle was closed: its slot is free, and close was called for what it stood for. -/
structure Released (ledger : Ledger W) (s t : Files W) (file : ℕ) : Prop where
  /-- The slot. -/
  slot : ∃ i slot,file=i.val+1 ∧ s.slots i=some slot ∧
    owners t=Function.update (owners s) i none ∧
    (slot.backend.ops.close.isSome →
      OneMore slot.key (ledger.closed s.world) (ledger.closed t.world)) ∧
    (slot.backend.ops.close=none → ledger.closed t.world=ledger.closed s.world)
  /-- Nothing was opened. -/
  opened : ledger.opened t.world=ledger.opened s.world

section Handles

variable {ledger : Ledger W} {backends : List (Backend W)} {backend : Backend W}
  {s t u : Files W} {file : ℕ} {ρ : Type}

theorem Same.restored (h : Same ledger s t) : Restored ledger s t :=
  ⟨h.owners,fun _ _ => by rw [h.opened,h.closed]⟩

theorem Restored.trans (h : Restored ledger s t) (h' : Restored ledger t u) :
    Restored ledger s u := by
  refine ⟨h'.owners.trans h.owners,fun key hkey => ?_⟩
  have hfirst := h.balance key hkey
  have hsecond := h'.balance key hkey
  omega

theorem tidy_of_owners (h : owners t=owners s) (hs : Tidy ledger s) : Tidy ledger t := by
  intro i slot hslot
  have howner := congrFun h i
  unfold owners at howner
  rw [hslot] at howner
  obtain ⟨old,hold,hpair⟩ := Option.map_eq_some_iff.mp howner.symm
  have hbackend : old.backend=slot.backend := congrArg Prod.fst hpair
  rw [← hbackend]
  exact hs i old hold

theorem owners_eq_some {i : Fin clFileMaxHandles} {l : UInt16}
    (h : owners s i=some (backend,l)) :
    ∃ slot,s.slots i=some slot ∧ slot.backend=backend ∧ slot.localHandle=l := by
  obtain ⟨slot,hslot,hpair⟩ := Option.map_eq_some_iff.mp h
  obtain ⟨hbackend,hlocal⟩ := Prod.mk.inj hpair
  exact ⟨slot,hslot,hbackend,hlocal⟩

theorem owners_setSlot (s : Files W) (i : Fin clFileMaxHandles) (slot : Option (FileSlot W)) :
    owners (s.setSlot i slot)=
      Function.update (owners s) i (slot.map fun slot => (slot.backend,slot.localHandle)) := by
  funext j
  unfold owners Files.setSlot
  dsimp only
  by_cases hj : j=i
  · rw [hj,Function.update_self,Function.update_self]
  · rw [Function.update_of_ne hj,Function.update_of_ne hj]

/-- What an open does. -/
theorem clFileOpen_books (hbackends : ∀ backend∈backends,Counted ledger backend.ops)
    (path : CString) (flags : UInt32) (s : Files W) :
    (∃ ret t,clFileOpen backends path flags s=(.error ret,t) ∧ ret<0 ∧ t.slots=s.slots ∧
      Same ledger s t) ∨
    ∃ file t backend,clFileOpen backends path flags s=(.ok file,t) ∧
      findBackend backends path=some backend ∧ Holding ledger backend s t file := by
  unfold clFileOpen
  cases hfind : findBackend backends path with
  | none => exact Or.inl ⟨_,_,rfl,by decide,rfl,Same.refl s⟩
  | some backend =>
    have hcounted := hbackends backend (findBackend_mem hfind)
    dsimp only
    cases hfree : freeSlot s with
    | none => exact Or.inl ⟨_,_,rfl,by decide,rfl,Same.refl s⟩
    | some i =>
      dsimp only
      split
      next hneg =>
        exact Or.inl ⟨_,_,rfl,hneg,rfl,same_world (hcounted.openFails path flags s.world hneg)⟩
      next hpos =>
        obtain ⟨hmore,hclosed⟩ := hcounted.openPath path flags s.world (by omega)
        refine Or.inr ⟨_,_,backend,rfl,rfl,⟨⟨i,_,rfl,slots_freeSlot hfree,?_,hmore⟩,hclosed⟩⟩
        rw [owners_setSlot]
        rfl

/-- The slot of a handle. -/
theorem slot_of_slotFromHandle {i : Fin clFileMaxHandles} {slot : FileSlot W}
    (h : slotFromHandle s file=some (i,slot)) : file=i.val+1 ∧ s.slots i=some slot := by
  refine ⟨?_,slots_of_slotFromHandle h⟩
  unfold slotFromHandle at h
  obtain ⟨j,hj,hmap⟩ := Option.bind_eq_some_iff.mp h
  obtain ⟨a,-,hpair⟩ := Option.map_eq_some_iff.mp hmap
  obtain ⟨rfl,-⟩ := Prod.mk.inj hpair
  unfold slotIndex at hj
  split at hj
  next hbounds =>
    rw [← Option.some.inj hj]
    dsimp only
    omega
  next => cases hj

/-- What a close does. -/
theorem clFileClose_books (hs : Tidy ledger s) (file : ℕ) :
    Same ledger s (clFileClose file s).2 ∧ slotFromHandle s file=none ∨
      Released ledger s (clFileClose file s).2 file := by
  unfold clFileClose
  cases hfile : slotFromHandle s file with
  | none => exact Or.inl ⟨Same.refl s,rfl⟩
  | some found =>
    obtain ⟨i,slot⟩ := found
    obtain ⟨hindex,hslot⟩ := slot_of_slotFromHandle hfile
    right
    dsimp only
    cases hclose : slot.backend.ops.close with
    | none =>
      refine ⟨⟨i,slot,hindex,hslot,owners_setSlot _ _ _,fun h => ?_,fun _ => rfl⟩,rfl⟩
      rw [hclose] at h
      cases h
    | some close =>
      obtain ⟨hmore,hopened⟩ := (hs i slot hslot).close close hclose slot.localHandle s.world
      refine ⟨⟨i,slot,hindex,hslot,owners_setSlot _ _ _,fun _ => hmore,fun h => ?_⟩,hopened⟩
      rw [hclose] at h
      cases h

theorem Holding.tidy (h : Holding ledger backend s t file) (hs : Tidy ledger s)
    (hcounted : Counted ledger backend.ops) : Tidy ledger t := by
  obtain ⟨i,l,-,-,howners,-⟩ := h.slot
  intro j slot hslot
  have howner := congrFun howners j
  have hnow : owners t j=some (slot.backend,slot.localHandle) := by
    unfold owners
    rw [hslot]
    rfl
  rw [hnow] at howner
  by_cases hj : j=i
  · rw [hj,Function.update_self] at howner
    have hbackend : slot.backend=backend := congrArg Prod.fst (Option.some.inj howner)
    rw [hbackend]
    exact hcounted
  · rw [Function.update_of_ne hj] at howner
    obtain ⟨old,hold,hbackend,-⟩ := owners_eq_some howner.symm
    rw [← hbackend]
    exact hs j old hold

/-- Closing the handle that was opened restores the slots and the books. -/
theorem Holding.close (h : Holding ledger backend s t file) (hrestored : Restored ledger t u)
    (hu : Tidy ledger u) : Restored ledger s (clFileClose file u).2 := by
  obtain ⟨i,l,hindex,hfree,howners,hopened⟩ := h.slot
  have hclosed := h.closed
  have hownersU := hrestored.owners
  have hbalanceU := hrestored.balance
  have howner : owners u i=some (backend,l) := by
    rw [hownersU,howners,Function.update_self]
  obtain ⟨slot,hslot,hbackend,hlocal⟩ := owners_eq_some howner
  have hkey : slot.key=(backend.ops,l) := by
    unfold FileSlot.key
    rw [hbackend,hlocal]
  have hfile := slotFromHandle_succ u i
  rw [hslot,← hindex] at hfile
  have hnone : owners s i=none := by
    unfold owners
    rw [hfree]
    rfl
  have hback : Function.update (owners u) i none=owners s := by
    rw [hownersU,howners,Function.update_idem]
    conv_lhs => rw [← hnone]
    exact Function.update_eq_self i (owners s)
  rcases clFileClose_books hu file with ⟨-,hmissing⟩ | hreleased
  · rw [hmissing] at hfile
    cases hfile
  · obtain ⟨j,slot',hindex',hslot',howners',hone,hnot⟩ := hreleased.slot
    have hij : j=i := Fin.ext (by omega)
    rw [hij] at hslot' howners'
    rw [hslot] at hslot'
    obtain rfl := Option.some.inj hslot'
    refine ⟨howners'.trans hback,fun key hclose => ?_⟩
    have hbalance := hbalanceU key hclose
    rw [hreleased.opened]
    rw [hclosed] at hbalance
    by_cases hsame : key=(backend.ops,l)
    · have hsome : slot.backend.ops.close.isSome := by
        rw [hbackend]
        rw [hsame] at hclose
        exact hclose
      have hself := (hone hsome).self
      rw [hkey,← hsame] at hself
      have hmore := hopened.self
      rw [← hsame] at hmore
      omega
    · have hmore := hopened.others key hsame
      have hclosedSame : ledger.closed (clFileClose file u).2.world key=
          ledger.closed u.world key := by
        by_cases hsome : slot.backend.ops.close.isSome
        · exact (hone hsome).others key (by rw [hkey]; exact hsame)
        · exact congrFun (hnot (Option.not_isSome_iff_eq_none.mp hsome)) key
      omega

/-- A part of a program that keeps the books, and what follows. -/
theorem wp_keeps {β : Type} {p : Prog (Files W) β} {k : β → Prog (Files W) ρ}
    {Q : ρ → Files W → Prop} (hp : Keeps ledger p) (hs : Tidy ledger s)
    (hk : ∀ b t,Same ledger s t → wp (k b) Q (fun _ => True) t) :
    wp (p >>= k) Q (fun _ => True) s :=
  wp_bind.mpr (wp_mono (hp.wp hs) hk (fun _ _ => trivial))

/-- An open, and what follows. -/
theorem wp_open (hbackends : ∀ backend∈backends,Counted ledger backend.ops)
    {path : CString} {flags : UInt32} {k : Except ℤ ℕ → Prog (Files W) ρ}
    {Q : ρ → Files W → Prop}
    (herror : ∀ ret t,Same ledger s t → wp (k (.error ret)) Q (fun _ => True) t)
    (hok : ∀ file t backend,Holding ledger backend s t file → Counted ledger backend.ops →
      wp (k (.ok file)) Q (fun _ => True) t) :
    wp (access (clFileOpen backends path flags) >>= k) Q (fun _ => True) s := by
  rw [wp_bind,wp_access]
  rcases clFileOpen_books hbackends path flags s with ⟨ret,t,hopen,-,-,hsame⟩ |
    ⟨file,t,backend,hopen,hfind,hholding⟩
  · rw [hopen]
    exact herror ret t hsame
  · rw [hopen]
    exact hok file t backend hholding (hbackends backend (findBackend_mem hfind))

/-- The close that belongs to it, and what follows. -/
theorem wp_close {k : ℤ → Prog (Files W) ρ} {Q : ρ → Files W → Prop}
    (h : Holding ledger backend s t file) (hrestored : Restored ledger t u)
    (hu : Tidy ledger u)
    (hk : ∀ ret v,Restored ledger s v → wp (k ret) Q (fun _ => True) v) :
    wp (access (clFileClose file) >>= k) Q (fun _ => True) u := by
  rw [wp_bind,wp_access]
  exact hk _ _ (h.close hrestored hu)

end Handles

section Helpers

variable {ledger : Ledger W} {backends : List (Backend W)} {others : Others W} {s t : Files W}
  {progress : Progress W}

/-- A helper restores the slots and the books whenever it returns. -/
def Restores {ρ : Type} (ledger : Ledger W) (p : Prog (Files W) ρ) : Prop :=
  ∀ s,Tidy ledger s → wp p (fun _ t => Restored ledger s t) (fun _ => True) s

theorem stat_keeps (hbackends : ∀ backend∈backends,Counted ledger backend.ops)
    (hothers : OthersQuiet ledger others) (path : CString) :
    Keeps ledger (access (clFileStat backends others path)) :=
  keeps_access fun _ _ => clFileStat_same hbackends hothers path

theorem clFileCalculateCrc32Chunks_restores
    (hbackends : ∀ backend∈backends,Counted ledger backend.ops)
    (hothers : OthersQuiet ledger others) (hprogress : ProgressQuiet ledger progress)
    (path : CString) (length : UInt64) (chunks : ClCrc32Chunks) (bufferSize : UInt32) :
    Restores ledger (clFileCalculateCrc32Chunks backends others path length chunks bufferSize
      progress) := by
  intro s hs
  have hsame : Same ledger s s := Same.refl s
  have hdone := hsame.restored
  unfold clFileCalculateCrc32Chunks
  split
  · exact wp_pure.mpr hdone
  · split
    · exact wp_pure.mpr hdone
    · refine wp_keeps (stat_keeps hbackends hothers path) hs fun stat t ht => ?_
      split
      · exact wp_pure.mpr ht.restored
      · split
        · exact wp_pure.mpr ht.restored
        · refine wp_open hbackends (fun ret u hu => ?_) fun file u backend hu hcounted => ?_
          · exact wp_pure.mpr (ht.trans hu).restored
          · have htidy := hu.tidy (ht.tidy hs) hcounted
            refine wp_keeps (calculateRounds_keeps hprogress _ _ _ _ _ _) htidy
              fun reply v hv => ?_
            exact wp_close hu hv.restored (hv.tidy htidy) fun ret x hx =>
              wp_pure.mpr (ht.restored.trans hx)

theorem clFileVerifyCrc32Range_restores
    (hbackends : ∀ backend∈backends,Counted ledger backend.ops)
    (hothers : OthersQuiet ledger others) {options : FileCrc32Options W}
    (htransform : TransformQuiet ledger options.sourceTransform)
    (hprogress : ProgressQuiet ledger options.progress) (sourcePath targetPath : CString)
    (length : UInt64) :
    Restores ledger (clFileVerifyCrc32Range backends others sourcePath targetPath length
      options) := by
  intro s hs
  unfold clFileVerifyCrc32Range
  split
  · exact wp_pure.mpr (Same.refl s).restored
  · refine wp_keeps (stat_keeps hbackends hothers sourcePath) hs fun sourceStat t ht => ?_
    split
    · exact wp_pure.mpr ht.restored
    · refine wp_keeps (stat_keeps hbackends hothers targetPath) (ht.tidy hs) fun targetStat u hu => ?_
      have hsu := ht.trans hu
      split
      · exact wp_pure.mpr hsu.restored
      · split
        · exact wp_pure.mpr hsu.restored
        · refine wp_open hbackends (fun ret v hv => ?_) fun source v first hv hfirst => ?_
          · exact wp_pure.mpr (hsu.trans hv).restored
          · have htidyV := hv.tidy (hsu.tidy hs) hfirst
            refine wp_open hbackends (fun ret x hx => ?_) fun target x second hx hsecond => ?_
            · exact wp_close hv hx.restored (hx.tidy htidyV) fun _ y hy =>
                wp_pure.mpr (hsu.restored.trans hy)
            · have htidyX := hx.tidy htidyV hsecond
              refine wp_keeps (verifyRounds_keeps htransform hprogress _ _ _ _ _ _) htidyX
                fun reply y hy => ?_
              refine wp_close hx hy.restored (hy.tidy htidyX) fun _ z hz => ?_
              exact wp_close hv hz (tidy_of_owners hz.owners htidyV) fun _ z' hz' =>
                wp_pure.mpr (hsu.restored.trans hz')

theorem clFileVerifyCrc32_restores
    (hbackends : ∀ backend∈backends,Counted ledger backend.ops)
    (hothers : OthersQuiet ledger others) {options : FileCrc32Options W}
    (htransform : TransformQuiet ledger options.sourceTransform)
    (hprogress : ProgressQuiet ledger options.progress) (sourcePath targetPath : CString)
    (result : FileCrc32Result) :
    Restores ledger (clFileVerifyCrc32 backends others sourcePath targetPath options
      result) := by
  intro s hs
  refine wp_keeps (stat_keeps hbackends hothers sourcePath) hs fun sourceStat t ht => ?_
  split
  · exact wp_pure.mpr ht.restored
  · refine wp_keeps (stat_keeps hbackends hothers targetPath) (ht.tidy hs) fun targetStat u hu => ?_
    have hsu := ht.trans hu
    split
    · exact wp_pure.mpr hsu.restored
    · split
      · exact wp_pure.mpr hsu.restored
      · exact wp_mono (clFileVerifyCrc32Range_restores hbackends hothers htransform hprogress _ _
          _ u (hsu.tidy hs)) (fun _ v hv => hsu.restored.trans hv) fun _ _ => trivial

theorem clFileVerifyCrc32Chunks_restores
    (hbackends : ∀ backend∈backends,Counted ledger backend.ops)
    (hothers : OthersQuiet ledger others) (hprogress : ProgressQuiet ledger progress)
    (targetPath : CString) (chunks : ClCrc32Chunks) (bufferSize : UInt32) :
    Restores ledger (clFileVerifyCrc32Chunks backends others targetPath chunks bufferSize
      progress) := by
  intro s hs
  unfold clFileVerifyCrc32Chunks
  split
  · exact wp_pure.mpr (Same.refl s).restored
  · split
    · exact wp_pure.mpr (Same.refl s).restored
    · refine wp_keeps (stat_keeps hbackends hothers targetPath) hs fun targetStat t ht => ?_
      split
      · exact wp_pure.mpr ht.restored
      · split
        · exact wp_pure.mpr ht.restored
        · refine wp_open hbackends (fun ret u hu => ?_) fun target u backend hu hcounted => ?_
          · exact wp_pure.mpr (ht.trans hu).restored
          · have htidy := hu.tidy (ht.tidy hs) hcounted
            refine wp_keeps (verifyChunksRounds_keeps hprogress _ _ _ _ _ _) htidy
              fun reply v hv => ?_
            exact wp_close hu hv.restored (hv.tidy htidy) fun ret x hx =>
              wp_pure.mpr (ht.restored.trans hx)

theorem clCartGbaConfigureSaveFromGamedb_restores
    (hbackends : ∀ backend∈backends,Counted ledger backend.ops)
    (hothers : OthersQuiet ledger others) {hardware : CartHardware W}
    (hhardware : HardwareQuiet ledger hardware) (path : CString) :
    Restores ledger (clCartGbaConfigureSaveFromGamedb backends others hardware path) := by
  intro s hs
  have hinfo : Keeps ledger (access (onWorld hardware.info)) :=
    keeps_access fun s _ => same_world (hhardware.info s.world)
  refine wp_keeps hinfo hs fun cart t ht => ?_
  split
  · exact wp_pure.mpr ht.restored
  · refine wp_keeps (stat_keeps hbackends hothers path) (ht.tidy hs) fun stat u hu => ?_
    have hsu := ht.trans hu
    split
    · exact wp_pure.mpr hsu.restored
    · split
      · exact wp_pure.mpr hsu.restored
      · split
        · exact wp_pure.mpr hsu.restored
        next recordSize _ =>
          refine wp_open hbackends (fun ret v hv => ?_) fun file v backend hv hcounted => ?_
          · exact wp_pure.mpr (hsu.trans hv).restored
          · have htidy := hv.tidy (hsu.tidy hs) hcounted
            refine wp_keeps (searchRounds_keeps _ _ _ _ _ _) htidy fun found x hx => ?_
            rcases found with ret | (_ | record)
            · exact wp_close hv hx.restored (hx.tidy htidy) fun _ y hy =>
                wp_pure.mpr (hsu.restored.trans hy)
            · exact wp_close hv hx.restored (hx.tidy htidy) fun _ y hy =>
                wp_pure.mpr (hsu.restored.trans hy)
            · refine wp_close hv hx.restored (hx.tidy htidy) fun _ y hy => ?_
              have hsy := hsu.restored.trans hy
              unfold configureFound
              dsimp only
              split
              · exact wp_pure.mpr hsy
              next saveType _ =>
                have hquiet := hhardware.configureSave saveType
                  (GameDatabase.clGamedbDecodeRecord record recordSize).size y.world
                exact wp_access.mpr (hsy.trans (same_world hquiet).restored)

theorem clFileCopyBufferedProgress_restores
    (hbackends : ∀ backend∈backends,Counted ledger backend.ops)
    (hothers : OthersQuiet ledger others) (hprogress : ProgressQuiet ledger progress)
    (srcPath dstPath : CString) (flags bufferSize : UInt32) (fuel : ℕ) :
    Restores ledger (clFileCopyBufferedProgress backends others srcPath dstPath flags
      bufferSize progress fuel) := by
  intro s hs
  unfold clFileCopyBufferedProgress
  split
  · exact wp_pure.mpr (Same.refl s).restored
  · refine wp_keeps (stat_keeps hbackends hothers srcPath) hs fun srcStat t ht => ?_
    split
    · exact wp_pure.mpr ht.restored
    · refine wp_keeps (stat_keeps hbackends hothers dstPath) (ht.tidy hs) fun dstStat u hu => ?_
      have hsu := ht.trans hu
      refine wp_open hbackends (fun ret v hv => ?_) fun srcFile v first hv hfirst => ?_
      · exact wp_pure.mpr (hsu.trans hv).restored
      · have htidyV := hv.tidy (hsu.tidy hs) hfirst
        refine wp_open hbackends (fun ret x hx => ?_) fun dstFile x second hx hsecond => ?_
        · exact wp_close hv hx.restored (hx.tidy htidyV) fun _ y hy =>
            wp_pure.mpr (hsu.restored.trans hy)
        · have htidyX := hx.tidy htidyV hsecond
          -- whatever comes of the two open files, both are closed
          have hclosing : ∀ {y : Files W} (ret : ℤ → ℤ → ℤ),Same ledger x y →
              wp (access (clFileClose dstFile) >>= fun closeDst =>
                access (clFileClose srcFile) >>= fun closeSrc => pure (ret closeDst closeSrc))
                (fun _ t => Restored ledger s t) (fun _ => True) y := by
            intro y ret hy
            refine wp_close hx hy.restored (hy.tidy htidyX) fun _ z hz => ?_
            exact wp_close hv hz (tidy_of_owners hz.owners htidyV) fun _ z' hz' =>
              wp_pure.mpr (hsu.restored.trans hz')
          have htruncate : Keeps ledger
              (access (clFileTruncateOpen others dstFile srcStat.2.size)) :=
            keeps_access fun s hs => callOther_same hs _ _ _ _ fun backend hcounted f hf l w =>
              hothers.truncate backend hcounted f hf l _ w
          have hfstat : Keeps ledger (access (clFileFstat others dstFile)) := by
            refine keeps_access fun s hs => ?_
            unfold clFileFstat
            split
            · exact Same.refl s
            · exact callOther_same hs _ _ _ _ fun backend hcounted f hf l w =>
                hothers.fstat backend hcounted f hf l w
          have hbetween : ∀ {y : Files W} (dstStat : ℤ×FileStat),Same ledger x y →
              wp (copyBetween others srcFile dstFile srcStat.2 dstStat bufferSize progress fuel)
                (fun _ t => Restored ledger s t) (fun _ => True) y := by
            intro y dstStat hy
            unfold copyBetween
            rw [wp_bind,wp_inspect,wp_bind,wp_inspect]
            exact wp_keeps (copyFiles_keeps hothers hprogress y _ _ _ _ _ _ _)
              (hy.tidy htidyX) fun ret z hz => hclosing (firstError ret) (hy.trans hz)
          unfold copyOpened
          refine wp_keeps htruncate htidyX fun ret y hy => ?_
          split
          · exact hclosing (fun _ _ => ret) hy
          · split
            · exact hbetween dstStat hy
            · exact wp_keeps hfstat (hy.tidy htidyX) fun dstStat z hz =>
                hbetween dstStat (hy.trans hz)

end Helpers

end ChisLink.HandleTable
