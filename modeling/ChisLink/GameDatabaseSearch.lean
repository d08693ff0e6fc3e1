import ChisLink.GameDatabaseFile
import ChisLink.PositionedTransfers

/-!
# Searching the database in its file

The configuration of a save bisects the records of a file with a seek and a read for each
round. As long as these succeed in full the rounds are those of the search of the same bytes
in memory. Whatever the file operations come to, the search ends and the file is closed.
-/

namespace ChisLink.GameDatabaseSearch

open Bisection DriverPrograms FileLayer FileOperations GameDatabase GameDatabaseFile
open PositionedTransfers hiding slots_of_slotFromHandle
open StorageClient

variable {W : Type}

/-- Where a local handle of a backend is. -/
structure FileView (W : Type) where
  /-- The handle is open. -/
  live : W → Prop
  /-- The offset of its next transfer. -/
  position : W → ℕ

/-- A local handle reads from a file with some bytes: a seek that succeeds goes to its
offset, and a read that is not short delivers the bytes from there. -/
structure Serves (view : FileView W) (ops : BackendOps W) (l : UInt16) (bytes : List UInt8) :
    Prop where
  /-- A seek. -/
  seek : ∀ seek,ops.seek=some seek → ∀ offset w,view.live w →
    0≤(seek l offset w).1 →
      view.live (seek l offset w).2 ∧ view.position (seek l offset w).2=offset.toNat
  /-- A read. -/
  read : ∀ read,ops.read=some read → ∀ count w,view.live w →
    0≤(read l count w).1.ret → (read l count w).1.length=count →
      view.live (read l count w).2 ∧
        (read l count w).1.data=(bytes.drop (view.position w)).take count.toNat

/-- The search of an open file of some size. -/
def searchFile (file recordSize : ℕ) (gameCode : List UInt8) (size : UInt64) :
    Prog (Files W) (Except ℤ (Option (List UInt8))) :=
  let right := size/UInt64.ofNat recordSize
  searchRounds file recordSize gameCode right.toNat 0 right

/-- What follows the search once the file is closed. -/
def finishSearch (hardware : CartHardware W) (recordSize : ℕ) :
    Except ℤ (Option (List UInt8)) → Prog (Files W) ℤ
  | .error ret => pure ret
  | .ok none => pure (-4)
  | .ok (some record) => configureFound hardware recordSize record

/-- The record that the search in memory stops at. -/
def selectedRecord (bytes : List UInt8) (recordSize : ℕ) (gameCode : List UInt8) :
    Option (List UInt8) :=
  (bisect (compareCode bytes recordSize gameCode) 0 (bytes.length/recordSize)).map
    (recordAt bytes recordSize)

/-- What the search in memory returns with a record or without. -/
def memoryAnswer (recordSize : ℕ) : Option (List UInt8) → ℤ×GameSaveInfo
  | none => (-3,⟨clGameSaveNone,0⟩)
  | some record => (0,clGamedbDecodeRecord record recordSize)

/-- Every seek and every read of the rounds of a search succeeds, and no read is short. -/
def SucceedsInFull (file recordSize : ℕ) (gameCode : List UInt8) :
    ℕ → UInt64 → UInt64 → Files W → Prop
  | 0,_,_,_ => True
  | rounds+1,left,right,s =>
    left< right →
      let mid := left+((right-left) >>> 1)
      let sought := clFileSeek file (mid*UInt64.ofNat recordSize) s
      let reply := clFileRead file (UInt32.ofNat recordSize) true sought.2
      0≤ sought.1 ∧ 0≤ reply.1.ret ∧ reply.1.length=UInt32.ofNat recordSize ∧
        match compare (reply.1.data.take 4) gameCode with
        | .eq => True
        | .lt => SucceedsInFull file recordSize gameCode rounds (mid+1) right reply.2
        | .gt => SucceedsInFull file recordSize gameCode rounds left mid reply.2

section Calls

variable {s : Files W} {i : Fin clFileMaxHandles} {slot : FileSlot W} {file : ℕ}

/-- The backend behind a seek that succeeds. -/
theorem clFileSeek_backend (hslot : slotFromHandle s file=some (i,slot)) {offset : UInt64}
    (h : 0≤(clFileSeek file offset s).1) :
    ∃ seek,slot.backend.ops.seek=some seek ∧ 0≤(seek slot.localHandle offset s.world).1 ∧
      (clFileSeek file offset s).2.world=(seek slot.localHandle offset s.world).2 := by
  unfold clFileSeek callSlot at h ⊢
  rw [hslot] at h ⊢
  dsimp only at h ⊢
  cases hseek : slot.backend.ops.seek with
  | none =>
    rw [hseek] at h
    exact absurd h (by decide : ¬(0 : ℤ)≤ -1)
  | some seek =>
    rw [hseek] at h
    dsimp only at h ⊢
    refine ⟨seek,rfl,?_⟩
    by_cases hzero : (seek slot.localHandle offset s.world).1=0
    · rw [if_pos hzero]
      exact ⟨hzero.ge,rfl⟩
    · rw [if_neg hzero] at h ⊢
      exact ⟨h,rfl⟩

/-- The backend behind a read that succeeds. -/
theorem clFileRead_backend (hslot : slotFromHandle s file=some (i,slot)) {count : UInt32}
    (h : 0≤(clFileRead file count true s).1.ret) :
    ∃ read,slot.backend.ops.read=some read ∧
      (clFileRead file count true s).1=(read slot.localHandle count s.world).1 ∧
      (clFileRead file count true s).2.world=(read slot.localHandle count s.world).2 := by
  unfold clFileRead callSlot at h ⊢
  rw [hslot] at h ⊢
  dsimp only at h ⊢
  cases hread : slot.backend.ops.read with
  | none =>
    rw [hread] at h
    exact absurd h (by decide : ¬(0 : ℤ)≤ -1)
  | some read =>
    refine ⟨read,rfl,?_⟩
    dsimp only
    unfold finishTransfer
    dsimp only
    split
    · exact ⟨rfl,rfl⟩
    · exact ⟨rfl,rfl⟩

/-- What reading a record comes to. -/
theorem readExactRecord_run (file : ℕ) (index : UInt64) (recordSize : ℕ) (s : Files W) :
    readExactRecord file index recordSize s=
      let sought := clFileSeek file (index*UInt64.ofNat recordSize) s
      let reply := clFileRead file (UInt32.ofNat recordSize) true sought.2
      if sought.1<0 then (some (.error sought.1),sought.2)
      else if reply.1.ret<0 then (some (.error reply.1.ret),reply.2)
      else if reply.1.length=UInt32.ofNat recordSize then (some (.ok reply.1.data),reply.2)
      else (some (.error (-3)),reply.2) := by
  have hseek : access (clFileSeek file (index*UInt64.ofNat recordSize)) s=
      (some (clFileSeek file (index*UInt64.ofNat recordSize) s).1,
        (clFileSeek file (index*UInt64.ofNat recordSize) s).2) := rfl
  unfold readExactRecord
  rw [bind_run hseek]
  dsimp only
  generalize clFileSeek file (index*UInt64.ofNat recordSize) s=sought
  by_cases hsought : sought.1<0
  · rw [if_pos hsought,if_pos hsought]
    rfl
  rw [if_neg hsought,if_neg hsought]
  have hread : access (clFileRead file (UInt32.ofNat recordSize) true) sought.2=
      (some (clFileRead file (UInt32.ofNat recordSize) true sought.2).1,
        (clFileRead file (UInt32.ofNat recordSize) true sought.2).2) := rfl
  rw [bind_run hread]
  generalize clFileRead file (UInt32.ofNat recordSize) true sought.2=reply
  by_cases hreply : reply.1.ret<0
  · rw [if_pos hreply,if_pos hreply]
    rfl
  rw [if_neg hreply,if_neg hreply]
  by_cases hlength : reply.1.length=UInt32.ofNat recordSize
  · rw [if_pos hlength,if_pos hlength]
    rfl
  · rw [if_neg hlength,if_neg hlength]
    rfl

/-- Reading a record returns, and changes the offset of its handle at most. -/
theorem readExactRecord_total (hslot : slotFromHandle s file=some (i,slot)) (index : UInt64)
    (recordSize : ℕ) :
    ∃ read t,readExactRecord file index recordSize s=(some read,t) ∧ OnlyOffset i slot s t := by
  have hsought := onlyOffset_seek hslot (index*UInt64.ofNat recordSize)
  obtain ⟨offset,hnext⟩ := hsought.slotFromHandle hslot
  have hread := hsought.trans (onlyOffset_read hnext (UInt32.ofNat recordSize))
  rw [readExactRecord_run]
  dsimp only
  split
  · exact ⟨_,_,rfl,hsought⟩
  split
  · exact ⟨_,_,rfl,hread⟩
  split
  · exact ⟨_,_,rfl,hread⟩
  · exact ⟨_,_,rfl,hread⟩

/-- The search ends, whatever the file operations come to. -/
theorem searchRounds_total (recordSize : ℕ) (gameCode : List UInt8) (rounds : ℕ)
    (left right : UInt64) (hslot : slotFromHandle s file=some (i,slot)) :
    ∃ found t,searchRounds file recordSize gameCode rounds left right s=(some found,t) ∧
      OnlyOffset i slot s t := by
  induction rounds generalizing left right s slot with
  | zero => exact ⟨.ok none,s,rfl,onlyOffset_world (slots_of_slotFromHandle hslot) s.world⟩
  | succ rounds ih =>
    unfold searchRounds
    by_cases hlt : left< right
    · rw [if_pos hlt]
      obtain ⟨read,t,hrun,honly⟩ :=
        readExactRecord_total hslot (left+((right-left) >>> 1)) recordSize
      obtain ⟨offset,hnext⟩ := honly.slotFromHandle hslot
      rw [bind_run hrun]
      cases read with
      | error ret => exact ⟨.error ret,t,rfl,honly⟩
      | ok record =>
        dsimp only
        cases compare (record.take 4) gameCode with
        | eq => exact ⟨.ok (some record),t,rfl,honly⟩
        | lt =>
          obtain ⟨found,u,hsearch,hsame⟩ := ih (left+((right-left) >>> 1)+1) right hnext
          exact ⟨found,u,hsearch,honly.trans hsame⟩
        | gt =>
          obtain ⟨found,u,hsearch,hsame⟩ := ih left (left+((right-left) >>> 1)) hnext
          exact ⟨found,u,hsearch,honly.trans hsame⟩
    · rw [if_neg hlt]
      exact ⟨.ok none,s,rfl,onlyOffset_world (slots_of_slotFromHandle hslot) s.world⟩

end Calls

section Search

variable {s : Files W} {i : Fin clFileMaxHandles} {slot : FileSlot W} {file : ℕ}
  {view : FileView W} {bytes gameCode : List UInt8} {recordSize : ℕ}

/-- The middle of an interval of indices. -/
theorem toNat_middle {left right : UInt64} (h : left< right) :
    (left+((right-left) >>> 1)).toNat=left.toNat+(right.toNat-left.toNat)/2 := by
  have hlt : left.toNat< right.toNat := UInt64.lt_iff_toNat_lt.mp h
  have hbound := right.toNat_lt
  have hsub : (right-left).toNat=right.toNat-left.toNat :=
    UInt64.toNat_sub_of_le right left (UInt64.le_of_lt h)
  have hhalf : ((right-left) >>> 1).toNat=(right.toNat-left.toNat)/2 := by
    rw [UInt64.toNat_shiftRight,hsub]
    exact Nat.shiftRight_one _
  rw [UInt64.toNat_add,hhalf]
  exact Nat.mod_eq_of_lt (by omega)

/-- A record that is read in full is the one of the bytes. -/
theorem readExactRecord_serves (hslot : slotFromHandle s file=some (i,slot))
    (hserves : Serves view slot.backend.ops slot.localHandle bytes) (hlive : view.live s.world)
    {index : UInt64} (hindex : index.toNat*recordSize<2^64) (hsize : recordSize<2^32)
    (hseek : 0≤(clFileSeek file (index*UInt64.ofNat recordSize) s).1)
    (hret : 0≤(clFileRead file (UInt32.ofNat recordSize) true
      (clFileSeek file (index*UInt64.ofNat recordSize) s).2).1.ret)
    (hlength : (clFileRead file (UInt32.ofNat recordSize) true
      (clFileSeek file (index*UInt64.ofNat recordSize) s).2).1.length=UInt32.ofNat recordSize) :
    (clFileRead file (UInt32.ofNat recordSize) true
        (clFileSeek file (index*UInt64.ofNat recordSize) s).2).1.data=
        recordAt bytes recordSize index.toNat ∧
      view.live (clFileRead file (UInt32.ofNat recordSize) true
        (clFileSeek file (index*UInt64.ofNat recordSize) s).2).2.world := by
  have hoffset : (index*UInt64.ofNat recordSize).toNat=index.toNat*recordSize := by
    have hsmall : (UInt64.ofNat recordSize).toNat=recordSize :=
      Nat.mod_eq_of_lt (by omega : recordSize<2^64)
    rw [UInt64.toNat_mul,hsmall]
    exact Nat.mod_eq_of_lt hindex
  have hcount : (UInt32.ofNat recordSize).toNat=recordSize := Nat.mod_eq_of_lt hsize
  obtain ⟨offset,hnext⟩ :=
    (onlyOffset_seek hslot (index*UInt64.ofNat recordSize)).slotFromHandle hslot
  obtain ⟨seek,hseekOp,hsought,hworld⟩ := clFileSeek_backend hslot hseek
  obtain ⟨hthere,hposition⟩ := hserves.seek seek hseekOp _ _ hlive hsought
  rw [← hworld] at hthere hposition
  obtain ⟨read,hreadOp,hreply,hend⟩ := clFileRead_backend hnext hret
  rw [hreply] at hret hlength
  obtain ⟨hstill,hdata⟩ := hserves.read read hreadOp _ _ hthere hret hlength
  refine ⟨?_,by rw [hend]; exact hstill⟩
  rw [hreply,hdata,hposition,hoffset,hcount]
  rfl

/-- As long as the file operations succeed in full, the rounds are those of the search in
memory. -/
theorem searchRounds_selects (hslot : slotFromHandle s file=some (i,slot))
    (hserves : Serves view slot.backend.ops slot.localHandle bytes) (hlive : view.live s.world)
    (hsize : recordSize<2^32) (hbytes : bytes.length<2^32)
    (rounds : ℕ) (left right : UInt64) (hrounds : right.toNat-left.toNat≤ rounds)
    (hright : right.toNat*recordSize≤ bytes.length)
    (h : SucceedsInFull file recordSize gameCode rounds left right s) :
    (searchRounds file recordSize gameCode rounds left right s).1=
      some (.ok ((bisect (compareCode bytes recordSize gameCode) left.toNat right.toNat).map
        (recordAt bytes recordSize))) := by
  induction rounds generalizing left right s slot with
  | zero =>
    rw [bisect,if_neg (by omega)]
    rfl
  | succ rounds ih =>
    unfold searchRounds
    rw [bisect]
    by_cases hlt : left< right
    · have hnat : left.toNat< right.toNat := UInt64.lt_iff_toNat_lt.mp hlt
      have hmid := toNat_middle hlt
      obtain ⟨hseek,hret,hlength,hrest⟩ := h hlt
      rw [if_pos hlt,if_pos hnat]
      generalize left+((right-left) >>> 1)=mid at hmid hseek hret hlength hrest ⊢
      have hlast : mid.toNat*recordSize≤ right.toNat*recordSize :=
        Nat.mul_le_mul_right recordSize (by omega)
      obtain ⟨hdata,hthere⟩ := readExactRecord_serves hslot hserves hlive
        (by omega) hsize hseek hret hlength
      obtain ⟨offset,hfirst⟩ :=
        (onlyOffset_seek hslot (mid*UInt64.ofNat recordSize)).slotFromHandle hslot
      obtain ⟨offset',hnext⟩ :=
        (onlyOffset_read hfirst (UInt32.ofNat recordSize)).slotFromHandle hfirst
      have hrun : readExactRecord file mid recordSize s=
          (some (.ok (recordAt bytes recordSize mid.toNat)),
            (clFileRead file (UInt32.ofNat recordSize) true
              (clFileSeek file (mid*UInt64.ofNat recordSize) s).2).2) := by
        rw [readExactRecord_run]
        dsimp only
        rw [if_neg (by omega),if_neg (by omega),if_pos hlength,hdata]
      rw [bind_run hrun]
      dsimp only
      rw [hdata] at hrest
      rw [← hmid]
      have htest : compare ((recordAt bytes recordSize mid.toNat).take 4) gameCode=
          compareCode bytes recordSize gameCode mid.toNat := rfl
      rw [htest] at hrest ⊢
      cases hcompare : compareCode bytes recordSize gameCode mid.toNat with
      | eq => rfl
      | lt =>
        rw [hcompare] at hrest
        have hsucc : (mid+1).toNat=mid.toNat+1 := by
          have hbound := right.toNat_lt
          rw [UInt64.toNat_add]
          exact Nat.mod_eq_of_lt (by
            have hone : (1 : UInt64).toNat=1 := rfl
            omega)
        have hnextRounds := ih hnext hserves hthere (mid+1) right (by omega) hright hrest
        rw [hsucc] at hnextRounds
        exact hnextRounds
      | gt =>
        rw [hcompare] at hrest
        exact ih hnext hserves hthere left mid (by omega) (hlast.trans hright) hrest
    · have hnat : ¬left.toNat< right.toNat := fun h => hlt (UInt64.lt_iff_toNat_lt.mpr h)
      rw [if_neg hlt,if_neg hnat]
      rfl

end Search

section Calls

variable (backends : List (Backend W)) (others : Others W) (hardware : CartHardware W)
  (path : CString) (s : Files W)

/-- The calls before the search succeed. -/
structure Opens (size : UInt64) (recordSize file : ℕ) (t : Files W) : Prop where
  /-- The information of the cartridge. -/
  info : 0≤(onWorld hardware.info s).1.1
  /-- The metadata of the file. -/
  stat : 0≤(clFileStat backends others path (onWorld hardware.info s).2).1.1
  /-- The size of the file. -/
  size_eq : (clFileStat backends others path (onWorld hardware.info s).2).1.2.size=size
  /-- It is in range. -/
  bounds : ¬(size<5 ∨ 0xffffffff<size)
  /-- The size of its records. -/
  recordSize_eq : clGamedbRecordSize size.toNat=.ok recordSize
  /-- The file is opened. -/
  opened : clFileOpen backends path clpOpenRead
    (clFileStat backends others path (onWorld hardware.info s).2).2=(.ok file,t)

end Calls

section Runs

variable {backends : List (Backend W)} {others : Others W} {hardware : CartHardware W}
  {path : CString} {s t u : Files W} {file recordSize : ℕ} {size : UInt64}

/-- A handle that is opened stands for a slot that was free. -/
theorem clFileOpen_opened {flags : UInt32}
    (h : clFileOpen backends path flags s=(.ok file,t)) :
    ∃ i slot,slotFromHandle t file=some (i,slot) ∧ s.slots i=none ∧
      t.slots=Function.update s.slots i (some slot) := by
  unfold clFileOpen at h
  cases hbackend : findBackend backends path with
  | none => rw [hbackend] at h; cases h
  | some backend =>
    rw [hbackend] at h
    dsimp only at h
    cases hfree : freeSlot s with
    | none => rw [hfree] at h; cases h
    | some i =>
      rw [hfree] at h
      dsimp only at h
      split at h
      · cases h
      · cases h
        refine ⟨i,_,?_,slots_freeSlot hfree,rfl⟩
        rw [slotFromHandle_succ]
        dsimp only [Files.setSlot]
        rw [Function.update_self]
        rfl

/-- Closing frees the slot. -/
theorem clFileClose_slots {i : Fin clFileMaxHandles} {slot : FileSlot W}
    (h : slotFromHandle s file=some (i,slot)) :
    (clFileClose file s).2.slots=Function.update s.slots i none := by
  unfold clFileClose
  rw [h]
  dsimp only
  cases slot.backend.ops.close <;> rfl

/-- What the search leaves of the file is closed. -/
theorem slots_closed (hopen : clFileOpen backends path clpOpenRead s=(.ok file,t))
    (hsearch : ∀ i slot,slotFromHandle t file=some (i,slot) → OnlyOffset i slot t u) :
    (clFileClose file u).2.slots=s.slots := by
  obtain ⟨i,slot,hslot,hfree,hopened⟩ := clFileOpen_opened hopen
  have honly := hsearch i slot hslot
  obtain ⟨offset,hnext⟩ := honly.slotFromHandle hslot
  obtain ⟨offset',hslots⟩ := honly
  rw [clFileClose_slots hnext,hslots,hopened,Function.update_idem,Function.update_idem,← hfree,
    Function.update_eq_self]

/-- The configuration of the hardware leaves the files alone. -/
theorem finishSearch_total (hardware : CartHardware W) (recordSize : ℕ)
    (found : Except ℤ (Option (List UInt8))) (s : Files W) :
    ∃ ret t,finishSearch hardware recordSize found s=(some ret,t) ∧ t.slots=s.slots := by
  rcases found with ret | _ | record
  · exact ⟨ret,s,rfl,rfl⟩
  · exact ⟨-4,s,rfl,rfl⟩
  · unfold finishSearch configureFound
    dsimp only
    cases mapGamedbSaveType (clGamedbDecodeRecord record recordSize).type with
    | error ret => exact ⟨ret,s,rfl,rfl⟩
    | ok saveType => exact ⟨_,_,rfl,rfl⟩

/-- After the file is opened the configuration is a search, a close and what follows. -/
theorem configure_run (h : Opens backends others hardware path s size recordSize file t)
    {found : Except ℤ (Option (List UInt8))}
    (hsearch : searchFile file recordSize (onWorld hardware.info s).1.2 size t=
      (some found,u)) :
    clCartGbaConfigureSaveFromGamedb backends others hardware path s=
      finishSearch hardware recordSize found (clFileClose file u).2 := by
  obtain ⟨hinfo,hstat,hsize,hbounds,hrecord,hopen⟩ := h
  rcases hcart : onWorld hardware.info s with ⟨cart,v⟩
  rw [hcart] at hinfo hstat hsize hopen hsearch
  rcases hmeta : clFileStat backends others path v with ⟨stat,w⟩
  rw [hmeta] at hstat hsize hopen
  unfold clCartGbaConfigureSaveFromGamedb
  rw [bind_run (access_run hcart),if_neg (not_lt.mpr hinfo),bind_run (access_run hmeta),
    if_neg (not_lt.mpr hstat)]
  dsimp only at hsize
  rw [hsize,if_neg hbounds,hrecord]
  dsimp only
  rw [bind_run (access_run hopen)]
  dsimp only
  unfold searchFile at hsearch
  dsimp only at hsearch
  rw [bind_run hsearch]
  have hclose : access (clFileClose file) u=
      (some (clFileClose file u).1,(clFileClose file u).2) := rfl
  rcases found with ret | _ | record
  · exact bind_run hclose
  · exact bind_run hclose
  · exact bind_run hclose

/-- A stat leaves the handles alone. -/
theorem slots_clFileStat (backends : List (Backend W)) (others : Others W) (path : CString)
    (s : Files W) : (clFileStat backends others path s).2.slots=s.slots := by
  unfold clFileStat
  cases findBackend backends path with
  | none => rfl
  | some backend =>
    dsimp only
    cases (others.ops backend).stat <;> rfl

/-- An open that fails leaves the handles alone. -/
theorem slots_clFileOpen_error {flags : UInt32} {ret : ℤ}
    (h : clFileOpen backends path flags s=(.error ret,t)) : t.slots=s.slots := by
  unfold clFileOpen at h
  cases hbackend : findBackend backends path with
  | none => rw [hbackend] at h; cases h; rfl
  | some backend =>
    rw [hbackend] at h
    dsimp only at h
    cases hfree : freeSlot s with
    | none => rw [hfree] at h; cases h; rfl
    | some i =>
      rw [hfree] at h
      dsimp only at h
      split at h
      · cases h; rfl
      · cases h

/-- Without an open file the configuration ends, and leaves the handles as they were. -/
theorem configure_refused
    (h : ∀ size recordSize file t,
      ¬Opens backends others hardware path s size recordSize file t) :
    ∃ ret t,clCartGbaConfigureSaveFromGamedb backends others hardware path s=(some ret,t) ∧
      t.slots=s.slots := by
  have hsame : (onWorld hardware.info s).2.slots=s.slots := rfl
  rcases hcart : onWorld hardware.info s with ⟨cart,v⟩
  rw [hcart] at hsame
  have hstatSlots := slots_clFileStat backends others path v
  rcases hmeta : clFileStat backends others path v with ⟨stat,w⟩
  rw [hmeta,hsame] at hstatSlots
  unfold clCartGbaConfigureSaveFromGamedb
  rw [bind_run (access_run hcart)]
  by_cases hinfo : cart.1<0
  · rw [if_pos hinfo]
    exact ⟨cart.1,v,rfl,hsame⟩
  rw [if_neg hinfo,bind_run (access_run hmeta)]
  by_cases hstat : stat.1<0
  · rw [if_pos hstat]
    exact ⟨stat.1,w,rfl,hstatSlots⟩
  rw [if_neg hstat]
  by_cases hbounds : stat.2.size<5 ∨ 0xffffffff<stat.2.size
  · rw [if_pos hbounds]
    exact ⟨-2,w,rfl,hstatSlots⟩
  rw [if_neg hbounds]
  cases hrecord : clGamedbRecordSize stat.2.size.toNat with
  | error ret => exact ⟨ret,w,rfl,hstatSlots⟩
  | ok recordSize =>
    dsimp only
    rcases hopen : clFileOpen backends path clpOpenRead w with ⟨ret | file,t⟩
    · rw [bind_run (access_run hopen)]
      exact ⟨ret,t,rfl,(slots_clFileOpen_error hopen).trans hstatSlots⟩
    · refine absurd ?_ (h stat.2.size recordSize file t)
      refine ⟨?_,?_,?_,hbounds,hrecord,?_⟩
      · rw [hcart]
        exact not_lt.mp hinfo
      · rw [hcart,hmeta]
        exact not_lt.mp hstat
      · rw [hcart,hmeta]
      · rw [hcart,hmeta]
        exact hopen

/-- The search of the file that is opened, and the close behind it. -/
theorem configure_closes (h : Opens backends others hardware path s size recordSize file t) :
    ∃ found u,searchFile file recordSize (onWorld hardware.info s).1.2 size t=(some found,u) ∧
      clCartGbaConfigureSaveFromGamedb backends others hardware path s=
        finishSearch hardware recordSize found (clFileClose file u).2 ∧
      (clFileClose file u).2.slots=s.slots := by
  obtain ⟨i,slot,hslot,-,-⟩ := clFileOpen_opened h.opened
  obtain ⟨found,u,hsearch,honly⟩ := searchRounds_total recordSize
    (onWorld hardware.info s).1.2 (size/UInt64.ofNat recordSize).toNat 0
    (size/UInt64.ofNat recordSize) hslot
  refine ⟨found,u,hsearch,configure_run h hsearch,?_⟩
  have hsame : (onWorld hardware.info s).2.slots=s.slots := rfl
  rw [slots_closed h.opened fun j other hother => ?_,slots_clFileStat,hsame]
  rw [hslot] at hother
  cases hother
  exact honly

/-- The whole configuration ends, and leaves the handles as they were. -/
theorem configure_total (backends : List (Backend W)) (others : Others W)
    (hardware : CartHardware W) (path : CString) (s : Files W) :
    ∃ ret t,clCartGbaConfigureSaveFromGamedb backends others hardware path s=(some ret,t) ∧
      t.slots=s.slots := by
  by_cases h : ∃ size recordSize file t,
      Opens backends others hardware path s size recordSize file t
  · obtain ⟨size,recordSize,file,t,hopens⟩ := h
    obtain ⟨found,u,-,hrun,hslots⟩ := configure_closes hopens
    obtain ⟨ret,v,hfinish,hsame⟩ := finishSearch_total hardware recordSize found
      (clFileClose file u).2
    exact ⟨ret,v,hrun.trans hfinish,hsame.trans hslots⟩
  · exact configure_refused fun size recordSize file t hopens =>
      h ⟨size,recordSize,file,t,hopens⟩

end Runs

section Sizes

variable {bytes : List UInt8} {recordSize n : ℕ}

/-- The sizes of records. -/
theorem recordSize_of_ok (h : clGamedbRecordSize n=.ok recordSize) :
    (recordSize=5 ∨ recordSize=9) ∧ 5≤ n := by
  unfold clGamedbRecordSize at h
  split at h
  · cases h
  split at h
  · cases h
    exact ⟨Or.inl rfl,by omega⟩
  split at h
  · cases h
    exact ⟨Or.inr rfl,by omega⟩
  · cases h

/-- A size that is refused has a negative result. -/
theorem recordSize_of_error {ret : ℤ} (h : clGamedbRecordSize n=.error ret) : ret<0 := by
  unfold clGamedbRecordSize at h
  split at h
  · cases h; decide
  split at h
  · cases h
  split at h
  · cases h
  · cases h; decide

/-- The search in memory in terms of the record it stops at. -/
theorem clGamedbSearchRecords_eq (gameCode : List UInt8)
    (h : clGamedbRecordSize bytes.length=.ok recordSize) :
    clGamedbSearchRecords bytes gameCode=
      memoryAnswer recordSize (selectedRecord bytes recordSize gameCode) := by
  unfold clGamedbSearchRecords selectedRecord
  rw [h]
  dsimp only
  cases bisect (compareCode bytes recordSize gameCode) 0 (bytes.length/recordSize) <;> rfl

end Sizes

section Agreement

variable {backends : List (Backend W)} {others : Others W} {hardware : CartHardware W}
  {path : CString} {s t : Files W} {file recordSize : ℕ} {bytes : List UInt8}

/-- A file without a size of records is refused before it is opened. -/
theorem configure_badSize {ret : ℤ} (hbytes : bytes.length<2^32)
    (hinfo : 0≤(onWorld hardware.info s).1.1)
    (hstat : 0≤(clFileStat backends others path (onWorld hardware.info s).2).1.1)
    (hsize : (clFileStat backends others path (onWorld hardware.info s).2).1.2.size.toNat=
      bytes.length)
    (h : clGamedbRecordSize bytes.length=.error ret) :
    ∃ result,result<0 ∧ clCartGbaConfigureSaveFromGamedb backends others hardware path s=
      (some result,(clFileStat backends others path (onWorld hardware.info s).2).2) := by
  rcases hcart : onWorld hardware.info s with ⟨cart,v⟩
  rw [hcart] at hinfo hstat hsize
  rcases hmeta : clFileStat backends others path v with ⟨stat,w⟩
  rw [hmeta] at hstat hsize
  dsimp only at hsize
  unfold clCartGbaConfigureSaveFromGamedb
  rw [bind_run (access_run hcart),if_neg (not_lt.mpr hinfo),bind_run (access_run hmeta),
    if_neg (not_lt.mpr hstat)]
  by_cases hbounds : stat.2.size<5 ∨ 0xffffffff<stat.2.size
  · rw [if_pos hbounds]
    exact ⟨-2,by decide,rfl⟩
  · rw [if_neg hbounds,hsize,h]
    exact ⟨ret,recordSize_of_error h,rfl⟩

/-- Where the file operations of the search succeed in full it selects the record that the
search in memory stops at. -/
theorem searchFile_selects {size : UInt64} {gameCode : List UInt8} {i : Fin clFileMaxHandles}
    {slot : FileSlot W} {view : FileView W} (hbytes : bytes.length<2^32)
    (hsize : size.toNat=bytes.length) (hrecord : clGamedbRecordSize bytes.length=.ok recordSize)
    (hslot : slotFromHandle t file=some (i,slot))
    (hserves : Serves view slot.backend.ops slot.localHandle bytes) (hlive : view.live t.world)
    (h : SucceedsInFull file recordSize gameCode (size/UInt64.ofNat recordSize).toNat 0
      (size/UInt64.ofNat recordSize) t) :
    (searchFile file recordSize gameCode size t).1=
      some (.ok (selectedRecord bytes recordSize gameCode)) := by
  obtain ⟨hsizes,-⟩ := recordSize_of_ok hrecord
  have hsmall : recordSize<2^32 := by omega
  have hcount : (size/UInt64.ofNat recordSize).toNat=bytes.length/recordSize := by
    have hsame : (UInt64.ofNat recordSize).toNat=recordSize :=
      Nat.mod_eq_of_lt (by omega : recordSize<2^64)
    rw [UInt64.toNat_div,hsize,hsame]
  have hselects := searchRounds_selects hslot hserves hlive hsmall hbytes
    (size/UInt64.ofNat recordSize).toNat 0 (size/UInt64.ofNat recordSize) (Nat.sub_le _ _)
    (by rw [hcount]; exact Nat.div_mul_le_self _ _) h
  have hselected : selectedRecord bytes recordSize gameCode=
      (bisect (compareCode bytes recordSize gameCode) (0 : UInt64).toNat
        (size/UInt64.ofNat recordSize).toNat).map (recordAt bytes recordSize) := by
    rw [hcount]
    rfl
  rw [hselected]
  exact hselects

/-- The search of the file ends and closes the file whatever the file operations come to,
and as long as they succeed in full it is the search of the same bytes in memory. -/
theorem file_search_eq_memory (backends : List (Backend W)) (others : Others W)
    (hardware : CartHardware W) (path : CString) (s : Files W) :
    (∃ ret t,clCartGbaConfigureSaveFromGamedb backends others hardware path s=(some ret,t) ∧
      t.slots=s.slots) ∧
    (∀ size recordSize file t,
      Opens backends others hardware path s size recordSize file t →
        ∃ found u,searchFile file recordSize (onWorld hardware.info s).1.2 size t=
            (some found,u) ∧
          clCartGbaConfigureSaveFromGamedb backends others hardware path s=
            finishSearch hardware recordSize found (clFileClose file u).2 ∧
          (clFileClose file u).2.slots=s.slots) ∧
    ∀ bytes : List UInt8,bytes.length<2^32 → 0≤(onWorld hardware.info s).1.1 →
      0≤(clFileStat backends others path (onWorld hardware.info s).2).1.1 →
      (clFileStat backends others path (onWorld hardware.info s).2).1.2.size.toNat=
        bytes.length →
      match clGamedbRecordSize bytes.length with
      | .error _ => (clGamedbSearchRecords bytes (onWorld hardware.info s).1.2).1<0 ∧
        ∃ ret,ret<0 ∧ clCartGbaConfigureSaveFromGamedb backends others hardware path s=
          (some ret,(clFileStat backends others path (onWorld hardware.info s).2).2)
      | .ok recordSize =>
        clGamedbSearchRecords bytes (onWorld hardware.info s).1.2=memoryAnswer recordSize
          (selectedRecord bytes recordSize (onWorld hardware.info s).1.2) ∧
        ∀ size file t i slot view,
          Opens backends others hardware path s size recordSize file t →
          slotFromHandle t file=some (i,slot) →
          Serves view slot.backend.ops slot.localHandle bytes → view.live t.world →
          SucceedsInFull file recordSize (onWorld hardware.info s).1.2
            (size/UInt64.ofNat recordSize).toNat 0 (size/UInt64.ofNat recordSize) t →
          ∃ u,searchFile file recordSize (onWorld hardware.info s).1.2 size t=
              (some (.ok (selectedRecord bytes recordSize (onWorld hardware.info s).1.2)),u) ∧
            clCartGbaConfigureSaveFromGamedb backends others hardware path s=
              finishSearch hardware recordSize
                (.ok (selectedRecord bytes recordSize (onWorld hardware.info s).1.2))
                (clFileClose file u).2 := by
  refine ⟨configure_total backends others hardware path s,
    fun size recordSize file t hopens => configure_closes hopens,?_⟩
  intro bytes hbytes hinfo hstat hsize
  cases hrecord : clGamedbRecordSize bytes.length with
  | error ret =>
    refine ⟨?_,configure_badSize hbytes hinfo hstat hsize hrecord⟩
    unfold clGamedbSearchRecords
    rw [hrecord]
    exact recordSize_of_error hrecord
  | ok recordSize =>
    refine ⟨clGamedbSearchRecords_eq _ hrecord,?_⟩
    intro size file t i slot view hopens hslot hserves hlive hfull
    have hlength : size.toNat=bytes.length := by
      rw [← hopens.size_eq]
      exact hsize
    have hselects := searchFile_selects hbytes hlength hrecord hslot hserves hlive hfull
    obtain ⟨found,u,hsearch,hrun,-⟩ := configure_closes hopens
    rw [hsearch] at hselects
    cases hselects
    exact ⟨u,hsearch,hrun⟩

/-- One record of a game. -/
def oneRecord : List UInt8 := [65,66,67,68,1]

/-- A backend with one file of one record. Its state is the offset. -/
def recordBackend : Backend ℕ :=
  ⟨⟨[47],slash_noNul⟩,1,
    { openPath := fun _ _ _ => ((0,0),0)
      close := some fun _ w => (0,w)
      read := some fun _ count w =>
        (⟨0,(oneRecord.drop w).take count.toNat,
          UInt32.ofNat ((oneRecord.drop w).take count.toNat).length⟩,w+count.toNat)
      write := none
      directRead := none
      seek := some fun _ offset _ => (0,offset.toNat) }⟩

/-- Every path is a file of five bytes. -/
def recordOthers : Others ℕ where
  ops backend :=
    { stat := some fun _ w => ((0,⟨5,0,0,0,0,0⟩),w)
      fstat := none
      truncate := none
      flush := none
      directRead := match backend.ops.directRead with
        | none => none
        | some directRead => some fun l length w =>
          let reply := directRead l length w
          ((reply.1.1,.null reply.1.2),reply.2)
      releaseDirect := none
      directWrite := none }
  directRead_eq backend := by
    cases h : backend.ops.directRead <;> rfl

/-- A cartridge of the game. -/
def recordHardware : CartHardware ℕ where
  info w := ((0,[65,66,67,68]),w)
  configureSave _ _ w := (0,w)

/-- After the open. -/
def recordOpened : Files ℕ :=
  (clFileOpen [recordBackend] ⟨[47],slash_noNul⟩ clpOpenRead (fresh 0)).2

/-- The one record is selected. -/
theorem file_search_eq_memory_one :
    ∃ u,searchFile 1 5 [65,66,67,68] 5 recordOpened=
        (some (.ok (selectedRecord oneRecord 5 [65,66,67,68])),u) ∧
      clCartGbaConfigureSaveFromGamedb [recordBackend] recordOthers recordHardware
        ⟨[47],by decide⟩ (fresh 0)=
        finishSearch recordHardware 5 (.ok (selectedRecord oneRecord 5 [65,66,67,68]))
          (clFileClose 1 u).2 := by
  have h := (file_search_eq_memory [recordBackend] recordOthers recordHardware
    ⟨[47],by decide⟩ (fresh 0)).2.2 oneRecord (by decide) le_rfl le_rfl rfl
  refine h.2 5 1 recordOpened ⟨0,by decide⟩ ⟨recordBackend,0,0⟩ ⟨fun _ => True,id⟩
    ⟨le_rfl,le_rfl,rfl,by decide,rfl,rfl⟩ rfl ⟨?_,?_⟩ trivial ?_
  · rintro seek hseek offset w - -
    cases hseek
    exact ⟨trivial,rfl⟩
  · rintro read hread count w - - -
    cases hread
    exact ⟨trivial,rfl⟩
  · intro _
    exact ⟨le_rfl,le_rfl,rfl,trivial⟩

end Agreement

end ChisLink.GameDatabaseSearch
