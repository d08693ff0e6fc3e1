import ChisLink.ReadableFiles

/-!
# Seeking through the POSIX wrappers

The wrappers compute an absolute position in sixty-four bits from a signed offset. The
end of a file is looked for by a seek to the largest position, but the file layer then
tells that position and not where the backend has stopped.
-/

namespace ChisLink.PosixSeek

open FileLayer FileOperations StorageClient

variable {W : Type}

/-- From the beginning. -/
def clFileSeekSet : ℤ := 0

/-- From the current position. -/
def clFileSeekCur : ℤ := 1

/-- From the end. -/
def clFileSeekEnd : ℤ := 2

/-- `CL_FILE_O_APPEND`. -/
def clFileOAppend : UInt32 := 0x800

/-- No such file. -/
def clFileEnoent : ℤ := 2

/-- An error of the device. -/
def clFileEio : ℤ := 5

/-- A bad descriptor. -/
def clFileEbadf : ℤ := 9

/-- No permission. -/
def clFileEacces : ℤ := 13

/-- A bad argument. -/
def clFileEinval : ℤ := 22

/-- Too many open files. -/
def clFileEnfile : ℤ := 23

/-- The largest position. -/
def uint64Max : UInt64 := 0xffffffffffffffff

/-- The function `cl_posix_errno_from_result`. -/
def clPosixErrnoFromResult (result : ℤ) : ℤ :=
  if 0≤ result then 0
  else if result= -1 then clFileEinval
  else if result= -2 then clFileEnoent
  else if result= -3 then clFileEio
  else if result= -4 then clFileEacces
  else if result= -5 then clFileEacces
  else if result= -6 then clFileEacces
  else if result= -7 then clFileEnfile
  else clFileEio

/-- The function `map_posix_flags_to_clp`. -/
def mapPosixFlagsToClp (flags : UInt32) : UInt32 :=
  let acc := flags &&& 3
  (if acc=0 then clpOpenRead
    else if acc=1 then clpOpenWrite
    else if acc=2 then clpOpenRead ||| clpOpenWrite
    else clpOpenRead) |||
  (if flags &&& 0x200≠0 then clpOpenCreate else 0) |||
  (if flags &&& 0x400≠0 then clpOpenTruncate else 0) |||
  (if flags &&& clFileOAppend≠0 then 0x10 else 0)

/-- The handle of a descriptor. -/
def handleOf (fd : ℤ) : ℕ := (fd%65536).toNat

/-- What a seek returns. -/
structure LseekReply where
  /-- The result. -/
  ret : Int64
  /-- What `cl_file_posix_errno` is set to, if it is. -/
  errno : Option ℤ
  /-- Whether a computation on the way left the range of its type. -/
  overflow : Bool
deriving DecidableEq

/-- The conversion of `-offset`. -/
def negated (offset : Int64) : UInt64 := (-offset).toUInt64

/-- The absolute position at an offset from another. -/
def absoluteFrom (current : UInt64) (offset : Int64) : UInt64 :=
  if offset<0 ∧ current<negated offset then 0
  else if offset<0 then current-negated offset
  else current+offset.toUInt64

/-- Whether its computation leaves the range of a type. -/
def leavesRange (current : UInt64) (offset : Int64) : Bool :=
  if offset<0 then offset=Int64.minValue
  else 2^64≤ current.toNat+offset.toUInt64.toNat

/-- The end of `cl_posix_lseek`: seek and tell. -/
def seekAndTell (file : ℕ) (absOffset : UInt64) (overflow : Bool) (s : Files W) :
    LseekReply×Files W :=
  let reply := clFileSeek file absOffset s
  if reply.1<0 then
    (⟨-1,some (clPosixErrnoFromResult reply.1),overflow⟩,reply.2)
  else
    match clFileTell file reply.2 with
    | .error _ => (⟨0,none,overflow⟩,reply.2)
    | .ok actual => (⟨actual.toInt64,none,overflow⟩,reply.2)

/-- The function `cl_posix_lseek`. -/
def clPosixLseek (fd : ℤ) (offset : Int64) (whence : ℤ) (s : Files W) :
    LseekReply×Files W :=
  if fd≤0 then (⟨-1,some clFileEbadf,false⟩,s)
  else
    let file := handleOf fd
    if whence=clFileSeekSet then
      if offset<0 then (⟨-1,some clFileEinval,false⟩,s)
      else seekAndTell file offset.toUInt64 false s
    else if whence=clFileSeekCur then
      match clFileTell file s with
      | .error _ => (⟨-1,some (clPosixErrnoFromResult (-1)),false⟩,s)
      | .ok current =>
        seekAndTell file (absoluteFrom current offset) (leavesRange current offset) s
    else if whence=clFileSeekEnd then
      let found := clFileSeek file uint64Max s
      if found.1<0 then (⟨-1,some clFileEio,false⟩,found.2)
      else
        match clFileTell file found.2 with
        | .error _ => (⟨-1,some clFileEio,false⟩,found.2)
        | .ok fileSize =>
          seekAndTell file (absoluteFrom fileSize offset) (leavesRange fileSize offset) found.2
    else (⟨-1,some clFileEinval,false⟩,s)

/-- The function `cl_posix_open`: the descriptor, and what the error is set to. -/
def clPosixOpen (backends : List (Backend W)) (path : CString) (flags : UInt32)
    (s : Files W) : (ℤ×Option ℤ)×Files W :=
  let opened := clFileOpen backends path (mapPosixFlagsToClp flags) s
  match opened.1 with
  | .error ret => ((-1,some (clPosixErrnoFromResult ret)),opened.2)
  | .ok file =>
    if flags &&& clFileOAppend≠0 ∧ file≠0 then
      let sought := clFileSeek file uint64Max opened.2
      if sought.1<0 then ((-1,some clFileEio),(clFileClose file sought.2).2)
      else ((file,none),sought.2)
    else ((file,none),opened.2)

section Arithmetic

variable {current : UInt64} {offset : Int64}

/-- The conversion of a negative offset gives its distance. -/
theorem negated_toNat (h : offset<0) : ((negated offset).toNat : ℤ)= -offset.toInt := by
  have hneg : offset.toBitVec.toInt<0 := Int64.lt_iff_toInt_lt.mp h
  have hlt := offset.toBitVec.isLt
  change (((-offset.toBitVec).toNat : ℕ) : ℤ)= -offset.toBitVec.toInt
  rw [BitVec.toInt_eq_toNat_cond] at hneg ⊢
  rw [BitVec.toNat_neg]
  split at hneg
  · omega
  next hhigh =>
    rw [if_neg hhigh]
    omega

theorem toUInt64_toNat (h : ¬offset<0) : (offset.toUInt64.toNat : ℤ)=offset.toInt := by
  have hpos : ¬offset.toBitVec.toInt<0 := fun hneg => h (Int64.lt_iff_toInt_lt.mpr hneg)
  have hlt := offset.toBitVec.isLt
  change ((offset.toBitVec.toNat : ℕ) : ℤ)=offset.toBitVec.toInt
  rw [BitVec.toInt_eq_toNat_cond] at hpos ⊢
  split at hpos
  next hlow => rw [if_pos hlow]
  · omega

theorem toInt_neg_iff : offset.toInt<0 ↔ offset<0 := by
  rw [Int64.lt_iff_toInt_lt]
  rfl

/-- A negative offset from a position stays in range, if it can be negated. -/
theorem leavesRange_iff : leavesRange current offset=true ↔
    offset=Int64.minValue ∨ 2^64≤(current.toNat : ℤ)+offset.toInt := by
  have hcurrent := current.toNat_lt
  unfold leavesRange
  split
  next hneg =>
    have hsign := toInt_neg_iff.mpr hneg
    rw [decide_eq_true_iff]
    constructor
    · exact Or.inl
    · rintro (h | h)
      · exact h
      · omega
  next hpos =>
    have hvalue := toUInt64_toNat hpos
    rw [decide_eq_true_iff]
    constructor
    · intro h
      right
      omega
    · rintro (rfl | h)
      · exact absurd (by decide) hpos
      · omega

/-- In range the position is the sum, or zero if that is negative. -/
theorem absoluteFrom_toNat (h : leavesRange current offset=false) :
    ((absoluteFrom current offset).toNat : ℤ)=max 0 ((current.toNat : ℤ)+offset.toInt) := by
  have hrange := leavesRange_iff.not.mp (Bool.not_eq_true _ ▸ h)
  push Not at hrange
  unfold absoluteFrom
  by_cases hneg : offset<0
  · have hvalue := negated_toNat hneg
    by_cases hfar : current<negated offset
    · rw [if_pos ⟨hneg,hfar⟩]
      have hlt := UInt64.lt_iff_toNat_lt.mp hfar
      rw [UInt64.toNat_zero,max_eq_left (by omega)]
      rfl
    · have hle := UInt64.not_lt.mp hfar
      have hle' := UInt64.le_iff_toNat_le.mp hle
      rw [if_neg fun hboth => hfar hboth.2,if_pos hneg,UInt64.toNat_sub_of_le _ _ hle,
        max_eq_right (by omega)]
      omega
  · have hvalue := toUInt64_toNat hneg
    rw [if_neg fun hboth => hneg hboth.1,if_neg hneg,UInt64.toNat_add,max_eq_right (by omega)]
    omega

end Arithmetic

section Descriptors

/-- Where a seek to an offset stops in a file of a size. -/
def stopAt (offset size : UInt64) : UInt64 := if size<offset then size else offset

theorem stopAt_eq_iff {offset size : UInt64} :
    stopAt offset size=offset ↔ offset.toNat≤ size.toNat := by
  unfold stopAt
  split
  next hlt =>
    have hlt' := UInt64.lt_iff_toNat_lt.mp hlt
    rw [← UInt64.toNat_inj]
    omega
  next hle =>
    have hle' := UInt64.le_iff_toNat_le.mp (UInt64.not_lt.mp hle)
    exact ⟨fun _ => hle',fun _ => rfl⟩

/-- How the backends are seen: which local handles are open, the size of the file and the
position of each, and which positions it can be told to seek. -/
structure SeekView (W : Type) where
  /-- The handle is open. -/
  live : BackendOps W×UInt16 → W → Prop
  /-- Size of its file. -/
  size : BackendOps W×UInt16 → W → UInt64
  /-- Its position. -/
  position : BackendOps W×UInt16 → W → UInt64
  /-- A seek to the position is accepted. -/
  accepts : BackendOps W×UInt16 → UInt64 → W → Prop

variable (view : SeekView W)

/-- The file of a handle is as it was. -/
structure SeekView.SameFile (key : BackendOps W×UInt16) (w w' : W) : Prop where
  /-- The size. -/
  size : view.size key w'=view.size key w
  /-- The positions that are accepted. -/
  accepts : ∀ offset,view.accepts key offset w' ↔ view.accepts key offset w

/-- The contract of a backend. It stops at the end of the file, or rejects the seek. -/
structure SeekView.Served (ops : BackendOps W) : Prop where
  /-- What is opened is open. -/
  openPath : ∀ path flags w,0≤(ops.openPath path flags w).1.1 →
    view.live (ops,(ops.openPath path flags w).1.2) (ops.openPath path flags w).2
  /-- Without the operation no seek is accepted. -/
  missing : ops.seek=none → ∀ l offset w,¬view.accepts (ops,l) offset w
  /-- A seek leaves the file as it is. -/
  same : ∀ seek,ops.seek=some seek → ∀ l offset w,view.live (ops,l) w →
    view.live (ops,l) (seek l offset w).2 ∧
      view.SameFile (ops,l) w (seek l offset w).2
  /-- One that is accepted goes to the offset, at most to the end. -/
  accepted : ∀ seek,ops.seek=some seek → ∀ l offset w,view.live (ops,l) w →
    view.accepts (ops,l) offset w → (seek l offset w).1=0 ∧
      view.position (ops,l) (seek l offset w).2=stopAt offset (view.size (ops,l) w)
  /-- One that is not accepted is an error and does not move. -/
  rejected : ∀ seek,ops.seek=some seek → ∀ l offset w,view.live (ops,l) w →
    ¬view.accepts (ops,l) offset w → (seek l offset w).1<0 ∧
      view.position (ops,l) (seek l offset w).2=view.position (ops,l) w

/-- A handle of the file layer, the position that is told for it and the one where the
backend is. -/
structure Stands (s : Files W) (file : ℕ) (key : BackendOps W×UInt16)
    (told position : UInt64) : Prop where
  /-- Its slot. -/
  slot : ∃ i slot,slotFromHandle s file=some (i,slot) ∧ slot.key=key ∧ slot.offset=told ∧
    view.Served slot.backend.ops
  /-- The local handle is open. -/
  live : view.live key s.world
  /-- The position of the backend. -/
  position_eq : view.position key s.world=position

variable {view} {s : Files W} {file : ℕ} {key : BackendOps W×UInt16} {told position : UInt64}

theorem Stands.tell (h : Stands view s file key told position) :
    clFileTell file s=.ok told := by
  obtain ⟨i,slot,hslot,-,htold,-⟩ := h.slot
  unfold clFileTell
  rw [hslot]
  dsimp only
  rw [htold]

/-- What a seek in a handle comes to. -/
structure Sought (view : SeekView W) (s : Files W) (file : ℕ) (key : BackendOps W×UInt16)
    (told position offset : UInt64) (result : ℤ×Files W) : Prop where
  /-- The file is as it was. -/
  same : view.SameFile key s.world result.2.world
  /-- The file layer tells the offset, the backend is there or at the end. -/
  accepted : view.accepts key offset s.world →
    result.1=0 ∧ Stands view result.2 file key offset (stopAt offset (view.size key s.world))
  /-- Or nothing has moved. -/
  rejected : ¬view.accepts key offset s.world →
    result.1<0 ∧ Stands view result.2 file key told position

/-- The file layer tells what it was told. -/
theorem clFileSeek_sought (h : Stands view s file key told position) (offset : UInt64) :
    Sought view s file key told position offset (clFileSeek file offset s) := by
  obtain ⟨i,slot,hslot,rfl,rfl,hserved⟩ := h.slot
  unfold clFileSeek callSlot
  rw [hslot]
  dsimp only
  cases hseek : slot.backend.ops.seek with
  | none =>
    have hmissing := hserved.missing hseek slot.localHandle offset s.world
    exact ⟨⟨rfl,fun _ => Iff.rfl⟩,fun haccepts => absurd haccepts hmissing,
      fun _ => ⟨Int.negSucc_lt_zero 0,h⟩⟩
  | some seek =>
    obtain ⟨hlive,hsame⟩ := hserved.same seek hseek slot.localHandle offset s.world h.live
    dsimp only
    refine ⟨?_,fun haccepts => ?_,fun hrejects => ?_⟩
    · split <;> exact hsame
    · obtain ⟨hret,hposition⟩ := hserved.accepted seek hseek slot.localHandle offset s.world
        h.live haccepts
      rw [if_pos hret]
      exact ⟨rfl,⟨i,_,ReadableFiles.slotFromHandle_moved hslot _ offset,rfl,rfl,hserved⟩,hlive,
        hposition⟩
    · obtain ⟨hret,hposition⟩ := hserved.rejected seek hseek slot.localHandle offset s.world
        h.live hrejects
      have hnonzero : (seek slot.localHandle offset s.world).1≠0 := by omega
      rw [if_neg hnonzero]
      exact ⟨hret,⟨i,slot,hslot,rfl,rfl,hserved⟩,hlive,hposition.trans h.position_eq⟩

/-- What the end of a seek through the wrappers comes to. -/
structure Told (view : SeekView W) (s : Files W) (file : ℕ) (key : BackendOps W×UInt16) (offset : UInt64)
    (overflow : Bool) (result : LseekReply×Files W) : Prop where
  /-- The offset is the result and is told, the backend is there or at the end. -/
  accepted : view.accepts key offset s.world → result.1=⟨offset.toInt64,none,overflow⟩ ∧
    Stands view result.2 file key offset (stopAt offset (view.size key s.world))
  /-- Or there is an error. -/
  rejected : ¬view.accepts key offset s.world →
    result.1.ret= -1 ∧ result.1.errno.isSome ∧ result.1.overflow=overflow

theorem seekAndTell_told (h : Stands view s file key told position) (offset : UInt64)
    (overflow : Bool) :
    Told view s file key offset overflow (seekAndTell file offset overflow s) := by
  have hsought := clFileSeek_sought h offset
  unfold seekAndTell
  dsimp only
  refine ⟨fun haccepts => ?_,fun hrejects => ?_⟩
  · obtain ⟨hret,hstands⟩ := hsought.accepted haccepts
    rw [if_neg (by omega),hstands.tell]
    exact ⟨rfl,hstands⟩
  · obtain ⟨hret,-⟩ := hsought.rejected hrejects
    rw [if_pos hret]
    exact ⟨rfl,rfl,rfl⟩

end Descriptors

section Positions

variable (view : SeekView W)

/-- The position that a call asks for. -/
def seekTarget (size position : UInt64) (offset : Int64) (whence : ℤ) : Option ℤ :=
  if whence=clFileSeekSet then some offset.toInt
  else if whence=clFileSeekCur then some (position.toNat+offset.toInt)
  else if whence=clFileSeekEnd then some (size.toNat+offset.toInt)
  else none

/-- A target that is a position and that the backend accepts. -/
def Reachable (s : Files W) (key : BackendOps W×UInt16) (t : ℤ) : Prop :=
  0≤t ∧ t<2^63 ∧ view.accepts key (UInt64.ofNat t.toNat) s.world

/-- A call does what it is to do at a descriptor with a position. -/
structure Positions (s : Files W) (fd : ℤ) (key : BackendOps W×UInt16) (position : UInt64)
    (offset : Int64) (whence : ℤ) : Prop where
  /-- The target is the result and the position, told and of the backend. -/
  reached : ∀ t∈seekTarget (view.size key s.world) position offset whence,
    Reachable view s key t → (clPosixLseek fd offset whence s).1.ret.toInt=t ∧
      Stands view (clPosixLseek fd offset whence s).2 (handleOf fd) key
        (UInt64.ofNat t.toNat) (UInt64.ofNat t.toNat)
  /-- A negative target is rejected or taken for zero. -/
  negative : ∀ t∈seekTarget (view.size key s.world) position offset whence,t<0 →
    (clPosixLseek fd offset whence s).1.errno.isSome ∨
      ((clPosixLseek fd offset whence s).1.ret=0 ∧
        Stands view (clPosixLseek fd offset whence s).2 (handleOf fd) key 0 0)
  /-- No computation leaves the range of its type. -/
  inRange : (clPosixLseek fd offset whence s).1.overflow=false

/-- When it does. -/
def PositionsWhen (s : Files W) (key : BackendOps W×UInt16) (position : UInt64)
    (offset : Int64) (whence : ℤ) : Prop :=
  let size := view.size key s.world
  if whence=clFileSeekSet then
    Reachable view s key offset.toInt → offset.toInt≤ size.toNat
  else if whence=clFileSeekCur then
    offset≠Int64.minValue ∧ (position.toNat : ℤ)+offset.toInt<2^64 ∧
      (Reachable view s key (position.toNat+offset.toInt) →
        (position.toNat : ℤ)+offset.toInt≤ size.toNat)
  else if whence=clFileSeekEnd then
    ¬Reachable view s key (size.toNat+offset.toInt) ∧
      (view.accepts key uint64Max s.world → offset≠Int64.minValue ∧ offset.toInt≤0 ∧
        ((size.toNat : ℤ)+offset.toInt<0 →
          ¬view.accepts key (UInt64.ofNat (2^64-1+offset.toInt).toNat) s.world))
  else True

variable {view} {s : Files W} {fd : ℤ} {key : BackendOps W×UInt16} {position : UInt64}
  {offset : Int64} {whence : ℤ}

theorem Stands.told_eq {file : ℕ} {told told' position' : UInt64}
    (h : Stands view s file key told position) (h' : Stands view s file key told' position') :
    told=told' := Except.ok.inj (h.tell.symm.trans h'.tell)

/-- The position of a number that fits. -/
theorem ofNat_of_toNat {x : UInt64} {t : ℤ} (h : (x.toNat : ℤ)=t) :
    UInt64.ofNat t.toNat=x := by
  rw [← h,Int.toNat_natCast]
  exact UInt64.ofNat_toNat

theorem toInt64_toInt {x : UInt64} (h : x.toNat<2^63) : x.toInt64.toInt=x.toNat := by
  change x.toBitVec.toInt=_
  rw [BitVec.toInt_eq_toNat_cond]
  have hvalue : x.toBitVec.toNat=x.toNat := rfl
  rw [hvalue,if_pos (by omega)]

/-- A call that goes straight to its target, or to zero, is right unless the backend
stops before. -/
theorem positions_seekAndTell {x : UInt64} {t : ℤ}
    (hat : Stands view s (handleOf fd) key position position)
    (hcall : clPosixLseek fd offset whence s=seekAndTell (handleOf fd) x false s)
    (htarget : seekTarget (view.size key s.world) position offset whence=some t)
    (hx : (x.toNat : ℤ)=max 0 t) :
    Positions view s fd key position offset whence ↔
      (Reachable view s key t → t≤(view.size key s.world).toNat) := by
  have htold := seekAndTell_told hat x false
  rw [← hcall] at htold
  constructor
  · intro h hreach
    obtain ⟨hret,hstands⟩ := h.reached t htarget hreach
    obtain ⟨hlow,hhigh,haccepts⟩ := hreach
    have hsame := @ofNat_of_toNat x t (by omega)
    rw [hsame] at hstands haccepts
    have hthere := hstands.position_eq.symm.trans (htold.accepted haccepts).2.position_eq
    have hle := stopAt_eq_iff.mp hthere.symm
    omega
  · intro h
    refine ⟨fun t' ht' hreach => ?_,fun t' ht' hneg => ?_,?_⟩
    · cases htarget.symm.trans ht'
      have hsize := h hreach
      obtain ⟨hlow,hhigh,haccepts⟩ := hreach
      have hsame := @ofNat_of_toNat x t (by omega)
      rw [hsame] at haccepts ⊢
      obtain ⟨hreply,hstands⟩ := htold.accepted haccepts
      rw [stopAt_eq_iff.mpr (by omega)] at hstands
      rw [hreply]
      refine ⟨?_,hstands⟩
      rw [toInt64_toInt (by omega)]
      omega
    · cases htarget.symm.trans ht'
      have hzero : x=0 := UInt64.toNat_inj.mp (by rw [UInt64.toNat_zero]; omega)
      by_cases haccepts : view.accepts key x s.world
      · obtain ⟨hreply,hstands⟩ := htold.accepted haccepts
        rw [stopAt_eq_iff.mpr (by omega),hzero] at hstands
        rw [hreply,hzero]
        exact Or.inr ⟨rfl,hstands⟩
      · exact Or.inl (htold.rejected haccepts).2.1
    · by_cases haccepts : view.accepts key x s.world
      · rw [(htold.accepted haccepts).1]
      · exact (htold.rejected haccepts).2.2

/-- From the beginning: unless the backend stops before the target. -/
theorem positions_set (hfd : 0<fd) (hat : Stands view s (handleOf fd) key position position) :
    Positions view s fd key position offset clFileSeekSet ↔
      (Reachable view s key offset.toInt → offset.toInt≤(view.size key s.world).toNat) := by
  by_cases hneg : offset<0
  · have hsign := toInt_neg_iff.mpr hneg
    have hcall : clPosixLseek fd offset clFileSeekSet s=(⟨-1,some clFileEinval,false⟩,s) := by
      unfold clPosixLseek
      rw [if_neg (by omega)]
      exact if_pos hneg
    have hnot : ¬Reachable view s key offset.toInt := fun hreach => by
      have hlow := hreach.1
      omega
    refine ⟨fun _ hreach => absurd hreach hnot,fun _ => ⟨fun t ht hreach => ?_,fun _ _ _ => ?_,?_⟩⟩
    · cases ht
      exact absurd hreach hnot
    · rw [hcall]
      exact Or.inl rfl
    · rw [hcall]
  · have hvalue := toUInt64_toNat hneg
    have hsign : ¬offset.toInt<0 := fun h => hneg (toInt_neg_iff.mp h)
    refine positions_seekAndTell hat ?_ rfl (x := offset.toUInt64) (by omega)
    unfold clPosixLseek
    rw [if_neg (by omega)]
    exact if_neg hneg

/-- An overflow is not what is to be done. -/
theorem positions_cur (hfd : 0<fd) (hat : Stands view s (handleOf fd) key position position) :
    Positions view s fd key position offset clFileSeekCur ↔
      offset≠Int64.minValue ∧ (position.toNat : ℤ)+offset.toInt<2^64 ∧
        (Reachable view s key (position.toNat+offset.toInt) →
          (position.toNat : ℤ)+offset.toInt≤(view.size key s.world).toNat) := by
  have hcall : clPosixLseek fd offset clFileSeekCur s=seekAndTell (handleOf fd)
      (absoluteFrom position offset) (leavesRange position offset) s := by
    unfold clPosixLseek
    rw [if_neg (by omega)]
    dsimp only
    rw [hat.tell]
    rfl
  have hrange := @leavesRange_iff position offset
  cases hleaves : leavesRange position offset with
  | true =>
    have hout := hrange.mp hleaves
    have htold := seekAndTell_told hat (absoluteFrom position offset) true
    rw [hleaves] at hcall
    rw [← hcall] at htold
    constructor
    · intro h
      have hin := h.inRange
      by_cases haccepts : view.accepts key (absoluteFrom position offset) s.world
      · rw [(htold.accepted haccepts).1] at hin
        cases hin
      · rw [(htold.rejected haccepts).2.2] at hin
        cases hin
    · rintro ⟨hmin,hlt,-⟩
      rcases hout with hout | hout
      · exact absurd hout hmin
      · omega
  | false =>
    rw [hleaves] at hcall
    have hin := hrange.not.mp (by rw [hleaves]; decide)
    push Not at hin
    have hpositions := positions_seekAndTell hat hcall rfl (absoluteFrom_toNat hleaves)
    exact hpositions.trans ⟨fun h => ⟨hin.1,hin.2,h⟩,fun h => h.2.2⟩

/-- If the largest position is rejected, every seek from the end is. -/
theorem positions_end_rejected (hfd : 0<fd)
    (hat : Stands view s (handleOf fd) key position position)
    (hmax : ¬view.accepts key uint64Max s.world) :
    Positions view s fd key position offset clFileSeekEnd ↔
      ¬Reachable view s key ((view.size key s.world).toNat+offset.toInt) := by
  have hrejected := ((clFileSeek_sought hat uint64Max).rejected hmax).1
  have hreply : (clPosixLseek fd offset clFileSeekEnd s).1=⟨-1,some clFileEio,false⟩ := by
    unfold clPosixLseek
    rw [if_neg (by omega)]
    dsimp only
    rw [if_neg (by decide),if_neg (by decide),if_pos rfl,if_pos hrejected]
  constructor
  · intro h hreach
    have hret := (h.reached _ rfl hreach).1
    have hlow := hreach.1
    rw [hreply] at hret
    have hminus : (-1 : Int64).toInt= -1 := rfl
    rw [hminus] at hret
    omega
  · intro h
    refine ⟨fun t ht hreach => ?_,fun _ _ _ => ?_,?_⟩
    · cases ht
      exact absurd hreach h
    · rw [hreply]
      exact Or.inl rfl
    · rw [hreply]

/-- If it is accepted, a seek from the end is one from the largest position. -/
theorem positions_end_accepted (hfd : 0<fd)
    (hat : Stands view s (handleOf fd) key position position)
    (hmax : view.accepts key uint64Max s.world) :
    Positions view s fd key position offset clFileSeekEnd ↔
      ¬Reachable view s key ((view.size key s.world).toNat+offset.toInt) ∧
        offset≠Int64.minValue ∧ offset.toInt≤0 ∧
        (((view.size key s.world).toNat : ℤ)+offset.toInt<0 →
          ¬view.accepts key (UInt64.ofNat (2^64-1+offset.toInt).toNat) s.world) := by
  have hsought := clFileSeek_sought hat uint64Max
  obtain ⟨hret,hstands⟩ := hsought.accepted hmax
  obtain ⟨x,hx⟩ : ∃ x,x=absoluteFrom uint64Max offset := ⟨_,rfl⟩
  obtain ⟨overflow,hoverflow⟩ : ∃ overflow,overflow=leavesRange uint64Max offset := ⟨_,rfl⟩
  have hcall : clPosixLseek fd offset clFileSeekEnd s=
      seekAndTell (handleOf fd) x overflow (clFileSeek (handleOf fd) uint64Max s).2 := by
    unfold clPosixLseek
    rw [if_neg (by omega)]
    dsimp only
    rw [if_neg (by decide),if_neg (by decide),if_pos rfl,hret,if_neg (by omega),hstands.tell,
      hx,hoverflow]
  have htold := seekAndTell_told hstands x overflow
  have hsame := hsought.same.accepts x
  rw [← hcall] at htold
  have hmaxValue : uint64Max.toNat=2^64-1 := rfl
  have hrange := @leavesRange_iff uint64Max offset
  rw [← hoverflow,hmaxValue] at hrange
  have hlow := offset.le_toInt
  have hflag : (clPosixLseek fd offset clFileSeekEnd s).1.overflow=overflow := by
    by_cases haccepts : view.accepts key x (clFileSeek (handleOf fd) uint64Max s).2.world
    · rw [(htold.accepted haccepts).1]
    · exact (htold.rejected haccepts).2.2
  cases overflow with
  | true =>
    have hout := hrange.mp rfl
    constructor
    · intro h
      have hin := h.inRange
      rw [hflag] at hin
      cases hin
    · rintro ⟨-,hmin,hle,-⟩
      rcases hout with hout | hout
      · exact absurd hout hmin
      · push_cast at hout
        omega
  | false =>
    have hin := hrange.not.mp Bool.false_ne_true
    push Not at hin
    obtain ⟨hmin,hlt⟩ := hin
    have hstrict : offset.toInt≠ -2^63 := fun heq => hmin (Int64.toInt_inj.mp heq)
    have habsolute := @absoluteFrom_toNat uint64Max offset hoverflow.symm
    rw [← hx,hmaxValue] at habsolute
    push_cast at hlt habsolute
    rw [max_eq_right (by omega)] at habsolute
    have hnumber : UInt64.ofNat (2^64-1+offset.toInt).toNat=x :=
      ofNat_of_toNat (by omega)
    rw [hnumber]
    constructor
    · intro h
      refine ⟨fun hreach => ?_,hmin,by omega,fun hneg haccepts => ?_⟩
      · obtain ⟨hret,hthere⟩ := h.reached _ rfl hreach
        obtain ⟨hnonneg,hbelow,-⟩ := hreach
        by_cases haccepts : view.accepts key x (clFileSeek (handleOf fd) uint64Max s).2.world
        · have htoldx := (htold.accepted haccepts).2
          have hequal := congrArg UInt64.toNat (hthere.told_eq htoldx)
          rw [UInt64.toNat_ofNat',Nat.mod_eq_of_lt (by omega)] at hequal
          omega
        · rw [(htold.rejected haccepts).1] at hret
          have hminus : (-1 : Int64).toInt= -1 := rfl
          rw [hminus] at hret
          omega
      · obtain ⟨hreply,-⟩ := htold.accepted (hsame.mpr haccepts)
        rcases h.negative _ rfl hneg with herror | ⟨hzero,-⟩
        · rw [hreply] at herror
          cases herror
        · rw [hreply] at hzero
          have hbits : x=0 := by
            have hback := congrArg Int64.toUInt64 hzero
            exact hback
          rw [hbits,UInt64.toNat_zero] at habsolute
          omega
    · rintro ⟨hreach,-,-,hneg⟩
      refine ⟨fun t ht hreach' => ?_,fun t ht hbelow => ?_,hflag⟩
      · cases ht
        exact absurd hreach' hreach
      · cases ht
        have hnot := hsame.not.mpr (hneg hbelow)
        exact Or.inl (htold.rejected hnot).2.1

/-- A seek is right exactly under its condition. -/
theorem positions_iff (hfd : 0<fd) (hat : Stands view s (handleOf fd) key position position) :
    Positions view s fd key position offset whence ↔
      PositionsWhen view s key position offset whence := by
  unfold PositionsWhen
  dsimp only
  split
  next hset =>
    subst hset
    exact positions_set hfd hat
  next hset =>
    split
    next hcur =>
      subst hcur
      exact positions_cur hfd hat
    next hcur =>
      split
      next hend =>
        subst hend
        by_cases hmax : view.accepts key uint64Max s.world
        · rw [positions_end_accepted hfd hat hmax]
          exact ⟨fun h => ⟨h.1,fun _ => h.2⟩,fun h => ⟨h.1,h.2 hmax⟩⟩
        · rw [positions_end_rejected hfd hat hmax]
          exact ⟨fun h => ⟨h,fun haccepts => absurd haccepts hmax⟩,And.left⟩
      next hend =>
        have hnone : seekTarget (view.size key s.world) position offset whence=none := by
          unfold seekTarget
          rw [if_neg hset,if_neg hcur,if_neg hend]
        refine ⟨fun _ => trivial,fun _ => ⟨fun t ht => ?_,fun t ht => ?_,?_⟩⟩
        · rw [hnone] at ht
          cases ht
        · rw [hnone] at ht
          cases ht
        · unfold clPosixLseek
          dsimp only
          rw [if_neg (by omega),if_neg hset,if_neg hcur,if_neg hend]

end Positions

section Appending

variable (view : SeekView W) (backends : List (Backend W))

/-- A file that was opened for appending starts with its position at its size. -/
def AppendStarts (path : CString) (flags : UInt32) (s : Files W) : Prop :=
  let opened := clPosixOpen backends path flags s
  0<opened.1.1 → ∃ key,Stands view opened.2 (handleOf opened.1.1) key
    (view.size key opened.2.world) (view.size key opened.2.world)

/-- When it does: the file has the largest size, or it is not opened. -/
def AppendWhen (path : CString) (flags : UInt32) (s : Files W) : Prop :=
  ∀ backend,findBackend backends path=some backend → (freeSlot s).isSome →
    let reply := backend.ops.openPath path (mapPosixFlagsToClp flags) s.world
    0≤ reply.1.1 → view.accepts (backend.ops,reply.1.2) uint64Max reply.2 →
      view.size (backend.ops,reply.1.2) reply.2=uint64Max

variable {view backends} {s : Files W}

theorem Stands.key_eq {file : ℕ} {key key' : BackendOps W×UInt16}
    {told position told' position' : UInt64} (h : Stands view s file key told position)
    (h' : Stands view s file key' told' position') : key=key' := by
  obtain ⟨i,slot,hslot,hkey,-⟩ := h.slot
  obtain ⟨i',slot',hslot',hkey',-⟩ := h'.slot
  cases hslot.symm.trans hslot'
  exact hkey.symm.trans hkey'

/-- A file that was opened stands at zero for the file layer. -/
theorem stands_opened {backend : Backend W} (hserved : view.Served backend.ops)
    (path : CString) (flags : UInt32) (i : Fin clFileMaxHandles)
    (hret : 0≤(backend.ops.openPath path flags s.world).1.1) :
    Stands view ({s with world := (backend.ops.openPath path flags s.world).2}.setSlot i
        (some ⟨backend,(backend.ops.openPath path flags s.world).1.2,0⟩)) (i.val+1)
      (backend.ops,(backend.ops.openPath path flags s.world).1.2) 0
      (view.position (backend.ops,(backend.ops.openPath path flags s.world).1.2)
        (backend.ops.openPath path flags s.world).2) := by
  refine ⟨⟨i,⟨backend,(backend.ops.openPath path flags s.world).1.2,0⟩,?_,rfl,rfl,hserved⟩,
    hserved.openPath path flags s.world hret,rfl⟩
  rw [slotFromHandle_succ]
  unfold Files.setSlot
  dsimp only
  rw [Function.update_self]
  rfl

theorem handleOf_succ (i : Fin clFileMaxHandles) : handleOf ((i.val+1 : ℕ) : ℤ)=i.val+1 := by
  have hlt := i.isLt
  unfold clFileMaxHandles at hlt
  unfold handleOf
  omega

/-- Nothing is claimed of a file that was not opened. -/
theorem appendStarts_of_failed {path : CString} {flags : UInt32}
    (h : (clPosixOpen backends path flags s).1.1= -1) :
    AppendStarts view backends path flags s := by
  intro hpos
  omega

/-- Without a backend or a slot nothing is opened. -/
theorem clPosixOpen_refused {path : CString} {flags : UInt32}
    (h : findBackend backends path=none ∨ freeSlot s=none) :
    (clPosixOpen backends path flags s).1.1= -1 := by
  unfold clPosixOpen clFileOpen
  rcases h with h | h
  · rw [h]
  · cases findBackend backends path with
    | none => rfl
    | some backend => rw [h]

/-- What the backend does not open is not opened. -/
theorem clPosixOpen_error {path : CString} {flags : UInt32} {backend : Backend W}
    {i : Fin clFileMaxHandles} (hbackend : findBackend backends path=some backend)
    (hfree : freeSlot s=some i)
    (hret : (backend.ops.openPath path (mapPosixFlagsToClp flags) s.world).1.1<0) :
    (clPosixOpen backends path flags s).1.1= -1 := by
  unfold clPosixOpen clFileOpen
  rw [hbackend,hfree]
  dsimp only
  rw [if_pos hret]

/-- Behind an open for appending comes a seek to the largest position. -/
theorem clPosixOpen_append {path : CString} {flags : UInt32} {backend : Backend W}
    {i : Fin clFileMaxHandles} (happend : flags &&& clFileOAppend≠0)
    (hbackend : findBackend backends path=some backend) (hfree : freeSlot s=some i)
    (hret : ¬(backend.ops.openPath path (mapPosixFlagsToClp flags) s.world).1.1<0) :
    let reply := backend.ops.openPath path (mapPosixFlagsToClp flags) s.world
    let sought := clFileSeek (i.val+1) uint64Max
      ({s with world := reply.2}.setSlot i (some ⟨backend,reply.1.2,0⟩))
    clPosixOpen backends path flags s=
      if sought.1<0 then ((-1,some clFileEio),(clFileClose (i.val+1) sought.2).2)
      else ((((i.val+1 : ℕ) : ℤ),none),sought.2) := by
  unfold clPosixOpen clFileOpen
  rw [hbackend,hfree]
  dsimp only
  rw [if_neg hret]
  dsimp only
  rw [if_pos ⟨happend,Nat.succ_ne_zero _⟩]

/-- Opening for appending is right exactly under its condition. -/
theorem appendStarts_iff (hserved : ∀ backend∈backends,view.Served backend.ops)
    (path : CString) {flags : UInt32} (happend : flags &&& clFileOAppend≠0) :
    AppendStarts view backends path flags s ↔ AppendWhen view backends path flags s := by
  cases hbackend : findBackend backends path with
  | none =>
    refine ⟨fun _ backend hsome => ?_,fun _ => ?_⟩
    · rw [hbackend] at hsome
      cases hsome
    · exact appendStarts_of_failed (clPosixOpen_refused (Or.inl hbackend))
  | some backend =>
    cases hfree : freeSlot s with
    | none =>
      refine ⟨fun _ _ _ hsome => ?_,fun _ => ?_⟩
      · rw [hfree] at hsome
        cases hsome
      · exact appendStarts_of_failed (clPosixOpen_refused (Or.inr hfree))
    | some i =>
      have hwhen : AppendWhen view backends path flags s ↔
          let reply := backend.ops.openPath path (mapPosixFlagsToClp flags) s.world
          0≤ reply.1.1 → view.accepts (backend.ops,reply.1.2) uint64Max reply.2 →
            view.size (backend.ops,reply.1.2) reply.2=uint64Max := by
        constructor
        · exact fun h => h backend hbackend (by rw [hfree]; rfl)
        · intro h other hother _
          cases hbackend.symm.trans hother
          exact h
      rw [hwhen]
      have hstands := @stands_opened W view s backend (hserved backend (findBackend_mem hbackend))
        path (mapPosixFlagsToClp flags) i
      by_cases hret : (backend.ops.openPath path (mapPosixFlagsToClp flags) s.world).1.1<0
      · refine ⟨fun _ hnonneg => absurd hret (by omega),fun _ => ?_⟩
        exact appendStarts_of_failed (clPosixOpen_error hbackend hfree hret)
      · have hopen := clPosixOpen_append happend hbackend hfree hret
        have hat := hstands (by omega)
        generalize backend.ops.openPath path (mapPosixFlagsToClp flags) s.world=reply
          at hat hopen hret ⊢
        have hsought := clFileSeek_sought hat uint64Max
        dsimp only at hopen ⊢
        by_cases hmax : view.accepts (backend.ops,reply.1.2) uint64Max reply.2
        · obtain ⟨hzero,hthere⟩ := hsought.accepted hmax
          have hsize : view.size (backend.ops,reply.1.2) _=
            view.size (backend.ops,reply.1.2) reply.2 := hsought.same.size
          rw [if_neg (by omega)] at hopen
          unfold AppendStarts
          dsimp only
          rw [hopen]
          dsimp only
          rw [handleOf_succ]
          change Stands view _ _ _ uint64Max
            (stopAt uint64Max (view.size (backend.ops,reply.1.2) reply.2)) at hthere
          constructor
          · intro h _ _
            obtain ⟨key,hkey⟩ := h (by omega)
            cases hkey.key_eq hthere
            exact hsize.symm.trans (hkey.told_eq hthere)
          · intro h _
            have hwhole := h (by omega) hmax
            rw [stopAt_eq_iff.mpr (by rw [hwhole])] at hthere
            refine ⟨(backend.ops,reply.1.2),?_⟩
            rw [hsize,hwhole]
            exact hthere
        · obtain ⟨hneg,-⟩ := hsought.rejected hmax
          rw [if_pos hneg] at hopen
          refine ⟨fun _ _ haccepts => absurd haccepts hmax,fun _ => ?_⟩
          exact appendStarts_of_failed (by rw [hopen])

/-- Seeking and opening for appending through the wrappers are right exactly under their
conditions. -/
theorem posix_positions_iff (view : SeekView W) (backends : List (Backend W))
    (hserved : ∀ backend∈backends,view.Served backend.ops) (s : Files W) :
    (∀ fd key position offset whence,0<fd →
      Stands view s (handleOf fd) key position position →
      (Positions view s fd key position offset whence ↔
        PositionsWhen view s key position offset whence)) ∧
    (∀ path flags,flags &&& clFileOAppend≠0 →
      (AppendStarts view backends path flags s ↔ AppendWhen view backends path flags s)) :=
  ⟨fun _ _ _ _ _ hfd hat => positions_iff hfd hat,
    fun path _ happend => appendStarts_iff hserved path happend⟩

/-- A backend with one file, that accepts every seek. -/
structure Tape where
  /-- Size of the file. -/
  size : UInt64
  /-- Where it is. -/
  position : UInt64
  /-- Whether it is open. -/
  isOpen : Bool

/-- Its operations. -/
def tapeOps : BackendOps Tape where
  openPath _ _ w := if w.isOpen then ((-1,0),w) else ((0,0),{w with position := 0,isOpen := true})
  close := some fun _ w => (0,{w with isOpen := false})
  read := none
  write := none
  directRead := none
  seek := some fun _ offset w => (0,{w with position := stopAt offset w.size})

/-- How it is seen. -/
def tapeView : SeekView Tape where
  live _ w := w.isOpen=true
  size _ w := w.size
  position _ w := w.position
  accepts _ _ _ := True

theorem tape_served : tapeView.Served tapeOps := by
  refine ⟨fun path flags w hret => ?_,fun hnone => absurd hnone (Option.some_ne_none _),
    ?_,?_,?_⟩
  · have hopen : tapeOps.openPath path flags w=
        if w.isOpen then ((-1,0),w) else ((0,0),{w with position := 0,isOpen := true}) := rfl
    rw [hopen] at hret ⊢
    cases hisOpen : w.isOpen with
    | true =>
      rw [hisOpen] at hret
      exact absurd hret (Int.not_le.mpr (Int.negSucc_lt_zero 0))
    | false => rfl
  · rintro seek hseek l offset w hlive
    cases hseek
    exact ⟨hlive,⟨rfl,fun _ => Iff.rfl⟩⟩
  · rintro seek hseek l offset w _ _
    cases hseek
    exact ⟨rfl,rfl⟩
  · exact fun seek _ l offset w _ hnot => absurd trivial hnot

/-- The backend under the root. -/
def tapeBackend : Backend Tape := ⟨⟨[47],slash_noNul⟩,1,tapeOps⟩

/-- A file of ten bytes that is open, at its fourth byte. -/
def tapeFiles : Files Tape where
  slots i := if i.val=0 then some ⟨tapeBackend,0,4⟩ else none
  world := ⟨10,4,true⟩

theorem tape_stands : Stands tapeView tapeFiles (handleOf 1) (tapeOps,0) 4 4 :=
  ⟨⟨⟨0,by decide⟩,⟨tapeBackend,0,4⟩,rfl,rfl,rfl,tape_served⟩,rfl,rfl⟩

/-- The conditions for a seek and for an open of this backend. -/
theorem posix_positions_iff_tape :
    (Positions tapeView tapeFiles 1 (tapeOps,0) 4 3 clFileSeekCur ↔
      PositionsWhen tapeView tapeFiles (tapeOps,0) 4 3 clFileSeekCur) ∧
    (AppendStarts tapeView [tapeBackend] ⟨[47,97],by decide⟩ clFileOAppend tapeFiles ↔
      AppendWhen tapeView [tapeBackend] ⟨[47,97],by decide⟩ clFileOAppend tapeFiles) := by
  have h := posix_positions_iff tapeView [tapeBackend]
    (fun backend hbackend => by rw [List.mem_singleton.mp hbackend]; exact tape_served) tapeFiles
  exact ⟨h.1 1 (tapeOps,0) 4 3 clFileSeekCur (by decide) tape_stands,
    h.2 ⟨[47,97],by decide⟩ clFileOAppend (by decide)⟩

/-- The end of the file of ten bytes is the position ten, but the result of a seek to it is
minus one. -/
theorem seek_end_fails :
    seekTarget (tapeView.size (tapeOps,0) tapeFiles.world) 4 0 clFileSeekEnd=some 10 ∧
      Reachable tapeView tapeFiles (tapeOps,0) 10 ∧
      (clPosixLseek 1 0 clFileSeekEnd tapeFiles).1=⟨-1,none,false⟩ ∧
      ¬Positions tapeView tapeFiles 1 (tapeOps,0) 4 0 clFileSeekEnd := by
  have hreach : Reachable tapeView tapeFiles (tapeOps,0) 10 := ⟨by decide,by decide,trivial⟩
  have hreply : (clPosixLseek 1 0 clFileSeekEnd tapeFiles).1=⟨-1,none,false⟩ := by
    decide +kernel
  refine ⟨rfl,hreach,hreply,fun h => ?_⟩
  have hret := (h.reached 10 rfl hreach).1
  rw [hreply] at hret
  exact absurd hret (by decide)

end Appending

end ChisLink.PosixSeek
