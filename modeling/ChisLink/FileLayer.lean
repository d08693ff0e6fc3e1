import Mathlib.Data.Fin.Basic
import Mathlib.Logic.Function.Basic
import ChisLink.LabelledRuns
import ChisLink.StorageClient

/-!
# The file layer

The file layer dispatches the calls on a handle to the backend that the path
names, and keeps an offset of its own beside the position that the backend keeps.
The backends are parameters over a common state. Their contract is that a call on
one handle leaves the others alone, and that a transfer that succeeds moves the
position by the count it reports. Over all runs of the calls the two positions stay
equal exactly if every open begins at zero, every seek goes where it is told to, and
no transfer moves the position without a success that the file layer sees.
-/

namespace ChisLink.FileLayer

open LabelledRuns StorageClient WireProtocol

/-- Number of handles. -/
def clFileMaxHandles : ℕ := 16

/-- What a transfer reports. -/
structure Transfer where
  /-- The result. -/
  ret : ℤ
  /-- The bytes read. -/
  data : List UInt8
  /-- The count in `out_length`. -/
  length : UInt32

/-- The operations of `cl_file_backend_ops_t` that move a position, over the state of all
backends. -/
structure BackendOps (W : Type) where
  /-- Open a path: result and local handle. -/
  openPath : CString → UInt32 → W → (ℤ×UInt16)×W
  /-- Close a local handle. -/
  close : Option (UInt16 → W → ℤ×W)
  /-- Read at most so many bytes. -/
  read : Option (UInt16 → UInt32 → W → Transfer×W)
  /-- Write some bytes. -/
  write : Option (UInt16 → List UInt8 → W → Transfer×W)
  /-- Take a direct window of at most so many bytes: the result and its length. -/
  directRead : Option (UInt16 → UInt32 → W → (ℤ×UInt32)×W)
  /-- Seek to an offset. -/
  seek : Option (UInt16 → UInt64 → W → ℤ×W)

/-- The struct `cl_file_backend`. -/
structure Backend (W : Type) where
  /-- Prefix of its paths. -/
  pathPrefix : CString
  /-- Length of the prefix, zero to count it. -/
  prefixLength : UInt8
  /-- Its operations. -/
  ops : BackendOps W

/-- The struct `cl_file_slot_t` of an open handle. -/
structure FileSlot (W : Type) where
  /-- The backend. -/
  backend : Backend W
  /-- Its local handle. -/
  localHandle : UInt16
  /-- The offset of the file layer. -/
  offset : UInt64

/-- The open handles and the state of the backends. -/
structure Files (W : Type) where
  /-- The slots. -/
  slots : Fin clFileMaxHandles → Option (FileSlot W)
  /-- State of the backends. -/
  world : W

variable {W : Type}

/-- Whether a string begins with so many characters of another. -/
def cstrStartsWith (s pathPrefix : CString) (length : ℕ) : Bool :=
  (List.range length).all fun i =>
    s.1.getD i 0≠0 && s.1.getD i 0=pathPrefix.1.getD i 0

/-- Length of the prefix of a backend. -/
def Backend.length (backend : Backend W) : ℕ :=
  if backend.prefixLength≠0 then backend.prefixLength.toNat
  else min 255 backend.pathPrefix.1.length

/-- One step of the search for the longest prefix. -/
def betterBackend (path : CString) (best : Option (Backend W)) (backend : Backend W) :
    Option (Backend W) :=
  let bestLength := match best with
    | some b => b.length
    | none => 0
  if bestLength≤backend.length ∧ cstrStartsWith path backend.pathPrefix backend.length then
    some backend
  else best

/-- The backend of a path among the registered ones. -/
def findBackend (backends : List (Backend W)) (path : CString) : Option (Backend W) :=
  backends.foldl (betterBackend path) none

/-- The slot of a handle. -/
def slotIndex (file : ℕ) : Option (Fin clFileMaxHandles) :=
  if h : 0<file ∧ file≤ clFileMaxHandles then some ⟨file-1,by omega⟩ else none

/-- The first free slot. -/
def freeSlot (s : Files W) : Option (Fin clFileMaxHandles) :=
  (List.finRange clFileMaxHandles).find? fun i => (s.slots i).isNone

/-- Change one slot. -/
def Files.setSlot (s : Files W) (i : Fin clFileMaxHandles) (slot : Option (FileSlot W)) :
    Files W :=
  {s with slots := Function.update s.slots i slot}

/-- The function `cl_file_open`: the handle or an error. -/
def clFileOpen (backends : List (Backend W)) (path : CString) (flags : UInt32) (s : Files W) :
    Except ℤ ℕ×Files W :=
  match findBackend backends path with
  | none => (.error (-2),s)
  | some backend =>
    match freeSlot s with
    | none => (.error (-3),s)
    | some i =>
      let reply := backend.ops.openPath path flags s.world
      let s := {s with world := reply.2}
      if reply.1.1<0 then (.error reply.1.1,s)
      else (.ok (i+1),s.setSlot i (some ⟨backend,reply.1.2,0⟩))

/-- The function `slot_from_handle`. -/
def slotFromHandle (s : Files W) (file : ℕ) :
    Option (Fin clFileMaxHandles×FileSlot W) :=
  (slotIndex file).bind fun i => (s.slots i).map fun slot => (i,slot)

/-- The function `cl_file_close`. -/
def clFileClose (file : ℕ) (s : Files W) : ℤ×Files W :=
  match slotFromHandle s file with
  | none => (-1,s)
  | some (i,slot) =>
    match slot.backend.ops.close with
    | some close =>
      let reply := close slot.localHandle s.world
      (reply.1,{s with world := reply.2}.setSlot i none)
    | none => (0,s.setSlot i none)

/-- Call an operation of the backend of a handle, if there are both. -/
def callSlot {γ ρ : Type} (s : Files W) (file : ℕ) (op : BackendOps W → Option γ)
    (refused : ρ) (call : Fin clFileMaxHandles → FileSlot W → γ → ρ×Files W) : ρ×Files W :=
  match slotFromHandle s file with
  | none => (refused,s)
  | some (i,slot) =>
    match op slot.backend.ops with
    | none => (refused,s)
    | some f => call i slot f

/-- The end of a transfer: a success whose count is taken advances the offset. -/
def finishTransfer (s : Files W) (i : Fin clFileMaxHandles) (slot : FileSlot W)
    (counted : Bool) (reply : Transfer×W) : Transfer×Files W :=
  let s := {s with world := reply.2}
  if reply.1.ret=0 ∧ counted=true then
    (reply.1,s.setSlot i (some {slot with offset := slot.offset+reply.1.length.toUInt64}))
  else (reply.1,s)

/-- The function `cl_file_read`, with a pointer for the count or without. -/
def clFileRead (file : ℕ) (length : UInt32) (counted : Bool) (s : Files W) :
    Transfer×Files W :=
  callSlot s file BackendOps.read ⟨-1,[],0⟩ fun i slot read =>
    finishTransfer s i slot counted (read slot.localHandle length s.world)

/-- The function `cl_file_write`, with a pointer for the count or without. -/
def clFileWrite (file : ℕ) (src : List UInt8) (counted : Bool) (s : Files W) :
    Transfer×Files W :=
  callSlot s file BackendOps.write ⟨-1,[],0⟩ fun i slot write =>
    finishTransfer s i slot counted (write slot.localHandle src s.world)

/-- The function `copy_direct_read_file`, through which a copy takes windows of a file. -/
def copyDirectReadFile (file : ℕ) (maxLength : UInt32) (s : Files W) :
    (ℤ×UInt32)×Files W :=
  callSlot s file BackendOps.directRead (-1,0) fun _ slot directRead =>
    let reply := directRead slot.localHandle maxLength s.world
    (reply.1,{s with world := reply.2})

/-- The function `cl_file_seek`. -/
def clFileSeek (file : ℕ) (offset : UInt64) (s : Files W) : ℤ×Files W :=
  callSlot s file BackendOps.seek (-1) fun i slot seek =>
    let reply := seek slot.localHandle offset s.world
    let s := {s with world := reply.2}
    if reply.1=0 then (0,s.setSlot i (some {slot with offset := offset}))
    else (reply.1,s)

/-- The function `cl_file_tell`. -/
def clFileTell (file : ℕ) (s : Files W) : Except ℤ UInt64 :=
  match slotFromHandle s file with
  | none => .error (-1)
  | some (_,slot) => .ok slot.offset

/-- A call. -/
inductive Action where
  /-- Open a path. -/
  | openPath (path : CString) (flags : UInt32)
  /-- Close a handle. -/
  | close (file : ℕ)
  /-- Read. -/
  | read (file : ℕ) (length : UInt32) (counted : Bool)
  /-- Write. -/
  | write (file : ℕ) (src : List UInt8) (counted : Bool)
  /-- Take a window, as a copy does. -/
  | directRead (file : ℕ) (maxLength : UInt32)
  /-- Seek. -/
  | seek (file : ℕ) (offset : UInt64)

/-- The state after a call. -/
def step (backends : List (Backend W)) (s : Files W) : Action → Option (Files W)
  | .openPath path flags => some (clFileOpen backends path flags s).2
  | .close file => some (clFileClose file s).2
  | .read file length counted => some (clFileRead file length counted s).2
  | .write file src counted => some (clFileWrite file src counted s).2
  | .directRead file maxLength => some (copyDirectReadFile file maxLength s).2
  | .seek file offset => some (clFileSeek file offset s).2

/-- What a slot stands for in the backends. -/
def FileSlot.key (slot : FileSlot W) : BackendOps W×UInt16 := (slot.backend.ops,slot.localHandle)

/-- Where the backends are: which local handles are open, and at which position each will
perform its next transfer. -/
structure Positions (W : Type) where
  /-- The handle is open. -/
  live : BackendOps W×UInt16 → W → Prop
  /-- Its position. -/
  position : BackendOps W×UInt16 → W → UInt64

section Contract

variable (p : Positions W)

/-- Nothing but the position of one handle has changed. -/
def Leaves (key : BackendOps W×UInt16) (w w' : W) : Prop :=
  (∀ k,p.live k w' ↔ p.live k w) ∧ ∀ k,k≠key → p.live k w → p.position k w'=p.position k w

/-- The contract of a backend. -/
structure BackendOps.Obeys (ops : BackendOps W) : Prop where
  /-- Opening gives a handle that was not open, or none, and moves no other. -/
  openPath : ∀ path flags w,
    (∀ k,p.live k w → p.position k (ops.openPath path flags w).2=p.position k w) ∧
    ((ops.openPath path flags w).1.1<0 →
      ∀ k,p.live k (ops.openPath path flags w).2 ↔ p.live k w) ∧
    (0≤(ops.openPath path flags w).1.1 →
      ¬p.live (ops,(ops.openPath path flags w).1.2) w ∧
      ∀ k,p.live k (ops.openPath path flags w).2 ↔
        p.live k w ∨ k=(ops,(ops.openPath path flags w).1.2))
  /-- Closing leaves the other handles alone. -/
  close : ∀ close,ops.close=some close → ∀ l w k,k≠(ops,l) → p.live k w →
    p.live k (close l w).2 ∧ p.position k (close l w).2=p.position k w
  /-- A read that succeeds moves the position by its count. -/
  read : ∀ read,ops.read=some read → ∀ l length w,p.live (ops,l) w →
    Leaves p (ops,l) w (read l length w).2 ∧ ((read l length w).1.ret=0 →
      p.position (ops,l) (read l length w).2=
        p.position (ops,l) w+(read l length w).1.length.toUInt64)
  /-- So does a write. -/
  write : ∀ write,ops.write=some write → ∀ l src w,p.live (ops,l) w →
    Leaves p (ops,l) w (write l src w).2 ∧ ((write l src w).1.ret=0 →
      p.position (ops,l) (write l src w).2=
        p.position (ops,l) w+(write l src w).1.length.toUInt64)
  /-- A window moves only the handle it is taken from. -/
  directRead : ∀ directRead,ops.directRead=some directRead → ∀ l length w,p.live (ops,l) w →
    Leaves p (ops,l) w (directRead l length w).2
  /-- Seeking moves only the handle that is sought. -/
  seek : ∀ seek,ops.seek=some seek → ∀ l offset w,p.live (ops,l) w →
    Leaves p (ops,l) w (seek l offset w).2

/-- The slots stand for different open handles of the registered backends. -/
structure Linked (backends : List (Backend W)) (s : Files W) : Prop where
  /-- The backend is registered. -/
  registered : ∀ i slot,s.slots i=some slot → slot.backend∈backends
  /-- The local handle is open. -/
  live : ∀ i slot,s.slots i=some slot → p.live slot.key s.world
  /-- No two slots stand for the same. -/
  injective : ∀ i j a b,s.slots i=some a → s.slots j=some b → a.key=b.key → i=j

/-- What the file layer tells is where the backend is, for every open handle. -/
def Agrees (s : Files W) : Prop :=
  ∀ file i slot,slotFromHandle s file=some (i,slot) →
    clFileTell file s=.ok (p.position slot.key s.world)

/-- A condition on the operation that a call on a handle comes to, if it comes to one. -/
def OnSlot {γ : Type} (s : Files W) (file : ℕ) (op : BackendOps W → Option γ)
    (condition : FileSlot W → γ → Prop) : Prop :=
  match slotFromHandle s file with
  | none => True
  | some (_,slot) =>
    match op slot.backend.ops with
    | none => True
    | some f => condition slot f

/-- The step does not part the two positions. An open begins at zero, a transfer succeeds and
is counted or moves nothing, a window moves nothing, a seek goes where it is told to and one
that fails does not move. -/
def Sound (backends : List (Backend W)) (s : Files W) : Action → Prop
  | .openPath path flags => ∀ backend i,findBackend backends path=some backend →
    freeSlot s=some i → 0≤(backend.ops.openPath path flags s.world).1.1 →
    p.position (backend.ops,(backend.ops.openPath path flags s.world).1.2)
      (backend.ops.openPath path flags s.world).2=0
  | .close _ => True
  | .read file length counted => OnSlot s file BackendOps.read fun slot read =>
    ((read slot.localHandle length s.world).1.ret=0 ∧ counted=true) ∨
      p.position slot.key (read slot.localHandle length s.world).2=
        p.position slot.key s.world
  | .write file src counted => OnSlot s file BackendOps.write fun slot write =>
    ((write slot.localHandle src s.world).1.ret=0 ∧ counted=true) ∨
      p.position slot.key (write slot.localHandle src s.world).2=
        p.position slot.key s.world
  | .directRead file length => OnSlot s file BackendOps.directRead fun slot directRead =>
    p.position slot.key (directRead slot.localHandle length s.world).2=
      p.position slot.key s.world
  | .seek file offset => OnSlot s file BackendOps.seek fun slot seek =>
    p.position slot.key (seek slot.localHandle offset s.world).2=
      if (seek slot.localHandle offset s.world).1=0 then offset
      else p.position slot.key s.world

end Contract

section Steps

variable {p : Positions W} {backends : List (Backend W)} {s : Files W}
  {i : Fin clFileMaxHandles} {slot : FileSlot W} {w : W}

/-- Every slot is the slot of some handle. -/
theorem slotFromHandle_succ (s : Files W) (i : Fin clFileMaxHandles) :
    slotFromHandle s (i.val+1)=(s.slots i).map fun slot => (i,slot) := by
  have hlt := i.isLt
  have hindex : slotIndex (i.val+1)=some i := by
    unfold slotIndex
    rw [dif_pos ⟨by omega,by omega⟩]
    rfl
  unfold slotFromHandle
  rw [hindex]
  rfl

theorem slots_of_slotFromHandle {file : ℕ} (h : slotFromHandle s file=some (i,slot)) :
    s.slots i=some slot := by
  obtain ⟨j,-,hj⟩ := Option.bind_eq_some_iff.mp h
  obtain ⟨a,ha,hpair⟩ := Option.map_eq_some_iff.mp hj
  obtain ⟨rfl,rfl⟩ := Prod.mk.inj hpair
  exact ha

/-- Agreement slot by slot. -/
theorem agrees_iff : Agrees p s ↔
    ∀ i slot,s.slots i=some slot → slot.offset=p.position slot.key s.world := by
  constructor
  · intro h i slot hslot
    have hfile := slotFromHandle_succ s i
    rw [hslot] at hfile
    have htell := h (i.val+1) i slot hfile
    unfold clFileTell at htell
    rw [hfile] at htell
    exact Except.ok.inj htell
  · intro h file i slot hfile
    unfold clFileTell
    rw [hfile]
    exact congrArg Except.ok (h i slot (slots_of_slotFromHandle hfile))

/-- After a call on one handle the positions agree if they do for this handle. -/
theorem agrees_moved (hs : Linked p backends s) (hagrees : Agrees p s)
    (hslot : s.slots i=some slot) (hleaves : Leaves p slot.key s.world w) (offset : UInt64) :
    Agrees p ({s with world := w}.setSlot i (some {slot with offset := offset})) ↔
      offset=p.position slot.key w := by
  rw [agrees_iff] at hagrees ⊢
  unfold Files.setSlot
  dsimp only
  constructor
  · intro h
    exact h i _ (Function.update_self _ _ _)
  · intro hoffset j a ha
    by_cases hj : j=i
    · subst hj
      rw [Function.update_self] at ha
      rw [← Option.some.inj ha]
      exact hoffset
    · rw [Function.update_of_ne hj] at ha
      have hkey : a.key≠slot.key := fun h => hj (hs.injective j i a slot ha hslot h)
      rw [hagrees j a ha,hleaves.2 a.key hkey (hs.live j a ha)]

/-- The slots stay linked. -/
theorem linked_moved (hs : Linked p backends s) (hslot : s.slots i=some slot)
    (hleaves : Leaves p slot.key s.world w) (offset : UInt64) :
    Linked p backends ({s with world := w}.setSlot i (some {slot with offset := offset})) := by
  have hold : ∀ {j a},({s with world := w}.setSlot i
      (some {slot with offset := offset})).slots j=some a →
      ∃ b,s.slots j=some b ∧ b.key=a.key ∧ b.backend=a.backend := by
    intro j a ha
    unfold Files.setSlot at ha
    dsimp only at ha
    by_cases hj : j=i
    · subst hj
      rw [Function.update_self] at ha
      rw [← Option.some.inj ha]
      exact ⟨slot,hslot,rfl,rfl⟩
    · rw [Function.update_of_ne hj] at ha
      exact ⟨a,ha,rfl,rfl⟩
  constructor
  · intro j a ha
    obtain ⟨b,hb,-,hbackend⟩ := hold ha
    rw [← hbackend]
    exact hs.registered j b hb
  · intro j a ha
    obtain ⟨b,hb,hkey,-⟩ := hold ha
    rw [← hkey]
    exact (hleaves.1 b.key).mpr (hs.live j b hb)
  · intro j k a b ha hb hkey
    obtain ⟨a',ha',hkeya,-⟩ := hold ha
    obtain ⟨b',hb',hkeyb,-⟩ := hold hb
    exact hs.injective j k a' b' ha' hb' (by rw [hkeya,hkeyb,hkey])

/-- A slot that is set to what it holds. -/
theorem setSlot_self (hslot : s.slots i=some slot) :
    {s with world := w}={s with world := w}.setSlot i
      (some {slot with offset := slot.offset}) := by
  unfold Files.setSlot
  have hsame : Function.update s.slots i (some slot)=s.slots := by
    rw [← hslot]
    exact Function.update_eq_self i s.slots
  dsimp only
  rw [hsame]

/-- A call on a handle does nothing, or it moves the handle in the backend and leaves an
offset in its slot; that the two are equal is the condition on the call. -/
def Moves (p : Positions W) (s t : Files W) (sound : Prop) : Prop :=
  (t=s ∧ sound) ∨ ∃ i slot w offset,s.slots i=some slot ∧ Leaves p slot.key s.world w ∧
    t={s with world := w}.setSlot i (some {slot with offset := offset}) ∧
    (slot.offset=p.position slot.key s.world → (offset=p.position slot.key w ↔ sound))

/-- A transfer. -/
theorem moves_finishTransfer (hslot : s.slots i=some slot) (counted : Bool)
    {reply : Transfer×W} (hleaves : Leaves p slot.key s.world reply.2)
    (hmoved : reply.1.ret=0 → p.position slot.key reply.2=
      p.position slot.key s.world+reply.1.length.toUInt64) :
    Moves p s (finishTransfer s i slot counted reply).2
      ((reply.1.ret=0 ∧ counted=true) ∨
        p.position slot.key reply.2=p.position slot.key s.world) := by
  unfold finishTransfer
  dsimp only
  by_cases hok : reply.1.ret=0 ∧ counted=true
  · rw [if_pos hok]
    refine Or.inr ⟨i,slot,reply.2,_,hslot,hleaves,rfl,fun hoffset => ?_⟩
    rw [hmoved hok.1,← hoffset]
    exact ⟨fun _ => Or.inl hok,fun _ => rfl⟩
  · rw [if_neg hok]
    refine Or.inr ⟨i,slot,reply.2,slot.offset,hslot,hleaves,setSlot_self hslot,
      fun hoffset => ?_⟩
    rw [hoffset]
    exact ⟨fun h => Or.inr h.symm,fun h => (h.resolve_left hok).symm⟩

/-- A call on a handle that comes to an operation moves as this operation does. -/
theorem moves_callSlot {γ ρ : Type} (hbackends : ∀ backend∈backends,backend.ops.Obeys p)
    (hs : Linked p backends s) (file : ℕ) {op : BackendOps W → Option γ} (refused : ρ)
    {call : Fin clFileMaxHandles → FileSlot W → γ → ρ×Files W}
    {condition : FileSlot W → γ → Prop}
    (hcall : ∀ i slot f,s.slots i=some slot → slot.backend.ops.Obeys p →
      p.live slot.key s.world → op slot.backend.ops=some f →
      Moves p s (call i slot f).2 (condition slot f)) :
    Moves p s (callSlot s file op refused call).2 (OnSlot s file op condition) := by
  unfold callSlot OnSlot
  cases hfile : slotFromHandle s file with
  | none => exact Or.inl ⟨rfl,trivial⟩
  | some found =>
    obtain ⟨i,slot⟩ := found
    have hslot := slots_of_slotFromHandle hfile
    dsimp only
    cases hop : op slot.backend.ops with
    | none => exact Or.inl ⟨rfl,trivial⟩
    | some f =>
      exact hcall i slot f hslot (hbackends _ (hs.registered i slot hslot))
        (hs.live i slot hslot) hop

/-- The calls that act on a position. -/
theorem moves_of_step (hbackends : ∀ backend∈backends,backend.ops.Obeys p)
    (hs : Linked p backends s) {action : Action} {t : Files W}
    (hopen : ∀ path flags,action≠.openPath path flags) (hclose : ∀ file,action≠.close file)
    (h : step backends s action=some t) : Moves p s t (Sound p backends s action) := by
  cases action with
  | openPath path flags => exact absurd rfl (hopen path flags)
  | close file => exact absurd rfl (hclose file)
  | read file length counted =>
    obtain rfl := Option.some.inj h
    refine moves_callSlot hbackends hs file _ ?_
    intro i slot read hslot hops hlive hread
    obtain ⟨hleaves,hmoved⟩ := hops.read read hread slot.localHandle length s.world hlive
    exact moves_finishTransfer hslot counted hleaves hmoved
  | write file src counted =>
    obtain rfl := Option.some.inj h
    refine moves_callSlot hbackends hs file _ ?_
    intro i slot write hslot hops hlive hwrite
    obtain ⟨hleaves,hmoved⟩ := hops.write write hwrite slot.localHandle src s.world hlive
    exact moves_finishTransfer hslot counted hleaves hmoved
  | directRead file length =>
    obtain rfl := Option.some.inj h
    refine moves_callSlot hbackends hs file _ ?_
    intro i slot directRead hslot hops hlive hdirect
    have hleaves := hops.directRead directRead hdirect slot.localHandle length s.world hlive
    refine Or.inr ⟨i,slot,_,slot.offset,hslot,hleaves,setSlot_self hslot,fun hoffset => ?_⟩
    rw [hoffset]
    exact eq_comm
  | seek file offset =>
    obtain rfl := Option.some.inj h
    refine moves_callSlot hbackends hs file _ ?_
    intro i slot seek hslot hops hlive hseek
    have hleaves := hops.seek seek hseek slot.localHandle offset s.world hlive
    dsimp only
    by_cases hok : (seek slot.localHandle offset s.world).1=0
    · rw [if_pos hok,if_pos hok]
      exact Or.inr ⟨i,slot,_,offset,hslot,hleaves,rfl,fun _ => eq_comm⟩
    · rw [if_neg hok,if_neg hok]
      refine Or.inr ⟨i,slot,_,slot.offset,hslot,hleaves,setSlot_self hslot,
        fun hoffset => ?_⟩
      rw [hoffset]
      exact eq_comm

/-- The first free slot is free. -/
theorem slots_freeSlot (h : freeSlot s=some i) : s.slots i=none := by
  unfold freeSlot at h
  exact Option.isNone_iff_eq_none.mp (List.find?_some (p := fun i => (s.slots i).isNone) h)

/-- The backend that is found is registered. -/
theorem findBackend_mem {path : CString} {backend : Backend W}
    (h : findBackend backends path=some backend) : backend∈backends := by
  have hfold : ∀ (rest : List (Backend W)) (best : Option (Backend W)),
      rest.foldl (betterBackend path) best=some backend →
      best=some backend ∨ backend∈rest := by
    intro rest
    induction rest with
    | nil => exact fun best hbest => Or.inl hbest
    | cons first rest ih =>
      intro best hbest
      rcases ih _ hbest with hstep | hmem
      · unfold betterBackend at hstep
        dsimp only at hstep
        generalize (match best with
          | some b => b.length
          | none => 0)=bestLength at hstep
        split at hstep
        · exact Or.inr (Option.some.inj hstep ▸ List.mem_cons_self)
        · exact Or.inl hstep
      · exact Or.inr (List.mem_cons_of_mem _ hmem)
  rcases hfold backends none h with hnone | hmem
  · cases hnone
  · exact hmem

/-- A successful open puts a fresh local handle in a free slot. -/
theorem linked_open (hs : Linked p backends s) {backend : Backend W}
    (hbackend : backend∈backends) (hfree : s.slots i=none) {l : UInt16}
    (hfresh : ¬p.live (backend.ops,l) s.world)
    (hlive : ∀ k,p.live k w ↔ p.live k s.world ∨ k=(backend.ops,l)) :
    Linked p backends ({s with world := w}.setSlot i (some ⟨backend,l,0⟩)) := by
  have hslots : ∀ {j a},({s with world := w}.setSlot i (some ⟨backend,l,0⟩)).slots j=some a →
      (j=i ∧ a=⟨backend,l,0⟩) ∨ (j≠i ∧ s.slots j=some a) := by
    intro j a ha
    unfold Files.setSlot at ha
    dsimp only at ha
    by_cases hj : j=i
    · subst hj
      rw [Function.update_self] at ha
      exact Or.inl ⟨rfl,(Option.some.inj ha).symm⟩
    · rw [Function.update_of_ne hj] at ha
      exact Or.inr ⟨hj,ha⟩
  constructor
  · intro j a ha
    rcases hslots ha with ⟨-,rfl⟩ | ⟨-,hold⟩
    · exact hbackend
    · exact hs.registered j a hold
  · intro j a ha
    rcases hslots ha with ⟨-,rfl⟩ | ⟨-,hold⟩
    · exact (hlive _).mpr (Or.inr rfl)
    · exact (hlive _).mpr (Or.inl (hs.live j a hold))
  · intro j k a b ha hb hkey
    rcases hslots ha with ⟨rfl,rfl⟩ | ⟨-,holda⟩ <;> rcases hslots hb with ⟨rfl,rfl⟩ | ⟨-,holdb⟩
    · rfl
    · have hother := hs.live k b holdb
      rw [← hkey] at hother
      exact absurd hother hfresh
    · have hother := hs.live j a holda
      rw [hkey] at hother
      exact absurd hother hfresh
    · exact hs.injective j k a b holda holdb hkey

/-- Opening keeps the slots linked, and the positions agree if the handle begins at zero. -/
theorem step_openPath (hbackends : ∀ backend∈backends,backend.ops.Obeys p)
    (hs : Linked p backends s) (path : CString) (flags : UInt32) :
    Linked p backends (clFileOpen backends path flags s).2 ∧
      (Agrees p s → (Agrees p (clFileOpen backends path flags s).2 ↔
        Sound p backends s (.openPath path flags))) := by
  have htrivial : (findBackend backends path=none ∨ freeSlot s=none) →
      Sound p backends s (.openPath path flags) := by
    rintro (hnone | hnone) backend i hb hi - <;> rw [hnone] at *
    · cases hb
    · cases hi
  unfold clFileOpen
  cases hbackend : findBackend backends path with
  | none =>
    exact ⟨hs,fun hagrees => ⟨fun _ => htrivial (Or.inl hbackend),fun _ => hagrees⟩⟩
  | some backend =>
    dsimp only
    cases hfree : freeSlot s with
    | none => exact ⟨hs,fun hagrees => ⟨fun _ => htrivial (Or.inr hfree),fun _ => hagrees⟩⟩
    | some i =>
      have hmem := findBackend_mem hbackend
      obtain ⟨hkept,hfailed,hopened⟩ := (hbackends backend hmem).openPath path flags s.world
      have hsound : Sound p backends s (.openPath path flags) ↔
          (0≤(backend.ops.openPath path flags s.world).1.1 →
            p.position (backend.ops,(backend.ops.openPath path flags s.world).1.2)
              (backend.ops.openPath path flags s.world).2=0) := by
        constructor
        · exact fun h => h backend i hbackend hfree
        · intro h b j hb hj
          rw [hbackend] at hb
          rw [← Option.some.inj hb]
          exact h
      rw [hsound]
      dsimp only
      by_cases hneg : (backend.ops.openPath path flags s.world).1.1<0
      · rw [if_pos hneg]
        refine ⟨⟨hs.registered,fun j a ha => ?_,hs.injective⟩,fun hagrees => ?_⟩
        · exact (hfailed hneg a.key).mpr (hs.live j a ha)
        · refine ⟨fun _ hok => by omega,fun _ => ?_⟩
          rw [agrees_iff] at hagrees ⊢
          intro j a ha
          dsimp only at ha ⊢
          rw [hkept a.key (hs.live j a ha)]
          exact hagrees j a ha
      · rw [if_neg hneg]
        have hempty := slots_freeSlot hfree
        obtain ⟨hfresh,hlive⟩ := hopened (by omega)
        refine ⟨linked_open hs hmem hempty hfresh hlive,fun hagrees => ?_⟩
        rw [agrees_iff] at hagrees ⊢
        unfold Files.setSlot
        dsimp only
        constructor
        · intro h _
          exact (h i _ (Function.update_self _ _ _)).symm
        · intro h j a ha
          by_cases hj : j=i
          · subst hj
            rw [Function.update_self] at ha
            rw [← Option.some.inj ha]
            exact (h (by omega)).symm
          · rw [Function.update_of_ne hj] at ha
            rw [hkept a.key (hs.live j a ha)]
            exact hagrees j a ha

/-- Closing keeps the slots linked and the positions equal. -/
theorem step_close (hbackends : ∀ backend∈backends,backend.ops.Obeys p)
    (hs : Linked p backends s) (file : ℕ) :
    Linked p backends (clFileClose file s).2 ∧
      (Agrees p s → Agrees p (clFileClose file s).2) := by
  have hremoved : ∀ {i slot w},s.slots i=some slot →
      (∀ k,k≠slot.key → p.live k s.world →
        p.live k w ∧ p.position k w=p.position k s.world) →
      Linked p backends ({s with world := w}.setSlot i none) ∧
        (Agrees p s → Agrees p ({s with world := w}.setSlot i none)) := by
    intro i slot w hslot hothers
    have hslots : ∀ {j a},({s with world := w}.setSlot i none).slots j=some a →
        s.slots j=some a ∧ a.key≠slot.key := by
      intro j a ha
      unfold Files.setSlot at ha
      dsimp only at ha
      by_cases hj : j=i
      · subst hj
        rw [Function.update_self] at ha
        cases ha
      · rw [Function.update_of_ne hj] at ha
        exact ⟨ha,fun h => hj (hs.injective j i a slot ha hslot h)⟩
    refine ⟨⟨?_,?_,?_⟩,fun hagrees => ?_⟩
    · exact fun j a ha => hs.registered j a (hslots ha).1
    · exact fun j a ha => (hothers a.key (hslots ha).2 (hs.live j a (hslots ha).1)).1
    · exact fun j k a b ha hb => hs.injective j k a b (hslots ha).1 (hslots hb).1
    · rw [agrees_iff] at hagrees ⊢
      intro j a ha
      obtain ⟨hold,hkey⟩ := hslots ha
      have hkept := (hothers a.key hkey (hs.live j a hold)).2
      exact (hagrees j a hold).trans hkept.symm
  unfold clFileClose
  cases hfile : slotFromHandle s file with
  | none => exact ⟨hs,id⟩
  | some found =>
    obtain ⟨i,slot⟩ := found
    have hslot := slots_of_slotFromHandle hfile
    dsimp only
    cases hclose : slot.backend.ops.close with
    | none => exact hremoved hslot fun k _ hlive => ⟨hlive,rfl⟩
    | some close =>
      have hobeys := (hbackends _ (hs.registered i slot hslot)).close close hclose
      exact hremoved hslot fun k hk hlive => hobeys slot.localHandle s.world k hk hlive

/-- What one step does. -/
theorem step_spec (hbackends : ∀ backend∈backends,backend.ops.Obeys p)
    (hs : Linked p backends s) {action : Action} {t : Files W}
    (h : step backends s action=some t) :
    Linked p backends t ∧ (Agrees p s → (Agrees p t ↔ Sound p backends s action)) := by
  by_cases hopen : ∃ path flags,action=.openPath path flags
  · obtain ⟨path,flags,rfl⟩ := hopen
    obtain rfl := Option.some.inj h
    exact step_openPath hbackends hs path flags
  · by_cases hclose : ∃ file,action=.close file
    · obtain ⟨file,rfl⟩ := hclose
      obtain rfl := Option.some.inj h
      obtain ⟨hlinked,hagrees⟩ := step_close hbackends hs file
      exact ⟨hlinked,fun hs => ⟨fun _ => trivial,fun _ => hagrees hs⟩⟩
    · push Not at hopen hclose
      rcases moves_of_step hbackends hs hopen hclose h with ⟨rfl,hsound⟩ |
        ⟨i,slot,w,offset,hslot,hleaves,rfl,hiff⟩
      · exact ⟨hs,fun hagrees => ⟨fun _ => hsound,fun _ => hagrees⟩⟩
      · refine ⟨linked_moved hs hslot hleaves offset,fun hagrees => ?_⟩
        rw [agrees_moved hs hagrees hslot hleaves offset]
        exact hiff (agrees_iff.mp hagrees i slot hslot)

end Steps

/-- No handle is open. -/
def fresh (w : W) : Files W := ⟨fun _ => none,w⟩

/-- In a run of calls from no open handles, what the file layer tells is always where the
backends are exactly if every step of the run is sound. -/
theorem agrees_always_iff (p : Positions W) (backends : List (Backend W))
    (hbackends : ∀ backend∈backends,backend.ops.Obeys p) (w : W)
    (trace : List (Files W×Action)) (last : Files W)
    (run : Run (step backends) (fresh w) trace last) :
    Always (Agrees p) trace last ↔ EveryStep (Sound p backends) trace := by
  have hlinked : Linked p backends (fresh w) :=
    ⟨fun i slot h => (by cases h),fun i slot h => (by cases h),fun i j a b h => (by cases h)⟩
  have hagrees : Agrees p (fresh w) := agrees_iff.mpr fun i slot h => by cases h
  exact run.always_iff_everyStep hlinked
    (fun s action t hs h => (step_spec hbackends hs h).1) hagrees
    (fun s action t hs hP h => (step_spec hbackends hs h).2 hP)

/-- A backend with one handle. Its state is the position while the handle is open. A write
of more than four bytes fails after the first four, as a write in frames does when the
second frame fails. -/
def smallOps : BackendOps (Option UInt64) where
  openPath _ _
    | none => ((0,0),some 0)
    | some position => ((-1,0),some position)
  close := some fun l w => (0,if l=0 then none else w)
  read := none
  write := some fun _ src w =>
    if src.length≤4 then
      (⟨0,[],UInt32.ofNat src.length⟩,w.map fun position =>
        position+(UInt32.ofNat src.length).toUInt64)
    else (⟨-3,[],4⟩,w.map fun position => position+(4 : UInt32).toUInt64)
  directRead := none
  seek := some fun _ offset w => (0,w.map fun _ => offset)

/-- The backend under the root. -/
def smallBackend : Backend (Option UInt64) := ⟨⟨[47],slash_noNul⟩,1,smallOps⟩

/-- Its one handle. -/
def smallPositions : Positions (Option UInt64) where
  live key w := key=(smallOps,0) ∧ w.isSome=true
  position _ w := w.getD 0

/-- It keeps the contract. -/
theorem smallOps_obeys : smallOps.Obeys smallPositions := by
  have hopen : ∀ path flags w,smallOps.openPath path flags w=match w with
      | none => ((0,0),some 0)
      | some position => ((-1,0),some position) := fun _ _ w => by cases w <;> rfl
  have honly : ∀ {k w},smallPositions.live k w → ∀ {l},smallPositions.live (smallOps,l) w →
      k=(smallOps,l) := fun hk _ hl => hk.1.trans hl.1.symm
  constructor
  · intro path flags w
    rw [hopen]
    cases w with
    | none =>
      have hzero : ¬(0 : ℤ)<0 := by decide
      refine ⟨fun k hk => absurd hk.2 Bool.false_ne_true,fun h => absurd h hzero,
        fun _ => ⟨fun h => absurd h.2 Bool.false_ne_true,fun k => ?_⟩⟩
      exact ⟨fun h => Or.inr h.1,fun h => ⟨h.elim And.left id,rfl⟩⟩
    | some position =>
      have hone : ¬(0 : ℤ)≤-1 := by decide
      exact ⟨fun _ _ => rfl,fun _ _ => Iff.rfl,fun h => absurd h hone⟩
  · rintro close h l w k hk hlive
    cases h
    have hl : l≠0 := fun h => hk (by rw [h]; exact hlive.1)
    dsimp only
    rw [if_neg hl]
    exact ⟨hlive,rfl⟩
  · exact fun read h => by cases h
  · rintro write h l src w hlive
    cases h
    obtain ⟨position,rfl⟩ := Option.isSome_iff_exists.mp hlive.2
    dsimp only
    split
    · exact ⟨⟨fun k => Iff.rfl,fun k hk hlive' => absurd (honly hlive' hlive) hk⟩,
        fun _ => rfl⟩
    · exact ⟨⟨fun k => Iff.rfl,fun k hk hlive' => absurd (honly hlive' hlive) hk⟩,
        fun _ => rfl⟩
  · exact fun directRead h => by cases h
  · rintro seek h l offset w hlive
    cases h
    obtain ⟨position,rfl⟩ := Option.isSome_iff_exists.mp hlive.2
    exact ⟨fun k => Iff.rfl,fun k hk hlive' => absurd (honly hlive' hlive) hk⟩

/-- The file that is opened. -/
def smallPath : CString := ⟨[47],slash_noNul⟩

/-- After the open. -/
def smallOpened : Files (Option UInt64) :=
  (clFileOpen [smallBackend] smallPath 2 (fresh none)).2

/-- After a write of eight bytes. -/
def smallWritten : Files (Option UInt64) :=
  (clFileWrite 1 [1,2,3,4,5,6,7,8] true smallOpened).2

/-- The run of the two calls. -/
def smallTrace : List (Files (Option UInt64)×Action) :=
  [(fresh none,.openPath smallPath 2),(smallOpened,.write 1 [1,2,3,4,5,6,7,8] true)]

theorem small_run : Run (step [smallBackend]) (fresh none) smallTrace smallWritten :=
  (Run.nil.snoc rfl).snoc rfl

/-- The equivalence for the run of the two calls. -/
theorem agrees_always_iff_small :
    Always (Agrees smallPositions) smallTrace smallWritten ↔
      EveryStep (Sound smallPositions [smallBackend]) smallTrace := by
  refine agrees_always_iff smallPositions [smallBackend] ?_ none smallTrace smallWritten
    small_run
  intro backend hbackend
  rw [List.mem_singleton.mp hbackend]
  exact smallOps_obeys

/-- After a write that fails half way, the file layer tells zero and the backend is at
four. -/
theorem agrees_fails :
    Run (step [smallBackend]) (fresh none) smallTrace smallWritten ∧
      clFileTell 1 smallWritten=.ok 0 ∧
      smallPositions.position (smallOps,0) smallWritten.world=4 ∧
      ¬Always (Agrees smallPositions) smallTrace smallWritten := by
  have htell : clFileTell 1 smallWritten=.ok 0 := rfl
  have hposition : smallPositions.position (smallOps,0) smallWritten.world=4 := rfl
  refine ⟨small_run,htell,hposition,fun halways => ?_⟩
  have hslot : slotFromHandle smallWritten 1=
      some (⟨0,by decide⟩,⟨smallBackend,0,0⟩) := rfl
  have hagrees := halways.2 1 _ ⟨smallBackend,0,0⟩ hslot
  rw [htell] at hagrees
  have hzero : (0 : UInt64)=4 := Except.ok.inj hagrees
  exact absurd hzero (by decide)

end ChisLink.FileLayer
