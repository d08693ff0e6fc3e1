import ChisLink.ReadableFiles

/-!
# Writable files

What a caller may expect of an ordinary file store. A call that succeeds does what it
should: an open keeps, creates or empties the file as its flags say, a write overwrites
from the position and extends the file, and the size can be set if there is an
operation for it. A transfer that fails has done a part of its work.
-/

namespace ChisLink.WritableFiles

open CopyStream FileOperations StorageClient WireProtocol
open FileLayer hiding Leaves
open ReadableFiles hiding Leaves

variable {W : Type}

/-- The content of a file after an open. -/
def afterOpen (flags : UInt32) (content : Option (List UInt8)) : Option (List UInt8) :=
  let content := if flags &&& clpOpenCreate≠0 then some (content.getD []) else content
  if flags &&& clpOpenTruncate≠0 then content.map fun _ => [] else content

/-- The content of a file after a write from a position in it. -/
def written (content : List UInt8) (position : ℕ) (data : List UInt8) : List UInt8 :=
  content.take position++data++content.drop (position+data.length)

theorem take_written (content data : List UInt8) {q : ℕ} (hq : q≤ content.length) :
    (written content q data).take (q+data.length)=content.take q++data := by
  have hlength : (content.take q++data).length=q+data.length := by
    rw [List.length_append,List.length_take,Nat.min_eq_left hq]
  unfold written
  exact List.take_left' hlength

theorem drop_written (content data : List UInt8) {q : ℕ} (hq : q≤ content.length) :
    (written content q data).drop (q+data.length)=content.drop (q+data.length) := by
  have hlength : (content.take q++data).length=q+data.length := by
    rw [List.length_append,List.length_take,Nat.min_eq_left hq]
  unfold written
  exact List.drop_left' hlength

theorem length_written (content data : List UInt8) {q : ℕ} (hq : q≤ content.length) :
    q+data.length≤(written content q data).length := by
  unfold written
  rw [List.length_append,List.length_append,List.length_take,Nat.min_eq_left hq]
  omega

/-- Neither the files nor the handles have changed. -/
structure Steady (view : FileView W) (w w' : W) : Prop extends view.SameFiles w w' where
  /-- Every handle is where it was. -/
  handle : ∀ key,view.handle key w'=view.handle key w

/-- One file and one handle that has it open have changed. -/
structure Changes (view : FileView W) (key : BackendOps W×UInt16) (path : CString)
    (now : CString×ℕ) (content : Option (List UInt8)) (w w' : W) : Prop where
  /-- The handle is as told. -/
  handle : view.handle key w'=some now
  /-- The others are where they were. -/
  others : ∀ other,other≠key → view.handle other w'=view.handle other w
  /-- The content is as told. -/
  content : view.content path w'=content
  /-- The other files are as they were. -/
  files : ∀ other,other≠path → view.content other w'=view.content other w

/-- What a read from a position may do. One that succeeds gives the next bytes, and none
only at the end. -/
structure Reads (view : FileView W) (key : BackendOps W×UInt16) (path : CString)
    (content : List UInt8) (position want : ℕ) (ret : ℤ) (data : List UInt8) (w w' : W) :
    Prop where
  /-- The files are as they were, and the handle is in the file. -/
  moves : ∃ now,now≤ content.length ∧ view.Moves key (some (path,now)) w w' ∧
    (0≤ ret → now=position+data.length)
  /-- Not too many bytes. -/
  length_le : 0≤ ret → data.length≤want
  /-- The next ones. -/
  data_eq : 0≤ ret → data=(content.drop position).take data.length
  /-- All of the file was read. -/
  at_end : 0≤ ret → data=[] → 0<want → position=content.length

/-- What a window from a position may do. One that is not longer than was asked for has the
next bytes. -/
structure Opens (view : FileView W) (key : BackendOps W×UInt16) (path : CString)
    (content : List UInt8) (position want : ℕ) (ret : ℤ) (reply : WindowReply) (w w' : W) :
    Prop where
  /-- The files are as they were, and the handle is in the file. -/
  moves : ∃ now,now≤ content.length ∧ view.Moves key (some (path,now)) w w' ∧
    (0≤ ret → match reply with
      | .null length => length=0 → now=position
      | .window window => window.length.toNat≤want → now=position+window.data.length ∧
        window.data=(content.drop position).take window.data.length)

/-- What a write from a position may do: write a beginning of the data, and tell how much
unless it fails. -/
def Writes (view : FileView W) (key : BackendOps W×UInt16) (path : CString)
    (content : List UInt8) (position : ℕ) (data : List UInt8) (ret : ℤ) (length : ℕ)
    (w w' : W) : Prop :=
  ∃ k,k≤data.length ∧ (0≤ ret → length=k) ∧
    Changes view key path (path,position+k) (some (written content position (data.take k))) w w'

section Contract

variable (backends : List (Backend W)) (others : Others W) (view : FileView W)

/-- A backend is an ordinary store of the files of its paths. -/
structure Stores (backend : Backend W) : Prop where
  /-- It tells their sizes. -/
  stat : ∀ stat,(others.ops backend).stat=some stat → ∀ path w,Steady view w (stat path w).2 ∧
    ∀ content,view.content path w=some content → 0≤(stat path w).1.1 →
      (stat path w).1.2.size.toNat=content.length
  /-- Metadata of a handle change nothing. -/
  fstat : ∀ fstat,(others.ops backend).fstat=some fstat → ∀ l w,Steady view w (fstat l w).2
  /-- It opens them at the beginning, under a handle that is not in use. -/
  openPath : ∀ path flags w,0≤(backend.ops.openPath path flags w).1.1 →
    view.handle (backend.ops,(backend.ops.openPath path flags w).1.2) w=none ∧
    Changes view (backend.ops,(backend.ops.openPath path flags w).1.2) path (path,0)
      (afterOpen flags (view.content path w)) w (backend.ops.openPath path flags w).2
  /-- It reads them. -/
  read : ∀ read,backend.ops.read=some read → ∀ l path content position want w,
    view.handle (backend.ops,l) w=some (path,position) → view.content path w=some content →
    position≤ content.length →
    Reads view (backend.ops,l) path content position want.toNat (read l want w).1.ret
      (read l want w).1.data w (read l want w).2
  /-- It gives windows of them. -/
  directRead : ∀ directRead,(others.ops backend).directRead=some directRead →
    ∀ l path content position want w,view.handle (backend.ops,l) w=some (path,position) →
    view.content path w=some content → position≤ content.length →
    Opens view (backend.ops,l) path content position want.toNat (directRead l want w).1.1
      (directRead l want w).1.2 w (directRead l want w).2
  /-- Giving a window back changes nothing. -/
  releaseDirect : ∀ release,(others.ops backend).releaseDirect=some release → ∀ l w,
    Steady view w (release l w).2
  /-- It writes them. -/
  write : ∀ write,backend.ops.write=some write → ∀ l path content position data w,
    view.handle (backend.ops,l) w=some (path,position) → view.content path w=some content →
    position≤ content.length →
    Writes view (backend.ops,l) path content position data (write l data w).1.ret
      (write l data w).1.length.toNat w (write l data w).2
  /-- It writes them from windows. -/
  directWrite : ∀ directWrite,(others.ops backend).directWrite=some directWrite →
    ∀ l path content position window offset length w,
    view.handle (backend.ops,l) w=some (path,position) → view.content path w=some content →
    position≤ content.length →
    Writes view (backend.ops,l) path content position
      ((window.data.drop offset).take length) (directWrite l window offset length w).1.1
      (directWrite l window offset length w).1.2 w (directWrite l window offset length w).2
  /-- Flushing changes nothing that is seen. -/
  flush : ∀ flush,(others.ops backend).flush=some flush → ∀ l w,Steady view w (flush l w).2
  /-- It sets sizes. -/
  truncate : ∀ truncate,(others.ops backend).truncate=some truncate →
    ∀ l path content position size w,view.handle (backend.ops,l) w=some (path,position) →
    view.content path w=some content → 0≤(truncate l size w).1 →
    Changes view (backend.ops,l) path (path,position) (some (content.takeD size.toNat 0)) w
      (truncate l size w).2
  /-- It closes them. -/
  close : ∀ close,backend.ops.close=some close → ∀ l path position w,
    view.handle (backend.ops,l) w=some (path,position) → 0≤(close l w).1 →
    view.Moves (backend.ops,l) none w (close l w).2

end Contract

/-- A handle stands for a local handle of a backend. -/
def StandsFor (s : Files W) (file : ℕ) (backend : Backend W) (l : UInt16) : Prop :=
  ∃ i slot,slotFromHandle s file=some (i,slot) ∧ slot.backend=backend ∧ slot.localHandle=l

/-- Every handle stands for what it stood for. -/
def KeepsHandles (s t : Files W) : Prop :=
  ∀ file backend l,StandsFor s file backend l → StandsFor t file backend l

section Calls

variable {others : Others W} {s t : Files W} {file : ℕ} {backend : Backend W} {l : UInt16}

theorem KeepsHandles.trans {u : Files W} (h : KeepsHandles s t) (h' : KeepsHandles t u) :
    KeepsHandles s u := fun file backend l hs => h' file backend l (h file backend l hs)

/-- Only the slots tell what the handles stand for. -/
theorem keepsHandles_of_slots (h : t.slots=s.slots) : KeepsHandles s t := by
  rintro file backend l ⟨i,slot,hslot,hbackend,hlocal⟩
  refine ⟨i,slot,?_,hbackend,hlocal⟩
  unfold slotFromHandle at hslot ⊢
  rw [h]
  exact hslot

/-- Moving the offset of a slot. -/
theorem keepsHandles_offset {i : Fin clFileMaxHandles} {slot : FileSlot W}
    (hslot : s.slots i=some slot) (w : W) (offset : UInt64) :
    KeepsHandles s ({s with world := w}.setSlot i (some {slot with offset := offset})) := by
  rintro file backend l ⟨j,slot',hslot',hbackend,hlocal⟩
  by_cases hj : j=i
  · rw [hj] at hslot'
    have hsame := slots_of_slotFromHandle hslot'
    rw [hslot] at hsame
    obtain rfl := Option.some.inj hsame
    exact ⟨i,_,slotFromHandle_moved hslot' w offset,hbackend,hlocal⟩
  · exact ⟨j,slot',slotFromHandle_other hj hslot' w _,hbackend,hlocal⟩

/-- A transfer on a handle is that of its backend. -/
theorem transfer_cases {γ : Type} (h : StandsFor s file backend l)
    (op : BackendOps W → Option γ) (call : UInt16 → γ → W → Transfer×W) (counted : Bool) :
    let result := callSlot s file op ⟨-1,[],0⟩ fun i slot f =>
      finishTransfer s i slot counted (call slot.localHandle f s.world)
    (op backend.ops=none ∧ result=(⟨-1,[],0⟩,s)) ∨ ∃ f,op backend.ops=some f ∧
      result.1=(call l f s.world).1 ∧ result.2.world=(call l f s.world).2 ∧
      KeepsHandles s result.2 := by
  obtain ⟨i,slot,hslot,rfl,rfl⟩ := h
  unfold callSlot
  rw [hslot]
  dsimp only
  cases hop : op slot.backend.ops with
  | none => exact Or.inl ⟨rfl,rfl⟩
  | some f =>
    refine Or.inr ⟨f,rfl,?_⟩
    unfold finishTransfer
    dsimp only
    split
    · exact ⟨rfl,rfl,keepsHandles_offset (slots_of_slotFromHandle hslot) _ _⟩
    · exact ⟨rfl,rfl,keepsHandles_of_slots rfl⟩

/-- Another call on a handle is that of its backend. -/
theorem callOther_cases (others : Others W) {γ ρ : Type} (h : StandsFor s file backend l)
    (op : OtherOps W → Option γ) (missing : ρ) (call : UInt16 → γ → W → ρ×W) :
    (op (others.ops backend)=none ∧ callOther others s file op missing call=(missing,s)) ∨
    ∃ f,op (others.ops backend)=some f ∧ callOther others s file op missing call=
      ((call l f s.world).1,{s with world := (call l f s.world).2}) := by
  obtain ⟨i,slot,hslot,rfl,rfl⟩ := h
  unfold callOther
  rw [hslot]
  dsimp only
  cases hop : op (others.ops slot.backend) with
  | none => exact Or.inl ⟨rfl,rfl⟩
  | some f => exact Or.inr ⟨f,rfl,rfl⟩

/-- A handle that was opened stands for what was opened. -/
theorem standsFor_open {i : Fin clFileMaxHandles} (w : W) (backend : Backend W) (l : UInt16)
    (offset : UInt64) :
    StandsFor ({s with world := w}.setSlot i (some ⟨backend,l,offset⟩)) (i+1) backend l := by
  refine ⟨i,⟨backend,l,offset⟩,?_,rfl,rfl⟩
  rw [slotFromHandle_succ]
  unfold Files.setSlot
  dsimp only
  rw [Function.update_self]
  rfl

/-- Taking a free slot keeps the handles. -/
theorem keepsHandles_taken {i : Fin clFileMaxHandles} (hfree : s.slots i=none) (w : W)
    (slot : FileSlot W) : KeepsHandles s ({s with world := w}.setSlot i (some slot)) := by
  rintro file backend l ⟨j,slot',hslot',hbackend,hlocal⟩
  have hdifferent : j≠i := by
    rintro rfl
    have hused := slots_of_slotFromHandle hslot'
    rw [hfree] at hused
    cases hused
  exact ⟨j,slot',slotFromHandle_other hdifferent hslot' w _,hbackend,hlocal⟩

/-- An open that does not fail gives a handle for a new local handle of the backend of the
path. -/
theorem clFileOpen_cases (backends : List (Backend W)) (path : CString) (flags : UInt32)
    (s : Files W) :
    (∃ ret t,clFileOpen backends path flags s=(.error ret,t) ∧ ret<0) ∨
    ∃ file t backend l,clFileOpen backends path flags s=(.ok file,t) ∧
      findBackend backends path=some backend ∧ StandsFor t file backend l ∧
      KeepsHandles s t ∧ 0≤(backend.ops.openPath path flags s.world).1.1 ∧
      l=(backend.ops.openPath path flags s.world).1.2 ∧
      t.world=(backend.ops.openPath path flags s.world).2 := by
  unfold clFileOpen
  cases hfind : findBackend backends path with
  | none => exact Or.inl ⟨_,_,rfl,by decide⟩
  | some backend =>
    dsimp only
    cases hfree : freeSlot s with
    | none => exact Or.inl ⟨_,_,rfl,by decide⟩
    | some i =>
      dsimp only
      split
      next hneg => exact Or.inl ⟨_,_,rfl,hneg⟩
      next hpos =>
        exact Or.inr ⟨_,_,backend,_,rfl,rfl,standsFor_open _ _ _ _,
          keepsHandles_taken (slots_freeSlot hfree) _ _,by omega,rfl,rfl⟩

/-- A close frees one slot. -/
theorem clFileClose_cases (h : StandsFor s file backend l) :
    (backend.ops.close=none ∧ (clFileClose file s).1=0 ∧
      (clFileClose file s).2.world=s.world) ∨
    ∃ close,backend.ops.close=some close ∧ (clFileClose file s).1=(close l s.world).1 ∧
      (clFileClose file s).2.world=(close l s.world).2 := by
  obtain ⟨i,slot,hslot,rfl,rfl⟩ := h
  unfold clFileClose
  rw [hslot]
  dsimp only
  cases hclose : slot.backend.ops.close with
  | none => exact Or.inl ⟨rfl,rfl,rfl⟩
  | some close => exact Or.inr ⟨close,rfl,rfl,rfl⟩

/-- Closing another handle. -/
theorem standsFor_close {other : ℕ} {backend' : Backend W} {l' : UInt16}
    (h : StandsFor s file backend l) (h' : StandsFor s other backend' l')
    (hne : (backend.ops,l)≠(backend'.ops,l')) :
    StandsFor (clFileClose file s).2 other backend' l' := by
  obtain ⟨i,slot,hslot,rfl,rfl⟩ := h
  obtain ⟨j,slot',hslot',rfl,rfl⟩ := h'
  have hdifferent : j≠i := by
    rintro rfl
    have hfirst := slots_of_slotFromHandle hslot
    have hsecond := slots_of_slotFromHandle hslot'
    rw [hfirst] at hsecond
    obtain rfl := Option.some.inj hsecond
    exact hne rfl
  unfold clFileClose
  rw [hslot]
  dsimp only
  cases slot.backend.ops.close with
  | none => exact ⟨j,slot',slotFromHandle_other hdifferent hslot' s.world none,rfl,rfl⟩
  | some close => exact ⟨j,slot',slotFromHandle_other hdifferent hslot' _ none,rfl,rfl⟩

end Calls

end ChisLink.WritableFiles
