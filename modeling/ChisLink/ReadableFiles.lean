import ChisLink.FileOperations

/-!
# Readable files

What a caller may expect of a backend that serves files. A file can be opened while there
is room, a local handle reads it in pieces of any size from its position on, seeks and
is closed. No reading changes a file or another handle. On handles of the file layer
this gives one rule for each call.
-/

namespace ChisLink.ReadableFiles

open DriverPrograms FileLayer FileOperations StorageClient

variable {W : Type}

/-- How the state of the backends is seen. -/
structure FileView (W : Type) where
  /-- The file and the position of a local handle. -/
  handle : BackendOps W×UInt16 → W → Option (CString×ℕ)
  /-- The content of a file. -/
  content : CString → W → Option (List UInt8)
  /-- Number of files that can still be opened. -/
  room : W → ℕ

/-- The files are as they were. -/
structure FileView.SameFiles (view : FileView W) (w w' : W) : Prop where
  /-- Their contents are. -/
  content : ∀ path,view.content path w'=view.content path w

/-- Nothing has changed. -/
structure FileView.Same (view : FileView W) (w w' : W) : Prop
    extends view.SameFiles w w' where
  /-- Every handle is where it was. -/
  handle : ∀ key,view.handle key w'=view.handle key w
  /-- There is as much room. -/
  room : view.room w'=view.room w

/-- One handle has changed, not the files. -/
structure FileView.Moves (view : FileView W) (key : BackendOps W×UInt16)
    (now : Option (CString×ℕ)) (w w' : W) : Prop extends view.SameFiles w w' where
  /-- The handle is as told. -/
  handle : view.handle key w'=now
  /-- The others are where they were. -/
  others : ∀ other,other≠key → view.handle other w'=view.handle other w

/-- A read of at most so many bytes that are there: some of them. -/
structure Delivered (rest : List UInt8) (want : UInt32) (reply : Transfer) : Prop where
  /-- It does not fail. -/
  ret : 0≤ reply.ret
  /-- There are some. -/
  data_ne : reply.data≠[]
  /-- There are not too many. -/
  data_le : reply.data.length≤want.toNat
  /-- Their number is told. -/
  length_eq : reply.length.toNat=reply.data.length
  /-- They are the next. -/
  data_eq : reply.data=rest.take reply.data.length

section Contract

variable (backends : List (Backend W)) (others : Others W) (view : FileView W)

/-- A backend serves the files of its paths for reading. -/
structure Serves (backend : Backend W) : Prop where
  /-- It tells their sizes. -/
  stat : ∃ stat,(others.ops backend).stat=some stat ∧ ∀ path content w,
    findBackend backends path=some backend → view.content path w=some content →
    0≤(stat path w).1.1 ∧ (stat path w).1.2.size.toNat=content.length ∧
      view.Same w (stat path w).2
  /-- It opens them at the beginning, under a handle that is not in use. -/
  openPath : ∀ path content w,findBackend backends path=some backend →
    view.content path w=some content → 0<view.room w →
    0≤(backend.ops.openPath path clpOpenRead w).1.1 ∧
      view.handle (backend.ops,(backend.ops.openPath path clpOpenRead w).1.2) w=none ∧
      view.Moves (backend.ops,(backend.ops.openPath path clpOpenRead w).1.2) (some (path,0))
        w (backend.ops.openPath path clpOpenRead w).2 ∧
      view.room w=view.room (backend.ops.openPath path clpOpenRead w).2+1
  /-- It reads them in pieces. -/
  read : ∃ read,backend.ops.read=some read ∧ ∀ l path content position want w,
    view.handle (backend.ops,l) w=some (path,position) → view.content path w=some content →
    0<want.toNat → position<content.length →
    Delivered (content.drop position) want (read l want w).1 ∧
      view.Moves (backend.ops,l) (some (path,position+(read l want w).1.data.length)) w
        (read l want w).2 ∧
      view.room (read l want w).2=view.room w
  /-- It seeks in them. -/
  seek : ∃ seek,backend.ops.seek=some seek ∧ ∀ l path content position offset w,
    view.handle (backend.ops,l) w=some (path,position) → view.content path w=some content →
    offset.toNat≤ content.length →
    0≤(seek l offset w).1 ∧
      view.Moves (backend.ops,l) (some (path,offset.toNat)) w (seek l offset w).2 ∧
      view.room (seek l offset w).2=view.room w
  /-- It closes them. -/
  close : ∀ close,backend.ops.close=some close → ∀ l path position w,
    view.handle (backend.ops,l) w=some (path,position) →
    (close l w).1=0 ∧ view.Moves (backend.ops,l) none w (close l w).2 ∧
      view.room (close l w).2=view.room w+1

/-- A file that can be read: a backend serves it. -/
structure Readable (path : CString) (content : List UInt8) (w : W) : Prop where
  /-- It is there. -/
  content_eq : view.content path w=some content
  /-- Its backend serves it. -/
  serves : ∃ backend,findBackend backends path=some backend ∧
    Serves backends others view backend

/-- An open handle of the file layer: its backend serves it, from a position in a file. -/
structure Held (s : Files W) (file : ℕ) (key : BackendOps W×UInt16) (path : CString)
    (content : List UInt8) (position : ℕ) : Prop where
  /-- It has a slot of a backend that serves it. -/
  slot : ∃ i slot,slotFromHandle s file=some (i,slot) ∧ slot.key=key ∧
    Serves backends others view slot.backend
  /-- The file. -/
  content_eq : view.content path s.world=some content
  /-- The backend is there. -/
  handle_eq : view.handle key s.world=some (path,position)

/-- Every other handle is as it was. -/
def Leaves (s t : Files W) (key : BackendOps W×UInt16) : Prop :=
  ∀ file other path content position,other≠key →
    Held backends others view s file other path content position →
    Held backends others view t file other path content position

/-- There are so many free slots. -/
def FreeSlots (s : Files W) (n : ℕ) : Prop :=
  ∃ free : List (Fin clFileMaxHandles),free.Nodup ∧ n≤free.length ∧
    ∀ i∈free,s.slots i=none

end Contract

section Rules

variable {backends : List (Backend W)} {others : Others W} {view : FileView W}
  {s t : Files W} {file : ℕ} {key : BackendOps W×UInt16} {path : CString}
  {content : List UInt8} {position : ℕ}

theorem Leaves.refl (s : Files W) (key : BackendOps W×UInt16) :
    Leaves backends others view s s key := fun _ _ _ _ _ _ h => h

theorem Leaves.trans {u : Files W} (h : Leaves backends others view s t key)
    (h' : Leaves backends others view t u key) : Leaves backends others view s u key :=
  fun file other path content position hne hheld =>
    h' file other path content position hne (h file other path content position hne hheld)

/-- A slot that a call has moved keeps its backend and its local handle. -/
theorem slotFromHandle_moved {i : Fin clFileMaxHandles} {slot : FileSlot W}
    (hslot : slotFromHandle s file=some (i,slot)) (w : W) (offset : UInt64) :
    slotFromHandle ({s with world := w}.setSlot i (some {slot with offset := offset})) file=
      some (i,{slot with offset := offset}) := by
  unfold slotFromHandle at hslot ⊢
  obtain ⟨j,hj,hmap⟩ := Option.bind_eq_some_iff.mp hslot
  obtain ⟨a,ha,hpair⟩ := Option.map_eq_some_iff.mp hmap
  obtain ⟨rfl,rfl⟩ := Prod.mk.inj hpair
  rw [hj]
  unfold Files.setSlot
  change Option.map _ (Function.update s.slots j (some _) j)=_
  rw [Function.update_self]
  rfl

/-- Other slots are as they were. -/
theorem slotFromHandle_other {i j : Fin clFileMaxHandles} {slot : FileSlot W} (hne : j≠i)
    (hslot : slotFromHandle s file=some (j,slot)) (w : W) (now : Option (FileSlot W)) :
    slotFromHandle ({s with world := w}.setSlot i now) file=some (j,slot) := by
  unfold slotFromHandle at hslot ⊢
  obtain ⟨k,hk,hmap⟩ := Option.bind_eq_some_iff.mp hslot
  obtain ⟨a,ha,hpair⟩ := Option.map_eq_some_iff.mp hmap
  obtain ⟨rfl,rfl⟩ := Prod.mk.inj hpair
  rw [hk]
  unfold Files.setSlot
  change Option.map _ (Function.update s.slots i now k)=_
  rw [Function.update_of_ne hne,ha]
  rfl

/-- A call on a handle that changes its slot leaves the others alone. -/
theorem leaves_setSlot {i : Fin clFileMaxHandles} {slot : FileSlot W} {w : W}
    {now : Option (CString×ℕ)} (hslot : slotFromHandle s file=some (i,slot))
    (hmoves : view.Moves slot.key now s.world w) (changed : Option (FileSlot W)) :
    Leaves backends others view s ({s with world := w}.setSlot i changed) slot.key := by
  intro file' other path content position hne hheld
  obtain ⟨j,slot',hslot',hkey,hserves⟩ := hheld.slot
  have hdifferent : j≠i := by
    rintro rfl
    have hfirst := slots_of_slotFromHandle hslot
    have hsecond := slots_of_slotFromHandle hslot'
    rw [hfirst] at hsecond
    rw [← Option.some.inj hsecond] at hkey
    exact hne hkey.symm
  refine ⟨⟨j,slot',slotFromHandle_other hdifferent hslot' w changed,hkey,hserves⟩,?_,?_⟩
  · exact (hmoves.content path).trans hheld.content_eq
  · exact (hmoves.others other hne).trans hheld.handle_eq

/-- So does one that changes only its backend. -/
theorem leaves_world {w : W} {now : Option (CString×ℕ)}
    (hmoves : view.Moves key now s.world w) :
    Leaves backends others view s {s with world := w} key := by
  intro file' other path content position hne hheld
  obtain ⟨j,slot',hslot',hkey,hserves⟩ := hheld.slot
  refine ⟨⟨j,slot',hslot',hkey,hserves⟩,?_,?_⟩
  · exact (hmoves.content path).trans hheld.content_eq
  · exact (hmoves.others other hne).trans hheld.handle_eq

/-- A handle is held as before if nothing has changed. -/
theorem Held.of_same {w : W} (h : Held backends others view s file key path content position)
    (hsame : view.Same s.world w) :
    Held backends others view {s with world := w} file key path content position := by
  obtain ⟨i,slot,hslot,hkey,hserves⟩ := h.slot
  exact ⟨⟨i,slot,hslot,hkey,hserves⟩,(hsame.content path).trans h.content_eq,
    (hsame.handle key).trans h.handle_eq⟩

/-- Metadata of a readable file. -/
theorem clFileStat_readable (h : Readable backends others view path content s.world) :
    0≤(clFileStat backends others path s).1.1 ∧
      (clFileStat backends others path s).1.2.size.toNat=content.length ∧
      (clFileStat backends others path s).2.slots=s.slots ∧
      view.Same s.world (clFileStat backends others path s).2.world := by
  obtain ⟨backend,hfind,hserves⟩ := h.serves
  obtain ⟨stat,hstat,hspec⟩ := hserves.stat
  obtain ⟨hret,hsize,hsame⟩ := hspec path content s.world hfind h.content_eq
  unfold clFileStat
  rw [hfind]
  dsimp only
  rw [hstat]
  exact ⟨hret,hsize,rfl,hsame⟩

/-- A readable file stays readable if no file changes. -/
theorem Readable.of_sameFiles {w w' : W} (h : Readable backends others view path content w)
    (hsame : view.SameFiles w w') : Readable backends others view path content w' :=
  ⟨(hsame.content path).trans h.content_eq,h.serves⟩

theorem exists_freeSlot (h : ∃ i,s.slots i=none) : ∃ i,freeSlot s=some i := by
  obtain ⟨i,hi⟩ := h
  cases hfree : freeSlot s with
  | some j => exact ⟨j,rfl⟩
  | none =>
    unfold freeSlot at hfree
    have hused := List.find?_eq_none.mp hfree i (List.mem_finRange i)
    rw [hi] at hused
    exact absurd rfl hused

/-- Opening a readable file gives a handle at its beginning. The handles that there were
are as they were. -/
theorem clFileOpen_readable (h : Readable backends others view path content s.world)
    (hroom : 0<view.room s.world) {n : ℕ} (hfree : FreeSlots s (n+1)) :
    ∃ file key t,clFileOpen backends path clpOpenRead s=(.ok file,t) ∧
      Held backends others view t file key path content 0 ∧
      view.handle key s.world=none ∧ Leaves backends others view s t key ∧
      view.SameFiles s.world t.world ∧ view.room s.world=view.room t.world+1 ∧
      FreeSlots t n := by
  obtain ⟨backend,hfind,hserves⟩ := h.serves
  obtain ⟨hret,hnew,hmoves,hless⟩ := hserves.openPath path content s.world hfind h.content_eq
    hroom
  obtain ⟨free,hnodup,hlength,hempty⟩ := hfree
  obtain ⟨i,hi⟩ := exists_freeSlot (s:=s) (by
    cases free with
    | nil => exact absurd hlength (by rw [List.length_nil]; omega)
    | cons j rest => exact ⟨j,hempty j List.mem_cons_self⟩)
  have hslot := slots_freeSlot hi
  obtain ⟨reply,hreply⟩ : ∃ reply,reply=backend.ops.openPath path clpOpenRead s.world :=
    ⟨_,rfl⟩
  rw [← hreply] at hret hnew hmoves hless
  have hopen : clFileOpen backends path clpOpenRead s=
      (.ok (i+1),{s with world := reply.2}.setSlot i (some ⟨backend,reply.1.2,0⟩)) := by
    unfold clFileOpen
    rw [hfind]
    dsimp only
    rw [hi]
    dsimp only
    rw [← hreply,if_neg (by omega)]
  have hfound : slotFromHandle
      ({s with world := reply.2}.setSlot i (some ⟨backend,reply.1.2,0⟩)) (i+1)=
      some (i,⟨backend,reply.1.2,0⟩) := by
    rw [slotFromHandle_succ]
    unfold Files.setSlot
    dsimp only
    rw [Function.update_self]
    rfl
  refine ⟨i+1,(backend.ops,reply.1.2),_,hopen,⟨⟨i,_,hfound,rfl,hserves⟩,?_,hmoves.handle⟩,
    hnew,?_,hmoves.toSameFiles,hless,?_⟩
  · exact (hmoves.content path).trans h.content_eq
  · intro file' other path' content' position hne hheld
    obtain ⟨j,slot',hslot',hkey,hserves'⟩ := hheld.slot
    have hdifferent : j≠i := by
      rintro rfl
      have hused := slots_of_slotFromHandle hslot'
      rw [hslot] at hused
      cases hused
    refine ⟨⟨j,slot',slotFromHandle_other hdifferent hslot' _ _,hkey,hserves'⟩,?_,?_⟩
    · exact (hmoves.content path').trans hheld.content_eq
    · exact (hmoves.others other hne).trans hheld.handle_eq
  · refine ⟨free.erase i,hnodup.erase i,?_,fun j hj => ?_⟩
    · have herase := List.le_length_erase (a:=i) (l:=free)
      omega
    · have hmem := hnodup.mem_erase_iff.mp hj
      unfold Files.setSlot
      dsimp only
      rw [Function.update_of_ne hmem.1]
      exact hempty j hmem.2

theorem FreeSlots.of_slots {n : ℕ} (h : FreeSlots s n)
    (hslots : t.slots=s.slots) : FreeSlots t n := by
  obtain ⟨free,hnodup,hcount,hempty⟩ := h
  exact ⟨free,hnodup,hcount,fun i hi => (congrFun hslots i).trans (hempty i hi)⟩

/-- Reading a handle gives some of the bytes from its position on. -/
theorem clFileRead_held (h : Held backends others view s file key path content position)
    {want : UInt32} (hwant : 0<want.toNat) (hposition : position<content.length) :
    ∃ reply t,clFileRead file want true s=(reply,t) ∧
      Delivered (content.drop position) want reply ∧
      Held backends others view t file key path content (position+reply.data.length) ∧
      Leaves backends others view s t key := by
  obtain ⟨i,slot,hslot,rfl,hserves⟩ := h.slot
  obtain ⟨read,hread,hspec⟩ := hserves.read
  obtain ⟨hdelivered,hmoves,-⟩ := hspec slot.localHandle path content position want s.world
    h.handle_eq h.content_eq hwant hposition
  obtain ⟨reply,hreply⟩ : ∃ reply,reply=read slot.localHandle want s.world := ⟨_,rfl⟩
  rw [← hreply] at hdelivered hmoves
  have hcall : clFileRead file want true s=finishTransfer s i slot true reply := by
    unfold clFileRead callSlot
    rw [hslot]
    dsimp only
    rw [hread,hreply]
  have hcontent := (hmoves.content path).trans h.content_eq
  rw [hcall]
  unfold finishTransfer
  dsimp only
  split
  next hzero =>
    exact ⟨_,_,rfl,hdelivered,⟨⟨i,_,slotFromHandle_moved hslot _ _,rfl,hserves⟩,hcontent,
      hmoves.handle⟩,leaves_setSlot hslot hmoves _⟩
  next hzero =>
    exact ⟨_,_,rfl,hdelivered,⟨⟨i,slot,hslot,rfl,hserves⟩,hcontent,hmoves.handle⟩,
      leaves_world hmoves⟩

/-- Seeking in a handle moves it to the offset. -/
theorem clFileSeek_held (h : Held backends others view s file key path content position)
    {offset : UInt64} (hoffset : offset.toNat≤ content.length) :
    ∃ ret t,clFileSeek file offset s=(ret,t) ∧ 0≤ ret ∧
      Held backends others view t file key path content offset.toNat ∧
      Leaves backends others view s t key := by
  obtain ⟨i,slot,hslot,rfl,hserves⟩ := h.slot
  obtain ⟨seek,hseek,hspec⟩ := hserves.seek
  obtain ⟨hret,hmoves,-⟩ := hspec slot.localHandle path content position offset s.world
    h.handle_eq h.content_eq hoffset
  obtain ⟨reply,hreply⟩ : ∃ reply,reply=seek slot.localHandle offset s.world := ⟨_,rfl⟩
  rw [← hreply] at hret hmoves
  have hcontent := (hmoves.content path).trans h.content_eq
  unfold clFileSeek callSlot
  rw [hslot]
  dsimp only
  rw [hseek]
  dsimp only
  rw [← hreply]
  split
  next hzero =>
    exact ⟨_,_,rfl,le_refl _,⟨⟨i,_,slotFromHandle_moved hslot _ _,rfl,hserves⟩,hcontent,
      hmoves.handle⟩,leaves_setSlot hslot hmoves _⟩
  next hzero =>
    exact ⟨_,_,rfl,hret,⟨⟨i,slot,hslot,rfl,hserves⟩,hcontent,hmoves.handle⟩,
      leaves_world hmoves⟩

/-- Closing a handle succeeds. -/
theorem clFileClose_held (h : Held backends others view s file key path content position) :
    ∃ t,clFileClose file s=(0,t) ∧ Leaves backends others view s t key := by
  obtain ⟨i,slot,hslot,rfl,hserves⟩ := h.slot
  unfold clFileClose
  rw [hslot]
  dsimp only
  cases hclose : slot.backend.ops.close with
  | none =>
    refine ⟨_,rfl,?_⟩
    have hsame : view.Moves slot.key (some (path,position)) s.world s.world :=
      ⟨⟨fun _ => rfl⟩,h.handle_eq,fun _ _ => rfl⟩
    exact leaves_setSlot hslot hsame none
  | some close =>
    obtain ⟨hret,hmoves,-⟩ := hserves.close close hclose slot.localHandle path position s.world
      h.handle_eq
    dsimp only
    rw [hret]
    exact ⟨_,rfl,leaves_setSlot hslot hmoves none⟩

end Rules

end ChisLink.ReadableFiles
