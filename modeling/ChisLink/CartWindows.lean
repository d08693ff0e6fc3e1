import ChisLink.CartFile
import ChisLink.CopyWindows
import ChisLink.LabelledRuns

/-!
# Windows of a cartridge

A direct window of the driver is held by the handle it was taken through from then on until
the driver has taken it back with success or the file is closed. What the driver does is
watched through its operations. Over all runs of the calls the windows are passed back, and
nothing is served on a handle that holds one, exactly if no driver is set while a window was
never passed back and no handle is used after a window that was too long could not be passed
back.
-/

namespace ChisLink.CartWindows

open CartFile CopyStream CopyWindows FileLayer FileOperations LabelledRuns StorageClient
open CartSaveDriver (CartFileKind)

variable {D : Type}

section Watching

/-- What happens on a handle. -/
inductive CartEvent where
  /-- The driver has handed out a window that is not empty. -/
  | handed
  /-- A window was passed to the release of the driver, with success or not. -/
  | passed (success : Bool)
  /-- A read, a write or a seek was served. -/
  | served
  /-- The file was closed. -/
  | closed
deriving DecidableEq

/-- The window of a handle. -/
structure Watch where
  /-- A window was handed out and not yet taken back with success. -/
  held : Bool
  /-- It was never passed to the release. -/
  pending : Bool
  /-- Nothing wrong has happened. -/
  ok : Bool
deriving DecidableEq

/-- No window, and nothing wrong. -/
def idle : Watch := ⟨false,false,true⟩

/-- The watch after an event. It is wrong to serve or to hand out a window while one is held,
to pass back a window that is not held and to close a file whose window was never passed
back. -/
def Watch.note (watch : Watch) : CartEvent → Watch
  | .handed => ⟨true,true,watch.ok && !watch.held⟩
  | .passed success => ⟨watch.held && !success,false,watch.ok && watch.held⟩
  | .served => {watch with ok := watch.ok && !watch.held}
  | .closed => ⟨false,false,watch.ok && !watch.pending⟩

/-- A call of the driver that is noted. -/
def watched {α : Type} (note : α → List CartEvent) (f : D → α×D) (w : D×List CartEvent) :
    α×D×List CartEvent :=
  ((f w.1).1,((f w.1).2,w.2++note (f w.1).1))

/-- A driver that is watched. -/
def watchDriver (driver : CartDriver D) : CartDriver (D×List CartEvent) where
  info := driver.info.map (watched fun _ => [])
  read := driver.read.map fun read kind offset length =>
    watched (fun _ => [.served]) (read kind offset length)
  directRead := driver.directRead.map fun directRead kind offset length =>
    watched (fun reply => if handsOut reply then [.handed] else []) (directRead kind offset length)
  releaseDirect := driver.releaseDirect.map fun release kind =>
    watched (fun ret => [.passed (decide (ret=0))]) (release kind)
  write := driver.write.map fun write kind offset src =>
    watched (fun _ => [.served]) (write kind offset src)
  flush := driver.flush.map fun flush kind => watched (fun _ => []) (flush kind)
  setSize := driver.setSize.map fun setSize kind size => watched (fun _ => []) (setSize kind size)

/-- A driver that hands out windows has a release operation. -/
def Releases (driver : CartDriver D) : Prop :=
  driver.directRead.isSome → driver.releaseDirect.isSome

/-- A call. -/
inductive Action (D : Type) where
  /-- Set the driver, or none. -/
  | setDriver (driver : Option {driver : CartDriver D // Releases driver})
  /-- Open a file. -/
  | openFile (path : CString) (flags : UInt32)
  /-- Close one. -/
  | close (l : ℕ)
  /-- Read. -/
  | read (l : ℕ) (length : UInt32)
  /-- Write. -/
  | write (l : ℕ) (src : List UInt8)
  /-- Take a direct window. -/
  | directRead (l : ℕ) (maxLength : UInt32)
  /-- Give it back. -/
  | release (l : ℕ)
  /-- Seek. -/
  | seek (l : ℕ) (offset : UInt64)
  /-- Set the size. -/
  | truncate (l : ℕ) (size : UInt64)
  /-- Flush. -/
  | flush (l : ℕ)

/-- The files with a watch for every handle. -/
structure Watched (D : Type) where
  /-- The files over the watched drivers. -/
  files : CartFiles (D×List CartEvent)
  /-- The watches. -/
  watches : Fin clCartMaxHandles → Watch

/-- The events of a call: those of the driver, and what the result shows. -/
def finish (s : Watched D) (l : ℕ) (shown : List CartEvent)
    (files : CartFiles (D×List CartEvent)) : Watched D where
  files := {files with world := (files.world.1,[])}
  watches :=
    match slotFromLocal s.files l with
    | none => s.watches
    | some i => Function.update s.watches i
      ((files.world.2++shown).foldl Watch.note (s.watches i))

/-- An event that a success shows. -/
def shownBy (ret : ℤ) : List CartEvent := if ret=0 then [.served] else []

/-- The state after a call. -/
def step (s : Watched D) : Action D → Option (Watched D)
  | .setDriver driver => some
    { files := clCartSetDriver (driver.map fun driver => watchDriver driver.1) s.files
      watches := fun i => if (s.files.slots i).isOpen then (s.watches i).note .closed
        else s.watches i }
  | .openFile path flags => some {s with files := (cartOpen path flags s.files).2}
  | .close l => some (finish s l [.closed] (cartClose l s.files).2)
  | .read l length =>
    some (finish s l (shownBy (cartRead l length s.files).1.ret) (cartRead l length s.files).2)
  | .write l src =>
    some (finish s l (shownBy (cartWrite l src s.files).1.1) (cartWrite l src s.files).2)
  | .directRead l maxLength => some (finish s l [] (cartDirectRead l maxLength s.files).2)
  | .release l => some (finish s l [] (cartReleaseDirect l s.files).2)
  | .seek l offset =>
    some (finish s l (shownBy (cartSeek l offset s.files).1) (cartSeek l offset s.files).2)
  | .truncate l size => some (finish s l [] (cartTruncate l size s.files).2)
  | .flush l => some (finish s l [] (cartFlush l s.files).2)

/-- At the start there is no driver, and no file is open. -/
def start (w : D) : Watched D where
  files := ⟨noDriver,fun _ => ⟨.rom,0,0,0,false,false,false⟩,(w,[])⟩
  watches _ := idle

/-- Nothing wrong has happened. -/
def Kept (s : Watched D) : Prop := ∀ i,(s.watches i).ok=true

/-- A handle has a window that was too long and could not be passed back. -/
def Stale (s : Watched D) (i : Fin clCartMaxHandles) : Prop :=
  (s.watches i).held=true ∧ (s.files.slots i).directActive=false

/-- A condition on the slot of an open handle. -/
def OnHandle (s : Watched D) (l : ℕ) (condition : Fin clCartMaxHandles → Prop) : Prop :=
  match slotFromLocal s.files l with
  | none => True
  | some i => condition i

/-- The calls that keep the windows: a driver is set when every window was passed back, and a
stale handle is not used with success. -/
def Orderly (s : Watched D) : Action D → Prop
  | .setDriver _ => ∀ i,(s.files.slots i).isOpen=true → (s.watches i).pending=false
  | .read l _ => OnHandle s l fun i => Stale s i →
    (s.files.slots i).flags &&& clpOpenRead=0 ∨ s.files.driver.read=none
  | .write l _ => OnHandle s l fun i => Stale s i →
    (s.files.slots i).flags &&& clpOpenWrite=0 ∨ s.files.driver.write=none
  | .directRead l maxLength => OnHandle s l fun i => Stale s i →
    (s.files.slots i).flags &&& clpOpenRead=0 ∨
      ∀ directRead,s.files.driver.directRead=some directRead →
        handsOut (directRead (s.files.slots i).kind (s.files.slots i).offset maxLength
          s.files.world).1=false
  | .seek l _ => OnHandle s l fun i => ¬Stale s i
  | _ => True

end Watching

section Effects

/-- The watch of a handle fits its slot; `release` tells whether the driver has a release
operation. -/
structure Fits (release : Bool) (slot : CartSlot) (watch : Watch) : Prop where
  /-- A closed handle has no window. -/
  closed : slot.isOpen=false → watch.held=false ∧ watch.pending=false
  /-- An active window is held, and can be passed back. -/
  active : slot.isOpen=true → slot.directActive=true → watch.held=true ∧ release=true
  /-- A window that was never passed back is active. -/
  pending : slot.isOpen=true → watch.pending=true → slot.directActive=true
  /-- There are no windows of the metadata. -/
  kind : slot.isOpen=true → watch.held=true → slot.kind≠.info

/-- The watches fit the slots. -/
structure Coherent (s : Watched D) : Prop where
  /-- No event is left over. -/
  log : s.files.world.2=[]
  /-- The driver is watched. -/
  driver : ∃ driver,Releases driver ∧ s.files.driver=watchDriver driver
  /-- Every watch fits. -/
  fits : ∀ i,Fits s.files.driver.releaseDirect.isSome (s.files.slots i) (s.watches i)

/-- A call has changed one slot, and its events keep the window exactly if the condition
holds. -/
def Effect (s : Watched D) (i : Fin clCartMaxHandles) (shown : List CartEvent)
    (t : CartFiles (D×List CartEvent)) (good : Prop) : Prop :=
  ∃ slot w events,t=⟨s.files.driver,Function.update s.files.slots i slot,(w,events)⟩ ∧
    Fits s.files.driver.releaseDirect.isSome slot
      ((events++shown).foldl Watch.note (s.watches i)) ∧
    ((s.watches i).ok=true →
      (((events++shown).foldl Watch.note (s.watches i)).ok=true ↔ good))

variable {s : Watched D} {l : ℕ} {i : Fin clCartMaxHandles}

theorem isOpen_of_slotFromLocal {files : CartFiles D} (h : slotFromLocal files l=some i) :
    (files.slots i).isOpen=true := by
  unfold slotFromLocal at h
  split at h
  · split at h
    · rename_i hopen
      rw [← Option.some.inj h]
      exact hopen
    · cases h
  · cases h

/-- A call on an open handle. -/
theorem finish_effect (hs : Coherent s) (hi : slotFromLocal s.files l=some i)
    {shown : List CartEvent} {t : CartFiles (D×List CartEvent)} {good : Prop}
    (h : Effect s i shown t good) :
    Coherent (finish s l shown t) ∧ (Kept s → (Kept (finish s l shown t) ↔ good)) := by
  obtain ⟨slot,w,events,rfl,hfits,hok⟩ := h
  have hwatches : (finish s l shown ⟨s.files.driver,Function.update s.files.slots i slot,
      (w,events)⟩).watches=Function.update s.watches i
        ((events++shown).foldl Watch.note (s.watches i)) := by
    unfold finish
    dsimp only
    rw [hi]
  refine ⟨⟨rfl,hs.driver,fun j => ?_⟩,fun hkept => ?_⟩
  · rw [hwatches]
    change Fits s.files.driver.releaseDirect.isSome (Function.update s.files.slots i slot j) _
    by_cases hj : j=i
    · subst hj
      rw [Function.update_self,Function.update_self]
      exact hfits
    · rw [Function.update_of_ne hj,Function.update_of_ne hj]
      exact hs.fits j
  · unfold Kept
    rw [hwatches,← hok (hkept i)]
    constructor
    · intro hall
      have hself := hall i
      rwa [Function.update_self] at hself
    · intro hself j
      by_cases hj : j=i
      · subst hj
        rwa [Function.update_self]
      · rw [Function.update_of_ne hj]
        exact hkept j

/-- A call on a handle that is not open. -/
theorem finish_none (hs : Coherent s) (hnone : slotFromLocal s.files l=none)
    (shown : List CartEvent) : finish s l shown s.files=s := by
  obtain ⟨⟨driver,slots,w,log⟩,watches⟩ := s
  have hlog : log=[] := hs.log
  unfold finish
  dsimp only at hnone ⊢
  rw [hnone,hlog]

/-- A call that changes nothing, and shows nothing. -/
theorem effect_refl (hs : Coherent s) (i : Fin clCartMaxHandles) {good : Prop}
    (hgood : good) : Effect s i [] s.files good := by
  refine ⟨s.files.slots i,s.files.world.1,[],?_,hs.fits i,fun hok => iff_of_true hok hgood⟩
  rw [Function.update_eq_self,← hs.log]

theorem stale_iff (hactive : ¬(s.files.slots i).directActive=true) :
    Stale s i ↔ ¬(s.watches i).held=false := by
  unfold Stale
  rw [Bool.not_eq_true] at hactive
  rw [hactive,Bool.not_eq_false]
  exact and_iff_left rfl

/-- What a call of the driver notes. -/
theorem watched_run {α : Type} {note : α → List CartEvent} {f : D → α×D}
    {w : D×List CartEvent} {a : α} {w' : D} (hcall : f w.1=(a,w')) (hlog : w.2=[]) :
    watched note f w=(a,(w',note a)) := by
  unfold watched
  rw [hcall,hlog,List.nil_append]

/-- What is served on a handle without an active window is wrong if the handle is stale. -/
theorem served_iff (hactive : ¬(s.files.slots i).directActive=true) {events : List CartEvent}
    (hevents : events≠[]) {good : Prop} (hgood : ¬good) :
    events=[] ∨ (s.watches i).held=false ↔ (Stale s i → good) := by
  rw [stale_iff hactive]
  constructor
  · rintro (hnil | hnone) hheld
    · exact absurd hnil hevents
    · exact absurd hnone hheld
  · intro hstale
    exact Or.inr (not_not.mp fun hheld => hgood (hstale hheld))

/-- Two slots differ in nothing that the windows depend on. -/
structure Alike (slot other : CartSlot) : Prop where
  /-- In use. -/
  isOpen : slot.isOpen=other.isOpen
  /-- The file. -/
  kind : slot.kind=other.kind
  /-- The window. -/
  directActive : slot.directActive=other.directActive

theorem Fits.of_alike {release : Bool} {slot other : CartSlot} {watch next : Watch}
    (h : Fits release other watch) (hslot : Alike slot other) (hheld : next.held=watch.held)
    (hpending : next.pending=watch.pending) : Fits release slot next := by
  refine ⟨?_,?_,?_,?_⟩
  · rw [hslot.isOpen,hheld,hpending]
    exact h.closed
  · rw [hslot.isOpen,hslot.directActive,hheld]
    exact h.active
  · rw [hslot.isOpen,hslot.directActive,hpending]
    exact h.pending
  · rw [hslot.isOpen,hslot.kind,hheld]
    exact h.kind

/-- What is served leaves the window, and is wrong if there is one. -/
theorem foldl_served (events : List CartEvent) (hserved : ∀ event∈events,event=.served) :
    ∀ watch : Watch,(events.foldl Watch.note watch).held=watch.held ∧
      (events.foldl Watch.note watch).pending=watch.pending ∧
      (watch.ok=true → ((events.foldl Watch.note watch).ok=true ↔
        events=[] ∨ watch.held=false)) := by
  induction events with
  | nil => exact fun watch => ⟨rfl,rfl,fun hok => iff_of_true hok (Or.inl rfl)⟩
  | cons event events ih =>
    intro watch
    obtain rfl := hserved event List.mem_cons_self
    obtain ⟨hheld,hpending,hok⟩ := ih (fun e he => hserved e (List.mem_cons_of_mem _ he))
      (watch.note .served)
    refine ⟨hheld,hpending,fun hbefore => ?_⟩
    rw [List.foldl_cons]
    by_cases hwatch : watch.held=true
    · have hbad : ∀ (rest : List CartEvent) (w : Watch),w.ok=false →
          (rest.foldl Watch.note w).ok=false := by
        intro rest
        induction rest with
        | nil => exact fun w hw => hw
        | cons e rest ih =>
          intro w hw
          refine ih _ ?_
          cases e <;> simp [Watch.note,hw]
      have hfalse : (watch.note .served).ok=false := by
        simp [Watch.note,hwatch]
      rw [hbad events _ hfalse]
      refine iff_of_false Bool.false_ne_true ?_
      rintro (hnil | hnone)
      · cases hnil
      · rw [hwatch] at hnone
        cases hnone
    · have hnone : watch.held=false := Bool.not_eq_true _ ▸ hwatch
      have hgood : (watch.note .served).ok=true := by
        simp [Watch.note,hnone,hbefore]
      exact iff_of_true ((hok hgood).mpr (Or.inr hnone)) (Or.inr hnone)

/-- A call that serves something or nothing. -/
theorem effect_served (hs : Coherent s) {slot : CartSlot}
    (hslot : Alike slot (s.files.slots i)) {w : D} {events shown : List CartEvent}
    (hserved : ∀ event∈events++shown,event=.served) {good : Prop}
    (hgood : events++shown=[] ∨ (s.watches i).held=false ↔ good) :
    Effect s i shown ⟨s.files.driver,Function.update s.files.slots i slot,(w,events)⟩ good := by
  obtain ⟨hheld,hpending,hok⟩ := foldl_served (events++shown) hserved (s.watches i)
  refine ⟨slot,w,events,rfl,(hs.fits i).of_alike hslot hheld hpending,fun hbefore => ?_⟩
  rw [hok hbefore]
  exact hgood

theorem shownBy_served (ret : ℤ) : ∀ event∈shownBy ret,event=.served := by
  unfold shownBy
  split
  · exact fun event hevent => List.mem_singleton.mp hevent
  · exact fun event hevent => absurd hevent List.not_mem_nil

/-- The end of a transfer. -/
theorem finishCart_eq (i : Fin clCartMaxHandles) (ret : ℤ) (length : UInt32) (written : Bool)
    (files : CartFiles D) : ∃ slot,Alike slot (files.slots i) ∧
      finishCart i ret length written files=
        ⟨files.driver,Function.update files.slots i slot,files.world⟩ := by
  unfold finishCart
  split
  · refine ⟨_,?_,rfl⟩
    exact ⟨rfl,rfl,rfl⟩
  · exact ⟨_,⟨rfl,rfl,rfl⟩,by rw [Function.update_eq_self]⟩

/-- Metadata are taken without an event. -/
theorem ensureInfo_eq {driver : CartDriver D} {files : CartFiles (D×List CartEvent)}
    (hdriver : files.driver=watchDriver driver) :
    ∃ reply w,ensureInfo files=(reply,{files with world := (w,files.world.2)}) := by
  unfold ensureInfo
  cases hinfo : files.driver.info with
  | none => exact ⟨_,files.world.1,rfl⟩
  | some info =>
    rw [hdriver] at hinfo
    obtain ⟨original,-,rfl⟩ := Option.map_eq_some_iff.mp hinfo
    refine ⟨((original files.world.1).1.1,some (original files.world.1).1.2),
      (original files.world.1).2,?_⟩
    dsimp only [watched]
    rw [List.append_nil]

theorem cartReadInfo_eq {driver : CartDriver D} {files : CartFiles (D×List CartEvent)}
    (hdriver : files.driver=watchDriver driver) (offset : UInt64) (length : UInt32) :
    ∃ reply w,cartReadInfo offset length files=
      (reply,{files with world := (w,files.world.2)}) := by
  obtain ⟨⟨ret,info⟩,w,hensure⟩ := ensureInfo_eq hdriver
  unfold cartReadInfo
  rw [hensure]
  cases info with
  | none => exact ⟨_,w,rfl⟩
  | some info =>
    dsimp only
    split
    · exact ⟨_,w,rfl⟩
    · exact ⟨_,w,rfl⟩

/-- A read. -/
theorem cartRead_effect (hs : Coherent s) (hi : slotFromLocal s.files l=some i)
    (length : UInt32) :
    Effect s i (shownBy (cartRead l length s.files).1.ret) (cartRead l length s.files).2
      (Stale s i → (s.files.slots i).flags &&& clpOpenRead=0 ∨ s.files.driver.read=none) := by
  obtain ⟨driver,-,hdriver⟩ := hs.driver
  have hopen := isOpen_of_slotFromLocal hi
  unfold cartRead
  rw [hi]
  dsimp only
  by_cases hflags : (s.files.slots i).flags &&& clpOpenRead=0
  · rw [if_pos hflags]
    exact effect_refl hs i fun _ => Or.inl hflags
  rw [if_neg hflags]
  by_cases hactive : (s.files.slots i).directActive=true
  · rw [if_pos hactive]
    exact effect_refl hs i fun hstale => absurd hactive (by rw [hstale.2]; decide)
  rw [if_neg hactive]
  by_cases hinfo : (s.files.slots i).kind=.info
  · rw [if_pos hinfo]
    have hnone : (s.watches i).held=false :=
      Bool.not_eq_true _ ▸ fun hheld => (hs.fits i).kind hopen hheld hinfo
    obtain ⟨reply,w,hreply⟩ := cartReadInfo_eq hdriver (s.files.slots i).offset length
    rw [hreply]
    obtain ⟨slot,halike,hfinish⟩ := finishCart_eq i reply.ret reply.length false
      {s.files with world := (w,s.files.world.2)}
    dsimp only at hfinish ⊢
    rw [hfinish,hs.log]
    refine effect_served hs halike ?_ ?_
    · rw [List.nil_append]
      exact shownBy_served _
    · exact iff_of_true (Or.inr hnone) fun hstale =>
        absurd hstale.1 (by rw [hnone]; decide)
  rw [if_neg hinfo]
  cases hread : s.files.driver.read with
  | none => exact effect_refl hs i fun _ => Or.inr rfl
  | some read =>
    rw [hdriver] at hread
    obtain ⟨original,-,rfl⟩ := Option.map_eq_some_iff.mp hread
    dsimp only [watched]
    obtain ⟨⟨reply,w⟩,hreply⟩ : ∃ reply,original (s.files.slots i).kind
      (s.files.slots i).offset length s.files.world.1=reply := ⟨_,rfl⟩
    rw [hreply,hs.log]
    obtain ⟨slot,halike,hfinish⟩ := finishCart_eq i reply.ret reply.length false
      {s.files with world := (w,[]++[.served])}
    dsimp only at hfinish ⊢
    rw [hfinish]
    refine effect_served hs halike ?_ ?_
    · intro event hevent
      rcases List.mem_append.mp hevent with hcalled | hshown
      · exact List.mem_singleton.mp hcalled
      · exact shownBy_served _ event hshown
    · refine served_iff hactive (List.cons_ne_nil _ _) ?_
      rintro (hzero | hnone)
      · exact hflags hzero
      · cases hnone

/-- A write. -/
theorem cartWrite_effect (hs : Coherent s) (hi : slotFromLocal s.files l=some i)
    (src : List UInt8) :
    Effect s i (shownBy (cartWrite l src s.files).1.1) (cartWrite l src s.files).2
      (Stale s i → (s.files.slots i).flags &&& clpOpenWrite=0 ∨ s.files.driver.write=none) := by
  obtain ⟨driver,-,hdriver⟩ := hs.driver
  have hopen := isOpen_of_slotFromLocal hi
  unfold cartWrite
  rw [hi]
  dsimp only
  by_cases hflags : (s.files.slots i).flags &&& clpOpenWrite=0
  · rw [if_pos (Or.inl hflags)]
    exact effect_refl hs i fun _ => Or.inl hflags
  by_cases hinfo : (s.files.slots i).kind=.info
  · rw [if_pos (Or.inr hinfo)]
    exact effect_refl hs i fun hstale => absurd hinfo ((hs.fits i).kind hopen hstale.1)
  rw [if_neg (not_or.mpr ⟨hflags,hinfo⟩)]
  by_cases hactive : (s.files.slots i).directActive=true
  · rw [if_pos hactive]
    exact effect_refl hs i fun hstale => absurd hactive (by rw [hstale.2]; decide)
  rw [if_neg hactive]
  cases hwrite : s.files.driver.write with
  | none => exact effect_refl hs i fun _ => Or.inr rfl
  | some write =>
    rw [hdriver] at hwrite
    obtain ⟨original,-,rfl⟩ := Option.map_eq_some_iff.mp hwrite
    dsimp only [watched]
    obtain ⟨⟨reply,w⟩,hreply⟩ : ∃ reply,original (s.files.slots i).kind
      (s.files.slots i).offset src s.files.world.1=reply := ⟨_,rfl⟩
    rw [hreply,hs.log]
    obtain ⟨slot,halike,hfinish⟩ := finishCart_eq i reply.1 reply.2 true
      {s.files with world := (w,[]++[.served])}
    dsimp only at hfinish ⊢
    rw [hfinish]
    refine effect_served hs halike ?_ ?_
    · intro event hevent
      rcases List.mem_append.mp hevent with hcalled | hshown
      · exact List.mem_singleton.mp hcalled
      · exact shownBy_served _ event hshown
    · refine served_iff hactive (List.cons_ne_nil _ _) ?_
      rintro (hzero | hnone)
      · exact hflags hzero
      · cases hnone

/-- A seek. -/
theorem cartSeek_effect (hs : Coherent s) (hi : slotFromLocal s.files l=some i)
    (offset : UInt64) :
    Effect s i (shownBy (cartSeek l offset s.files).1) (cartSeek l offset s.files).2
      (¬Stale s i) := by
  unfold cartSeek
  rw [hi]
  dsimp only
  by_cases hactive : (s.files.slots i).directActive=true
  · rw [if_pos hactive]
    exact effect_refl hs i fun hstale => absurd hactive (by rw [hstale.2]; decide)
  rw [if_neg hactive]
  have hlog : s.files.world=(s.files.world.1,[]) := by rw [← hs.log]
  unfold CartFiles.setSlot
  rw [hlog]
  refine effect_served hs ?_ ?_ (served_iff hactive (List.cons_ne_nil _ _) not_false)
  · exact ⟨rfl,rfl,rfl⟩
  · exact shownBy_served 0

/-- A size that is set. -/
theorem cartTruncate_effect (hs : Coherent s) (hi : slotFromLocal s.files l=some i)
    (size : UInt64) : Effect s i [] (cartTruncate l size s.files).2 True := by
  obtain ⟨driver,-,hdriver⟩ := hs.driver
  unfold cartTruncate
  rw [hi]
  dsimp only
  split
  · exact effect_refl hs i trivial
  split
  · exact effect_refl hs i trivial
  have hnone : ∀ event∈([] : List CartEvent)++[],event=.served :=
    fun event hevent => absurd hevent List.not_mem_nil
  dsimp only [CartFiles.setSlot]
  cases hsize : s.files.driver.setSize with
  | none =>
    have hlog : s.files.world=(s.files.world.1,[]) := by rw [← hs.log]
    dsimp only
    rw [hlog]
    refine effect_served hs ?_ hnone (iff_of_true (Or.inl rfl) trivial)
    exact ⟨rfl,rfl,rfl⟩
  | some setSize =>
    rw [hdriver] at hsize
    obtain ⟨original,-,rfl⟩ := Option.map_eq_some_iff.mp hsize
    dsimp only [watched]
    rw [hs.log]
    refine effect_served hs ?_ hnone (iff_of_true (Or.inl rfl) trivial)
    exact ⟨rfl,rfl,rfl⟩

/-- A flush. -/
theorem cartFlush_effect (hs : Coherent s) (hi : slotFromLocal s.files l=some i) :
    Effect s i [] (cartFlush l s.files).2 True := by
  obtain ⟨driver,-,hdriver⟩ := hs.driver
  have hnone : ∀ event∈([] : List CartEvent)++[],event=.served :=
    fun event hevent => absurd hevent List.not_mem_nil
  unfold cartFlush
  rw [hi]
  dsimp only
  split
  · exact effect_refl hs i trivial
  cases hflush : s.files.driver.flush with
  | none => exact effect_refl hs i trivial
  | some flush =>
    obtain ⟨ret,w,hcall⟩ : ∃ ret w,flush (s.files.slots i).kind s.files.world=(ret,(w,[])) := by
      rw [hdriver] at hflush
      obtain ⟨original,-,rfl⟩ := Option.map_eq_some_iff.mp hflush
      exact ⟨_,_,watched_run rfl hs.log⟩
    dsimp only
    rw [hcall]
    split
    · exact effect_refl hs i trivial
    split
    · refine effect_served hs ?_ hnone (iff_of_true (Or.inl rfl) trivial)
      exact ⟨rfl,rfl,rfl⟩
    · have hsame : Effect s i [] ⟨s.files.driver,Function.update s.files.slots i
          (s.files.slots i),(w,[])⟩ True :=
        effect_served hs ⟨rfl,rfl,rfl⟩ hnone (iff_of_true (Or.inl rfl) trivial)
      rwa [Function.update_eq_self] at hsame

/-- A window that is given back. -/
theorem cartReleaseDirect_effect (hs : Coherent s) (hi : slotFromLocal s.files l=some i) :
    Effect s i [] (cartReleaseDirect l s.files).2 True := by
  obtain ⟨driver,-,hdriver⟩ := hs.driver
  have hopen := isOpen_of_slotFromLocal hi
  have hfits := hs.fits i
  unfold cartReleaseDirect
  rw [hi]
  dsimp only
  by_cases hactive : (s.files.slots i).directActive=false
  · rw [if_pos hactive]
    exact effect_refl hs i trivial
  rw [if_neg hactive]
  have hactive' : (s.files.slots i).directActive=true := Bool.not_eq_false _ ▸ hactive
  obtain ⟨hheld,hsome⟩ := hfits.active hopen hactive'
  cases hrelease : s.files.driver.releaseDirect with
  | none =>
    rw [hrelease] at hsome
    cases hsome
  | some release =>
    obtain ⟨ret,w,hcall⟩ : ∃ ret w,release (s.files.slots i).kind s.files.world=
        (ret,(w,[.passed (decide (ret=0))])) := by
      rw [hdriver] at hrelease
      obtain ⟨original,-,rfl⟩ := Option.map_eq_some_iff.mp hrelease
      exact ⟨_,_,watched_run rfl hs.log⟩
    dsimp only
    rw [hcall]
    dsimp only
    by_cases hzero : ret=0
    · rw [if_pos hzero]
      refine ⟨_,w,_,rfl,?_,fun hok => ?_⟩
      · rw [hzero]
        refine ⟨fun h => ?_,fun _ h => ?_,fun _ h => ?_,fun _ h => ?_⟩
        · exact ⟨by simp [Watch.note],rfl⟩
        · cases h
        · cases h
        · simp [Watch.note] at h
      · simp [Watch.note,hok,hheld]
    · rw [if_neg hzero]
      refine ⟨s.files.slots i,w,[.passed (decide (ret=0))],by rw [Function.update_eq_self],
        ?_,fun hok => ?_⟩
      · rw [decide_eq_false hzero]
        refine ⟨fun h => ?_,fun _ _ => ?_,fun _ h => ?_,fun ho _ => hfits.kind ho hheld⟩
        · rw [hopen] at h
          cases h
        · exact ⟨by simp [Watch.note,hheld],hsome⟩
        · cases h
      · simp [Watch.note,hok,hheld]

/-- A window that is given back before its file is closed. -/
theorem closeWindow_spec (hs : Coherent s) (hopen : (s.files.slots i).isOpen=true) :
    ∃ slot w events,closeWindow i s.files=
        ⟨s.files.driver,Function.update s.files.slots i slot,(w,events)⟩ ∧
      (events.foldl Watch.note (s.watches i)).pending=false ∧
      ((s.watches i).ok=true → (events.foldl Watch.note (s.watches i)).ok=true) := by
  obtain ⟨driver,-,hdriver⟩ := hs.driver
  have hfits := hs.fits i
  have hkeep : ∃ slot w events,s.files=
      ⟨s.files.driver,Function.update s.files.slots i slot,(w,events)⟩ ∧ events=[] := by
    refine ⟨s.files.slots i,s.files.world.1,[],?_,rfl⟩
    rw [Function.update_eq_self,← hs.log]
  unfold closeWindow
  by_cases hactive : (s.files.slots i).directActive=true
  · obtain ⟨hheld,hsome⟩ := hfits.active hopen hactive
    obtain ⟨release,hrelease⟩ := Option.isSome_iff_exists.mp hsome
    obtain ⟨ret,w,hcall⟩ : ∃ ret w,release (s.files.slots i).kind s.files.world=
        (ret,(w,[.passed (decide (ret=0))])) := by
      rw [hdriver] at hrelease
      obtain ⟨original,-,rfl⟩ := Option.map_eq_some_iff.mp hrelease
      exact ⟨_,_,watched_run rfl hs.log⟩
    rw [hactive,hrelease]
    dsimp only
    rw [hcall]
    exact ⟨_,w,_,rfl,rfl,fun hok => by simp [Watch.note,hok,hheld]⟩
  · have hpending : (s.watches i).pending=false :=
      Bool.not_eq_true _ ▸ fun hpending => hactive (hfits.pending hopen hpending)
    obtain ⟨slot,w,events,heq,rfl⟩ := hkeep
    refine ⟨slot,w,[],?_,hpending,id⟩
    rw [Bool.not_eq_true] at hactive
    rw [hactive]
    exact heq

/-- A file that is flushed before it is closed. -/
theorem closeFlush_eq {driver : CartDriver D} (files : CartFiles (D×List CartEvent))
    (hdriver : files.driver=watchDriver driver) (i : Fin clCartMaxHandles) :
    ∃ ret slot w,closeFlush i files=
      (ret,⟨files.driver,Function.update files.slots i slot,(w,files.world.2)⟩) := by
  have hkeep : ∀ w,(⟨files.driver,files.slots,w⟩ : CartFiles (D×List CartEvent))=
      ⟨files.driver,Function.update files.slots i (files.slots i),w⟩ := fun w => by
    rw [Function.update_eq_self]
  unfold closeFlush
  cases hflush : files.driver.flush with
  | none => exact ⟨0,files.slots i,files.world.1,by rw [← hkeep]⟩
  | some flush =>
    obtain ⟨ret,w,hcall⟩ : ∃ ret w,flush (files.slots i).kind files.world=
        (ret,(w,files.world.2)) := by
      rw [hdriver] at hflush
      obtain ⟨original,-,rfl⟩ := Option.map_eq_some_iff.mp hflush
      refine ⟨(original (files.slots i).kind files.world.1).1,
        (original (files.slots i).kind files.world.1).2,?_⟩
      dsimp only [watched]
      rw [List.append_nil]
    dsimp only
    rw [hcall]
    split
    · exact ⟨ret,_,w,rfl⟩
    · exact ⟨0,files.slots i,files.world.1,by rw [← hkeep]⟩

/-- A file that is closed. -/
theorem cartClose_effect (hs : Coherent s) (hi : slotFromLocal s.files l=some i) :
    Effect s i [.closed] (cartClose l s.files).2 True := by
  obtain ⟨driver,-,hdriver⟩ := hs.driver
  have hopen := isOpen_of_slotFromLocal hi
  obtain ⟨slot,w,events,hclose,hpending,hok⟩ := closeWindow_spec hs hopen
  obtain ⟨ret,slot',w',hflush⟩ := closeFlush_eq
    ⟨s.files.driver,Function.update s.files.slots i slot,(w,events)⟩ hdriver i
  unfold cartClose
  rw [hi]
  dsimp only
  rw [hclose,hflush]
  dsimp only [CartFiles.setSlot]
  rw [Function.update_idem,Function.update_idem]
  have hnotes : (events++[CartEvent.closed]).foldl Watch.note (s.watches i)=
      (events.foldl Watch.note (s.watches i)).note .closed := List.foldl_append
  refine ⟨_,w',events,rfl,?_,fun hbefore => ?_⟩
  · rw [hnotes]
    refine ⟨fun _ => ⟨rfl,rfl⟩,fun h => ?_,fun h => ?_,fun h => ?_⟩ <;> cases h
  · rw [hnotes]
    simp [Watch.note,hok hbefore,hpending]

/-- A window that is taken. -/
theorem cartDirectRead_effect (hs : Coherent s) (hi : slotFromLocal s.files l=some i)
    (maxLength : UInt32) :
    Effect s i [] (cartDirectRead l maxLength s.files).2
      (Stale s i → (s.files.slots i).flags &&& clpOpenRead=0 ∨
        ∀ directRead,s.files.driver.directRead=some directRead →
          handsOut (directRead (s.files.slots i).kind (s.files.slots i).offset maxLength
            s.files.world).1=false) := by
  obtain ⟨driver,hreleases,hdriver⟩ := hs.driver
  have hopen := isOpen_of_slotFromLocal hi
  have hfits := hs.fits i
  unfold cartDirectRead
  rw [hi]
  dsimp only
  by_cases hflags : (s.files.slots i).flags &&& clpOpenRead=0
  · rw [if_pos (Or.inl hflags)]
    exact effect_refl hs i fun _ => Or.inl hflags
  by_cases hinfo : (s.files.slots i).kind=.info
  · rw [if_pos (Or.inr hinfo)]
    exact effect_refl hs i fun hstale => absurd hinfo (hfits.kind hopen hstale.1)
  rw [if_neg (not_or.mpr ⟨hflags,hinfo⟩)]
  by_cases hactive : (s.files.slots i).directActive=true
  · rw [if_pos hactive]
    exact effect_refl hs i fun hstale => absurd hactive (by rw [hstale.2]; decide)
  rw [if_neg hactive]
  have hpending : (s.watches i).pending=false :=
    Bool.not_eq_true _ ▸ fun hpending => hactive (hfits.pending hopen hpending)
  cases hdirect : s.files.driver.directRead with
  | none => exact effect_refl hs i fun _ => Or.inr fun _ h => by cases h
  | some directRead =>
    obtain ⟨reply,w,hcall⟩ : ∃ reply w,directRead (s.files.slots i).kind
        (s.files.slots i).offset maxLength s.files.world=
          (reply,(w,if handsOut reply then [.handed] else [])) := by
      rw [hdriver] at hdirect
      obtain ⟨original,-,rfl⟩ := Option.map_eq_some_iff.mp hdirect
      exact ⟨_,_,watched_run rfl hs.log⟩
    have hgood : (Stale s i → (s.files.slots i).flags &&& clpOpenRead=0 ∨
        ∀ other,some directRead=some other →
          handsOut (other (s.files.slots i).kind (s.files.slots i).offset maxLength
            s.files.world).1=false) ↔ (Stale s i → handsOut reply=false) := by
      constructor
      · intro h hstale
        rcases h hstale with hzero | hall
        · exact absurd hzero hflags
        · have hreply := hall directRead rfl
          rwa [hcall] at hreply
      · intro h hstale
        refine Or.inr fun other hother => ?_
        rw [← Option.some.inj hother,hcall]
        exact h hstale
    rw [hgood]
    have hsome : s.files.driver.releaseDirect.isSome=true := by
      rw [hdriver] at hdirect ⊢
      have htakes : driver.directRead.isSome=true := by
        obtain ⟨original,horiginal,-⟩ := Option.map_eq_some_iff.mp hdirect
        rw [horiginal]
        rfl
      exact Option.isSome_map.trans (hreleases htakes)
    dsimp only
    rw [hcall]
    dsimp only
    have hnone : ∀ event∈([] : List CartEvent)++[],event=.served :=
      fun event hevent => absurd hevent List.not_mem_nil
    have hinactive : (s.files.slots i).directActive=false := Bool.not_eq_true _ ▸ hactive
    obtain ⟨ret,window⟩ := reply
    dsimp only
    -- what the driver does not hand out leaves no event
    have hquiet : ∀ {slot : CartSlot},Alike slot (s.files.slots i) →
        handsOut (ret,window)=false →
        Effect s i [] ⟨s.files.driver,Function.update s.files.slots i slot,
          (w,if handsOut (ret,window) then [.handed] else [])⟩
          (Stale s i → handsOut (ret,window)=false) := by
      intro slot halike hout
      rw [hout,if_neg Bool.false_ne_true]
      exact effect_served hs halike hnone (iff_of_true (Or.inl rfl) fun _ => rfl)
    have hsame : Alike (s.files.slots i) (s.files.slots i) := ⟨rfl,rfl,rfl⟩
    by_cases hneg : ret<0
    · have hout : handsOut (ret,window)=false := by
        cases window with
        | null length => rfl
        | window window => exact decide_eq_false fun hboth => by omega
      have heffect := hquiet hsame hout
      rw [if_pos hneg]
      rwa [Function.update_eq_self] at heffect
    rw [if_neg hneg]
    cases window with
    | null length =>
      dsimp only
      split
      · have heffect := hquiet hsame rfl
        rwa [Function.update_eq_self] at heffect
      · refine hquiet ?_ rfl
        exact ⟨rfl,rfl,hinactive.symm⟩
    | window window =>
      dsimp only
      by_cases hempty : window.length=0
      · have hout : handsOut (ret,.window window)=false :=
          decide_eq_false fun hboth => hboth.2 hempty
        have hfitsIn : ¬maxLength<window.length := by
          rw [hempty]
          exact UInt32.not_lt_zero
        rw [if_neg hfitsIn]
        refine hquiet ⟨rfl,rfl,?_⟩ hout
        rw [hinactive]
        exact decide_eq_false (not_not.mpr hempty)
      have hout : handsOut (ret,.window window)=true :=
        decide_eq_true ⟨Int.not_lt.mp hneg,hempty⟩
      rw [hout,if_pos rfl]
      have hheld : (Stale s i → true=false) ↔ (s.watches i).held=false := by
        rw [stale_iff hactive]
        constructor
        · intro h
          exact not_not.mp fun hheld => Bool.noConfusion (h hheld)
        · exact fun hheld hnot => absurd hheld hnot
      rw [hheld]
      by_cases hlarge : maxLength<window.length
      · -- the window is passed back at once, with success or not
        obtain ⟨release,hrelease⟩ := Option.isSome_iff_exists.mp hsome
        obtain ⟨back,w',hback⟩ : ∃ back w',release (s.files.slots i).kind (w,[.handed])=
            (back,(w',[.handed,.passed (decide (back=0))])) := by
          rw [hdriver] at hrelease
          obtain ⟨original,-,rfl⟩ := Option.map_eq_some_iff.mp hrelease
          exact ⟨_,_,rfl⟩
        rw [if_pos hlarge]
        unfold refuseWindow
        dsimp only
        rw [hrelease]
        dsimp only
        rw [if_pos hempty,hback]
        refine ⟨s.files.slots i,w',_,by rw [Function.update_eq_self],?_,fun hok => ?_⟩
        · refine ⟨fun h => ?_,fun _ h => ?_,fun _ h => ?_,fun _ _ => hinfo⟩
          · rw [hopen] at h
            cases h
          · exact absurd h hactive
          · simp [Watch.note] at h
        · simp [Watch.note,hok]
      · rw [if_neg hlarge]
        refine ⟨_,w,_,rfl,?_,fun hok => ?_⟩
        · refine ⟨fun h => ?_,fun _ _ => ⟨rfl,hsome⟩,fun _ _ => ?_,fun _ _ => hinfo⟩
          · dsimp only at h
            rw [hopen] at h
            cases h
          · exact decide_eq_true hempty
        · simp [Watch.note,hok]

end Effects

section Runs

variable {s : Watched D} {w : D}

theorem noDriver_releases : Releases (noDriver : CartDriver D) := fun h => by cases h

/-- A driver is set. -/
theorem setDriver_spec (hs : Coherent s)
    (driver : Option {driver : CartDriver D // Releases driver}) {t : Watched D}
    (h : step s (.setDriver driver)=some t) :
    Coherent t ∧ (Kept s → (Kept t ↔ Orderly s (.setDriver driver))) := by
  rw [step,Option.some.injEq] at h
  subst h
  refine ⟨⟨hs.log,?_,fun i => ?_⟩,fun hkept => ?_⟩
  · cases driver with
    | none => exact ⟨noDriver,noDriver_releases,rfl⟩
    | some driver => exact ⟨driver.1,driver.2,rfl⟩
  · refine ⟨fun _ => ?_,fun h => ?_,fun h => ?_,fun h => ?_⟩
    · dsimp only
      split
      · exact ⟨rfl,rfl⟩
      · rename_i hclosed
        exact (hs.fits i).closed (Bool.not_eq_true _ ▸ hclosed)
    all_goals cases h
  · refine forall_congr' fun i => ?_
    dsimp only
    by_cases hopen : (s.files.slots i).isOpen=true
    · rw [if_pos hopen]
      simp [Watch.note,hkept i,hopen]
    · rw [if_neg hopen]
      exact iff_of_true (hkept i) fun h => absurd h hopen

/-- A file is opened. -/
theorem openFile_spec (hs : Coherent s) (path : CString) (flags : UInt32) :
    Coherent {s with files := (cartOpen path flags s.files).2} := by
  obtain ⟨driver,hreleases,hdriver⟩ := hs.driver
  have hsame : ∀ w,Coherent {s with files := {s.files with world := (w,s.files.world.2)}} :=
    fun w => ⟨hs.log,hs.driver,hs.fits⟩
  unfold cartOpen
  cases kindFromPath path with
  | none => exact hs
  | some kind =>
    dsimp only
    split
    · exact hs
    obtain ⟨⟨ret,info⟩,w,hensure⟩ := ensureInfo_eq hdriver
    rw [hensure]
    cases info with
    | none => exact hsame w
    | some info =>
      dsimp only
      split
      · exact hsame w
      cases openRefused kind flags info with
      | some error => exact hsame w
      | none =>
        dsimp only
        cases hfree : freeCartSlot {s.files with world := (w,s.files.world.2)} with
        | none => exact hsame w
        | some i =>
          have hclosed : (s.files.slots i).isOpen=false := by
            unfold freeCartSlot at hfree
            have hfound := List.find?_some hfree
            exact of_decide_eq_true hfound
          refine ⟨hs.log,hs.driver,fun j => ?_⟩
          dsimp only [CartFiles.setSlot]
          by_cases hj : j=i
          · subst hj
            obtain ⟨hheld,hpending⟩ := (hs.fits j).closed hclosed
            rw [Function.update_self]
            refine ⟨fun h => ?_,fun _ h => ?_,fun _ h => ?_,fun _ h => ?_⟩
            · cases h
            · cases h
            · rw [hpending] at h
              cases h
            · rw [hheld] at h
              cases h
          · rw [Function.update_of_ne hj]
            exact hs.fits j

/-- A call on a handle, whatever the call is. -/
theorem handle_spec (hs : Coherent s) {l : ℕ} (shown : List CartEvent)
    {t : CartFiles (D×List CartEvent)} (good : Fin clCartMaxHandles → Prop)
    (hnone : slotFromLocal s.files l=none → t=s.files)
    (heffect : ∀ i,slotFromLocal s.files l=some i → Effect s i shown t (good i)) :
    Coherent (finish s l shown t) ∧
      (Kept s → (Kept (finish s l shown t) ↔ OnHandle s l good)) := by
  unfold OnHandle
  cases hslot : slotFromLocal s.files l with
  | none =>
    rw [hnone hslot,finish_none hs hslot]
    exact ⟨hs,fun hkept => iff_of_true hkept trivial⟩
  | some i => exact finish_effect hs hslot (heffect i hslot)

/-- What one call does to the watches. -/
theorem step_spec (hs : Coherent s) {action : Action D} {t : Watched D}
    (h : step s action=some t) :
    Coherent t ∧ (Kept s → (Kept t ↔ Orderly s action)) := by
  have htrue : ∀ l,OnHandle s l (fun _ => True) ↔ True := by
    intro l
    unfold OnHandle
    split <;> exact Iff.rfl
  cases action with
  | setDriver driver => exact setDriver_spec hs driver h
  | openFile path flags =>
    rw [step,Option.some.injEq] at h
    subst h
    exact ⟨openFile_spec hs path flags,fun hkept => iff_of_true hkept trivial⟩
  | close l =>
    rw [step,Option.some.injEq] at h
    subst h
    have hspec := handle_spec hs (l := l) [.closed] (fun _ => True)
      (fun hnone => by unfold cartClose; rw [hnone]) fun i hi => cartClose_effect hs hi
    rwa [htrue] at hspec
  | read l length =>
    rw [step,Option.some.injEq] at h
    subst h
    exact handle_spec hs _ _ (fun hnone => by unfold cartRead; rw [hnone])
      fun i hi => cartRead_effect hs hi length
  | write l src =>
    rw [step,Option.some.injEq] at h
    subst h
    exact handle_spec hs _ _ (fun hnone => by unfold cartWrite; rw [hnone])
      fun i hi => cartWrite_effect hs hi src
  | directRead l maxLength =>
    rw [step,Option.some.injEq] at h
    subst h
    exact handle_spec hs _ _ (fun hnone => by unfold cartDirectRead; rw [hnone])
      fun i hi => cartDirectRead_effect hs hi maxLength
  | release l =>
    rw [step,Option.some.injEq] at h
    subst h
    have hspec := handle_spec hs (l := l) [] (fun _ => True)
      (fun hnone => by unfold cartReleaseDirect; rw [hnone])
      fun i hi => cartReleaseDirect_effect hs hi
    rwa [htrue] at hspec
  | seek l offset =>
    rw [step,Option.some.injEq] at h
    subst h
    exact handle_spec hs _ _ (fun hnone => by unfold cartSeek; rw [hnone])
      fun i hi => cartSeek_effect hs hi offset
  | truncate l size =>
    rw [step,Option.some.injEq] at h
    subst h
    have hspec := handle_spec hs (l := l) [] (fun _ => True)
      (fun hnone => by unfold cartTruncate; rw [hnone])
      fun i hi => cartTruncate_effect hs hi size
    rwa [htrue] at hspec
  | flush l =>
    rw [step,Option.some.injEq] at h
    subst h
    have hspec := handle_spec hs (l := l) [] (fun _ => True)
      (fun hnone => by unfold cartFlush; rw [hnone]) fun i hi => cartFlush_effect hs hi
    rwa [htrue] at hspec

theorem start_coherent (w : D) : Coherent (start w) := by
  refine ⟨rfl,⟨noDriver,noDriver_releases,rfl⟩,fun i => ?_⟩
  refine ⟨fun _ => ⟨rfl,rfl⟩,fun h => ?_,fun h => ?_,fun h => ?_⟩ <;> cases h

/-- A copy gives every window back once before it takes the next one or returns. Over all
runs of the calls of a cartridge the windows are passed back, and nothing is served while one
is held, exactly if every call is orderly. -/
theorem windows_returned_iff {w : D} {trace : List (Watched D×Action D)} {last : Watched D}
    (run : Run step (start w) trace last) :
    (∀ (σ : Type) (source : CopySource σ) (sink : CopySink σ) (options : CopyOptions σ)
      (rounds fuel : ℕ) (s : σ),source.releaseDirect.isSome →
      (clCopyStreamCounted source sink options rounds fuel s).1=
          (clCopyStreamCounted (watchSource source) (watchSink sink) (watchOptions options)
            rounds fuel (s,[])).1 ∧
        DriverPrograms.wp (clCopyStreamCounted (watchSource source) (watchSink sink)
          (watchOptions options) rounds fuel) (fun _ t => Balanced t.2)
          (fun t => Underway t.2) (s,[])) ∧
    (Always Kept trace last ↔ EveryStep Orderly trace) := by
  refine ⟨fun σ source sink options rounds fuel s hrelease => ⟨?_,?_⟩,?_⟩
  · have hfollows := clCopyStreamCounted_follows source sink options rounds fuel (s,[])
    exact congrArg Prod.fst hfollows
  · exact wp_clCopyStreamCounted hrelease rounds fuel .nil
  · exact run.always_iff_everyStep (start_coherent w)
      (fun s action t hs h => (step_spec hs h).1) (fun _ => rfl)
      fun s action t hs hkept h => (step_spec hs h).2 hkept

/-- The path of the ROM. -/
def romPath : CString := ⟨clCartRomPath,by decide⟩

/-- A window of four bytes. -/
def smallWindow : WireProtocol.DirectWindow := ⟨[1,2,3,4],4,rfl,.bytes⟩

/-- A driver with such windows. -/
def windowDriver : CartDriver Unit where
  info := some fun w => ((0,⟨false,true,false,List.replicate clCartInfoBytes 0,rfl⟩),w)
  read := none
  directRead := some fun _ _ _ w => ((0,.window smallWindow),w)
  releaseDirect := some fun _ w => (0,w)
  write := none
  flush := none
  setSize := none

/-- The calls: set the driver, open the ROM, take a window. -/
def windowCalls : List (Action Unit) :=
  [.setDriver (some ⟨windowDriver,fun _ => rfl⟩),.openFile romPath clpOpenRead,
    .directRead 1 4]

/-- The state after some calls. -/
def after (calls : List (Action Unit)) : Watched Unit :=
  calls.foldl (fun s action => (step s action).getD s) (start ())

/-- The states before the calls, and a last call that clears the driver. -/
def windowTrace : List (Watched Unit×Action Unit) :=
  [(after [],.setDriver (some ⟨windowDriver,fun _ => rfl⟩)),
    (after (windowCalls.take 1),.openFile romPath clpOpenRead),
    (after (windowCalls.take 2),.directRead 1 4),(after windowCalls,.setDriver none)]

/-- The state after them. -/
def cleared : Watched Unit := after (windowCalls++[.setDriver none])

theorem window_run : Run step (start ()) windowTrace cleared :=
  (((Run.nil.snoc rfl).snoc rfl).snoc rfl).snoc rfl

/-- Clearing the driver closes the file, and its window was never passed back. -/
theorem cleared_window_fails :
    Run step (start ()) windowTrace cleared ∧ windowDriver.releaseDirect.isSome=true ∧
      (after windowCalls).watches ⟨0,by decide⟩=⟨true,true,true⟩ ∧
      (cleared.files.slots ⟨0,by decide⟩).isOpen=false ∧ ¬Always Kept windowTrace cleared := by
  refine ⟨window_run,rfl,by decide,rfl,fun halways => ?_⟩
  have hok := halways.2 ⟨0,by decide⟩
  exact absurd hok (by decide)

/-- A source with windows that are given back. -/
def windowSource : CopySource Unit where
  read := none
  directRead := some fun _ s => ((0,.window smallWindow),s)
  releaseDirect := some fun s => (0,s)
  size := 4
  preferredBlockSize := 0
  maxBlockSize := 0

/-- A sink that takes everything. -/
def windowSink : CopySink Unit where
  write := some fun data s => ((0,data.length),s)
  directWrite := none
  flush := none
  preferredBlockSize := 0
  maxBlockSize := 0

/-- A buffer of four bytes. -/
def windowOptions : CopyOptions Unit := ⟨true,4,0,none,false⟩

/-- The two statements for a small copy and a run of four calls. -/
theorem windows_returned_iff_small :
    ((clCopyStreamCounted windowSource windowSink windowOptions 8 8 ()).1=
        (clCopyStreamCounted (watchSource windowSource) (watchSink windowSink)
          (watchOptions windowOptions) 8 8 ((),[])).1 ∧
      DriverPrograms.wp (clCopyStreamCounted (watchSource windowSource) (watchSink windowSink)
        (watchOptions windowOptions) 8 8) (fun _ t => Balanced t.2)
        (fun t => Underway t.2) ((),[])) ∧
    (Always Kept windowTrace cleared ↔ EveryStep Orderly windowTrace) :=
  ⟨(windows_returned_iff window_run).1 Unit windowSource windowSink windowOptions 8 8 () rfl,
    (windows_returned_iff window_run).2⟩

end Runs

end ChisLink.CartWindows
