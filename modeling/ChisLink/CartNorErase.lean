import ChisLink.LabelledRuns
import ChisLink.CartNorIdentification

/-!
# Background erases of the NOR driver

A background erase outlives the call that starts it. The record of the bus tells
which erase has not been waited for yet, and whether anything but a status poll
of that sector was sent meanwhile. Two calls reset the driver without waiting.
The discipline is kept in a whole run exactly if these two are never made while
the driver knows of a background erase.
-/

namespace ChisLink.CartNorErase

open LabelledRuns DriverPrograms CartNorDriver CartNorIdentification

variable {σ : Type}

/-- What the record says: the erase not waited for yet, and whether only its status
was polled while there was one. -/
structure Discipline where
  /-- Address of the erase that was not waited for. -/
  outstanding : Option ℕ
  /-- Whether nothing but status polls was sent during an erase. -/
  kept : Bool
deriving DecidableEq

/-- Account for one event. -/
def Discipline.next : Discipline → BusEvent → Discipline
  | ⟨none,kept⟩, .preErased addr => ⟨some addr,kept⟩
  | ⟨some _,_⟩, .preErased addr => ⟨some addr,false⟩
  | ⟨outstanding,kept⟩, .waited addr => ⟨none,kept && outstanding=some addr⟩
  | ⟨none,kept⟩, .read _ => ⟨none,kept⟩
  | ⟨none,kept⟩, .write _ _ => ⟨none,kept⟩
  | ⟨some erased,kept⟩, .read addr => ⟨some erased,kept && addr=erased⟩
  | ⟨some erased,_⟩, .write _ _ => ⟨some erased,false⟩

/-- What a record says from the beginning on. -/
def discipline (log : List BusEvent) : Discipline :=
  log.foldl Discipline.next ⟨none,true⟩

@[simp] theorem discipline_nil : discipline []=⟨none,true⟩ := rfl

@[simp] theorem discipline_snoc (log : List BusEvent) (event : BusEvent) :
    discipline (log++[event])=(discipline log).next event := by
  simp [discipline]

/-- A broken discipline stays broken. -/
theorem Discipline.kept_next {d : Discipline} {event : BusEvent} (h : d.kept=false) :
    (d.next event).kept=false := by
  obtain ⟨outstanding,kept⟩ := d
  dsimp only at h
  subst h
  cases outstanding <;> cases event <;> rfl

/-- The calls of the driver. -/
inductive NorCall where
  /-- `cl_cart_nor_probe`. -/
  | probe
  /-- `cl_cart_nor_set_write_size`. -/
  | setWriteSize (size : UInt64)
  /-- `cl_cart_nor_write_stream`. -/
  | writeStream (offset : UInt32) (src : List UInt8)
  /-- `cl_cart_nor_flush`. -/
  | flush
  /-- `cl_cart_nor_invalidate`. -/
  | invalidate

/-- Carry out a call. -/
def runCall (bus : Bus σ) (fuel : ℕ) : NorCall → Prog (Machine σ) Unit
  | .probe => do
    let _ ← clCartNorProbe bus
    pure ()
  | .setWriteSize size => do
    let _ ← clCartNorSetWriteSize bus size
    pure ()
  | .writeStream offset src => do
    let _ ← clCartNorWriteStream bus fuel offset.toNat src
    pure ()
  | .flush => do
    let _ ← clCartNorFlush bus fuel
    pure ()
  | .invalidate => clCartNorInvalidate

/-- The machine, and whether the last call returned. -/
structure CallState (σ : Type) where
  /-- The machine. -/
  machine : Machine σ
  /-- The last call returned; else it polls until its fuel is gone. -/
  returned : Bool

/-- One call with a number of polls that it may make. -/
def callStep (bus : Bus σ) (s : CallState σ) (action : NorCall×ℕ) : Option (CallState σ) :=
  if s.returned then
    let result := runCall bus action.2 action.1 s.machine
    some ⟨result.2,result.1.isSome⟩
  else none

/-- A driver that was not called yet. -/
def initialCalls (chip : σ) : CallState σ := ⟨⟨chip,initialNor,[]⟩,true⟩

/-- Nothing but status polls was sent during a background erase, and between the
calls the driver knows of each background erase that was not waited for. -/
def Respected (s : CallState σ) : Prop :=
  (discipline s.machine.log).kept=true ∧
    (s.returned=true → (discipline s.machine.log).outstanding.isSome=true →
      s.machine.nor.preEraseActive=true)

/-- The calls that reset the driver without waiting are not made while it knows of
a background erase. -/
def Unhurried (s : CallState σ) (action : NorCall×ℕ) : Prop :=
  match action.1 with
  | .invalidate => s.machine.nor.preEraseActive=false
  | .setWriteSize size => size≤0xffffffff → s.machine.nor.preEraseActive=false
  | _ => True

/-- No background erase is outstanding and none was disturbed. -/
def Idle (s : Machine σ) : Prop := discipline s.log=⟨none,true⟩

/-- The background erase at an address is outstanding and none was disturbed. -/
def Waiting (addr : ℕ) (s : Machine σ) : Prop := discipline s.log=⟨some addr,true⟩

/-- The discipline was broken. -/
def Broken (s : Machine σ) : Prop := (discipline s.log).kept=false

section Idle

variable (bus : Bus σ) {I : NorState → Prop}

theorem stays_flashWriteRaw (addr : ℕ) (data : UInt16) :
    Stays Idle I (flashWriteRaw bus addr data) := by
  intro s hM hI
  refine ⟨?_,hI⟩
  unfold Idle at hM ⊢
  simp only [discipline_snoc,hM,Discipline.next]

/-- While no erase is outstanding, every access is allowed. -/
theorem undisturbed_idle : Undisturbed bus Idle := by
  refine ⟨fun addr s hM => ?_,fun addr data _ s hM => ?_,fun _ _ hM => hM⟩
  · change discipline (s.log++[.read addr])=⟨none,true⟩
    unfold Idle at hM
    simp only [discipline_snoc,hM,Discipline.next]
  · exact (stays_flashWriteRaw bus addr data (I := fun _ => True) s hM trivial).1

theorem stays_flashReadCmd (addr : ℕ) : Stays Idle I (flashReadCmd bus addr) :=
  (undisturbed_idle bus).stays_flashReadCmd addr

theorem stays_flashWriteCmd (addr : ℕ) (data : UInt16) :
    Stays Idle I (flashWriteCmd bus addr data) :=
  stays_getNor fun _ _ => stays_flashWriteRaw bus addr _

theorem stays_flashReset : Stays Idle I (flashReset bus) :=
  (undisturbed_idle bus).stays_flashReset

theorem stays_amdFinish (done : Bool) : Stays Idle I (amdFinish bus done) :=
  (stays_flashReset bus).bind fun _ => stays_pure

theorem stays_waitAmd (fuel addr : ℕ) (expected : UInt16) :
    Stays Idle I (waitAmdProgram bus fuel addr expected) :=
  (stays_amdPoll bus (stays_flashReadCmd bus addr) fuel expected).bind fun done =>
    stays_amdFinish bus done

theorem stays_waitIntelReady_idle (fuel addr : ℕ) (command : UInt16) :
    Stays Idle I (waitIntelReady bus fuel addr command) := by
  refine stays_waitIntelReady bus ?_ (stays_flashReadCmd bus addr) fuel
  unfold pollCommand
  split
  · exact stays_flashWriteCmd bus _ _
  · exact stays_pure

theorem stays_sendErase (addr : ℕ) : Stays Idle I (sendErase bus addr) := by
  refine stays_getNor fun nor _ => ?_
  split
  · refine (stays_flashWriteRaw bus _ _).bind fun _ => ?_
    refine (stays_flashWriteRaw bus _ _).bind fun _ => ?_
    refine (stays_flashWriteRaw bus _ _).bind fun _ => ?_
    refine (stays_flashWriteRaw bus _ _).bind fun _ => ?_
    exact (stays_flashWriteRaw bus _ _).bind fun _ => stays_flashWriteRaw bus _ _
  · refine (stays_flashWriteCmd bus _ _).bind fun _ => ?_
    refine (stays_flashWriteCmd bus _ _).bind fun _ => ?_
    refine (stays_flashWriteCmd bus _ _).bind fun _ => ?_
    refine (stays_flashWriteCmd bus _ _).bind fun _ => ?_
    refine (stays_flashWriteCmd bus _ _).bind fun _ => ?_
    exact (stays_flashWriteCmd bus _ _).bind fun _ => stays_flashWriteCmd bus _ _

theorem stays_eraseSector (fuel addr : ℕ) : Stays Idle I (eraseSector bus fuel addr) := by
  refine (stays_sendErase bus addr).bind fun _ => stays_getNor fun nor _ => ?_
  split
  · refine (stays_waitIntelReady_idle bus fuel addr 0).bind fun _ => ?_
    exact (stays_flashReset bus).bind fun _ => stays_pure
  · exact stays_waitAmd bus fuel addr 0x80

theorem stays_programWord (fuel addr : ℕ) (data : UInt16) :
    Stays Idle I (programWord bus fuel addr data) := by
  refine stays_getNor fun nor _ => ?_
  split
  · refine (stays_flashWriteCmd bus _ _).bind fun _ => ?_
    refine (stays_flashWriteCmd bus _ _).bind fun _ => ?_
    refine (stays_flashWriteRaw bus _ _).bind fun _ => ?_
    refine (stays_waitIntelReady_idle bus fuel addr 0).bind fun _ => ?_
    exact (stays_flashReset bus).bind fun _ => stays_pure
  · refine (stays_flashWriteCmd bus _ _).bind fun _ => ?_
    refine (stays_flashWriteCmd bus _ _).bind fun _ => ?_
    refine (stays_flashWriteCmd bus _ _).bind fun _ => ?_
    exact (stays_flashWriteRaw bus _ _).bind fun _ => stays_waitAmd bus fuel addr data

theorem stays_loadBuffer (addr : ℕ) (src : List UInt8) (i words : ℕ) :
    Stays Idle I (loadBuffer bus addr src i words) := by
  induction words generalizing i with
  | zero => exact stays_pure
  | succ words ih => exact (stays_flashWriteRaw bus _ _).bind fun _ => ih _

theorem stays_programBuffer (fuel addr : ℕ) (src : List UInt8) (writeBufferSize : ℕ) :
    Stays Idle I (programBuffer bus fuel addr src writeBufferSize) := by
  unfold programBuffer
  dsimp only
  split
  · exact stays_pure
  · refine stays_getNor fun nor _ => ?_
    split
    · refine (stays_waitIntelReady_idle bus fuel addr _).bind fun _ => ?_
      refine (stays_flashWriteCmd bus _ _).bind fun _ => ?_
      refine (stays_loadBuffer bus addr src 0 _).bind fun _ => ?_
      refine (stays_flashWriteCmd bus _ _).bind fun _ => ?_
      refine (stays_waitIntelReady_idle bus fuel addr _).bind fun _ => ?_
      exact (stays_flashReset bus).bind fun _ => stays_pure
    · refine (stays_flashWriteCmd bus _ _).bind fun _ => ?_
      refine (stays_flashWriteCmd bus _ _).bind fun _ => ?_
      refine (stays_flashWriteCmd bus _ _).bind fun _ => ?_
      refine (stays_flashWriteCmd bus _ _).bind fun _ => ?_
      refine (stays_loadBuffer bus addr src 0 _).bind fun _ => ?_
      refine (stays_flashWriteCmd bus _ _).bind fun _ => ?_
      exact stays_waitAmd bus fuel _ _

theorem stays_programUnit (fuel addr unit : ℕ) (data : List UInt8) :
    Stays Idle I (programUnit bus fuel addr unit data) := by
  unfold programUnit
  split
  · exact stays_programWord bus fuel addr _
  · exact stays_programBuffer bus fuel addr data unit

end Idle

/-- Between the calls: either no background erase is outstanding and the driver
knows of none, or it knows of the one that is, which is where the next write goes. -/
def Coherent (s : Machine σ) : Prop :=
  (s.nor.preEraseActive=false ∧ Idle s) ∨
    (s.nor.preEraseActive=true ∧ Waiting s.nor.preErasedAddr s ∧
      s.nor.preErasedAddr=s.nor.writeOffset ∧
      (s.nor.writeActive=false → s.nor.writeOffset=0) ∧ s.nor.probeValid=true ∧
      isSectorBoundary s.nor.probeCache s.nor.preErasedAddr=true)

/-- The discipline was not broken. -/
def Kept (s : Machine σ) : Prop := (discipline s.log).kept=true

theorem Idle.kept {s : Machine σ} (h : Idle s) : Kept s := by
  unfold Idle at h
  rw [Kept,h]

theorem Waiting.kept {s : Machine σ} {addr : ℕ} (h : Waiting addr s) : Kept s := by
  unfold Waiting at h
  rw [Kept,h]

theorem Coherent.kept {s : Machine σ} (h : Coherent s) : Kept s := by
  rcases h with ⟨-,hidle⟩ | ⟨-,hwaiting,-⟩
  · exact hidle.kept
  · exact hwaiting.kept

section Calls

variable (bus : Bus σ)

/-- The driver knows of no background erase, and the next write goes to an offset. -/
def Quiescent (writeOffset : ℕ) (nor : NorState) : Prop :=
  nor.preEraseActive=false ∧ nor.writeOffset=writeOffset

theorem agnostic_quiescent (writeOffset : ℕ) : Agnostic (Quiescent writeOffset) :=
  fun _ _ _ h => h

/-- A probe while no background erase is outstanding leaves the cached result. -/
theorem clCartNorProbe_idle {s : Machine σ} {writeOffset : ℕ} (hidle : Idle s)
    (hnor : Quiescent writeOffset s.nor) :
    wp (clCartNorProbe bus) (fun reply t => Idle t ∧ Quiescent writeOffset t.nor ∧
      t.nor.probeValid=true ∧ t.nor.probeCache=reply.2) Idle s := by
  unfold clCartNorProbe getNor
  rw [wp_bind,wp_inspect]
  split
  next hvalid => exact ⟨hidle,hnor,hvalid,rfl⟩
  next =>
    refine wp_seq ((undisturbed_idle bus).stays_runProbe (agnostic_quiescent writeOffset) s hidle hnor) ?_
    rintro probe t ⟨ht,hq⟩
    exact ⟨ht,hq,rfl,rfl⟩

/-- With a valid probe the chip is not touched. -/
theorem clCartNorProbe_valid {s : Machine σ} {Q : ℤ×NorProbe → Machine σ → Prop}
    {D : Machine σ → Prop} (hvalid : s.nor.probeValid=true)
    (hQ : Q (s.nor.probeStatus,s.nor.probeCache) s) :
    wp (clCartNorProbe bus) Q D s := by
  unfold clCartNorProbe getNor
  rw [wp_bind,wp_inspect,if_pos hvalid]
  exact hQ

/-- A background erase is started and remembered. -/
theorem startPreErase_idle {s : Machine σ} (hidle : Idle s) (addr : ℕ) :
    wp (startPreErase bus addr)
      (fun _ t => Waiting addr t ∧
        t.nor={s.nor with preEraseActive := true,preErasedAddr := addr}) Kept s := by
  unfold startPreErase setNor preEraseSector mark
  rw [wp_bind,wp_update,wp_bind]
  have hstay := stays_sendErase bus addr
    {s with nor := {s.nor with preEraseActive := true,preErasedAddr := addr}}
    (I := fun nor => nor={s.nor with preEraseActive := true,preErasedAddr := addr}) hidle rfl
  refine wp_mono hstay ?_ (fun _ h => h.kept)
  rintro _ t ⟨ht,hnor⟩
  rw [wp_update]
  refine ⟨?_,hnor⟩
  unfold Idle at ht
  simp only [Waiting,discipline_snoc,ht,Discipline.next]

/-- Reading the sector that is being erased is a status poll. -/
theorem stays_flashReadCmd_waiting {I : NorState → Prop} (addr : ℕ) :
    Stays (Waiting addr) I (flashReadCmd bus addr) := by
  unfold flashReadCmd
  refine Stays.bind ?_ fun data => stays_getNor fun nor _ => stays_pure
  intro s hM hI
  refine ⟨?_,hI⟩
  unfold Waiting at hM ⊢
  simp only [discipline_snoc,hM,Discipline.next,decide_true,Bool.and_true]

/-- The mark after the wait ends what is outstanding. -/
theorem mark_waited {s : Machine σ} {addr : ℕ} {d : NorState} (hwaiting : Waiting addr s)
    (hnor : s.nor=d) {D : Machine σ → Prop} :
    wp (mark (.waited addr)) (fun _ t => Idle t ∧ t.nor=d) D s := by
  refine ⟨?_,hnor⟩
  unfold Waiting at hwaiting
  simp only [Idle,discipline_snoc,hwaiting,Discipline.next,decide_true,Bool.and_true]

/-- Waiting for the background erase ends it, and the driver forgets it. -/
theorem waitPreErased_waiting {s : Machine σ} {addr : ℕ} (hwaiting : Waiting addr s)
    (fuel : ℕ) :
    wp (waitPreErased bus fuel addr)
      (fun _ t => Idle t ∧ t.nor={s.nor with preEraseActive := false,preErasedAddr := 0})
      Kept s := by
  have hread : Stays (Waiting addr) (fun nor => nor=s.nor) (flashReadCmd bus addr) :=
    stays_flashReadCmd_waiting bus addr
  have hawait : wp (awaitErase bus fuel addr) (fun _ t => Idle t ∧ t.nor=s.nor) Kept s := by
    unfold awaitErase getNor
    rw [wp_bind,wp_inspect]
    split
    · rw [wp_bind]
      refine wp_mono (stays_waitIntelReady bus stays_pure hread fuel s hwaiting rfl) ?_
        (fun _ h => h.kept)
      rintro status t ⟨ht,hnor⟩
      exact wp_seq (mark_waited ht hnor) (fun _ _ h => h)
    · rw [wp_bind]
      refine wp_mono (stays_amdPoll bus hread fuel 0x80 s hwaiting rfl) ?_
        (fun _ h => h.kept)
      rintro done t ⟨ht,hnor⟩
      refine wp_seq (mark_waited ht hnor) ?_
      rintro _ u ⟨hu,hnor'⟩
      have hfinish : Stays Idle (fun nor => nor=s.nor) (amdFinish bus done) :=
        stays_amdFinish bus done
      exact wp_mono (hfinish u hu hnor') (fun _ _ h => h) (fun _ h => h.kept)
  unfold waitPreErased setNor
  refine wp_seq hawait ?_
  rintro ret t ⟨ht,hnor⟩
  rw [wp_bind,wp_update,wp_pure]
  exact ⟨ht,by rw [hnor]⟩

/-- A flush waits for what is outstanding. -/
theorem clCartNorFlush_coherent {s : Machine σ} (h : Coherent s) (fuel : ℕ) :
    wp (clCartNorFlush bus fuel) (fun _ t => Coherent t) Kept s := by
  have hwait : wp (flushPreErased bus fuel) (fun _ t => Idle t) Kept s := by
    unfold flushPreErased getNor
    rw [wp_bind,wp_inspect]
    rcases h with ⟨hnone,hidle⟩ | ⟨hactive,hwaiting,-⟩
    · rw [hnone]
      exact hidle
    · rw [if_pos hactive]
      exact wp_post (waitPreErased_waiting bus hwaiting fuel) (fun _ _ h => h.1)
  unfold clCartNorFlush setNor
  refine wp_seq hwait ?_
  intro ret t ht
  rw [wp_bind]
  have hreset : Stays Idle (fun _ => True) (flashReset bus) := stays_flashReset bus
  refine wp_mono (hreset t ht trivial) ?_ (fun _ h => h.kept)
  rintro _ u ⟨hu,-⟩
  rw [wp_bind,wp_update,wp_pure]
  exact Or.inl ⟨rfl,hu⟩

/-- The variables while the units of a call are written: the probe and the offset
of the call do not change. -/
def Streaming (probe : NorProbe) (writeOffset : ℕ) (nor : NorState) : Prop :=
  nor.writeOffset=writeOffset ∧ nor.probeCache=probe ∧ nor.probeValid=true ∧
    nor.writeActive=true

/-- While units are written no background erase is known, except before the first
one, when the write arrives at its sector. -/
def Arriving (addr : ℕ) (s : Machine σ) : Prop :=
  (s.nor.preEraseActive=false ∧ Idle s) ∨
    (s.nor.preEraseActive=true ∧ Waiting addr s ∧ s.nor.preErasedAddr=addr ∧
      isSectorBoundary s.nor.probeCache addr=true)

theorem Arriving.kept {s : Machine σ} {addr : ℕ} (h : Arriving addr s) : Kept s := by
  rcases h with ⟨-,hidle⟩ | ⟨-,hwaiting,-⟩
  · exact hidle.kept
  · exact hwaiting.kept

/-- Arriving at an address ends what is outstanding there. -/
theorem arriveAt_arriving {s : Machine σ} {addr writeOffset : ℕ} {probe : NorProbe}
    (h : Arriving addr s) (hnor : Streaming probe writeOffset s.nor) (fuel : ℕ) :
    wp (arriveAt bus fuel probe addr)
      (fun _ t => Idle t ∧ t.nor.preEraseActive=false ∧ Streaming probe writeOffset t.nor)
      Kept s := by
  unfold arriveAt getNor
  rcases h with ⟨hnone,hidle⟩ | ⟨hactive,hwaiting,haddr,hboundary⟩
  · split
    · rw [wp_bind,wp_inspect,hnone]
      have hstay : Stays Idle
          (fun nor => nor.preEraseActive=false ∧ Streaming probe writeOffset nor)
          (eraseSector bus fuel addr) := stays_eraseSector bus fuel addr
      exact wp_mono (hstay s hidle ⟨hnone,hnor⟩) (fun _ _ h => h) (fun _ h => h.kept)
    · exact ⟨hidle,hnone,hnor⟩
  · rw [hnor.2.1] at hboundary
    rw [if_pos hboundary,wp_bind,wp_inspect,if_pos ⟨hactive,haddr⟩]
    refine wp_post (waitPreErased_waiting bus hwaiting fuel) ?_
    rintro ret t ⟨ht,htnor⟩
    rw [htnor]
    exact ⟨ht,rfl,hnor⟩

/-- What holds after the units of a call: after an error nothing is outstanding;
else the sector after the last unit may be. -/
def UnitsDone (probe : NorProbe) (offset n : ℕ) (result : ℤ×ℕ) (s : Machine σ) : Prop :=
  Streaming probe offset s.nor ∧
    ((result.1<0 ∧ s.nor.preEraseActive=false ∧ Idle s) ∨
      (¬result.1<0 ∧ result.2=n ∧ Arriving (offset+n) s))

theorem UnitsDone.kept {s : Machine σ} {probe : NorProbe} {offset n : ℕ} {result : ℤ×ℕ}
    (h : UnitsDone probe offset n result s) : Kept s := by
  rcases h.2 with ⟨-,-,hidle⟩ | ⟨-,-,harriving⟩
  · exact hidle.kept
  · exact harriving.kept

/-- Looking ahead starts a background erase at most where the next write goes. -/
theorem afterUnit_idle {s : Machine σ} {probe : NorProbe} {writeOffset addr : ℕ}
    (hidle : Idle s) (hnone : s.nor.preEraseActive=false)
    (hnor : Streaming probe writeOffset s.nor) (last : Bool) :
    wp (afterUnit bus probe addr last)
      (fun _ t => Streaming probe writeOffset t.nor ∧ Arriving addr t ∧
        (last=false → t.nor.preEraseActive=false ∧ Idle t)) Kept s := by
  unfold afterUnit maybePreEraseNextSector getNor
  have hnothing : Streaming probe writeOffset s.nor ∧ Arriving addr s ∧
      (last=false → s.nor.preEraseActive=false ∧ Idle s) :=
    ⟨hnor,Or.inl ⟨hnone,hidle⟩,fun _ => ⟨hnone,hidle⟩⟩
  split
  next hlast =>
    rw [wp_bind,wp_inspect]
    split
    next hahead =>
      refine wp_post (startPreErase_idle bus hidle addr) ?_
      rintro _ t ⟨ht,htnor⟩
      rw [htnor]
      refine ⟨hnor,Or.inr ⟨by rw [htnor],ht,by rw [htnor],?_⟩,fun h => ?_⟩
      · rw [htnor]
        dsimp only
        rw [hnor.2.1]
        exact hahead.2.2.2.1
      · rw [hlast] at h
        contradiction
    next => exact hnothing
  next => exact hnothing

/-- The unit of a step is not empty. -/
theorem chooseWriteUnit_pos (probe : NorProbe) (offset remaining : ℕ) :
    0<chooseWriteUnit probe offset remaining := by
  unfold chooseWriteUnit
  dsimp only
  split <;> omega

/-- The units of a call keep the discipline, by induction on what remains. -/
theorem writeUnits_arriving {probe : NorProbe} {offset : ℕ} (fuel n : ℕ) :
    ∀ (done : ℕ) (data : List UInt8) (s : Machine σ),done≤n →
      Streaming probe offset s.nor → Arriving (offset+done) s →
      wp (writeUnits bus fuel probe offset n done data)
        (fun result t => UnitsDone probe offset n result t) Kept s := by
  intro done
  induction hremaining : n-done using Nat.strong_induction_on generalizing done with
  | _ remaining ih =>
    intro data s hle hnor harriving
    unfold writeUnits
    split
    next hmore =>
      have hpos := chooseWriteUnit_pos probe (offset+done) (n-done)
      refine wp_seq (arriveAt_arriving bus harriving hnor fuel) ?_
      rintro arrived t ⟨ht,hnone,hstream⟩
      split
      next herror => exact ⟨hstream,Or.inl ⟨herror,hnone,ht⟩⟩
      next =>
        dsimp only
        rw [wp_bind]
        have hprogram : Stays Idle
            (fun nor => nor.preEraseActive=false ∧ Streaming probe offset nor)
            (programUnit bus fuel (offset+done)
              (chooseWriteUnit probe (offset+done) (n-done)) data) :=
          stays_programUnit bus fuel _ _ data
        refine wp_mono (hprogram t ht ⟨hnone,hstream⟩) ?_ (fun _ h => h.kept)
        rintro ret u ⟨hu,hnone,hstream⟩
        split
        next herror => exact ⟨hstream,Or.inl ⟨herror,hnone,hu⟩⟩
        next =>
          refine wp_seq (afterUnit_idle bus hu hnone hstream _) ?_
          rintro _ v ⟨hstream,harriving,-⟩
          have hstep : done+min (chooseWriteUnit probe (offset+done) (n-done)) (n-done)≤n := by
            omega
          have hless : n-(done+min (chooseWriteUnit probe (offset+done) (n-done)) (n-done))<
              remaining := by
            omega
          exact ih _ hless _ rfl _ _ hstep hstream harriving
    next hend =>
      have heq : done=n := by omega
      subst heq
      exact ⟨hnor,Or.inr ⟨Int.lt_irrefl _,rfl,harriving⟩⟩

/-- The end of a call leaves the driver coherent. -/
theorem endStream_unitsDone {probe : NorProbe} {offset n : ℕ} {result : ℤ×ℕ}
    {s : Machine σ} (h : UnitsDone probe offset n result s) :
    wp (endStream bus probe result) (fun _ t => Coherent t) Kept s := by
  obtain ⟨hstream,hresult⟩ := h
  unfold endStream setNor getNor
  rcases hresult with ⟨herror,hnone,hidle⟩ | ⟨hok,hn,harriving⟩
  · rw [if_pos herror]
    exact Or.inl ⟨hnone,hidle⟩
  · rw [if_neg hok,wp_bind,wp_update,wp_bind,wp_inspect,wp_bind]
    have hoffset : s.nor.writeOffset+result.2=offset+n := by rw [hstream.1,hn]
    dsimp only
    rw [hoffset]
    rcases harriving with ⟨hnone,hidle⟩ | ⟨hactive,hwaiting,haddr,hboundary⟩
    · have hstream' : Streaming probe (offset+n)
          ({s.nor with writeOffset := offset+n} : NorState) := ⟨rfl,hstream.2⟩
      refine wp_post (afterUnit_idle bus
        (s := {s with nor := {s.nor with writeOffset := offset+n}}) hidle hnone hstream' _) ?_
      rintro _ t ⟨ht,harriving,-⟩
      rw [wp_pure]
      rcases harriving with hquiet | ⟨hactive,hwaiting,haddr,hboundary⟩
      · exact Or.inl hquiet
      · rw [← haddr] at hwaiting hboundary
        exact Or.inr ⟨hactive,hwaiting,by rw [haddr,ht.1],
          fun hinactive => absurd (ht.2.2.2.symm.trans hinactive) (by decide),ht.2.2.1,hboundary⟩
    · -- the look-ahead of the last unit has already started the erase
      have hskip : wp (afterUnit bus probe (offset+n)
          (result.2≠0 ∧ s.nor.writeExpectedSize≠0))
          (fun _ t => t={s with nor := {s.nor with writeOffset := offset+n}}) Kept
          {s with nor := {s.nor with writeOffset := offset+n}} := by
        unfold afterUnit maybePreEraseNextSector getNor
        split
        · rw [wp_bind,wp_inspect,if_neg]
          · exact rfl
          · rintro ⟨-,-,-,-,hnone⟩
            dsimp only at hnone
            rw [hactive] at hnone
            contradiction
        · exact rfl
      refine wp_post hskip ?_
      rintro _ t rfl
      rw [← haddr] at hwaiting hboundary
      exact Or.inr ⟨hactive,hwaiting,haddr,
        fun hinactive => absurd (hstream.2.2.2.symm.trans hinactive) (by decide),
        hstream.2.2.1,hboundary⟩

/-- A coherent state whose next write goes to an offset is ready for its units. -/
theorem Coherent.arriving {s : Machine σ} (h : Coherent s) : Arriving s.nor.writeOffset s := by
  rcases h with hquiet | ⟨hactive,hwaiting,haddr,-,-,hboundary⟩
  · exact Or.inl hquiet
  · rw [haddr] at hwaiting hboundary
    exact Or.inr ⟨hactive,hwaiting,haddr,hboundary⟩

theorem streamAt_coherent {s : Machine σ} (h : Coherent s) (hvalid : s.nor.probeValid=true)
    (hwriting : s.nor.writeActive=true) (fuel offset : ℕ) (src : List UInt8) :
    wp (streamAt bus fuel s.nor.probeCache offset src) (fun _ t => Coherent t) Kept s := by
  unfold streamAt getNor
  rw [wp_bind,wp_inspect]
  split
  next => exact h
  next hoffset =>
    push Not at hoffset
    split
    next => exact h
    next =>
      dsimp only
      rw [wp_bind]
      have hunits := writeUnits_arriving bus fuel
        (streamLength s.nor.probeCache s.nor.writeExpectedSize offset src.length) 0
        (src.take (streamLength s.nor.probeCache s.nor.writeExpectedSize offset src.length)) s
        (Nat.zero_le _) ⟨hoffset.2.symm,rfl,hvalid,hwriting⟩ (by
          rw [hoffset.2]
          exact h.arriving)
      refine wp_post hunits ?_
      intro result t ht
      exact endStream_unitsDone bus ht

/-- Probing keeps the driver coherent; afterwards the probe is the cached one. -/
theorem clCartNorProbe_coherent {s : Machine σ} (h : Coherent s) :
    wp (clCartNorProbe bus)
      (fun reply t => Coherent t ∧ t.nor.probeValid=true ∧ t.nor.probeCache=reply.2) Kept s := by
  rcases h with ⟨hnone,hidle⟩ | ⟨hactive,hwaiting,haddr,hzero,hvalid,hboundary⟩
  · refine wp_mono (clCartNorProbe_idle bus hidle ⟨hnone,rfl⟩) ?_ (fun _ h => h.kept)
    rintro reply t ⟨ht,hq,hvalid,hcache⟩
    exact ⟨Or.inl ⟨hq.1,ht⟩,hvalid,hcache⟩
  · exact clCartNorProbe_valid bus hvalid
      ⟨Or.inr ⟨hactive,hwaiting,haddr,hzero,hvalid,hboundary⟩,hvalid,rfl⟩

theorem clCartNorWriteStream_coherent {s : Machine σ} (h : Coherent s) (fuel offset : ℕ)
    (src : List UInt8) :
    wp (clCartNorWriteStream bus fuel offset src) (fun _ t => Coherent t) Kept s := by
  unfold clCartNorWriteStream
  split
  · exact h
  · refine wp_seq (clCartNorProbe_coherent bus h) ?_
    rintro reply t ⟨ht,hvalid,hcache⟩
    rw [← hcache]
    split
    · exact ht
    · split
      · exact ht
      · split
        · exact ht
        · unfold getNor
          rw [wp_bind,wp_inspect]
          split
          next hwriting => exact streamAt_coherent bus ht hvalid hwriting fuel offset src
          next hwriting =>
            split
            · exact ht
            · unfold setNor
              rw [wp_bind,wp_update]
              have hbegin : Coherent
                  {t with nor := {t.nor with writeActive := true,writeOffset := 0}} := by
                rcases ht with hquiet | ⟨hactive,hwaiting,haddr,hzero,hvalid,hboundary⟩
                · exact Or.inl hquiet
                · have hstart := hzero (Bool.eq_false_iff.mpr hwriting)
                  exact Or.inr ⟨hactive,hwaiting,by rw [haddr,hstart],fun _ => rfl,hvalid,hboundary⟩
              exact streamAt_coherent bus hbegin hvalid rfl fuel offset src

theorem clCartNorInvalidate_coherent {s : Machine σ} (h : Coherent s)
    (hnone : s.nor.preEraseActive=false) :
    wp clCartNorInvalidate (fun _ t => Coherent t) Kept s := by
  unfold clCartNorInvalidate setNor
  rw [wp_update]
  rcases h with ⟨-,hidle⟩ | ⟨hactive,-⟩
  · exact Or.inl ⟨rfl,hidle⟩
  · rw [hnone] at hactive
    contradiction

theorem clCartNorSetWriteSize_coherent {s : Machine σ} (h : Coherent s) (size : UInt64)
    (hnone : size≤0xffffffff → s.nor.preEraseActive=false) :
    wp (clCartNorSetWriteSize bus size) (fun _ t => Coherent t) Kept s := by
  unfold clCartNorSetWriteSize setNor
  split
  next => exact h
  next hsize =>
    have hidle : Idle s := by
      rcases h with ⟨-,hidle⟩ | ⟨hactive,-⟩
      · exact hidle
      · rw [hnone (UInt64.not_lt.mp hsize)] at hactive
        contradiction
    rw [wp_bind,wp_update]
    split
    next => exact Or.inl ⟨rfl,hidle⟩
    next =>
      rw [wp_bind]
      have hprobe := clCartNorProbe_idle bus
        (s := {s with nor := {s.nor with
          writeExpectedSize := size.toNat
          writeActive := false
          writeOffset := 0
          preEraseActive := false
          preErasedAddr := 0}}) hidle ⟨rfl,rfl⟩
      refine wp_mono hprobe ?_ (fun _ h => h.kept)
      rintro reply t ⟨ht,hq,hvalid,hcache⟩
      split
      · exact Or.inl ⟨hq.1,ht⟩
      · split
        · exact Or.inl ⟨hq.1,ht⟩
        · split
          next hboundary =>
            refine wp_seq (startPreErase_idle bus ht 0) ?_
            rintro _ u ⟨hu,hunor⟩
            refine Or.inr ?_
            rw [hunor,hcache]
            exact ⟨rfl,hu,hq.2.symm,fun _ => hq.2,hvalid,hboundary⟩
          next => exact Or.inl ⟨hq.1,ht⟩

/-- Every call that does not reset the driver over a background erase leaves it
coherent, and a call that does not return has kept the discipline. -/
theorem runCall_coherent {s : Machine σ} (h : Coherent s) (fuel : ℕ) (call : NorCall)
    (hG : Unhurried ⟨s,true⟩ (call,fuel)) :
    wp (runCall bus fuel call) (fun _ t => Coherent t) Kept s := by
  cases call with
  | probe =>
    refine (wp_bind).mpr (wp_post (clCartNorProbe_coherent bus h) ?_)
    exact fun _ _ ht => ht.1
  | setWriteSize size =>
    refine (wp_bind).mpr (wp_post (clCartNorSetWriteSize_coherent bus h size hG) ?_)
    exact fun _ _ ht => ht
  | writeStream offset src =>
    refine (wp_bind).mpr (wp_post (clCartNorWriteStream_coherent bus h fuel offset.toNat src)
      ?_)
    exact fun _ _ ht => ht
  | flush =>
    refine (wp_bind).mpr (wp_post (clCartNorFlush_coherent bus h fuel) ?_)
    exact fun _ _ ht => ht
  | invalidate => exact clCartNorInvalidate_coherent h hG

/-- Some events of which the first is a command. -/
def Commanding (events : List BusEvent) : Prop :=
  ∃ addr data rest,events=.write addr data::rest

theorem emits_flashWriteRaw (addr : ℕ) (data : UInt16) :
    Emits Machine.log (flashWriteRaw bus addr data) (fun _ events => Commanding events) :=
  emits_update (fun _ => rfl) ⟨addr,data,[],rfl⟩

theorem emits_flashWriteCmd (addr : ℕ) (data : UInt16) :
    Emits Machine.log (flashWriteCmd bus addr data) (fun _ events => Commanding events) :=
  (emits_inspect (Q := fun _ events => events=[]) fun _ => rfl).bind (by
    rintro nor _ rfl
    exact emits_flashWriteRaw bus addr _)

/-- What follows a command does not matter. -/
theorem Commanding.bind {α β : Type} {p : Prog (Machine σ) β} {f : β → Prog (Machine σ) α}
    (hp : Emits Machine.log p (fun _ events => Commanding events))
    (hf : ∀ b,Emits Machine.log (f b) (fun _ events => Commanding events)) :
    Emits Machine.log (p >>= f) (fun _ events => Commanding events) := by
  refine hp.bind ?_
  rintro b _ ⟨addr,data,rest,rfl⟩
  exact (hf b).mono fun _ events _ => ⟨addr,data,rest++events,rfl⟩

theorem emits_sendErase (addr : ℕ) :
    Emits Machine.log (sendErase bus addr) (fun _ events => Commanding events) := by
  refine (emits_inspect (Q := fun _ events => events=[]) fun _ => rfl).bind ?_
  rintro nor _ rfl
  split
  · refine Commanding.bind (emits_flashWriteRaw bus _ _) fun _ => ?_
    refine Commanding.bind (emits_flashWriteRaw bus _ _) fun _ => ?_
    refine Commanding.bind (emits_flashWriteRaw bus _ _) fun _ => ?_
    refine Commanding.bind (emits_flashWriteRaw bus _ _) fun _ => ?_
    exact Commanding.bind (emits_flashWriteRaw bus _ _) fun _ => emits_flashWriteRaw bus _ _
  · refine Commanding.bind (emits_flashWriteCmd bus _ _) fun _ => ?_
    refine Commanding.bind (emits_flashWriteCmd bus _ _) fun _ => ?_
    refine Commanding.bind (emits_flashWriteCmd bus _ _) fun _ => ?_
    refine Commanding.bind (emits_flashWriteCmd bus _ _) fun _ => ?_
    refine Commanding.bind (emits_flashWriteCmd bus _ _) fun _ => ?_
    exact Commanding.bind (emits_flashWriteCmd bus _ _) fun _ => emits_flashWriteCmd bus _ _

/-- Whatever follows, a broken discipline stays broken. -/
theorem kept_append {log events : List BusEvent} (h : (discipline log).kept=false) :
    (discipline (log++events)).kept=false := by
  induction events generalizing log with
  | nil => rwa [List.append_nil]
  | cons event events ih =>
    have hnext : (discipline (log++[event])).kept=false := by
      rw [discipline_snoc]
      exact Discipline.kept_next h
    simpa using ih hnext

/-- A command during a background erase breaks the discipline. -/
theorem broken_of_commanding {s t : Machine σ} {addr : ℕ} {events : List BusEvent}
    (hwaiting : Waiting addr s) (h : Commanding events) (hlog : t.log=s.log++events) :
    Broken t := by
  obtain ⟨at',data,rest,rfl⟩ := h
  have hfirst : (discipline (s.log++[.write at' data])).kept=false := by
    rw [discipline_snoc,hwaiting]
    rfl
  have hall : (discipline (s.log++[.write at' data]++rest)).kept=false := kept_append hfirst
  unfold Broken
  rw [hlog]
  simpa using hall

/-- Starting a background erase while one is outstanding disturbs it. -/
theorem startPreErase_waiting {s : Machine σ} {erased : ℕ} (hwaiting : Waiting erased s)
    (nor : NorState) (addr : ℕ) :
    wp (startPreErase bus addr) (fun _ t => Broken t) (fun _ => False)
      {s with nor := nor} := by
  unfold startPreErase setNor preEraseSector mark
  rw [wp_bind,wp_update]
  refine wp_seq (emits_sendErase bus addr _) ?_
  rintro _ t ⟨events,hlog,hevents⟩
  rw [wp_update]
  have hbroken := broken_of_commanding (s := s) hwaiting hevents hlog
  unfold Broken at hbroken ⊢
  exact kept_append hbroken

/-- A background erase is disturbed, or it is outstanding and the driver does not
know of it. -/
def Violated (s : Machine σ) : Prop :=
  Broken s ∨ ((discipline s.log).outstanding.isSome=true ∧ s.nor.preEraseActive=false)

/-- Resetting the driver over a background erase violates the discipline. -/
theorem runCall_violated {s : Machine σ} (h : Coherent s) (fuel : ℕ) (call : NorCall)
    (hG : ¬Unhurried ⟨s,true⟩ (call,fuel)) :
    wp (runCall bus fuel call) (fun _ t => Violated t) (fun _ => False) s := by
  have hforget : ∀ {nor : NorState},Waiting s.nor.preErasedAddr s →
      nor.preEraseActive=false → Violated {s with nor := nor} := by
    intro nor hwaiting hnone
    refine Or.inr ⟨?_,hnone⟩
    rw [hwaiting]
    rfl
  cases call with
  | probe => exact absurd trivial hG
  | writeStream offset src => exact absurd trivial hG
  | flush => exact absurd trivial hG
  | invalidate =>
    rcases h with ⟨hnone,-⟩ | ⟨-,hwaiting,-⟩
    · exact absurd hnone hG
    · exact hforget hwaiting rfl
  | setWriteSize size =>
    have hG : ¬(size≤0xffffffff → s.nor.preEraseActive=false) := hG
    push Not at hG
    obtain ⟨hsize,hactive⟩ := hG
    rcases h with ⟨hnone,-⟩ | ⟨-,hwaiting,-,-,hvalid,-⟩
    · exact absurd hnone hactive
    · dsimp only [runCall]
      unfold clCartNorSetWriteSize setNor
      rw [wp_bind,if_neg (UInt64.not_lt.mpr hsize),wp_bind,wp_update]
      split
      · exact hforget hwaiting rfl
      · rw [wp_bind]
        refine clCartNorProbe_valid bus hvalid ?_
        split
        · exact hforget hwaiting rfl
        · split
          · exact hforget hwaiting rfl
          · split
            · refine wp_seq (startPreErase_waiting bus hwaiting _ 0) ?_
              exact fun _ _ hbroken => Or.inl hbroken
            · exact hforget hwaiting rfl

end Calls

section Runs

variable (bus : Bus σ)

/-- After a call that returned, the driver is coherent. -/
def Settled (s : CallState σ) : Prop := s.returned=true → Coherent s.machine

/-- A coherent driver respects the discipline. -/
theorem Coherent.respected {s : Machine σ} (h : Coherent s) : Respected ⟨s,true⟩ := by
  refine ⟨h.kept,fun _ hsome => ?_⟩
  rcases h with ⟨-,hidle⟩ | ⟨hactive,-⟩
  · dsimp only at hsome
    rw [hidle] at hsome
    contradiction
  · exact hactive

theorem Violated.not_respected {s : Machine σ} (h : Violated s) : ¬Respected ⟨s,true⟩ := by
  rintro ⟨hkept,hknown⟩
  rcases h with hbroken | ⟨hsome,hnone⟩
  · unfold Broken at hbroken
    dsimp only at hkept
    rw [hbroken] at hkept
    contradiction
  · have hactive := hknown rfl hsome
    dsimp only at hactive
    rw [hnone] at hactive
    contradiction

/-- What a call under the condition leads to. -/
theorem callStep_unhurried {s t : CallState σ} {action : NorCall×ℕ} (hI : Settled s)
    (hG : Unhurried s action) (hstep : callStep bus s action=some t) :
    Respected t ∧ Settled t := by
  unfold callStep at hstep
  split at hstep
  next hreturned =>
    cases hstep
    have hrun := runCall_coherent bus (hI hreturned) action.2 action.1 hG
    unfold wp at hrun
    rcases hresult : runCall bus action.2 action.1 s.machine with ⟨_ | _,m⟩
    · rw [hresult] at hrun
      exact ⟨⟨hrun,fun h => by contradiction⟩,fun h => by contradiction⟩
    · rw [hresult] at hrun
      exact ⟨Coherent.respected hrun,fun _ => hrun⟩
  next => contradiction

/-- What any other call leads to. -/
theorem callStep_hasty {s t : CallState σ} {action : NorCall×ℕ} (hI : Settled s)
    (hG : ¬Unhurried s action) (hstep : callStep bus s action=some t) : ¬Respected t := by
  unfold callStep at hstep
  split at hstep
  next hreturned =>
    cases hstep
    have hrun := runCall_violated bus (hI hreturned) action.2 action.1 hG
    obtain ⟨_,m,hresult,hviolated⟩ := wp_total hrun
    rw [hresult]
    exact hviolated.not_respected
  next => contradiction

/-- In a run of calls the discipline is respected in every state exactly if no call
resets the driver over a background erase that it knows of. -/
theorem respected_always_iff {chip : σ} {trace : List (CallState σ×(NorCall×ℕ))}
    {last : CallState σ} (run : Run (callStep bus) (initialCalls chip) trace last) :
    Always Respected trace last ↔ EveryStep Unhurried trace := by
  have hstart : Coherent (initialCalls chip).machine := Or.inl ⟨rfl,rfl⟩
  refine run.always_iff_everyStep_of_safe (I := Settled) (fun _ => hstart)
    hstart.respected ?_ ?_
  · intro s action t hI _ hstep hrespected
    by_cases hG : Unhurried s action
    · exact (callStep_unhurried bus hI hG hstep).2
    · exact absurd hrespected (callStep_hasty bus hI hG hstep)
  · intro s action t hI _ hstep
    constructor
    · intro hrespected
      by_contra hG
      exact callStep_hasty bus hI hG hstep hrespected
    · intro hG
      exact (callStep_unhurried bus hI hG hstep).1

end Runs

/-- What a small chip with two sectors answers: its CFI tables. -/
def sampleTable (index : ℕ) : UInt16 :=
  if index=0x10 then 0x51
  else if index=0x11 then 0x52
  else if index=0x12 then 0x59
  else if index=0x27 then 9
  else if index=0x2c then 1
  else if index=0x2d then 1
  else if index=0x2f then 1
  else if index<0x10 then 0xffff
  else 0

/-- A bus on which the chip is identified after the command for it. -/
def sampleBus : Bus Bool where
  read index identify :=
    (if identify=true ∧ index=0 then 0x0001 else sampleTable index,identify)
  write _ data _ := data=0x90

/-- What matters of a state here: whether the call returned, whether an erase is
outstanding, and whether the driver knows of it. -/
def glance (s : CallState σ) : Bool×Bool×Bool :=
  (s.returned,(discipline s.machine.log).outstanding.isSome,s.machine.nor.preEraseActive)

/-- A size is set, which erases the first sector in the background, and the driver
is reset before anything is written. -/
theorem hasty_run : ∃ trace last,
    Run (callStep sampleBus) (initialCalls false) trace last ∧ ¬Respected last := by
  have hview : (exec (callStep sampleBus) (initialCalls false)
      [(.setWriteSize 512,0),(.invalidate,0)]).map glance=some (true,true,false) := by
    decide +kernel
  obtain ⟨last,hlast,hglance⟩ := Option.map_eq_some_iff.mp hview
  obtain ⟨trace,run⟩ := Run.nil.exec hlast
  simp only [glance,Prod.mk.injEq] at hglance
  obtain ⟨hreturned,hsome,hnone⟩ := hglance
  refine ⟨trace,last,run,fun hrespected => ?_⟩
  exact Bool.false_ne_true (hnone.symm.trans (hrespected.2 hreturned hsome))

/-- The driver can forget a background erase that is outstanding. -/
theorem respected_fails : ¬∀ (σ : Type) (bus : Bus σ) (chip : σ)
    (trace : List (CallState σ×(NorCall×ℕ))) (last : CallState σ),
    Run (callStep bus) (initialCalls chip) trace last → Respected last := by
  intro hall
  obtain ⟨trace,last,run,hbad⟩ := hasty_run
  exact hbad (hall Bool sampleBus false trace last run)

/-- That run contains a call that resets the driver over a background erase. -/
theorem respected_always_iff_hasty : ∃ trace last,
    Run (callStep sampleBus) (initialCalls false) trace last ∧
      ¬EveryStep Unhurried trace := by
  obtain ⟨trace,last,run,hbad⟩ := hasty_run
  exact ⟨trace,last,run,fun hall => hbad ((respected_always_iff sampleBus run).mpr hall).2⟩

end ChisLink.CartNorErase
