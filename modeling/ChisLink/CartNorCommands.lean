import Mathlib.Tactic.IntervalCases
import ChisLink.NorFlashChip

/-!
# What the NOR driver does to a chip

For a chip of the command set and wiring that the driver was told, each function
of the driver is described by the operations that the chip carries out. A chip
that is still busy with an erase ignores the commands of another one; the wait
that follows then ends with the erase before.
-/

namespace ChisLink.CartNorCommands

open ErasableMemory DriverPrograms CartNorDriver NorFlashChip

variable {α β : Type}

/-- From a chip and the variables of the driver, whatever the record: if the program
returns, result, chip and variables have the property. -/
def After (p : Prog (Machine NorChip) α) (c : NorChip) (nor : NorState)
    (Q : α → NorChip → NorState → Prop) : Prop :=
  ∀ log,wp p (fun a t => Q a t.chip t.nor) (fun _ => True) ⟨c,nor,log⟩

section Rules

variable {c : NorChip} {nor : NorState} {Q R : α → NorChip → NorState → Prop}

theorem After.of_wp {p : Prog (Machine NorChip) α}
    (h : ∀ log,wp p (fun a t => Q a t.chip t.nor) (fun _ => True) ⟨c,nor,log⟩) :
    After p c nor Q := h

theorem After.wp {p : Prog (Machine NorChip) α} (h : After p c nor Q) (log : List BusEvent) :
    wp p (fun a t => Q a t.chip t.nor) (fun _ => True) ⟨c,nor,log⟩ := h log

theorem after_pure {a : α} (h : Q a c nor) : After (pure a) c nor Q := fun _ => h

theorem After.mono {p : Prog (Machine NorChip) α} (h : After p c nor Q)
    (hQ : ∀ a c' nor',Q a c' nor' → R a c' nor') : After p c nor R :=
  fun log => wp_post (h log) (fun a t ha => hQ a t.chip t.nor ha)

theorem After.and {p : Prog (Machine NorChip) α} (h : After p c nor Q) (h' : After p c nor R) :
    After p c nor (fun a c' nor' => Q a c' nor' ∧ R a c' nor') :=
  fun log => wp_mono (wp_and (h log) (h' log)) (fun _ _ h => h) (fun _ _ => trivial)

theorem After.bind {p : Prog (Machine NorChip) β} {f : β → Prog (Machine NorChip) α}
    {P : β → NorChip → NorState → Prop} (hp : After p c nor P)
    (hf : ∀ b c' nor',P b c' nor' → After (f b) c' nor' Q) : After (p >>= f) c nor Q := by
  intro log
  exact wp_seq (hp log) (fun b t hb => hf b t.chip t.nor hb t.log)

theorem after_getNor {f : NorState → Prog (Machine NorChip) α} (h : After (f nor) c nor Q) :
    After (getNor >>= f) c nor Q :=
  fun log => h log

theorem after_setNor {f : Unit → Prog (Machine NorChip) α} {g : NorState → NorState}
    (h : After (f ()) c (g nor) Q) : After (setNor g >>= f) c nor Q :=
  fun log => h log

theorem after_mark {f : Unit → Prog (Machine NorChip) α} {event : BusEvent}
    (h : After (f ()) c nor Q) : After (mark event >>= f) c nor Q :=
  fun log => h (log++[event])

theorem after_mark_last {event : BusEvent} {R : Unit → NorChip → NorState → Prop}
    (h : R () c nor) : After (mark event) c nor R :=
  fun _ => h

/-- The loop rule for a chip and variables. -/
theorem after_poll {body : Prog (Machine NorChip) (Option α)}
    {I : NorChip → NorState → Prop} (fuel : ℕ)
    (hbody : ∀ c' nor',I c' nor' → After body c' nor' (fun r c'' nor'' => match r with
      | some a => Q a c'' nor''
      | none => I c'' nor''))
    (hI : I c nor) : After (poll body fuel) c nor Q := by
  intro log
  refine wp_poll (I := fun t => I t.chip t.nor) ?_ (fun _ _ => trivial) fuel hI
  intro t ht
  refine wp_post (hbody t.chip t.nor ht t.log) ?_
  intro r u hu
  cases r <;> exact hu

end Rules

variable (cfg : ChipConfig)

/-- The driver knows the command set and the wiring of the chip. -/
def Matched (nor : NorState) : Prop :=
  nor.isIntel=cfg.intel ∧ nor.swapD0d1=cfg.swapped

theorem swapLines_swapLines (data : UInt16) : swapLines (swapLines data)=data := by
  unfold swapLines
  apply UInt16.toBitVec_inj.mp
  ext i hi
  simp
  interval_cases i <;> simp

/-- A command that crosses the lines twice is what it was. -/
@[simp] theorem viaLines_viaLines (swapped : Bool) (data : UInt16) :
    viaLines swapped (viaLines swapped data)=data := by
  cases swapped
  · rfl
  · exact swapLines_swapLines data

theorem viaLines_of_plain {data : UInt16} (h : swapLines data=data) (swapped : Bool) :
    viaLines swapped data=data := by
  cases swapped
  · rfl
  · exact h

/-- The raw commands for the Intel command set are the same behind swapped lines. -/
theorem viaLines_plain (swapped : Bool) :
    viaLines swapped 0x50=0x50 ∧ viaLines swapped 0xff=0xff ∧ viaLines swapped 0x60=0x60 ∧
      viaLines swapped 0xd0=0xd0 ∧ viaLines swapped 0x20=0x20 := by
  cases swapped <;> decide

/-- The status commands do not ask for the write buffer. -/
theorem bufferCommand_ne :
    (0x50 : UInt16)≠cfg.bufferCommand := by
  rcases cfg.bufferCommand_eq with h | h <;> rw [h] <;> decide

section Accesses

variable {cfg} {c : NorChip} {nor : NorState} {Q : α → NorChip → NorState → Prop}

theorem after_raw {f : Unit → Prog (Machine NorChip) α} {addr : ℕ} {data : UInt16}
    (h : After (f ()) (chipWrite cfg (addr/2) data c) nor Q) :
    After (flashWriteRaw (chipBus cfg) addr data >>= f) c nor Q := by
  intro log
  rw [wp_bind]
  exact h (log++[.write addr data])

theorem after_raw_last {addr : ℕ} {data : UInt16} {R : Unit → NorChip → NorState → Prop}
    (h : R () (chipWrite cfg (addr/2) data c) nor) :
    After (flashWriteRaw (chipBus cfg) addr data) c nor R :=
  fun _ => h

theorem after_cmd {f : Unit → Prog (Machine NorChip) α} {addr : ℕ} {cmd : UInt16}
    (hm : Matched cfg nor)
    (h : After (f ()) (chipWrite cfg (addr/2) (viaLines cfg.swapped cmd) c) nor Q) :
    After (flashWriteCmd (chipBus cfg) addr cmd >>= f) c nor Q := by
  rw [← hm.2] at h
  intro log
  rw [wp_bind]
  exact h (log++[.write addr (viaLines nor.swapD0d1 cmd)])

theorem after_cmd_last {addr : ℕ} {cmd : UInt16} {R : Unit → NorChip → NorState → Prop}
    (hm : Matched cfg nor)
    (h : R () (chipWrite cfg (addr/2) (viaLines cfg.swapped cmd) c) nor) :
    After (flashWriteCmd (chipBus cfg) addr cmd) c nor R := by
  rw [← hm.2] at h
  exact fun _ => h

theorem after_read {f : UInt16 → Prog (Machine NorChip) α} {addr : ℕ}
    (hm : Matched cfg nor)
    (h : After (f (viaLines cfg.swapped (chipRead cfg (addr/2) c).1))
      (chipRead cfg (addr/2) c).2 nor Q) :
    After (flashReadCmd (chipBus cfg) addr >>= f) c nor Q := by
  rw [← hm.2] at h
  intro log
  rw [wp_bind]
  exact h (log++[.read addr])

end Accesses

attribute [irreducible] After

section Writes

variable {cfg} {c : NorChip} {index : ℕ} {cmd : UInt16}

/-- A busy chip ignores what is written. -/
theorem chipWrite_busy (h : 0<c.busy) (data : UInt16) : chipWrite cfg index data c=c :=
  if_pos h

/-- A command for a chip with the AMD command set. -/
theorem chipWrite_amd (hintel : cfg.intel=false) (h : c.busy=0) :
    chipWrite cfg index (viaLines cfg.swapped cmd) c=
      c.amdWrite cfg index cmd (viaLines cfg.swapped cmd) := by
  unfold chipWrite
  rw [if_neg (by omega),hintel,viaLines_viaLines]
  rfl

/-- Both unlock cycles. -/
theorem chipWrite_unlock (hintel : cfg.intel=false) (h : c.busy=0) (hmode : c.mode=.array) :
    chipWrite cfg (0x555/2) (viaLines cfg.swapped 0x55)
      (chipWrite cfg (0xaaa/2) (viaLines cfg.swapped 0xaa) c)={c with mode := .unlock2} := by
  simp [chipWrite,hintel,h,NorChip.amdWrite,hmode]

/-- A command for a chip with the Intel command set. -/
theorem chipWrite_intel (hintel : cfg.intel=true) (h : c.busy=0) :
    chipWrite cfg index (viaLines cfg.swapped cmd) c=
      c.intelWrite cfg index cmd (viaLines cfg.swapped cmd) := by
  unfold chipWrite
  rw [if_neg (by omega),hintel,viaLines_viaLines]
  rfl

/-- A command that the lines do not change. -/
theorem chipWrite_intel_plain (hintel : cfg.intel=true) (h : c.busy=0)
    (hplain : swapLines cmd=cmd) :
    chipWrite cfg index cmd c=c.intelWrite cfg index cmd cmd := by
  have hwrite := @chipWrite_intel cfg c index cmd hintel h
  rw [viaLines_of_plain hplain] at hwrite
  exact hwrite

end Writes

/-- Between the calls: reading the array or, with the Intel command set, the status;
or busy with an erase. -/
def Calm (c : NorChip) : Prop :=
  (c.busy=0 ∧ (c.mode=.array ∨ (cfg.intel=true ∧ c.mode=.status))) ∨
    (0<c.busy ∧ c.mode=cfg.doneMode ∧ c.pending=0)

/-- After an erase was started: its status is read. -/
def Erasing (c : NorChip) : Prop := c.mode=cfg.doneMode ∧ (0<c.busy → c.pending=0)

/-- Not busy, and reading the array or the status. -/
def Ready (c : NorChip) : Prop :=
  c.busy=0 ∧ (c.mode=.array ∨ (cfg.intel=true ∧ c.mode=.status))

/-- The chip went from one state to another by these operations on its array. -/
def Performed (c d : NorChip) (ops : List (MemoryOp UInt16)) : Prop :=
  d.ops=c.ops++ops ∧ d.cells=replay cfg.geometry.blocks norCell ops c.cells

variable {cfg} {c : NorChip} {nor : NorState}

theorem Performed.refl : Performed cfg c c [] := ⟨(List.append_nil _).symm,rfl⟩

theorem Performed.trans {d e : NorChip} {first second : List (MemoryOp UInt16)}
    (h : Performed cfg c d first) (h' : Performed cfg d e second) :
    Performed cfg c e (first++second) := by
  refine ⟨?_,?_⟩
  · rw [h'.1,h.1,List.append_assoc]
  · rw [h'.2,h.2,replay_append]

/-- An erase that a ready chip is told is begun. -/
theorem after_sendErase_ready (hm : Matched cfg nor) (hc : Ready cfg c) (addr : ℕ) :
    After (sendErase (chipBus cfg) addr) c nor
      (fun _ c' nor' => c'=c.erase cfg (addr/2) ∧ nor'=nor) := by
  obtain ⟨hbusy,hmode⟩ := hc
  unfold sendErase
  refine after_getNor ?_
  rw [hm.1]
  cases hintel : cfg.intel with
  | true =>
    rw [if_pos rfl]
    refine after_raw ?_
    refine after_raw ?_
    refine after_raw ?_
    refine after_raw ?_
    refine after_raw ?_
    refine after_raw_last ?_
    rcases hmode with hmode | ⟨-,hmode⟩
    · simp [chipWrite,hintel,hbusy,NorChip.intelWrite,NorChip.intelCommand,hmode,
        viaLines_plain,bufferCommand_ne]
      rfl
    · simp [chipWrite,hintel,hbusy,NorChip.intelWrite,NorChip.intelCommand,hmode,
        viaLines_plain,bufferCommand_ne]
      rfl
  | false =>
    rw [if_neg (by decide)]
    have harray : c.mode=.array := by
      rcases hmode with h | ⟨h,-⟩
      · exact h
      · rw [hintel] at h
        contradiction
    refine after_cmd hm ?_
    refine after_cmd hm ?_
    refine after_cmd hm ?_
    refine after_cmd hm ?_
    refine after_cmd hm ?_
    refine after_cmd hm ?_
    refine after_cmd_last hm ?_
    simp [chipWrite,hintel,hbusy,NorChip.amdWrite,harray]
    rfl

/-- A chip that is busy ignores the commands of an erase. -/
theorem after_sendErase_busy (hm : Matched cfg nor) (hbusy : 0<c.busy) (addr : ℕ) :
    After (sendErase (chipBus cfg) addr) c nor (fun _ c' nor' => c'=c ∧ nor'=nor) := by
  unfold sendErase
  refine after_getNor ?_
  split
  · refine after_raw ?_
    refine after_raw ?_
    refine after_raw ?_
    refine after_raw ?_
    refine after_raw ?_
    refine after_raw_last ?_
    simp [chipWrite,hbusy]
  · refine after_cmd hm ?_
    refine after_cmd hm ?_
    refine after_cmd hm ?_
    refine after_cmd hm ?_
    refine after_cmd hm ?_
    refine after_cmd hm ?_
    refine after_cmd_last hm ?_
    simp [chipWrite,hbusy]

/-- Whether or not the chip is busy: it is erasing afterwards, and the sector was
erased exactly if it was not busy before. -/
theorem after_sendErase (hm : Matched cfg nor) (hc : Calm cfg c) (addr : ℕ) :
    After (sendErase (chipBus cfg) addr) c nor
      (fun _ c' nor' => Erasing cfg c' ∧ nor'=nor ∧
        Performed cfg c c' (if c.busy=0 then [.erase (cfg.sector (addr/2))] else [])) := by
  rcases hc with hready | ⟨hbusy,hmode,hpending⟩
  · refine (after_sendErase_ready hm hready addr).mono ?_
    rintro _ _ _ ⟨rfl,rfl⟩
    rw [if_pos hready.1]
    exact ⟨⟨rfl,fun _ => rfl⟩,rfl,rfl,rfl⟩
  · refine (after_sendErase_busy hm hbusy addr).mono ?_
    rintro _ _ _ ⟨rfl,rfl⟩
    rw [if_neg (by omega)]
    exact ⟨⟨hmode,fun _ => hpending⟩,rfl,Performed.refl⟩

/-- After a reset a ready chip reads the array. -/
theorem after_flashReset (hm : Matched cfg nor) (hc : Ready cfg c) :
    After (flashReset (chipBus cfg)) c nor
      (fun _ c' nor' => c'={c with mode := .array} ∧ nor'=nor) := by
  obtain ⟨hbusy,hmode⟩ := hc
  unfold flashReset flashResetMode
  refine after_getNor ?_
  rw [hm.1]
  cases hintel : cfg.intel with
  | true =>
    rw [if_pos rfl]
    refine after_raw ?_
    refine after_raw_last ?_
    rcases hmode with hmode | ⟨-,hmode⟩
    · simp [chipWrite,hintel,hbusy,NorChip.intelWrite,NorChip.intelCommand,hmode,
        viaLines_plain,bufferCommand_ne]
    · simp [chipWrite,hintel,hbusy,NorChip.intelWrite,NorChip.intelCommand,hmode,
        viaLines_plain,bufferCommand_ne]
  | false =>
    rw [if_neg (by decide)]
    have harray : c.mode=.array := by simpa [hintel] using hmode
    refine after_cmd_last hm ?_
    simp [chipWrite,hintel,hbusy,NorChip.amdWrite,harray]

/-- Data polling ends when the chip is no longer busy, if its status differs from the
expected one in D7 and shows no failure. -/
theorem after_amdPoll (hm : Matched cfg nor) (hmode : c.mode=.array) {expected : UInt16}
    (hpending : 0<c.busy → sameD7 c.pending expected=false ∧ c.pending &&& 0x20=0)
    (fuel addr : ℕ) :
    After (amdPoll (chipBus cfg) fuel addr expected) c nor
      (fun _ c' nor' => c'={c with busy := 0} ∧ nor'=nor) := by
  unfold amdPoll
  refine after_poll (I := fun c' nor' =>
    ∃ busy,c'={c with busy := busy} ∧ (0<busy → 0<c.busy) ∧ nor'=nor) fuel ?_
    ⟨c.busy,rfl,fun h => h,rfl⟩
  rintro c' nor' ⟨busy,hc,hsince,hnor⟩
  rw [hc,hnor]
  clear hc hnor
  unfold amdPollRound
  refine after_read hm ?_
  rcases Nat.eq_zero_or_pos busy with hzero | hpos
  · subst hzero
    -- a ready chip answers with the array; whatever it is, the chip stays as it is
    have hread : ∀ index,(chipRead cfg index {c with busy := 0}).2={c with busy := 0} := by
      intro index
      simp [chipRead,hmode]
    have hagain : ∀ (Q : Bool → NorChip → NorState → Prop),
        (∀ b,Q b {c with busy := 0} nor) →
        After (readSameD7 (chipBus cfg) addr expected) {c with busy := 0} nor Q := by
      intro Q hQ
      unfold readSameD7
      refine after_read hm ?_
      rw [hread]
      exact after_pure (hQ _)
    rw [hread]
    refine After.bind (P := fun _ c' nor' => c'={c with busy := 0} ∧ nor'=nor) ?_ ?_
    · unfold confirmD7
      split
      · exact hagain _ fun _ => ⟨rfl,rfl⟩
      · exact after_pure ⟨rfl,rfl⟩
    · rintro agreed _ nor ⟨rfl,rfl⟩
      split
      · exact after_pure ⟨rfl,rfl⟩
      · split
        · refine After.bind (hagain (fun _ c' nor' => c'={c with busy := 0} ∧ nor'=nor)
            fun _ => ⟨rfl,rfl⟩) ?_
          rintro done _ nor ⟨rfl,rfl⟩
          exact after_pure ⟨rfl,rfl⟩
        · exact after_pure ⟨0,rfl,hsince,rfl⟩
  · obtain ⟨hdiffers,hno⟩ := hpending (hsince hpos)
    have hread : chipRead cfg (addr/2) {c with busy := busy}=
        (viaLines cfg.swapped c.pending,{c with busy := busy-1}) := if_pos hpos
    rw [hread,viaLines_viaLines]
    unfold confirmD7
    rw [hdiffers]
    refine After.bind (P := fun b c' nor' => b=false ∧ c'={c with busy := busy-1} ∧ nor'=nor)
      (after_pure ⟨rfl,rfl,rfl⟩) ?_
    rintro _ _ nor ⟨rfl,rfl,rfl⟩
    rw [if_neg (by decide),if_neg (not_not_intro hno)]
    exact after_pure ⟨busy-1,rfl,fun _ => hsince hpos,rfl⟩

/-- Status polling ends when the chip is no longer busy, with a status without errors. -/
theorem after_waitIntelReady (hm : Matched cfg nor) (hintel : cfg.intel=true)
    (hmode : c.mode=.status) (hpending : 0<c.busy → c.pending=0) (fuel addr : ℕ)
    {command : UInt16} (hcommand : command=0 ∨ command=0x70) :
    After (waitIntelReady (chipBus cfg) fuel addr command) c nor
      (fun status c' nor' => status=0x80 ∧ c'={c with busy := 0} ∧ nor'=nor) := by
  unfold waitIntelReady
  refine after_poll (I := fun c' nor' =>
    ∃ busy,c'={c with busy := busy} ∧ (0<busy → 0<c.busy) ∧ nor'=nor) fuel ?_
    ⟨c.busy,rfl,fun h => h,rfl⟩
  rintro c' nor' ⟨busy,hc,hsince,hnor⟩
  rw [hc,hnor]
  clear hc hnor
  unfold intelPollRound
  refine After.bind (P := fun _ c' nor' => c'={c with busy := busy} ∧ nor'=nor) ?_ ?_
  · unfold pollCommand
    rcases hcommand with rfl | rfl
    · exact after_pure ⟨rfl,rfl⟩
    · rw [if_pos (by decide)]
      refine after_cmd_last hm ⟨?_,rfl⟩
      rcases Nat.eq_zero_or_pos busy with rfl | hpos
      · simp [chipWrite,hintel,NorChip.intelWrite,NorChip.intelCommand,hmode]
      · exact chipWrite_busy hpos _
  · rintro _ _ nor ⟨rfl,rfl⟩
    refine after_read hm ?_
    rcases Nat.eq_zero_or_pos busy with rfl | hpos
    · have hread : chipRead cfg (addr/2) {c with busy := 0}=
          (viaLines cfg.swapped 0x80,{c with busy := 0}) := by
        simp [chipRead,hmode,hintel]
      rw [hread,viaLines_viaLines]
      exact after_pure ⟨rfl,rfl,rfl⟩
    · have hread : chipRead cfg (addr/2) {c with busy := busy}=
          (viaLines cfg.swapped c.pending,{c with busy := busy-1}) := if_pos hpos
      rw [hread,viaLines_viaLines,hpending (hsince hpos)]
      exact after_pure ⟨busy-1,rfl,fun _ => hsince hpos,rfl⟩

/-- An erase, and the wait for it: the chip is ready, and the sector was erased exactly
if the chip was not busy before. -/
theorem after_eraseSector (hm : Matched cfg nor) (hc : Calm cfg c) (fuel addr : ℕ) :
    After (eraseSector (chipBus cfg) fuel addr) c nor
      (fun _ c' nor' => Ready cfg c' ∧ nor'=nor ∧
        Performed cfg c c' (if c.busy=0 then [.erase (cfg.sector (addr/2))] else [])) := by
  unfold eraseSector
  refine (after_sendErase hm hc addr).bind ?_
  rintro _ c' nor ⟨⟨hmode,hpending⟩,rfl,hops⟩
  refine after_getNor ?_
  rw [hm.1]
  cases hintel : cfg.intel with
  | true =>
    have hstatus : c'.mode=.status := by simpa [ChipConfig.doneMode,hintel] using hmode
    rw [if_pos rfl]
    refine (after_waitIntelReady hm hintel hstatus hpending fuel addr (Or.inl rfl)).bind ?_
    rintro _ _ nor ⟨rfl,rfl,rfl⟩
    refine (after_flashReset (c := {c' with busy := 0}) hm
      ⟨rfl,Or.inr ⟨hintel,hstatus⟩⟩).bind ?_
    rintro _ _ nor ⟨rfl,rfl⟩
    exact after_pure ⟨⟨rfl,Or.inl rfl⟩,rfl,hops⟩
  | false =>
    have harray : c'.mode=.array := by simpa [ChipConfig.doneMode,hintel] using hmode
    rw [if_neg (by decide)]
    unfold waitAmdErase amdFinish
    refine (after_amdPoll hm harray (fun h => ?_) fuel addr).bind ?_
    · rw [hpending h]
      decide
    · rintro _ _ nor ⟨rfl,rfl⟩
      refine (after_flashReset (c := {c' with busy := 0}) hm ⟨rfl,Or.inl harray⟩).bind ?_
      rintro _ _ nor ⟨rfl,rfl⟩
      exact after_pure ⟨⟨rfl,Or.inl rfl⟩,rfl,hops⟩

/-- The wait for a background erase: the chip is ready, and the driver forgets it. -/
theorem after_waitPreErased (hm : Matched cfg nor) (hc : Erasing cfg c) (fuel addr : ℕ) :
    After (waitPreErased (chipBus cfg) fuel addr) c nor
      (fun _ c' nor' => Ready cfg c' ∧ Performed cfg c c' [] ∧
        nor'={nor with preEraseActive := false,preErasedAddr := 0}) := by
  obtain ⟨hmode,hpending⟩ := hc
  unfold waitPreErased
  refine After.bind (P := fun _ c' nor' => Ready cfg c' ∧ Performed cfg c c' [] ∧ nor'=nor)
    ?_ ?_
  · unfold awaitErase
    refine after_getNor ?_
    rw [hm.1]
    cases hintel : cfg.intel with
    | true =>
      have hstatus : c.mode=.status := by simpa [ChipConfig.doneMode,hintel] using hmode
      rw [if_pos rfl]
      refine (after_waitIntelReady hm hintel hstatus hpending fuel addr (Or.inl rfl)).bind ?_
      rintro _ _ nor ⟨rfl,rfl,rfl⟩
      refine after_mark ?_
      exact after_pure ⟨⟨rfl,Or.inr ⟨hintel,hstatus⟩⟩,Performed.refl,rfl⟩
    | false =>
      have harray : c.mode=.array := by simpa [ChipConfig.doneMode,hintel] using hmode
      rw [if_neg (by decide)]
      refine (after_amdPoll hm harray (fun h => ?_) fuel addr).bind ?_
      · rw [hpending h]
        decide
      · rintro _ _ nor ⟨rfl,rfl⟩
        refine after_mark ?_
        unfold amdFinish
        refine (after_flashReset (c := {c with busy := 0}) hm ⟨rfl,Or.inl harray⟩).bind ?_
        rintro _ _ nor ⟨rfl,rfl⟩
        exact after_pure ⟨⟨rfl,Or.inl rfl⟩,Performed.refl,rfl⟩
  · rintro _ c' nor ⟨hready,hops,rfl⟩
    exact after_setNor (after_pure ⟨hready,hops,rfl⟩)

/-- While something is programmed, D7 is the complement of the data. -/
theorem programStatus_amd (hintel : cfg.intel=false) (data : UInt16) :
    sameD7 (cfg.programStatus data) data=false ∧ cfg.programStatus data &&& 0x20=0 := by
  unfold ChipConfig.programStatus sameD7
  rw [hintel,if_neg (by decide),decide_eq_false_iff_not]
  refine ⟨fun heq => ?_,?_⟩
  · have hbit := congrArg (fun d : UInt16 => d.toBitVec.getLsbD 7) heq
    simp at hbit
  · apply UInt16.toBitVec_inj.mp
    ext i hi
    simp
    interval_cases i <;> simp

/-- A chip that was told to program is ready after the wait. -/
theorem after_waitProgram_amd (hm : Matched cfg nor) (hintel : cfg.intel=false)
    {data : List (ℕ×UInt16)} {last : UInt16} (fuel addr : ℕ) :
    After (waitAmdProgram (chipBus cfg) fuel addr last) (c.program cfg data last) nor
      (fun _ c' nor' => Ready cfg c' ∧ nor'=nor ∧
        Performed cfg c c' (data.map fun d => .program d.1 d.2)) := by
  have harray : (c.program cfg data last).mode=.array := by
    simp [NorChip.program,NorChip.begin,ChipConfig.doneMode,hintel]
  unfold waitAmdProgram amdFinish
  refine (after_amdPoll hm harray (fun _ => programStatus_amd hintel last) fuel addr).bind ?_
  rintro _ _ nor ⟨rfl,rfl⟩
  refine (after_flashReset (c := {c.program cfg data last with busy := 0}) hm
    ⟨rfl,Or.inl harray⟩).bind ?_
  rintro _ _ nor ⟨rfl,rfl⟩
  exact after_pure ⟨⟨rfl,Or.inl rfl⟩,rfl,rfl,rfl⟩

/-- The same for the status polling, whatever the driver makes of the status. -/
theorem after_waitProgram_intel (hm : Matched cfg nor) (hintel : cfg.intel=true)
    {data : List (ℕ×UInt16)} {last : UInt16} (fuel addr : ℕ) {command : UInt16}
    (hcommand : command=0 ∨ command=0x70) {code : UInt16 → ℤ} :
    After (waitIntelReady (chipBus cfg) fuel addr command >>= fun status =>
        flashReset (chipBus cfg) >>= fun _ => pure (code status))
      (c.program cfg data last) nor
      (fun _ c' nor' => Ready cfg c' ∧ nor'=nor ∧
        Performed cfg c c' (data.map fun d => .program d.1 d.2)) := by
  have hstatus : (c.program cfg data last).mode=.status := by
    simp [NorChip.program,NorChip.begin,ChipConfig.doneMode,hintel]
  have hpending : (c.program cfg data last).pending=0 := by
    simp [NorChip.program,NorChip.begin,ChipConfig.programStatus,hintel]
  refine (after_waitIntelReady hm hintel hstatus (fun _ => hpending) fuel addr
    hcommand).bind ?_
  rintro _ _ nor ⟨rfl,rfl,rfl⟩
  refine (after_flashReset (c := {c.program cfg data last with busy := 0}) hm
    ⟨rfl,Or.inr ⟨hintel,hstatus⟩⟩).bind ?_
  rintro _ _ nor ⟨rfl,rfl⟩
  exact after_pure ⟨⟨rfl,Or.inl rfl⟩,rfl,rfl,rfl⟩

/-- One halfword is programmed. -/
theorem after_programWord (hm : Matched cfg nor) (hc : Ready cfg c) (fuel addr : ℕ)
    (data : UInt16) :
    After (programWord (chipBus cfg) fuel addr data) c nor
      (fun _ c' nor' => Ready cfg c' ∧ nor'=nor ∧
        Performed cfg c c' [.program (addr/2) data]) := by
  obtain ⟨hbusy,hmode⟩ := hc
  unfold programWord
  refine after_getNor ?_
  rw [hm.1]
  cases hintel : cfg.intel with
  | true =>
    rw [if_pos rfl]
    refine after_cmd hm ?_
    refine after_cmd hm ?_
    refine after_raw ?_
    have hprogram : chipWrite cfg (addr/2) data (chipWrite cfg (0/2)
        (viaLines cfg.swapped 0x10) (chipWrite cfg (0/2) (viaLines cfg.swapped 0x70) c))=
        c.program cfg [(addr/2,data)] data := by
      rcases hmode with hmode | ⟨-,hmode⟩
      · simp [chipWrite,hintel,hbusy,NorChip.intelWrite,NorChip.intelCommand,hmode]
        rfl
      · simp [chipWrite,hintel,hbusy,NorChip.intelWrite,NorChip.intelCommand,hmode]
        rfl
    rw [hprogram]
    exact after_waitProgram_intel hm hintel fuel addr (Or.inl rfl)
  | false =>
    have harray : c.mode=.array := by simpa [hintel] using hmode
    rw [if_neg (by decide)]
    refine after_cmd hm ?_
    refine after_cmd hm ?_
    refine after_cmd hm ?_
    refine after_raw ?_
    have hprogram : chipWrite cfg (addr/2) data (chipWrite cfg (0xaaa/2)
        (viaLines cfg.swapped 0xa0) (chipWrite cfg (0x555/2) (viaLines cfg.swapped 0x55)
        (chipWrite cfg (0xaaa/2) (viaLines cfg.swapped 0xaa) c)))=
        c.program cfg [(addr/2,data)] data := by
      simp [chipWrite,hintel,hbusy,NorChip.amdWrite,harray]
      rfl
    rw [hprogram]
    exact after_waitProgram_amd hm hintel fuel addr

/-- The halfwords that are loaded into the write buffer, with their indices. -/
def bufferData (addr : ℕ) (src : List UInt8) (i : ℕ) : ℕ → List (ℕ×UInt16)
  | 0 => []
  | words+1 => ((addr+i)/2,loadLe16OrFf src i)::bufferData addr src (i+2) words

/-- The last halfword of a buffer. -/
theorem getLastD_bufferData (addr : ℕ) (src : List UInt8) (i words : ℕ) :
    ((bufferData addr src i (words+1)).getLastD (0,0)).2=loadLe16OrFf src (i+2*words) := by
  induction words generalizing i with
  | zero => rfl
  | succ words ih =>
    have hrest := ih (i+2)
    have harith : i+2+2*words=i+2*(words+1) := by omega
    rw [harith] at hrest
    rw [← hrest]
    rfl

/-- The indices of a buffer are in the page of its first one. -/
theorem samePage_bufferData {addr : ℕ} {src : List UInt8} {page : ℕ}
    (haddr : addr/2=page*cfg.bufferWords) (heven : addr%2=0) {i : ℕ} (hi : i%2=0) {words : ℕ}
    (hwords : i/2+words≤ cfg.bufferWords) :
    ∀ d∈bufferData addr src i words,d.1/cfg.bufferWords=page := by
  induction words generalizing i with
  | zero => exact fun d hd => absurd hd (List.not_mem_nil)
  | succ words ih =>
    intro d hd
    rcases List.mem_cons.mp hd with rfl | hrest
    · have hsum : (addr+i)/2=i/2+page*cfg.bufferWords := by omega
      dsimp only
      rw [hsum,Nat.add_mul_div_right _ _ (by omega),Nat.div_eq_of_lt (by omega),Nat.zero_add]
    · exact ih (by omega) (by omega) d hrest

/-- The halfwords of a page fill the write buffer. -/
theorem after_loadBuffer {addr : ℕ} {src : List UInt8} {page : ℕ} {i words : ℕ}
    {loaded : List (ℕ×UInt16)} (hwords : 0<words) (hbusy : c.busy=0)
    (hmode : c.mode=.bufferLoad words loaded)
    (hloaded : ∀ d∈loaded,d.1/cfg.bufferWords=page)
    (hdata : ∀ d∈bufferData addr src i words,d.1/cfg.bufferWords=page) :
    After (loadBuffer (chipBus cfg) addr src i words) c nor
      (fun _ c' nor' => nor'=nor ∧
        c'={c with mode := .bufferConfirm (loaded++bufferData addr src i words)}) := by
  induction words generalizing i c loaded with
  | zero => omega
  | succ words ih =>
    have hfirst := hdata _ List.mem_cons_self
    have hall : loaded.all (fun d => cfg.samePage d.1 ((addr+i)/2))=true := by
      rw [List.all_eq_true]
      intro d hd
      simp [ChipConfig.samePage,hloaded d hd,hfirst]
    have hwrite : chipWrite cfg ((addr+i)/2) (loadLe16OrFf src i) c=
        c.load cfg (words+1) loaded ((addr+i)/2) (loadLe16OrFf src i) := by
      cases hintel : cfg.intel <;>
        simp [chipWrite,hbusy,hintel,NorChip.amdWrite,NorChip.intelWrite,hmode]
    unfold loadBuffer
    refine after_raw ?_
    rw [hwrite]
    unfold NorChip.load
    rw [if_pos hall]
    rcases Nat.eq_zero_or_pos words with hzero | hpos
    · subst hzero
      exact after_pure ⟨rfl,rfl⟩
    · rw [if_neg (by omega)]
      refine (ih (c := {c with
          mode := .bufferLoad words (loaded++[((addr+i)/2,loadLe16OrFf src i)])})
        hpos hbusy rfl ?_ ?_).mono ?_
      · intro d hd
        rcases List.mem_append.mp hd with hold | hnew
        · exact hloaded d hold
        · rw [List.mem_singleton.mp hnew]
          exact hfirst
      · exact fun d hd => hdata d (List.mem_cons_of_mem _ hd)
      · rintro _ _ nor ⟨rfl,rfl⟩
        rw [List.append_assoc]
        exact ⟨rfl,rfl⟩

/-- The driver asks for a write buffer of the size and with the command of the chip. -/
structure Buffered (nor : NorState) : Prop where
  /-- There is one. -/
  words_pos : 0<cfg.bufferWords
  /-- Its command. -/
  command : (if nor.probeCache.flashId &&& 0xffff≠0x88b0 then 0xe8 else 0xe9)=
    cfg.bufferCommand

/-- A number of halfwords that fits, less one, is understood. -/
theorem count_bufferWords (hpos : 0<cfg.bufferWords) :
    c.count cfg (UInt16.ofNat (cfg.bufferWords-1))=
      {c with mode := .bufferLoad cfg.bufferWords []} := by
  have hle := cfg.bufferWords_le
  have hnat : (UInt16.ofNat (cfg.bufferWords-1)).toNat+1=cfg.bufferWords := by
    rw [UInt16.toNat_ofNat_of_lt' (by unfold UInt16.size; omega)]
    omega
  unfold NorChip.count
  rw [hnat,if_pos (le_refl _)]

/-- The Intel command set grants the write buffer after a while. -/
theorem after_requestBuffer (hm : Matched cfg nor) (hintel : cfg.intel=true)
    (hc : Ready cfg c) (fuel addr : ℕ) :
    After (waitIntelReady (chipBus cfg) fuel addr cfg.bufferCommand) c nor
      (fun _ c' nor' => nor'=nor ∧ c'.busy=0 ∧ c'.mode=.bufferCount ∧
        Performed cfg c c' []) := by
  have hcommand : cfg.bufferCommand≠0 := by
    rcases cfg.bufferCommand_eq with h | h <;> rw [h] <;> decide
  unfold waitIntelReady
  refine after_poll (I := fun c' nor' => nor'=nor ∧ Performed cfg c c' [] ∧
    (Ready cfg c' ∨ (c'.mode=.bufferWait ∧ (0<c'.busy → c'.pending=0)))) fuel ?_
    ⟨rfl,Performed.refl,Or.inl hc⟩
  rintro c' nor ⟨rfl,hops,hstate⟩
  unfold intelPollRound
  refine After.bind (P := fun _ c'' nor'' => nor''=nor ∧ Performed cfg c c'' [] ∧
    c''.mode=.bufferWait ∧ (0<c''.busy → c''.pending=0)) ?_ ?_
  · unfold pollCommand
    rw [if_pos hcommand]
    refine after_cmd_last hm ?_
    rcases hstate with ⟨hbusy,hmode⟩ | ⟨hmode,hpending⟩
    · have hbegin : c'.intelCommand cfg cfg.bufferCommand=c'.begin cfg 0 .bufferWait := by
        unfold NorChip.intelCommand
        rcases cfg.bufferCommand_eq with h | h <;> rw [h] <;> rfl
      have hwrite : chipWrite cfg (addr/2) (viaLines cfg.swapped cfg.bufferCommand) c'=
          c'.begin cfg 0 .bufferWait := by
        rw [chipWrite_intel hintel hbusy,← hbegin]
        rcases hmode with hmode | ⟨-,hmode⟩ <;> simp [NorChip.intelWrite,hmode]
      rw [hwrite]
      exact ⟨rfl,hops,rfl,fun _ => rfl⟩
    · rcases Nat.eq_zero_or_pos c'.busy with hzero | hpos
      · have hwait : chipWrite cfg (addr/2) (viaLines cfg.swapped cfg.bufferCommand) c'=c' := by
          rw [chipWrite_intel hintel hzero]
          simp [NorChip.intelWrite,hmode]
        rw [hwait]
        exact ⟨rfl,hops,hmode,hpending⟩
      · rw [chipWrite_busy hpos]
        exact ⟨rfl,hops,hmode,hpending⟩
  · rintro _ d nor ⟨rfl,hops,hmode,hpending⟩
    refine after_read hm ?_
    rcases Nat.eq_zero_or_pos d.busy with hzero | hpos
    · have hread : chipRead cfg (addr/2) d=
          (viaLines cfg.swapped 0x80,{d with mode := .bufferCount}) := by
        simp [chipRead,hmode,hzero]
      rw [hread,viaLines_viaLines]
      exact after_pure ⟨rfl,hzero,rfl,hops⟩
    · have hread : chipRead cfg (addr/2) d=
          (viaLines cfg.swapped d.pending,{d with busy := d.busy-1}) := if_pos hpos
      rw [hread,viaLines_viaLines,hpending hpos]
      exact after_pure ⟨rfl,hops,Or.inr ⟨hmode,fun _ => rfl⟩⟩

/-- A page of the write buffer begins at an address. -/
theorem page_of_aligned {addr : ℕ} (h : addr%(2*cfg.bufferWords)=0) :
    addr%2=0 ∧ addr/2=addr/(2*cfg.bufferWords)*cfg.bufferWords := by
  have hdiv := Nat.div_add_mod addr (2*cfg.bufferWords)
  rw [h,Nat.add_zero,Nat.mul_assoc] at hdiv
  have hcomm := Nat.mul_comm cfg.bufferWords (addr/(2*cfg.bufferWords))
  omega

/-- A whole page is programmed through the write buffer. -/
theorem after_programBuffer (hm : Matched cfg nor) (hb : @Buffered cfg nor)
    (hc : Ready cfg c) {addr : ℕ} (haddr : addr%(2*cfg.bufferWords)=0) (fuel : ℕ)
    (src : List UInt8) :
    After (programBuffer (chipBus cfg) fuel addr src (2*cfg.bufferWords)) c nor
      (fun _ c' nor' => Ready cfg c' ∧ nor'=nor ∧ Performed cfg c c'
        ((bufferData addr src 0 cfg.bufferWords).map fun d => .program d.1 d.2)) := by
  have hpos := hb.words_pos
  obtain ⟨words,hwords⟩ : ∃ words,cfg.bufferWords=words+1 := ⟨cfg.bufferWords-1,by omega⟩
  obtain ⟨heven,hpage⟩ := page_of_aligned haddr
  have hcount : 2*cfg.bufferWords/2=cfg.bufferWords := by omega
  have hinside : 0/2+cfg.bufferWords≤ cfg.bufferWords := by omega
  have hdata : ∀ d∈bufferData addr src 0 cfg.bufferWords,
      d.1/cfg.bufferWords=addr/(2*cfg.bufferWords) :=
    samePage_bufferData hpage heven rfl hinside
  have hlast := getLastD_bufferData addr src 0 words
  have hoffset : 0+2*words=2*cfg.bufferWords-2 := by omega
  rw [← hwords,hoffset] at hlast
  -- the loading, in the words of the size of the buffer
  have hload : ∀ {d : NorChip} {nor : NorState},d.busy=0 →
      d.mode=.bufferLoad cfg.bufferWords [] →
      After (loadBuffer (chipBus cfg) addr src 0 cfg.bufferWords) d nor
        (fun _ d' nor' => nor'=nor ∧
          d'={d with mode := .bufferConfirm (bufferData addr src 0 cfg.bufferWords)}) := by
    intro d nor hdbusy hdmode
    exact after_loadBuffer hpos hdbusy hdmode (fun d hd => absurd hd (List.not_mem_nil)) hdata
  unfold programBuffer
  rw [hcount,if_neg (by omega)]
  refine after_getNor ?_
  rw [hm.1]
  cases hintel : cfg.intel with
  | true =>
    rw [if_pos rfl,hb.command]
    refine (after_requestBuffer hm hintel hc fuel addr).bind ?_
    rintro _ c₁ nor ⟨rfl,hbusy,hmode,hops⟩
    refine after_cmd hm ?_
    have hset : chipWrite cfg (addr/2) (viaLines cfg.swapped
        (UInt16.ofNat (cfg.bufferWords-1))) c₁=
        {c₁ with mode := .bufferLoad cfg.bufferWords []} := by
      rw [chipWrite_intel hintel hbusy,← count_bufferWords hpos]
      simp [NorChip.intelWrite,hmode]
    rw [hset]
    refine (hload (d := {c₁ with mode := .bufferLoad cfg.bufferWords []}) hbusy rfl).bind ?_
    rintro _ _ nor ⟨rfl,rfl⟩
    refine after_cmd hm ?_
    have hprogram : chipWrite cfg (addr/2) (viaLines cfg.swapped 0xd0)
        {c₁ with mode := .bufferConfirm (bufferData addr src 0 cfg.bufferWords)}=
        c₁.program cfg (bufferData addr src 0 cfg.bufferWords)
          (loadLe16OrFf src (2*cfg.bufferWords-2)) := by
      rw [chipWrite_intel (c := {c₁ with mode := .bufferConfirm _}) hintel hbusy,← hlast]
      rfl
    rw [hprogram]
    refine (after_waitProgram_intel hm hintel fuel addr (Or.inr rfl)).mono ?_
    rintro _ c₂ nor ⟨hready,rfl,hdone⟩
    exact ⟨hready,rfl,hops.trans hdone⟩
  | false =>
    obtain ⟨hbusy,hmode⟩ := hc
    have harray : c.mode=.array := by simpa [hintel] using hmode
    rw [if_neg (by decide)]
    refine after_cmd hm ?_
    refine after_cmd hm ?_
    refine after_cmd hm ?_
    refine after_cmd hm ?_
    have hset : chipWrite cfg (addr/2) (viaLines cfg.swapped
        (UInt16.ofNat (cfg.bufferWords-1))) (chipWrite cfg (addr/2)
        (viaLines cfg.swapped 0x25) (chipWrite cfg (0x555/2) (viaLines cfg.swapped 0x55)
        (chipWrite cfg (0xaaa/2) (viaLines cfg.swapped 0xaa) c)))=
        {c with mode := .bufferLoad cfg.bufferWords []} := by
      rw [chipWrite_unlock hintel hbusy harray,
        chipWrite_amd (c := {c with mode := .unlock2}) hintel hbusy]
      exact (chipWrite_amd (c := {c with mode := .bufferCount}) hintel hbusy).trans
        (count_bufferWords hpos)
    rw [hset]
    refine (hload (d := {c with mode := .bufferLoad cfg.bufferWords []}) hbusy rfl).bind ?_
    rintro _ _ nor ⟨rfl,rfl⟩
    refine after_cmd hm ?_
    have hprogram : chipWrite cfg (addr/2) (viaLines cfg.swapped 0x29)
        {c with mode := .bufferConfirm (bufferData addr src 0 cfg.bufferWords)}=
        c.program cfg (bufferData addr src 0 cfg.bufferWords)
          (loadLe16OrFf src (2*cfg.bufferWords-2)) := by
      rw [chipWrite_amd (c := {c with mode := .bufferConfirm _}) hintel hbusy,← hlast]
      rfl
    rw [hprogram]
    exact after_waitProgram_amd hm hintel fuel (addr+2*cfg.bufferWords-2)

end ChisLink.CartNorCommands
