import ChisLink.CartNorIdentification
import ChisLink.CartNorCommands

/-!
# Identifying a chip that is there

The words of the identification erase and program nothing. A chip that was found
is no longer busy when the identification is over: as long as it is busy with an
erase, all that is read are zeros, and these are taken for no chip.
-/

namespace ChisLink.CartNorProbe

open ErasableMemory DriverPrograms CartNorDriver NorFlashChip CartNorIdentification
open CartNorCommands

variable {α β : Type}

/-- The modes in which the words of the identification do no harm. -/
def isQuiet : ChipMode → Bool
  | .array | .status | .identifier | .query | .unlock1 | .unlock2 => true
  | _ => false

variable (cfg : ChipConfig)

/-- Nothing that the next words could complete: ready in a harmless mode, or busy with
an erase. -/
def Resting (c : NorChip) : Prop :=
  (c.busy=0 ∧ isQuiet c.mode=true) ∨ (0<c.busy ∧ c.mode=cfg.doneMode ∧ c.pending=0)

/-- Nothing was erased or programmed, and the chip is ready in a harmless mode, or busy
as it was all the time, with a fact that is known then. -/
structure Unharmed (c₀ : NorChip) (fact : Prop) (c : NorChip) : Prop where
  /-- The contents are the same. -/
  cells : c.cells=c₀.cells
  /-- There were no operations. -/
  ops : c.ops=c₀.ops
  /-- Ready or still busy. -/
  state : (c.busy=0 ∧ isQuiet c.mode=true) ∨
    (0<c.busy ∧ c.mode=cfg.doneMode ∧ c.pending=0 ∧ fact)

variable {cfg} {c₀ c : NorChip} {fact : Prop}

theorem isQuiet_doneMode : isQuiet cfg.doneMode=true := by
  unfold ChipConfig.doneMode
  split <;> rfl

theorem Resting.unharmed (h : Resting cfg c) : Unharmed cfg c True c := by
  refine ⟨rfl,rfl,?_⟩
  rcases h with h | ⟨hbusy,hmode,hpending⟩
  · exact Or.inl h
  · exact Or.inr ⟨hbusy,hmode,hpending,trivial⟩

theorem resting_of_calm (h : Calm cfg c) : Resting cfg c := by
  rcases h with ⟨hbusy,hmode⟩ | h
  · refine Or.inl ⟨hbusy,?_⟩
    rcases hmode with hmode | ⟨-,hmode⟩ <;> rw [hmode] <;> rfl
  · exact Or.inr h

theorem Unharmed.performed (h : Unharmed cfg c₀ fact c) : Performed cfg c₀ c [] :=
  ⟨by rw [h.ops,List.append_nil],h.cells⟩

theorem Unharmed.weaken {fact' : Prop} (h : Unharmed cfg c₀ fact c) (hfact : fact → fact') :
    Unharmed cfg c₀ fact' c := by
  refine ⟨h.cells,h.ops,?_⟩
  rcases h.state with hready | ⟨hbusy,hmode,hpending,hknown⟩
  · exact Or.inl hready
  · exact Or.inr ⟨hbusy,hmode,hpending,hfact hknown⟩

theorem isQuiet_of_eq {first second : ChipMode} (h : isQuiet first=true)
    (heq : first=second) : isQuiet second=true := heq ▸ h

section Writes

variable {index : ℕ} {cmd data : UInt16}

/-- Only three words lead out of the harmless modes of the AMD command set. -/
theorem amdWrite_quiet (hmode : isQuiet c.mode=true)
    (hcmd : cmd≠0x80 ∧ cmd≠0xa0 ∧ cmd≠0x25) :
    ∃ mode,isQuiet mode=true ∧ c.amdWrite cfg index cmd data={c with mode := mode} := by
  obtain ⟨h80,ha0,h25⟩ := hcmd
  unfold NorChip.amdWrite
  cases hcase : c.mode with
  | array | status =>
    dsimp only
    split
    · exact ⟨.unlock1,rfl,rfl⟩
    · split
      · exact ⟨.query,rfl,rfl⟩
      · exact ⟨.array,rfl,rfl⟩
  | identifier | query =>
    dsimp only
    split
    · exact ⟨.array,rfl,rfl⟩
    · exact ⟨c.mode,hmode,rfl⟩
  | unlock1 =>
    dsimp only
    split
    · exact ⟨.unlock2,rfl,rfl⟩
    · exact ⟨.array,rfl,rfl⟩
  | unlock2 =>
    simp only [h25,h80,ha0,if_false,and_false]
    split
    · exact ⟨.identifier,rfl,rfl⟩
    · exact ⟨.array,rfl,rfl⟩
  | _ =>
    exact absurd (isQuiet_of_eq hmode hcase) Bool.false_ne_true

/-- A word that does not set up an operation of the Intel command set. -/
theorem intelWrite_quiet (hmode : isQuiet c.mode=true)
    (hcmd : cmd≠0x60 ∧ cmd≠0x20 ∧ cmd≠0x10 ∧ cmd≠0x40) (hbuffer : cmd≠cfg.bufferCommand) :
    ∃ mode,isQuiet mode=true ∧ c.intelWrite cfg index cmd data={c with mode := mode} := by
  obtain ⟨h60,h20,h10,h40⟩ := hcmd
  have hcommand : c.intelWrite cfg index cmd data=c.intelCommand cfg cmd := by
    unfold NorChip.intelWrite
    cases hcase : c.mode with
    | array | status | identifier | query | unlock1 | unlock2 => rfl
    | _ =>
      exact absurd (isQuiet_of_eq hmode hcase) Bool.false_ne_true
  rw [hcommand]
  unfold NorChip.intelCommand
  simp only [h60,h20,h10,h40,hbuffer,if_false,or_false]
  split
  · exact ⟨.array,rfl,rfl⟩
  · split
    · exact ⟨.status,rfl,rfl⟩
    · split
      · exact ⟨.identifier,rfl,rfl⟩
      · split
        · exact ⟨.query,rfl,rfl⟩
        · exact ⟨c.mode,hmode,rfl⟩

/-- The words of the identification are of that kind, whatever the lines are. -/
theorem identifyWords_harmless (swapped : Bool) :
    ∀ word∈identifyWords,
      (viaLines swapped word≠0x80 ∧ viaLines swapped word≠0xa0 ∧
        viaLines swapped word≠0x25) ∧
      (viaLines swapped word≠0x60 ∧ viaLines swapped word≠0x20 ∧
        viaLines swapped word≠0x10 ∧ viaLines swapped word≠0x40) ∧
      viaLines swapped word≠0xe8 ∧ viaLines swapped word≠0xe9 := by
  rw [← List.forall_iff_forall_mem]
  cases swapped <;> decide

theorem chipWrite_quiet (hbusy : c.busy=0) (hmode : isQuiet c.mode=true)
    (hdata : data∈identifyWords) :
    ∃ mode,isQuiet mode=true ∧ chipWrite cfg index data c={c with mode := mode} := by
  obtain ⟨hamd,hintel,he8,he9⟩ := identifyWords_harmless cfg.swapped data hdata
  have hbuffer : viaLines cfg.swapped data≠cfg.bufferCommand := by
    rcases cfg.bufferCommand_eq with h | h <;> rw [h]
    · exact he8
    · exact he9
  unfold chipWrite
  rw [if_neg (by omega)]
  split
  · exact intelWrite_quiet hmode hintel hbuffer
  · exact amdWrite_quiet hmode hamd

end Writes

/-- A read of a chip that is ready in a harmless mode changes nothing. -/
theorem chipRead_quiet {index : ℕ} (hbusy : c.busy=0) (hmode : isQuiet c.mode=true) :
    (chipRead cfg index c).2=c := by
  unfold chipRead
  rw [if_neg (by omega)]
  cases hcase : c.mode with
  | array | identifier | query => rfl
  | status | unlock1 | unlock2 => cases hintel : cfg.intel <;> rfl
  | _ =>
    exact absurd (isQuiet_of_eq hmode hcase) Bool.false_ne_true

/-- Reads leave the chip unharmed. If it is busy even afterwards, the value was zero. -/
theorem Unharmed.chipRead (h : Unharmed cfg c₀ fact c) (index : ℕ) :
    Unharmed cfg c₀ (fact ∧ (chipRead cfg index c).1=0) (chipRead cfg index c).2 := by
  rcases h.state with ⟨hbusy,hmode⟩ | ⟨hbusy,hmode,hpending,hfact⟩
  · rw [chipRead_quiet hbusy hmode]
    exact ⟨h.cells,h.ops,Or.inl ⟨hbusy,hmode⟩⟩
  · have hread : NorFlashChip.chipRead cfg index c=
        (viaLines cfg.swapped c.pending,{c with busy := c.busy-1}) := if_pos hbusy
    have hzero : viaLines cfg.swapped 0=0 := viaLines_of_plain (by decide) cfg.swapped
    rw [hread,hpending,hzero]
    refine ⟨h.cells,h.ops,?_⟩
    rcases Nat.eq_zero_or_pos (c.busy-1) with hnow | hstill
    · refine Or.inl ⟨hnow,?_⟩
      dsimp only
      rw [hmode]
      exact isQuiet_doneMode
    · exact Or.inr ⟨hstill,hmode,rfl,hfact,rfl⟩

theorem Unharmed.chipWrite (h : Unharmed cfg c₀ fact c) (index : ℕ) {data : UInt16}
    (hdata : data∈identifyWords) : Unharmed cfg c₀ fact (chipWrite cfg index data c) := by
  rcases h.state with ⟨hbusy,hmode⟩ | hstate
  · obtain ⟨mode,hquiet,hwrite⟩ := @chipWrite_quiet cfg c index data hbusy hmode
      hdata
    rw [hwrite]
    exact ⟨h.cells,h.ops,Or.inl ⟨hbusy,hquiet⟩⟩
  · rw [chipWrite_busy hstate.1]
    exact h

/-- The words of the identification do no harm. -/
theorem undisturbed_unharmed (cfg : ChipConfig) (c₀ : NorChip) (fact : Prop) :
    Undisturbed (chipBus cfg) (fun s => Unharmed cfg c₀ fact s.chip) where
  read addr _ h := (h.chipRead (addr/2)).weaken And.left
  write addr _ hdata _ h := h.chipWrite (addr/2) hdata
  vars _ _ h := h

/-- A program leaves the chip unharmed and some variables alone; if the chip is busy even
afterwards, its result has a property. -/
def Finds (cfg : ChipConfig) (c₀ : NorChip) (I : NorState → Prop)
    (p : Prog (Machine NorChip) α) (zero : α → Prop) : Prop :=
  ∀ fact s,Unharmed cfg c₀ fact s.chip → I s.nor →
    wp p (fun a t => Unharmed cfg c₀ (fact ∧ zero a) t.chip ∧ I t.nor) (fun _ => True) s

/-- A program keeps the chip unharmed, whatever is known. -/
def Harmless (cfg : ChipConfig) (c₀ : NorChip) (I : NorState → Prop)
    (p : Prog (Machine NorChip) α) : Prop :=
  ∀ fact,Stays (fun s => Unharmed cfg c₀ fact s.chip) I p

section FindsRules

variable {I : NorState → Prop}

theorem finds_pure {a : α} {zero : α → Prop} (h : zero a) :
    Finds cfg c₀ I (pure a) zero :=
  fun _ _ hs hI => ⟨hs.weaken fun hfact => ⟨hfact,h⟩,hI⟩

theorem Finds.bind {p : Prog (Machine NorChip) β} {f : β → Prog (Machine NorChip) α}
    {zero : β → Prop} {zero' : α → Prop} (hp : Finds cfg c₀ I p zero)
    (hf : ∀ b,Finds cfg c₀ I (f b) fun a => zero b → zero' a) :
    Finds cfg c₀ I (p >>= f) zero' := by
  intro fact s hs hI
  refine wp_seq (hp fact s hs hI) ?_
  rintro b t ⟨ht,hIt⟩
  refine wp_post (hf b _ t ht hIt) ?_
  rintro a u ⟨hu,hIu⟩
  exact ⟨hu.weaken fun ⟨⟨hfact,hb⟩,ha⟩ => ⟨hfact,ha hb⟩,hIu⟩

/-- What a harmless program finds does not matter. -/
theorem Harmless.bind {p : Prog (Machine NorChip) β} {f : β → Prog (Machine NorChip) α}
    {zero : α → Prop} (hp : Harmless cfg c₀ I p)
    (hf : ∀ b,Finds cfg c₀ I (f b) zero) : Finds cfg c₀ I (p >>= f) zero := by
  intro fact s hs hI
  rw [wp_bind]
  refine wp_mono (hp fact s hs hI) ?_ (fun _ _ => trivial)
  rintro b t ⟨ht,hIt⟩
  exact hf b fact t ht hIt

/-- A chip that is busy even after a read gave zero. -/
theorem finds_flashReadCmd (addr : ℕ) :
    Finds cfg c₀ I (flashReadCmd (chipBus cfg) addr) (fun value => value=0) := by
  intro fact s hs hI
  have hread := hs.chipRead (addr/2)
  refine ⟨hread.weaken fun ⟨hfact,hzero⟩ => ⟨hfact,?_⟩,hI⟩
  have hlines : viaLines s.nor.swapD0d1 0=0 := viaLines_of_plain (by decide) _
  exact (congrArg (viaLines s.nor.swapD0d1) hzero).trans hlines

theorem Finds.wp {p : Prog (Machine NorChip) α} {zero : α → Prop} (h : Finds cfg c₀ I p zero)
    {s : Machine NorChip} (hs : Unharmed cfg c₀ fact s.chip) (hnor : I s.nor) :
    wp p (fun a t => Unharmed cfg c₀ (fact ∧ zero a) t.chip ∧ I t.nor) (fun _ => True) s :=
  h fact s hs hnor

theorem Harmless.of_stays {p : Prog (Machine NorChip) α}
    (h : ∀ fact,Stays (fun s => Unharmed cfg c₀ fact s.chip) I p) : Harmless cfg c₀ I p := h

end FindsRules

attribute [irreducible] Finds Harmless

section Identification

variable {I : NorState → Prop}

theorem harmless_flashWriteCmd (addr : ℕ) {word : UInt16}
    (hword : ∀ swapped,viaLines swapped word∈identifyWords) :
    Harmless cfg c₀ I (flashWriteCmd (chipBus cfg) addr word) :=
  Harmless.of_stays fun fact => (undisturbed_unharmed cfg c₀ fact).stays_flashWriteCmd addr hword

theorem finds_getIdAmdnor (addr : ℕ) :
    Finds cfg c₀ I (getIdAmdnor (chipBus cfg) addr) (fun value => value=0) := by
  unfold getIdAmdnor
  refine (harmless_flashWriteCmd 0 (by decide)).bind fun _ => ?_
  refine (harmless_flashWriteCmd 0xaaa (by decide)).bind fun _ => ?_
  refine (harmless_flashWriteCmd 0x555 (by decide)).bind fun _ => ?_
  refine (harmless_flashWriteCmd 0xaaa (by decide)).bind fun _ => ?_
  refine (finds_flashReadCmd addr).bind fun data => ?_
  exact (harmless_flashWriteCmd 0 (by decide)).bind fun _ => finds_pure id

theorem finds_getIdIntel (addr : ℕ) :
    Finds cfg c₀ I (getIdIntel (chipBus cfg) addr) (fun value => value=0) := by
  unfold getIdIntel
  refine (harmless_flashWriteCmd 0 (by decide)).bind fun _ => ?_
  refine (harmless_flashWriteCmd 0 (by decide)).bind fun _ => ?_
  refine (harmless_flashWriteCmd 0 (by decide)).bind fun _ => ?_
  refine (finds_flashReadCmd addr).bind fun data => ?_
  refine (harmless_flashWriteCmd 0 (by decide)).bind fun _ => ?_
  exact (harmless_flashWriteCmd 0 (by decide)).bind fun _ => finds_pure id

theorem joinHalfwords_zero {high low : UInt16} (hhigh : high=0) (hlow : low=0) :
    joinHalfwords high low=0 := by
  rw [hhigh,hlow]
  rfl

theorem finds_romData : Finds cfg c₀ I (romData (chipBus cfg)) (fun value => value=0) := by
  refine (finds_flashReadCmd 0).bind fun high => ?_
  refine (finds_flashReadCmd 2).bind fun low => ?_
  exact finds_pure fun hlow hhigh => joinHalfwords_zero hhigh hlow

/-- A chip that is busy even after the identification was not found. -/
theorem finds_getFlashIdAuto (hI : Agnostic I) :
    Finds cfg c₀ I (getFlashIdAuto (chipBus cfg)) (fun flashId => flashId=0) := by
  unfold getFlashIdAuto
  have h := undisturbed_unharmed cfg c₀
  have hreset : Harmless cfg c₀ I (flashReset (chipBus cfg)) :=
    Harmless.of_stays fun fact => (h fact).stays_flashReset
  refine Harmless.bind (Harmless.of_stays fun fact => (h fact).stays_setNor fun nor hnor =>
    hI nor false false hnor) fun _ => ?_
  refine Harmless.bind (Harmless.of_stays fun fact => (h fact).stays_enterCfi hI false) fun _ => ?_
  refine (finds_getIdAmdnor 0).bind fun mid => ?_
  refine (finds_getIdAmdnor 2).bind fun did => ?_
  refine finds_romData.bind fun rom => ?_
  split
  · refine Harmless.bind (Harmless.of_stays fun fact => (h fact).stays_setNor fun nor hnor =>
      hI nor false nor.isIntel hnor) fun _ => ?_
    refine Harmless.bind (Harmless.of_stays fun fact => (h fact).stays_enterCfi hI true) fun _ => ?_
    refine finds_romData.bind fun _ => ?_
    refine (finds_getIdIntel 0).bind fun mid => ?_
    refine (finds_getIdIntel 2).bind fun did => ?_
    split
    · refine Harmless.bind (Harmless.of_stays fun fact => (h fact).stays_flashResetMode true) fun _ => ?_
      exact finds_pure fun _ _ _ _ _ _ => rfl
    · refine Harmless.bind (Harmless.of_stays fun fact => (h fact).stays_setNor fun nor hnor =>
        hI nor nor.swapD0d1 true hnor) fun _ => ?_
      refine hreset.bind fun _ => ?_
      exact finds_pure fun hdid hmid _ _ _ _ => joinHalfwords_zero hmid hdid
  · refine hreset.bind fun _ => ?_
    exact finds_pure fun _ hdid hmid => joinHalfwords_zero hmid hdid

/-- After a reset the chip that is known reads the array. -/
theorem flashReset_quiet {s : Machine NorChip} (hs : Unharmed cfg c₀ False s.chip) :
    wp (flashReset (chipBus cfg)) (fun _ t => Unharmed cfg c₀ False t.chip ∧ t.nor=s.nor ∧
      (Matched cfg t.nor → t.chip.mode=.array)) (fun _ => True) s := by
  have hstay := (undisturbed_unharmed cfg c₀ False).stays_flashReset
    (I := fun nor => nor=s.nor) s hs rfl
  obtain ⟨hbusy,hmode⟩ : s.chip.busy=0 ∧ isQuiet s.chip.mode=true := by
    simpa using hs.state
  by_cases hm : Matched cfg s.nor
  · -- the record of the machine does not matter to what the reset does to the chip
    have hreset : After (flashReset (chipBus cfg)) s.chip s.nor
        (fun _ c' _ => c'.mode=.array) := by
      unfold flashReset flashResetMode
      refine after_getNor ?_
      rw [hm.1]
      cases hintel : cfg.intel with
      | true =>
        rw [if_pos rfl]
        refine after_raw ?_
        refine after_raw_last ?_
        rw [chipWrite_intel_plain hintel hbusy (by decide)]
        have hfirst : s.chip.intelWrite cfg (0/2) 0x50 0x50=s.chip := by
          unfold NorChip.intelWrite
          cases hcase : s.chip.mode with
          | array | status | identifier | query | unlock1 | unlock2 =>
            simp [NorChip.intelCommand,bufferCommand_ne]
          | _ => exact absurd (isQuiet_of_eq hmode hcase) Bool.false_ne_true
        rw [hfirst,chipWrite_intel_plain hintel hbusy (by decide)]
        unfold NorChip.intelWrite
        cases hcase : s.chip.mode with
        | array | status | identifier | query | unlock1 | unlock2 => rfl
        | _ => exact absurd (isQuiet_of_eq hmode hcase) Bool.false_ne_true
      | false =>
        rw [if_neg (by decide)]
        refine after_cmd_last hm ?_
        rw [chipWrite_amd hintel hbusy]
        unfold NorChip.amdWrite
        cases hcase : s.chip.mode with
        | array | status | identifier | query | unlock1 | unlock2 => rfl
        | _ => exact absurd (isQuiet_of_eq hmode hcase) Bool.false_ne_true
    refine wp_mono (wp_and hstay (hreset.wp s.log)) ?_ (fun _ _ => trivial)
    rintro _ t ⟨⟨ht,hnor⟩,harray⟩
    exact ⟨ht,hnor,fun _ => harray⟩
  · refine wp_mono hstay ?_ (fun _ _ => trivial)
    rintro _ t ⟨ht,hnor⟩
    refine ⟨ht,hnor,fun hm' => absurd ?_ hm⟩
    rw [← hnor]
    exact hm'

/-- The last reset of the identification, and its result. -/
theorem restored_flashReset {a : α} {s : Machine NorChip}
    (hs : Unharmed cfg c₀ False s.chip) (hnor : I s.nor) :
    wp (flashReset (chipBus cfg) >>= fun _ => pure a)
      (fun _ t => Unharmed cfg c₀ False t.chip ∧ I t.nor ∧
        (Matched cfg t.nor → t.chip.mode=.array)) (fun _ => True) s := by
  refine wp_seq (flashReset_quiet hs) ?_
  rintro _ t ⟨ht,hsame,harray⟩
  rw [wp_pure,hsame]
  exact ⟨ht,hnor,hsame ▸ harray⟩

theorem restored_readCfiTables (probe : NorProbe) {s : Machine NorChip}
    (hs : Unharmed cfg c₀ False s.chip) (hnor : I s.nor) :
    wp (readCfiTables (chipBus cfg) probe)
      (fun _ t => Unharmed cfg c₀ False t.chip ∧ I t.nor ∧
        (Matched cfg t.nor → t.chip.mode=.array)) (fun _ => True) s := by
  have h := undisturbed_unharmed cfg c₀ False
  unfold readCfiTables
  refine (h.stays_flashReadCmd _).followed hs hnor fun deviceExp s hs hnor => ?_
  refine (h.stays_flashReadCmd _).followed hs hnor fun bufferLow s hs hnor => ?_
  refine (h.stays_flashReadCmd _).followed hs hnor fun bufferHigh s hs hnor => ?_
  refine (h.stays_readBufferTimeout _).followed hs hnor fun buffered s hs hnor => ?_
  refine (h.stays_readCfiWord _).followed hs hnor fun sectorSize s hs hnor => ?_
  refine (h.stays_flashReadCmd _).followed hs hnor fun regionCount s hs hnor => ?_
  refine (h.stays_readCfiRegions _ _).followed hs hnor fun regions s hs hnor => ?_
  refine (h.stays_flashReadCmd _).followed hs hnor fun priLow s hs hnor => ?_
  refine (h.stays_flashReadCmd _).followed hs hnor fun priHigh s hs hnor => ?_
  refine (h.stays_readReversed _).followed hs hnor fun reversed s hs hnor => ?_
  exact restored_flashReset hs hnor

/-- The tables leave a chip that is ready and, if it is what the driver thinks, reads
the array. -/
theorem restored_readCfi (probe : NorProbe) {s : Machine NorChip}
    (hs : Unharmed cfg c₀ False s.chip) (hnor : I s.nor) :
    wp (readCfi (chipBus cfg) probe)
      (fun _ t => Unharmed cfg c₀ False t.chip ∧ I t.nor ∧
        (Matched cfg t.nor → t.chip.mode=.array)) (fun _ => True) s := by
  have h := undisturbed_unharmed cfg c₀ False
  unfold readCfi
  refine h.stays_flashReset.followed hs hnor fun _ s hs hnor => ?_
  refine (h.stays_flashWriteCmd _ (by decide)).followed hs hnor fun _ s hs hnor => ?_
  refine h.stays_readCfiQry.followed hs hnor fun found s hs hnor => ?_
  split
  · exact restored_readCfiTables probe hs hnor
  · refine h.stays_flashReset.followed hs hnor fun _ s hs hnor => ?_
    refine (h.stays_flashWriteCmd _ (by decide)).followed hs hnor fun _ s hs hnor => ?_
    refine h.stays_readCfiQry.followed hs hnor fun found s hs hnor => ?_
    split
    · exact restored_readCfiTables probe hs hnor
    · exact restored_flashReset hs hnor

/-- The identification: nothing is erased or programmed, and a chip that is found is not
busy; if it is what the driver thinks, it reads the array. -/
theorem after_runProbe (hI : Agnostic I) (hc : Resting cfg c) {nor : NorState} (hnor : I nor) :
    After (runProbe (chipBus cfg)) c nor (fun probe c' nor' => I nor' ∧
      Performed cfg c c' [] ∧
      (probe.flashId≠0 → Matched cfg nor' → c'.busy=0 ∧ c'.mode=.array)) := by
  refine After.of_wp fun log => ?_
  unfold runProbe
  refine wp_seq ((finds_getFlashIdAuto hI).wp (s := ⟨c,nor,log⟩) hc.unharmed hnor) ?_
  rintro flashId s ⟨hs,hnor⟩
  unfold getNor
  rw [wp_bind,wp_inspect]
  dsimp only
  split
  next hfound =>
    have hready : Unharmed cfg c False s.chip := hs.weaken fun hfact => hfound hfact.2
    refine wp_post (restored_readCfi _ hready hnor) ?_
    rintro probe t ⟨ht,hIt,harray⟩
    refine ⟨hIt,ht.performed,fun _ hm => ⟨?_,harray hm⟩⟩
    rcases ht.state with h | h
    · exact h.1
    · exact h.2.2.2.elim
  next hnone =>
    exact ⟨hnor,hs.performed,fun hfound => absurd hfound hnone⟩

end Identification

/-- The variables of a writing session are the same. -/
structure SameSession (nor nor' : NorState) : Prop where
  /-- Whether there is one. -/
  active : nor'.writeActive=nor.writeActive
  /-- Where it is. -/
  offset : nor'.writeOffset=nor.writeOffset
  /-- The size that was announced. -/
  expected : nor'.writeExpectedSize=nor.writeExpectedSize
  /-- Whether there is a background erase. -/
  erasing : nor'.preEraseActive=nor.preEraseActive

theorem SameSession.refl (nor : NorState) : SameSession nor nor := ⟨rfl,rfl,rfl,rfl⟩

theorem agnostic_sameSession (nor : NorState) : Agnostic (SameSession nor) :=
  fun _ _ _ h => ⟨h.active,h.offset,h.expected,h.erasing⟩

/-- A probe erases and programs nothing. With a valid result the chip is not touched;
else a chip that it finds is not busy afterwards. -/
theorem after_clCartNorProbe (hc : Resting cfg c) (nor : NorState) :
    After (clCartNorProbe (chipBus cfg)) c nor (fun reply c' nor' =>
      nor'.probeValid=true ∧ reply=(nor'.probeStatus,nor'.probeCache) ∧
      SameSession nor nor' ∧
      Performed cfg c c' [] ∧ (nor.probeValid=true → c'=c ∧ nor'=nor) ∧
      (nor.probeValid=false → 0≤ reply.1 → Matched cfg nor' →
        c'.busy=0 ∧ c'.mode=.array)) := by
  unfold clCartNorProbe
  refine after_getNor ?_
  cases hvalid : nor.probeValid with
  | true =>
    rw [if_pos rfl]
    refine after_pure ⟨hvalid,rfl,SameSession.refl nor,Performed.refl,fun _ => ⟨rfl,rfl⟩,?_⟩
    exact fun h => absurd h (by decide)
  | false =>
    rw [if_neg (by decide)]
    refine (after_runProbe (agnostic_sameSession nor) hc (SameSession.refl nor)).bind ?_
    rintro probe c' nor' ⟨hsame,hops,hfound⟩
    refine after_setNor (after_pure ⟨rfl,rfl,?_,hops,?_,?_⟩)
    · exact ⟨hsame.active,hsame.offset,hsame.expected,hsame.erasing⟩
    · exact fun h => absurd h (by decide)
    · intro _ hstatus hm
      refine hfound (fun hnone => ?_) hm
      rw [if_neg (not_not_intro hnone)] at hstatus
      exact absurd hstatus (by simp)

end ChisLink.CartNorProbe
