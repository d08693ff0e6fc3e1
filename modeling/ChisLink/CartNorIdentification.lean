import ChisLink.CartNorDriver

/-!
# Identifying a NOR chip

The driver finds out what chip there is by switching it to the identifier and the
query modes. Whatever reads and the few words written for that keep of the chip is
kept by the whole identification.
-/

namespace ChisLink.CartNorIdentification

open DriverPrograms CartNorDriver

variable {σ : Type}

/-- A property of the machine and one of the variables that a program keeps. -/
def Stays (M : Machine σ → Prop) (I : NorState → Prop) {α : Type}
    (p : Prog (Machine σ) α) : Prop :=
  ∀ s,M s → I s.nor → wp p (fun _ t => M t ∧ I t.nor) M s

section StaysRules

variable {M : Machine σ → Prop} {I : NorState → Prop} {α β : Type}

theorem stays_pure {a : α} : Stays M I (pure a) := fun _ hM hI => ⟨hM,hI⟩

theorem Stays.bind {p : Prog (Machine σ) β} {f : β → Prog (Machine σ) α}
    (hp : Stays M I p) (hf : ∀ b,Stays M I (f b)) : Stays M I (p >>= f) := by
  intro s hM hI
  refine wp_seq (hp s hM hI) ?_
  intro b t ht
  exact hf b t ht.1 ht.2

/-- What follows a program starts with what the program keeps. -/
theorem Stays.followed {p : Prog (Machine σ) β} {f : β → Prog (Machine σ) α}
    {Q : α → Machine σ → Prop} {s : Machine σ} (hp : Stays M I p) (hM : M s) (hI : I s.nor)
    (hf : ∀ b t,M t → I t.nor → wp (f b) Q (fun _ => True) t) :
    wp (p >>= f) Q (fun _ => True) s := by
  rw [wp_bind]
  refine wp_mono (hp s hM hI) ?_ (fun _ _ => trivial)
  rintro b t ⟨ht,hIt⟩
  exact hf b t ht hIt

theorem stays_getNor {f : NorState → Prog (Machine σ) α}
    (hf : ∀ nor,I nor → Stays M I (f nor)) : Stays M I (getNor >>= f) := by
  intro s hM hI
  rw [wp_bind]
  exact hf s.nor hI s hM hI

theorem stays_poll {body : Prog (Machine σ) (Option α)} (hbody : Stays M I body)
    (fuel : ℕ) : Stays M I (poll body fuel) := by
  induction fuel with
  | zero => exact fun s hM _ => hM
  | succ fuel ih =>
    refine hbody.bind fun result => ?_
    cases result with
    | none => exact ih
    | some a => exact stays_pure

end StaysRules

section Polling

variable (bus : Bus σ) {M : Machine σ → Prop} {I : NorState → Prop}

theorem stays_readSameD7 {addr : ℕ} (hread : Stays M I (flashReadCmd bus addr))
    (expected : UInt16) : Stays M I (readSameD7 bus addr expected) :=
  hread.bind fun _ => stays_pure

/-- Data polling keeps what reading the polled address keeps. -/
theorem stays_amdPoll {addr : ℕ} (hread : Stays M I (flashReadCmd bus addr)) (fuel : ℕ)
    (expected : UInt16) : Stays M I (amdPoll bus fuel addr expected) := by
  refine stays_poll (hread.bind fun status1 => ?_) fuel
  have hconfirm : Stays M I (confirmD7 bus addr status1 expected) := by
    unfold confirmD7
    split
    · exact stays_readSameD7 bus hread expected
    · exact stays_pure
  refine hconfirm.bind fun agreed => ?_
  split
  · exact stays_pure
  · split
    · exact (stays_readSameD7 bus hread expected).bind fun _ => stays_pure
    · exact stays_pure

/-- Status polling keeps what its command and reading the polled address keep. -/
theorem stays_waitIntelReady {addr : ℕ} {command : UInt16}
    (hcommand : Stays M I (pollCommand bus addr command))
    (hread : Stays M I (flashReadCmd bus addr)) (fuel : ℕ) :
    Stays M I (waitIntelReady bus fuel addr command) := by
  refine stays_poll (hcommand.bind fun _ => ?_) fuel
  exact hread.bind fun _ => stays_pure

end Polling

/-- A property of the variables that does not read what the chip was found to be. -/
def Agnostic (I : NorState → Prop) : Prop :=
  ∀ nor swapped intel,I nor → I {nor with swapD0d1 := swapped,isIntel := intel}

/-- The words that the identification writes, on straight and on swapped lines. -/
def identifyWords : List UInt16 := [0xf0,0x98,0xaa,0x55,0x90,0x50,0xff,0xa9,0x56]

/-- What reading and writing the words of the identification keeps. -/
structure Undisturbed (bus : Bus σ) (M : Machine σ → Prop) : Prop where
  /-- Reads keep it. -/
  read : ∀ addr s,M s → M (flashReadRaw bus addr s).2
  /-- Writes keep it. -/
  write : ∀ addr data,data∈identifyWords → ∀ s,M s → M (flashWriteRaw bus addr data s).2
  /-- The variables do not matter. -/
  vars : ∀ (f : NorState → NorState) s,M s → M {s with nor := f s.nor}

section Identification

variable {bus : Bus σ} {M : Machine σ → Prop} {I : NorState → Prop} (h : Undisturbed bus M)
include h

theorem Undisturbed.stays_flashReadRaw (addr : ℕ) : Stays M I (flashReadRaw bus addr) :=
  fun s hM hI => ⟨h.read addr s hM,hI⟩

theorem Undisturbed.stays_flashWriteRaw (addr : ℕ) {data : UInt16}
    (hdata : data∈identifyWords) :
    Stays M I (flashWriteRaw bus addr data) :=
  fun s hM hI => ⟨h.write addr data hdata s hM,hI⟩

theorem Undisturbed.stays_setNor {f : NorState → NorState} (hf : ∀ nor,I nor → I (f nor)) :
    Stays M I (setNor f) :=
  fun s hM hI => ⟨h.vars f s hM,hf s.nor hI⟩

theorem Undisturbed.stays_flashReadCmd (addr : ℕ) : Stays M I (flashReadCmd bus addr) :=
  (h.stays_flashReadRaw addr).bind fun _ => stays_getNor fun _ _ => stays_pure

theorem Undisturbed.stays_flashWriteCmd (addr : ℕ) {data : UInt16}
    (hdata : ∀ swapped,viaLines swapped data∈identifyWords) :
    Stays M I (flashWriteCmd bus addr data) :=
  stays_getNor fun nor _ => h.stays_flashWriteRaw addr (hdata nor.swapD0d1)

theorem Undisturbed.stays_flashResetMode (intel : Bool) :
    Stays M I (flashResetMode bus intel) := by
  unfold flashResetMode
  split
  · exact (h.stays_flashWriteRaw _ (by decide)).bind fun _ =>
      h.stays_flashWriteRaw _ (by decide)
  · exact h.stays_flashWriteCmd _ (by decide)

theorem Undisturbed.stays_flashReset : Stays M I (flashReset bus) :=
  stays_getNor fun nor _ => h.stays_flashResetMode nor.isIntel

theorem Undisturbed.stays_checkCfiSignature (hI : Agnostic I) :
    Stays M I (checkCfiSignature bus) := by
  refine (h.stays_flashReadRaw _).bind fun q => ?_
  refine (h.stays_flashReadRaw _).bind fun r => ?_
  refine (h.stays_flashReadRaw _).bind fun y => ?_
  split
  · exact (h.stays_setNor fun nor hnor => hI nor false nor.isIntel hnor).bind fun _ =>
      stays_pure
  · split
    · exact (h.stays_setNor fun nor hnor => hI nor true nor.isIntel hnor).bind fun _ =>
        stays_pure
    · exact stays_pure

theorem Undisturbed.stays_resetRaw (intel : Bool) : Stays M I (resetRaw bus intel) := by
  unfold resetRaw
  split
  · exact (h.stays_flashWriteRaw _ (by decide)).bind fun _ =>
      h.stays_flashWriteRaw _ (by decide)
  · exact h.stays_flashWriteRaw _ (by decide)

theorem Undisturbed.stays_enterCfi (hI : Agnostic I) (intel : Bool) :
    Stays M I (enterCfi bus intel) := by
  refine (h.stays_resetRaw intel).bind fun _ => ?_
  refine (h.stays_flashWriteRaw _ (by decide)).bind fun _ => ?_
  refine (h.stays_checkCfiSignature hI).bind fun found => ?_
  split
  · exact (h.stays_flashResetMode intel).bind fun _ => stays_pure
  · refine (h.stays_flashResetMode intel).bind fun _ => ?_
    refine (h.stays_flashWriteRaw _ (by decide)).bind fun _ => ?_
    refine (h.stays_checkCfiSignature hI).bind fun found => ?_
    exact (h.stays_flashResetMode intel).bind fun _ => stays_pure

theorem Undisturbed.stays_getIdAmdnor (addr : ℕ) : Stays M I (getIdAmdnor bus addr) := by
  refine (h.stays_flashWriteCmd _ (by decide)).bind fun _ => ?_
  refine (h.stays_flashWriteCmd _ (by decide)).bind fun _ => ?_
  refine (h.stays_flashWriteCmd _ (by decide)).bind fun _ => ?_
  refine (h.stays_flashWriteCmd _ (by decide)).bind fun _ => ?_
  refine (h.stays_flashReadCmd addr).bind fun data => ?_
  exact (h.stays_flashWriteCmd _ (by decide)).bind fun _ => stays_pure

theorem Undisturbed.stays_getIdIntel (addr : ℕ) : Stays M I (getIdIntel bus addr) := by
  refine (h.stays_flashWriteCmd _ (by decide)).bind fun _ => ?_
  refine (h.stays_flashWriteCmd _ (by decide)).bind fun _ => ?_
  refine (h.stays_flashWriteCmd _ (by decide)).bind fun _ => ?_
  refine (h.stays_flashReadCmd addr).bind fun data => ?_
  refine (h.stays_flashWriteCmd _ (by decide)).bind fun _ => ?_
  exact (h.stays_flashWriteCmd _ (by decide)).bind fun _ => stays_pure

theorem Undisturbed.stays_romData : Stays M I (romData bus) := by
  refine (h.stays_flashReadCmd _).bind fun high => ?_
  exact (h.stays_flashReadCmd _).bind fun low => stays_pure

theorem Undisturbed.stays_getFlashIdAuto (hI : Agnostic I) :
    Stays M I (getFlashIdAuto bus) := by
  refine (h.stays_setNor fun nor hnor => hI nor false false hnor).bind fun _ => ?_
  refine (h.stays_enterCfi hI false).bind fun _ => ?_
  refine (h.stays_getIdAmdnor 0).bind fun mid => ?_
  refine (h.stays_getIdAmdnor 2).bind fun did => ?_
  refine h.stays_romData.bind fun rom => ?_
  split
  · refine (h.stays_setNor fun nor hnor => hI nor false nor.isIntel hnor).bind fun _ => ?_
    refine (h.stays_enterCfi hI true).bind fun _ => ?_
    refine h.stays_romData.bind fun rom => ?_
    refine (h.stays_getIdIntel 0).bind fun mid => ?_
    refine (h.stays_getIdIntel 2).bind fun did => ?_
    split
    · exact (h.stays_flashResetMode true).bind fun _ => stays_pure
    · refine (h.stays_setNor fun nor hnor => hI nor nor.swapD0d1 true hnor).bind fun _ => ?_
      exact h.stays_flashReset.bind fun _ => stays_pure
  · exact h.stays_flashReset.bind fun _ => stays_pure

theorem Undisturbed.stays_readCfiWord (addr : ℕ) : Stays M I (readCfiWord bus addr) := by
  refine (h.stays_flashReadCmd _).bind fun high => ?_
  exact (h.stays_flashReadCmd _).bind fun low => stays_pure

theorem Undisturbed.stays_readCfiQry : Stays M I (readCfiQry bus) := by
  refine (h.stays_flashReadCmd _).bind fun q => ?_
  refine (h.stays_flashReadCmd _).bind fun r => ?_
  exact (h.stays_flashReadCmd _).bind fun y => stays_pure

theorem Undisturbed.stays_readCfiRegions (i count : ℕ) :
    Stays M I (readCfiRegions bus i count) := by
  induction count generalizing i with
  | zero => exact stays_pure
  | succ count ih =>
    refine (h.stays_readCfiWord _).bind fun blockCount => ?_
    refine (h.stays_readCfiWord _).bind fun blockSize => ?_
    exact (ih _).bind fun rest => stays_pure

theorem Undisturbed.stays_readReversed (priAddress : ℕ) :
    Stays M I (readReversed bus priAddress) := by
  refine (h.stays_flashReadCmd _).bind fun p => ?_
  split
  · exact stays_pure
  · refine (h.stays_flashReadCmd _).bind fun r => ?_
    split
    · exact stays_pure
    · refine (h.stays_flashReadCmd _).bind fun i => ?_
      split
      · exact stays_pure
      · exact (h.stays_flashReadCmd _).bind fun top => stays_pure

theorem Undisturbed.stays_readBufferTimeout (bufferExp : UInt16) :
    Stays M I (readBufferTimeout bus bufferExp) := by
  unfold readBufferTimeout
  split
  · exact stays_pure
  · refine (h.stays_flashReadCmd _).bind fun first => ?_
    split
    · exact stays_pure
    · exact (h.stays_flashReadCmd _).bind fun second => stays_pure

theorem Undisturbed.stays_readCfiTables (probe : NorProbe) :
    Stays M I (readCfiTables bus probe) := by
  refine (h.stays_flashReadCmd _).bind fun deviceExp => ?_
  refine (h.stays_flashReadCmd _).bind fun bufferLow => ?_
  refine (h.stays_flashReadCmd _).bind fun bufferHigh => ?_
  refine (h.stays_readBufferTimeout _).bind fun buffered => ?_
  refine (h.stays_readCfiWord _).bind fun sectorSize => ?_
  refine (h.stays_flashReadCmd _).bind fun regionCount => ?_
  refine (h.stays_readCfiRegions _ _).bind fun regions => ?_
  refine (h.stays_flashReadCmd _).bind fun priLow => ?_
  refine (h.stays_flashReadCmd _).bind fun priHigh => ?_
  refine (h.stays_readReversed _).bind fun reversed => ?_
  exact h.stays_flashReset.bind fun _ => stays_pure

theorem Undisturbed.stays_readCfi (probe : NorProbe) : Stays M I (readCfi bus probe) := by
  refine h.stays_flashReset.bind fun _ => ?_
  refine (h.stays_flashWriteCmd _ (by decide)).bind fun _ => ?_
  refine h.stays_readCfiQry.bind fun found => ?_
  split
  · exact h.stays_readCfiTables probe
  · refine h.stays_flashReset.bind fun _ => ?_
    refine (h.stays_flashWriteCmd _ (by decide)).bind fun _ => ?_
    refine h.stays_readCfiQry.bind fun found => ?_
    split
    · exact h.stays_readCfiTables probe
    · exact h.stays_flashReset.bind fun _ => stays_pure

theorem Undisturbed.stays_runProbe (hI : Agnostic I) : Stays M I (runProbe bus) := by
  refine (h.stays_getFlashIdAuto hI).bind fun flashId => stays_getNor fun nor _ => ?_
  dsimp only
  split
  · exact h.stays_readCfi _
  · exact stays_pure

end Identification

end ChisLink.CartNorIdentification
