import ChisLink.FlashSaveWrites

/-!
# A FLASH chip

The chip takes its commands as writes to two unlock addresses. It can select a bank, erase
a sector and program a byte, which only clears bits. The hooks that the driver has for it
do what a FLASH save needs of them.
-/

namespace ChisLink.FlashSaveChip

open CartSaveDriver ErasableMemory ErasingWrites FlashSaveWrites

/-- What the chip expects. -/
inductive FlashStage where
  /-- The first unlock write. -/
  | idle
  /-- The second one. -/
  | unlocked
  /-- A command. -/
  | command
  /-- The bank. -/
  | bank
  /-- The byte to program. -/
  | program
  /-- The first unlock write of an erase. -/
  | erase
  /-- The second one. -/
  | eraseUnlocked
  /-- The sector to erase. -/
  | eraseSector
deriving DecidableEq

/-- The chip. -/
structure FlashChip where
  /-- The contents. -/
  cells : ℕ → UInt8
  /-- The bank in the window. -/
  bank : ℕ
  /-- What it expects. -/
  stage : FlashStage
  /-- The operations that it has done. -/
  ops : List (MemoryOp UInt8)

/-- The address of the memory behind one of the window. -/
def FlashChip.place (d : FlashChip) (a : ℕ) : ℕ := d.bank*clCartGbaSramBankSize+a

/-- The sector at an address of the window is erased. -/
def FlashChip.eraseAt (a : ℕ) (d : FlashChip) : FlashChip :=
  { d with
    cells := (MemoryOp.erase (sectors.start (d.place a))).apply sectors flashByte d.cells
    stage := .idle
    ops := d.ops++[.erase (sectors.start (d.place a))] }

/-- A byte is programmed. -/
def FlashChip.programAt (a : ℕ) (v : UInt8) (d : FlashChip) : FlashChip :=
  { d with
    cells := Function.update d.cells (d.place a) (d.cells (d.place a) &&& v)
    stage := .idle
    ops := d.ops++[.program (d.place a) v] }

/-- The commands. -/
def FlashChip.choose (v : UInt8) : FlashStage :=
  if v=0xb0 then .bank else if v=0xa0 then .program else if v=0x80 then .erase else .idle

/-- A write to the window. -/
def FlashChip.write (a : ℕ) (v : UInt8) (d : FlashChip) : FlashChip :=
  match d.stage with
  | .idle => {d with stage := if a=0x5555 ∧ v=0xaa then .unlocked else .idle}
  | .unlocked => {d with stage := if a=0x2aaa ∧ v=0x55 then .command else .idle}
  | .command => {d with stage := if a=0x5555 then FlashChip.choose v else .idle}
  | .bank => if a=0 then {d with bank := v.toNat,stage := .idle} else {d with stage := .idle}
  | .program => d.programAt a v
  | .erase => {d with stage := if a=0x5555 ∧ v=0xaa then .eraseUnlocked else .idle}
  | .eraseUnlocked => {d with stage := if a=0x2aaa ∧ v=0x55 then .eraseSector else .idle}
  | .eraseSector => if v=0x30 then d.eraseAt a else {d with stage := .idle}

/-- A cartridge with the chip. -/
def flashHardware : CartHardware FlashChip where
  saveRead8 a d := (d.cells (d.place a),d)
  saveWrite8 := FlashChip.write
  romRead16 _ _ := 0
  romWrite16 _ _ d := d
  norProbe d := (false,d)
  norWrite _ _ d := ((-1,0),d)
  norFlush d := (0,d)
  norSetWriteSize _ d := (0,d)

/-- The hooks of the driver for it. -/
def flashHooks : SaveHooks FlashChip where
  switchSramBank := none
  switchFlashBank := some (defaultSwitchFlashBank flashHardware)
  eraseFlash := some (defaultFlashErase flashHardware)
  writeFlashByte := some (defaultFlashWriteByte flashHardware)
  readEepromUnit := none
  writeEepromUnit := none

/-- How it is seen. -/
def flashView : FlashView FlashChip :=
  ⟨FlashChip.cells,FlashChip.bank,FlashChip.ops,fun d => d.stage=.idle⟩

variable {d : FlashChip}

/-- The bank is selected. -/
theorem defaultSwitchFlashBank_flash (b : UInt8) (h : d.stage=.idle) :
    defaultSwitchFlashBank flashHardware b d={d with bank := b.toNat} := by
  obtain ⟨cells,bank,stage,ops⟩ := d
  cases h
  rfl

/-- The value of a byte stays as it is while it is polled. -/
theorem flashPollEqual_flash (a : ℕ) (v : UInt8) (d : FlashChip) :
    flashPollEqual flashHardware a v d=(if d.cells (d.place a)=v then 0 else -8,d) := by
  have hstill : ∀ left,flashPoll flashHardware a v left d=d := by
    intro left
    induction left with
    | zero => rfl
    | succ left ih =>
      unfold flashPoll
      dsimp only
      split
      · exact ih
      · rfl
  unfold flashPollEqual
  rw [hstill]
  rfl

/-- The sector is erased. -/
theorem defaultFlashErase_flash {a : ℕ} (ha : a< clCartGbaSramBankSize) (h : d.stage=.idle) :
    defaultFlashErase flashHardware a d=(0,d.eraseAt a) := by
  have hcommands : FlashChip.write a 0x30 (FlashChip.write 0x2aaa 0x55 (FlashChip.write 0x5555 0xaa
        (FlashChip.write 0x5555 0x80 (FlashChip.write 0x2aaa 0x55
          (FlashChip.write 0x5555 0xaa d)))))=d.eraseAt a := by
    obtain ⟨cells,bank,stage,ops⟩ := d
    cases h
    rfl
  have hblank : (d.eraseAt a).cells ((d.eraseAt a).place a)=0xff := if_pos rfl
  unfold defaultFlashErase
  rw [if_neg (by omega)]
  change flashPollEqual flashHardware a 0xff (FlashChip.write a 0x30 (FlashChip.write 0x2aaa 0x55
    (FlashChip.write 0x5555 0xaa (FlashChip.write 0x5555 0x80 (FlashChip.write 0x2aaa 0x55
      (FlashChip.write 0x5555 0xaa d))))))=_
  rw [hcommands,flashPollEqual_flash,if_pos hblank]

/-- The byte is programmed, and has the value or not. -/
theorem programByte_flash (a : ℕ) (v : UInt8) (h : d.stage=.idle) :
    programByte flashHardware a v d=
      (if d.cells (d.place a) &&& v=v then 0 else -8,d.programAt a v) := by
  have hcommands : FlashChip.write a v (FlashChip.write 0x5555 0xa0 (FlashChip.write 0x2aaa 0x55
      (FlashChip.write 0x5555 0xaa d)))=d.programAt a v := by
    obtain ⟨cells,bank,stage,ops⟩ := d
    cases h
    rfl
  have hcell : (d.programAt a v).cells ((d.programAt a v).place a)=d.cells (d.place a) &&& v := by
    have hplace : (d.programAt a v).place a=d.place a := rfl
    rw [hplace]
    unfold FlashChip.programAt
    dsimp only
    rw [Function.update_self]
  unfold programByte
  change flashPollEqual flashHardware a v (FlashChip.write a v (FlashChip.write 0x5555 0xa0
    (FlashChip.write 0x2aaa 0x55 (FlashChip.write 0x5555 0xaa d))))=_
  rw [hcommands,flashPollEqual_flash,hcell]

/-- A byte is programmed unless it and its value are blank. -/
theorem defaultFlashWriteByte_flash {a : ℕ} (ha : a< clCartGbaSramBankSize) (v : UInt8)
    (h : d.stage=.idle) :
    defaultFlashWriteByte flashHardware a v d=
      if idleByte (d.cells (d.place a)) v=true then (0,d)
      else (if d.cells (d.place a) &&& v=v then 0 else -8,d.programAt a v) := by
  have hread : flashHardware.saveRead8 a d=(d.cells (d.place a),d) := rfl
  unfold defaultFlashWriteByte idleByte
  rw [if_neg (by omega)]
  dsimp only
  rw [hread]
  by_cases hv : v=0xff
  · by_cases hcell : d.cells (d.place a)=0xff
    · simp only [hv,hcell,if_true,decide_true,Bool.and_self]
    · rw [if_pos hv,if_neg hcell,programByte_flash a v h]
      simp only [hv,hcell,decide_true,decide_false,Bool.and_false,Bool.false_eq_true,if_false]
  · rw [if_neg hv,programByte_flash a v h]
    simp only [hv,decide_false,Bool.false_and,Bool.false_eq_true,if_false]

/-- The chip works. -/
theorem flash_works (size : ℕ) : FlashWorks flashHardware flashHooks flashView size := by
  have hblank : ∀ {old v : UInt8},idleByte old v=true → old &&& v=v ∧ old=0xff ∧ v=0xff := by
    intro old v h
    unfold idleByte at h
    rw [Bool.and_eq_true,decide_eq_true_iff,decide_eq_true_iff] at h
    rw [h.1,h.2]
    exact ⟨rfl,rfl,rfl⟩
  refine ⟨⟨fun a d h => ⟨rfl,h⟩,fun erase herase a d h => ?_,fun write hwrite a v d h => ?_,
      fun _ => ⟨_,rfl,fun b d h => ?_⟩⟩,
    fun a d _ _ _ => rfl,fun a d _ => ⟨rfl,rfl⟩,fun switch hswitch b d h => ?_,
    ⟨_,rfl,fun a d h ha haligned _ => ?_⟩,⟨_,rfl,fun a v d h ha _ => ?_⟩⟩
  · cases herase
    unfold defaultFlashErase
    split
    · exact ⟨rfl,h⟩
    next hin =>
      have hdone := @defaultFlashErase_flash d a (by omega) h
      unfold defaultFlashErase at hdone
      rw [if_neg hin] at hdone
      rw [hdone]
      exact ⟨rfl,rfl⟩
  · cases hwrite
    by_cases hin : a< clCartGbaSramBankSize
    · rw [defaultFlashWriteByte_flash hin v h]
      split
      · exact ⟨rfl,h⟩
      · exact ⟨rfl,rfl⟩
    · unfold defaultFlashWriteByte
      rw [if_pos (by omega)]
      exact ⟨rfl,h⟩
  · rw [defaultSwitchFlashBank_flash b h]
    exact ⟨rfl,h⟩
  · cases hswitch
    rw [defaultSwitchFlashBank_flash b h]
    exact ⟨rfl,rfl⟩
  · have hstart : sectors.start (d.place a)=d.place a := by
      change d.place a/clCartGbaFlashSectorSize*clCartGbaFlashSectorSize=d.place a
      unfold FlashChip.place clCartGbaFlashSectorSize clCartGbaSramBankSize at *
      omega
    rw [defaultFlashErase_flash ha h]
    unfold FlashChip.eraseAt
    rw [hstart]
    exact ⟨Int.le_refl 0,rfl,rfl⟩
  · rw [defaultFlashWriteByte_flash ha v h]
    have hplace : flashView.cells d (flashView.bank d*clCartGbaSramBankSize+a)=
        d.cells (d.place a) := rfl
    rw [hplace]
    by_cases hidle : idleByte (d.cells (d.place a)) v=true
    · obtain ⟨hand,hold,hv⟩ := hblank hidle
      rw [if_pos hidle,if_pos hidle,hand]
      refine ⟨⟨fun _ => rfl,fun _ => Int.le_refl 0⟩,?_,(List.append_nil _).symm⟩
      have hsame := Function.update_eq_self (d.place a) d.cells
      rw [hold] at hsame
      rw [hv]
      exact hsame.symm
    · rw [if_neg hidle,if_neg hidle]
      refine ⟨?_,rfl,rfl⟩
      dsimp only
      split
      next htaken => exact ⟨fun _ => htaken,fun _ => Int.le_refl 0⟩
      next hno => exact ⟨fun h => absurd h (by decide),fun h => absurd h hno⟩

end ChisLink.FlashSaveChip
