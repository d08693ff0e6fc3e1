import ChisLink.CartSaveArrays
import Mathlib.Logic.Function.Basic

/-!
# Probing the save of a cartridge

The driver finds out which save a cartridge has by writing to it. It first looks whether
two bytes of SRAM can be written, then whether there is a second bank, and looks for FLASH
and other chips only if there is no SRAM. SRAM has the contents of before afterwards and
the first bank is selected. What was found is remembered.
-/

namespace ChisLink.CartSaveProbe

open AlignedTransfers CartSaveArrays CartSaveDriver DriverPrograms LabelledRuns

variable {σ : Type}

section Rom

variable (hw : CartHardware σ) (ctx : CartCtx) (d : σ)

/-- The function `rom_read16`. -/
def romRead16 (offset : ℕ) : UInt16 := hw.romRead16 (ctx.romBase+offset/2*2) d

/-- Two halfwords of the ROM. -/
def romRead32 (offset : ℕ) : ℕ :=
  (romRead16 hw ctx d offset).toNat+(romRead16 hw ctx d (offset+2)).toNat*0x10000

/-- The function `gba_header_checksum_valid`. -/
def gbaHeaderChecksumValid : Bool :=
  if ctx.romSize≤0xbd then false
  else
    let checksum := (List.range' 0xa0 29).foldl (fun sum i => sum-romRead8 hw ctx d i) 0
    romRead8 hw ctx d 0xbd=checksum-0x19

/-- What a batteryless save is told by. -/
def maniacSig : List UInt8 := "<3 from Maniac".toList.map fun c => UInt8.ofNat c.toNat

/-- How far a signature is looked for. -/
def clCartGbaBootVectorSearchBytes : ℕ := 0x2000

/-- What follows a signature that was found. -/
def describeBatteryless (address : ℕ) (probe : SaveProbe) : Bool×SaveProbe :=
  let word := (romRead16 hw ctx d (address+0x0e)).toNat
  let payloadSize := if word=0 then 0x414 else word
  let probe := {probe with batterylessOffset := address+0x10}
  if address+0x10<payloadSize ∨ ctx.romSize<address+0x10 then (false,probe)
  else
    let payloadStart := address+0x10-payloadSize
    if ctx.romSize<payloadStart+0x14 then (false,probe)
    else
      let sizeWord := romRead32 hw ctx d (payloadStart+0x8)
      let probe := { probe with
        batterylessSize := sizeWord/0x1000*0x1000
        batterylessWriteBufferSize := sizeWord%0x1000 }
      if 0x70000<probe.batterylessSize then
        let probe := if romRead32 hw ctx d (payloadStart+0x4)=0xf0 then { probe with
            batterylessRtsSize := romRead32 hw ctx d (payloadStart+0xc)
            batterylessWriteBufferSize := romRead32 hw ctx d (payloadStart+0x10) }
          else probe
        (false,{probe with isBatterylessRts := true})
      else (probe.batterylessSize≠0,probe)

/-- The function `check_batteryless_sram`. -/
def checkBatterylessSram (probe : SaveProbe) : Bool×SaveProbe :=
  let bootVector := (romRead32 hw ctx d 0%0x1000000+2)*4
  if ctx.romSize≤bootVector ∨ ctx.romSize<bootVector+clCartGbaBootVectorSearchBytes then
    (false,probe)
  else
    let found := (List.range' bootVector (clCartGbaBootVectorSearchBytes/2) 2).find?
      fun address => address+maniacSig.length<bootVector+clCartGbaBootVectorSearchBytes ∧
        (List.range' address maniacSig.length).map (romRead8 hw ctx d)=maniacSig
    match found with
    | none => (false,probe)
    | some address => describeBatteryless hw ctx d address probe

end Rom

section Probing

variable (hw : CartHardware σ) (hooks : SaveHooks σ)

/-- The function `rom_write16`. -/
def romWrite16 (offset : ℕ) (value : UInt16) : Prog (Cart σ) Unit := do
  let ctx ← getCtx
  if ctx.romSize≤offset+1 then pure ()
  else onDevice fun d => ((),hw.romWrite16 (ctx.romBase+offset/2*2) value d)

/-- The function `probe_pattern`. -/
def probePattern (original avoid : UInt8) : UInt8 :=
  let masks : List UInt8 := [0xff,0xa5,0x5a,0x3c,0xc3]
  match (masks.map (original ^^^ ·)).find? fun value => value≠original ∧ value≠avoid with
  | some value => value
  | none => avoid ^^^ 0xff

/-- The first byte that is tried. -/
def offsetA : ℕ := 0x0004

/-- The second. -/
def offsetB : ℕ := 0x1ffc

/-- The function `probe_sram_writable`. -/
def probeSramWritable : Prog (Cart σ) (ℤ×Bool) := do
  let originalA ← saveRead8 hw offsetA
  let originalB ← saveRead8 hw offsetB
  let patternA := probePattern originalA originalB
  let patternB := probePattern originalB patternA
  saveWrite8 hw offsetA patternA
  let readAFirst ← saveRead8 hw offsetA
  saveWrite8 hw offsetB patternB
  let readB ← saveRead8 hw offsetB
  let readASecond ← saveRead8 hw offsetA
  saveWrite8 hw offsetB originalB
  saveWrite8 hw offsetA originalA
  let nowA ← saveRead8 hw offsetA
  if nowA≠originalA then pure (-3,false)
  else do
    let nowB ← saveRead8 hw offsetB
    if nowB≠originalB then pure (-3,false)
    else pure (0,readAFirst=patternA && readB=patternB && readASecond=patternA)

/-- The function `probe_sram_bank_switch`. -/
def probeSramBankSwitch (probe : SaveProbe) : Prog (Cart σ) (ℤ×SaveProbe) := do
  probeSwitchSramBank hooks 0
  let bank0 ← saveRead8 hw offsetA
  probeSwitchSramBank hooks 1
  let bank1 ← saveRead8 hw offsetA
  probeSwitchSramBank hooks 0
  if bank0≠bank1 then pure (0,{probe with hasBankSwitch := true})
  else do
    probeSwitchSramBank hooks 0
    saveWrite8 hw offsetA (~~~bank0)
    let changed ← saveRead8 hw offsetA
    if changed=bank0 then do
      probeSwitchSramBank hooks 0
      pure (0,probe)
    else do
      probeSwitchSramBank hooks 1
      let other ← saveRead8 hw offsetA
      let probe := if other=bank1 then {probe with hasBankSwitch := true} else probe
      probeSwitchSramBank hooks 0
      saveWrite8 hw offsetA bank0
      let now ← saveRead8 hw offsetA
      if now≠bank0 then pure (-3,probe) else pure (0,probe)

/-- The identifiers of FLASH and whether a chip has two banks. -/
def knownFlash : List (UInt32×Bool) :=
  [(0xbfd4,false),(0x1f3d,false),(0xc21c,false),(0x321b,false),(0xc209,true),(0x6213,true),
    (0xbf5b,true)]

/-- The function `save_flash_id_is_known`. -/
def saveFlashIdIsKnown (flashId : UInt32) : Bool := knownFlash.any fun chip => chip.1=flashId

/-- The function `save_flash_id_has_bank_switch`. -/
def saveFlashIdHasBankSwitch (flashId : UInt32) : Bool :=
  knownFlash.any fun chip => chip.1=flashId && chip.2

/-- The size that goes with a bank switch. -/
def switchedSize (hasBankSwitch : Bool) : ℕ :=
  if hasBankSwitch=true then clCartGbaMaxLinearSaveSize else clCartGbaSramBankSize

/-- Ask FLASH for its identifier. -/
def readFlashId : Prog (Cart σ) UInt32 := do
  saveWrite8 hw 0x5555 0xaa
  saveWrite8 hw 0x2aaa 0x55
  saveWrite8 hw 0x5555 0x90
  let high ← saveRead8 hw 0x0000
  let low ← saveRead8 hw 0x0001
  saveWrite8 hw 0x5555 0xaa
  saveWrite8 hw 0x2aaa 0x55
  saveWrite8 hw 0x5555 0xf0
  saveWrite8 hw 0x0000 0xf0
  pure ((high.toUInt32 <<< 8) ||| low.toUInt32)

/-- Ask a cartridge for an older console for two bytes of its identifier. -/
def readDmgAmdnor (first : ℕ) : Prog (Cart σ) UInt16 := do
  saveWrite8 hw 0 0xf0
  saveWrite8 hw 0xaaa 0xaa
  saveWrite8 hw 0x555 0x55
  saveWrite8 hw 0xaaa 0x90
  let high ← saveRead8 hw first
  let low ← saveRead8 hw (first+1)
  saveWrite8 hw 0 0xf0
  pure ((high.toUInt16 <<< 8) ||| low.toUInt16)

/-- The function `read_dmg_mid_amdnor`. -/
def readDmgMidAmdnor : Prog (Cart σ) UInt16 := readDmgAmdnor hw 0

/-- The function `read_dmg_did_amdnor`. -/
def readDmgDidAmdnor : Prog (Cart σ) UInt16 := readDmgAmdnor hw 2

/-- The function `read_dmg_flash_id`. -/
def readDmgFlashId : Prog (Cart σ) UInt32 := do
  let mid ← readDmgMidAmdnor hw
  let did ← readDmgDidAmdnor hw
  let ret := (mid.toUInt32 <<< 16) ||| did.toUInt32
  let first ← saveRead8 hw 0
  let second ← saveRead8 hw 2
  let romdata := (first.toUInt32 <<< 16) ||| second.toUInt32
  if ret=romdata ∧ ¬(ret &&& 0xffff=0x7e7e ∨ ret >>> 16=0xc2c2) then pure 0 else pure ret

/-- The part of `probe_save_hardware_uncached` for memory that can be written. -/
def probeWritable : Prog (Cart σ) (ℤ×SaveProbe) := do
  let switched ← probeSramBankSwitch hw hooks clearSaveProbe
  if switched.1<0 then pure switched
  else do
    let checked ← inspect fun s => checkBatterylessSram hw s.ctx s.dev switched.2
    if checked.1 then
      pure (0,{checked.2 with
        saveType := .batteryless
        saveSize := checked.2.batterylessSize})
    else
      pure (0,{checked.2 with
        saveType := .sram
        saveSize := switchedSize checked.2.hasBankSwitch})

/-- What is reported if no chip is found. -/
def reportEeprom (temp5555 temp2aaa temp0000 : UInt8) : Prog (Cart σ) (ℤ×SaveProbe) := do
  saveWrite8 hw 0x5555 temp5555
  saveWrite8 hw 0x2aaa temp2aaa
  saveWrite8 hw 0x0000 temp0000
  pure (0,{clearSaveProbe with saveType := .eeprom,saveSize := 8192})

/-- The part of `probe_save_hardware_uncached` for memory that cannot be written. -/
def probeUnwritable : Prog (Cart σ) (ℤ×SaveProbe) := do
  let temp5555 ← saveRead8 hw 0x5555
  let temp2aaa ← saveRead8 hw 0x2aaa
  let temp0000 ← saveRead8 hw 0x0000
  let flashId ← readFlashId hw
  if saveFlashIdIsKnown flashId then
    pure (0,{clearSaveProbe with
      flashId := flashId
      hasBankSwitch := saveFlashIdHasBankSwitch flashId
      saveType := .flash
      saveSize := switchedSize (saveFlashIdHasBankSwitch flashId)})
  else do
    let header ← inspect fun s => gbaHeaderChecksumValid hw s.ctx s.dev
    if header then reportEeprom hw temp5555 temp2aaa temp0000
    else do
      let dmgId ← readDmgFlashId hw
      if dmgId≠0 then
        pure (0,{clearSaveProbe with
          isDmgCart := true
          flashId := dmgId
          saveType := .sram
          saveSize := 0})
      else reportEeprom hw temp5555 temp2aaa temp0000

/-- The function `probe_save_hardware_uncached`. -/
def probeSaveHardwareUncached : Prog (Cart σ) (ℤ×SaveProbe) := do
  let ctx ← getCtx
  if ctx.romBase=0 ∨ ctx.saveBase=0 then pure (-1,ctx.saveProbe)
  else do
    romWrite16 hw 0x1000002 0xc2
    romWrite16 hw 0x1000004 0x09
    let writable ← probeSramWritable hw
    if writable.1<0 then pure (writable.1,clearSaveProbe)
    else if writable.2 then probeWritable hw hooks
    else probeUnwritable hw

/-- The function `cl_cart_gba_probe_save_hardware`. -/
def clCartGbaProbeSaveHardware : Prog (Cart σ) (ℤ×SaveProbe) := do
  let ctx ← getCtx
  if ctx.saveProbeValid then pure (ctx.saveProbeStatus,ctx.saveProbe)
  else do
    let found ← probeSaveHardwareUncached hw hooks
    setCtx fun ctx =>
      {ctx with saveProbeStatus := found.1,saveProbeValid := true,saveProbe := found.2}
    pure found

end Probing

section Memories

variable {kind : SramKind} {bank a : ℕ}

/-- Where the window begins in the memory. -/
def firstCell (kind : SramKind) (bank : ℕ) : ℕ :=
  match kind with
  | .banked => bank%2*0x10000
  | _ => 0

theorem index_low (h : a<0x8000) : kind.index bank a=some (firstCell kind bank+a) := by
  unfold SramKind.index firstCell
  cases kind with
  | small mirrored => simp only [h,if_true,Nat.zero_add]
  | whole => simp only [Nat.zero_add,Option.some.injEq]; omega
  | banked => simp only [Option.some.injEq]; omega

/-- The memory behind the window is not the same in both banks. -/
def HasTwoBanks (kind : SramKind) : Prop := ∃ a,kind.index 0 a≠kind.index 1 a

theorem hasTwoBanks_iff_firstCell : HasTwoBanks kind ↔ firstCell kind 0≠firstCell kind 1 := by
  unfold HasTwoBanks firstCell
  cases kind with
  | small mirrored => exact ⟨fun ⟨_,h⟩ => absurd rfl h,fun h => absurd rfl h⟩
  | whole => exact ⟨fun ⟨_,h⟩ => absurd rfl h,fun h => absurd rfl h⟩
  | banked => exact ⟨fun _ => by decide,fun _ => ⟨0,by decide⟩⟩

/-- SRAM of a kind. Writes to the ROM may select any bank, and what is read where there is
no memory is left open. -/
structure SramMemory (hw : CartHardware σ) (hooks : SaveHooks σ) (view : SaveView σ)
    (kind : SramKind) : Prop where
  /-- A read returns what is there. -/
  read_value : ∀ a d i,kind.index (view.bank d) a=some i → (hw.saveRead8 a d).1=view.cells d i
  /-- It changes nothing. -/
  read_cells : ∀ a d,view.cells (hw.saveRead8 a d).2=view.cells d
  /-- Not even the bank. -/
  read_bank : ∀ a d,view.bank (hw.saveRead8 a d).2=view.bank d
  /-- A write changes what is there. -/
  write_cells : ∀ a v d i,kind.index (view.bank d) a=some i →
    view.cells (hw.saveWrite8 a v d)=Function.update (view.cells d) i v
  /-- It does not change the bank. -/
  write_bank : ∀ a v d,view.bank (hw.saveWrite8 a v d)=view.bank d
  /-- A write to the ROM does not change the memory. -/
  rom_cells : ∀ a v d,view.cells (hw.romWrite16 a v d)=view.cells d
  /-- Selecting a bank does nothing else. -/
  switch : ∃ switch,hooks.switchSramBank=some switch ∧
    ∀ b d,view.cells (switch b d)=view.cells d ∧ view.bank (switch b d)=b.toNat

end Memories

section Effects

variable {hw : CartHardware σ} {hooks : SaveHooks σ} {view : SaveView σ} {kind : SramKind}
  {s t : Cart σ} {c : ℕ → UInt8} {bank a i : ℕ}

theorem wp_read (hmemory : SramMemory hw hooks view kind) (hi : kind.index bank a=some i)
    (ht : Holds view s c bank t) :
    wp (saveRead8 hw a) (fun value u => value=c i ∧ Holds view s c bank u) (fun _ => False)
      t := by
  have hvalue := hmemory.read_value a t.dev i (by rw [ht.bank_eq]; exact hi)
  rw [ht.cells_eq] at hvalue
  exact ⟨hvalue,ht.ctx,ht.waitcnt,(hmemory.read_cells a t.dev).trans ht.cells_eq,
    (hmemory.read_bank a t.dev).trans ht.bank_eq⟩

theorem wp_write (hmemory : SramMemory hw hooks view kind) (hi : kind.index bank a=some i)
    (v : UInt8) (ht : Holds view s c bank t) :
    wp (saveWrite8 hw a v) (fun _ u => Holds view s (Function.update c i v) bank u)
      (fun _ => False) t := by
  have hcells := hmemory.write_cells a v t.dev i (by rw [ht.bank_eq]; exact hi)
  rw [ht.cells_eq] at hcells
  exact ⟨ht.ctx,ht.waitcnt,hcells,(hmemory.write_bank a v t.dev).trans ht.bank_eq⟩

theorem wp_probeSwitchSramBank (hmemory : SramMemory hw hooks view kind) (b : UInt8)
    (ht : Holds view s c bank t) :
    wp (probeSwitchSramBank hooks b) (fun _ u => Holds view s c b.toNat u) (fun _ => False)
      t := by
  obtain ⟨switch,hswitch,hselect⟩ := hmemory.switch
  unfold probeSwitchSramBank
  rw [hswitch]
  exact ⟨ht.ctx,ht.waitcnt,(hselect b t.dev).1.trans ht.cells_eq,(hselect b t.dev).2⟩

/-- A write to the ROM, after which some bank is selected. -/
theorem wp_romWrite16 (hmemory : SramMemory hw hooks view kind) (offset : ℕ) (value : UInt16)
    (ht : Holds view s c bank t) :
    wp (romWrite16 hw offset value) (fun _ u => ∃ now,Holds view s c now u) (fun _ => False)
      t := by
  unfold romWrite16 getCtx
  rw [wp_bind,wp_inspect]
  split
  · exact ⟨bank,ht⟩
  · exact ⟨_,ht.ctx,ht.waitcnt,(hmemory.rom_cells _ _ _).trans ht.cells_eq,rfl⟩

/-- Two bytes that were changed and are put back in the other order. -/
theorem update_back {c : ℕ → UInt8} {i j : ℕ} (h : i≠j) (v w : UInt8) :
    Function.update (Function.update (Function.update (Function.update c i v) j w) j (c j)) i
      (c i)=c := by
  rw [Function.update_idem,Function.update_comm h,Function.update_eq_self,
    Function.update_idem,Function.update_eq_self]

/-- SRAM is found to be writable, and is as before. -/
theorem wp_probeSramWritable (hmemory : SramMemory hw hooks view kind)
    (ht : Holds view s c bank t) :
    wp (probeSramWritable hw) (fun reply u => reply=(0,true) ∧ Holds view s c bank u)
      (fun _ => False) t := by
  have hA : kind.index bank offsetA=some (firstCell kind bank+offsetA) := index_low (by decide)
  have hB : kind.index bank offsetB=some (firstCell kind bank+offsetB) := index_low (by decide)
  have hne : firstCell kind bank+offsetA≠firstCell kind bank+offsetB := by
    unfold offsetA offsetB
    omega
  revert hA hB hne
  generalize firstCell kind bank+offsetA=i
  generalize firstCell kind bank+offsetB=j
  intro hA hB hne
  unfold probeSramWritable
  refine wp_seq (wp_read hmemory hA ht) ?_
  rintro originalA t ⟨rfl,ht⟩
  refine wp_seq (wp_read hmemory hB ht) ?_
  rintro originalB t ⟨rfl,ht⟩
  dsimp only
  generalize probePattern (c i) (c j)=patternA
  generalize probePattern (c j) patternA=patternB
  refine wp_seq (wp_write hmemory hA patternA ht) ?_
  intro _ t ht
  refine wp_seq (wp_read hmemory hA ht) ?_
  rintro readAFirst t ⟨hfirst,ht⟩
  refine wp_seq (wp_write hmemory hB patternB ht) ?_
  intro _ t ht
  refine wp_seq (wp_read hmemory hB ht) ?_
  rintro readB t ⟨hreadB,ht⟩
  refine wp_seq (wp_read hmemory hA ht) ?_
  rintro readASecond t ⟨hsecond,ht⟩
  refine wp_seq (wp_write hmemory hB (c j) ht) ?_
  intro _ t ht
  refine wp_seq (wp_write hmemory hA (c i) ht) ?_
  intro _ t ht
  rw [update_back hne] at ht
  refine wp_seq (wp_read hmemory hA ht) ?_
  rintro nowA t ⟨rfl,ht⟩
  rw [if_neg (fun h => h rfl)]
  refine wp_seq (wp_read hmemory hB ht) ?_
  rintro nowB t ⟨rfl,ht⟩
  rw [if_neg (fun h => h rfl)]
  rw [Function.update_self] at hfirst hreadB
  rw [Function.update_of_ne hne,Function.update_self] at hsecond
  refine ⟨?_,ht⟩
  rw [hfirst,hreadB,hsecond]
  simp only [decide_true,Bool.and_self]

theorem complement_ne (v : UInt8) : ~~~v≠v := by
  intro h
  have hsum := congrArg UInt8.toNat h
  rw [UInt8.toNat_not] at hsum
  have hlt := v.toNat_lt
  unfold UInt8.size at hsum
  omega

/-- The bank switch is found if there is one, and the memory is as before. -/
theorem wp_probeSramBankSwitch (hmemory : SramMemory hw hooks view kind) (probe : SaveProbe)
    (hprobe : probe.hasBankSwitch=false) (ht : Holds view s c bank t) :
    wp (probeSramBankSwitch hw hooks probe)
      (fun reply u => reply.1=0 ∧ (reply.2.hasBankSwitch=true ↔ HasTwoBanks kind) ∧
        Holds view s c 0 u)
      (fun _ => False) t := by
  have h0 : kind.index 0 offsetA=some (firstCell kind 0+offsetA) := index_low (by decide)
  have h1 : kind.index 1 offsetA=some (firstCell kind 1+offsetA) := index_low (by decide)
  have hbanks : HasTwoBanks kind ↔ firstCell kind 1+offsetA≠firstCell kind 0+offsetA := by
    rw [hasTwoBanks_iff_firstCell]
    omega
  revert h0 h1 hbanks
  generalize firstCell kind 0+offsetA=i
  generalize firstCell kind 1+offsetA=j
  intro h0 h1 hbanks
  unfold probeSramBankSwitch
  refine wp_seq (wp_probeSwitchSramBank hmemory 0 ht) ?_
  intro _ t ht
  refine wp_seq (wp_read hmemory h0 ht) ?_
  rintro bank0 t ⟨rfl,ht⟩
  refine wp_seq (wp_probeSwitchSramBank hmemory 1 ht) ?_
  intro _ t ht
  refine wp_seq (wp_read hmemory h1 ht) ?_
  rintro bank1 t ⟨rfl,ht⟩
  refine wp_seq (wp_probeSwitchSramBank hmemory 0 ht) ?_
  intro _ t ht
  split
  next hdifferent =>
    have htwo : j≠i := fun h => hdifferent (by rw [h])
    exact ⟨rfl,⟨fun _ => hbanks.mpr htwo,fun _ => rfl⟩,ht⟩
  next hequal =>
    have hsame : c i=c j := not_not.mp hequal
    refine wp_seq (wp_probeSwitchSramBank hmemory 0 ht) ?_
    intro _ t ht
    refine wp_seq (wp_write hmemory h0 (~~~(c i)) ht) ?_
    intro _ t ht
    refine wp_seq (wp_read hmemory h0 ht) ?_
    rintro changed t ⟨rfl,ht⟩
    rw [Function.update_self,if_neg (complement_ne (c i))]
    refine wp_seq (wp_probeSwitchSramBank hmemory 1 ht) ?_
    intro _ t ht
    refine wp_seq (wp_read hmemory h1 ht) ?_
    rintro other t ⟨hother,ht⟩
    dsimp only
    refine wp_seq (wp_probeSwitchSramBank hmemory 0 ht) ?_
    intro _ t ht
    refine wp_seq (wp_write hmemory h0 (c i) ht) ?_
    intro _ t ht
    rw [Function.update_idem,Function.update_eq_self] at ht
    refine wp_seq (wp_read hmemory h0 ht) ?_
    rintro now t ⟨rfl,ht⟩
    rw [if_neg (fun h => h rfl)]
    refine ⟨rfl,?_,ht⟩
    rw [hbanks,hother]
    -- the second bank shows the change exactly if it is the first
    by_cases hone : j=i
    · rw [hone,Function.update_self,if_neg (hsame ▸ hone ▸ complement_ne (c i)),hprobe]
      exact ⟨fun h => absurd h (by decide),fun h => absurd rfl h⟩
    · rw [Function.update_of_ne hone,if_pos rfl]
      exact ⟨fun _ => hone,fun _ => rfl⟩

theorem describeBatteryless_hasBankSwitch (hw : CartHardware σ) (ctx : CartCtx) (d : σ)
    (address : ℕ) (probe : SaveProbe) :
    (describeBatteryless hw ctx d address probe).2.hasBankSwitch=probe.hasBankSwitch := by
  unfold describeBatteryless
  simp only [apply_ite Prod.snd,apply_ite SaveProbe.hasBankSwitch,ite_self]

/-- Looking for a batteryless save does not change what was found of the banks. -/
theorem checkBatterylessSram_hasBankSwitch (hw : CartHardware σ) (ctx : CartCtx) (d : σ)
    (probe : SaveProbe) :
    (checkBatterylessSram hw ctx d probe).2.hasBankSwitch=probe.hasBankSwitch := by
  unfold checkBatterylessSram
  dsimp only
  split
  · rfl
  · split
    · rfl
    · exact describeBatteryless_hasBankSwitch hw ctx d _ probe

/-- What is right of a report. -/
def Tells (kind : SramKind) (report : ℤ×SaveProbe) : Prop :=
  report.1=0 ∧ (report.2.saveType=.sram →
    (report.2.hasBankSwitch=true ↔ HasTwoBanks kind) ∧
    report.2.saveSize=
      if report.2.hasBankSwitch=true then clCartGbaMaxLinearSaveSize else clCartGbaSramBankSize)

/-- What probing comes to. -/
theorem wp_probeSaveHardwareUncached (hmemory : SramMemory hw hooks view kind)
    (hrom : s.ctx.romBase≠0) (hsave : s.ctx.saveBase≠0) :
    wp (probeSaveHardwareUncached hw hooks)
      (fun report u => Tells kind report ∧ Holds view s (view.cells s.dev) 0 u)
      (fun _ => False) s := by
  have hs : Holds view s (view.cells s.dev) (view.bank s.dev) s := ⟨rfl,rfl,rfl,rfl⟩
  unfold probeSaveHardwareUncached getCtx
  rw [wp_bind,wp_inspect,if_neg (fun h => h.elim hrom hsave)]
  refine wp_seq (wp_romWrite16 hmemory _ _ hs) ?_
  rintro _ t ⟨bank,ht⟩
  refine wp_seq (wp_romWrite16 hmemory _ _ ht) ?_
  rintro _ t ⟨bank,ht⟩
  refine wp_seq (wp_probeSramWritable hmemory ht) ?_
  rintro _ t ⟨rfl,ht⟩
  rw [if_neg (by decide),if_pos rfl]
  unfold probeWritable
  refine wp_seq (wp_probeSramBankSwitch hmemory clearSaveProbe rfl ht) ?_
  rintro switched t ⟨hzero,hswitch,ht⟩
  rw [if_neg (by omega),wp_bind,wp_inspect]
  have hkept := checkBatterylessSram_hasBankSwitch hw t.ctx t.dev switched.2
  split
  · exact ⟨⟨rfl,fun h => SaveType.noConfusion h⟩,ht⟩
  · refine ⟨⟨rfl,fun _ => ⟨?_,rfl⟩⟩,ht⟩
    dsimp only
    rw [hkept]
    exact hswitch

end Effects

section Accesses

variable (hw : CartHardware σ) (hooks : SaveHooks σ) (view : SaveView σ)

/-- Nothing but the hook of SRAM selects a bank of it. -/
structure OthersKeepBank : Prop where
  /-- Not the hook for the banks of FLASH. -/
  switchFlashBank : ∀ switch,hooks.switchFlashBank=some switch → ∀ b d,
    view.bank (switch b d)=view.bank d
  /-- Not one that erases. -/
  eraseFlash : ∀ erase,hooks.eraseFlash=some erase → ∀ a d,
    view.bank (erase a d).2=view.bank d
  /-- Not one that programs. -/
  writeFlashByte : ∀ write,hooks.writeFlashByte=some write → ∀ a v d,
    view.bank (write a v d).2=view.bank d
  /-- Not one that reads EEPROM. -/
  readEepromUnit : ∀ readUnit,hooks.readEepromUnit=some readUnit → ∀ unit bits d,
    view.bank (readUnit unit bits d).2=view.bank d
  /-- Not one that writes it. -/
  writeEepromUnit : ∀ writeUnit,hooks.writeEepromUnit=some writeUnit → ∀ unit bits data d,
    view.bank (writeUnit unit bits data d).2=view.bank d

/-- What an access to FLASH or EEPROM leaves of a state. -/
structure Unprobed (s t : Cart σ) : Prop where
  /-- Address of the ROM. -/
  romBase : t.ctx.romBase=s.ctx.romBase
  /-- Address of the save. -/
  saveBase : t.ctx.saveBase=s.ctx.saveBase
  /-- Whether a probe was made. -/
  saveProbeValid : t.ctx.saveProbeValid=s.ctx.saveProbeValid
  /-- Its result. -/
  saveProbeStatus : t.ctx.saveProbeStatus=s.ctx.saveProbeStatus
  /-- What it found. -/
  saveProbe : t.ctx.saveProbe=s.ctx.saveProbe
  /-- The bank of SRAM. -/
  bank : view.bank s.dev=0 → view.bank t.dev=0

variable {hw hooks view} {s : Cart σ}

theorem unprobed_self : Unprobed view s s := ⟨rfl,rfl,rfl,rfl,rfl,fun h => h⟩

theorem unprobed_home {t : Cart σ} (h : Home view s t) : Unprobed view s t :=
  ⟨by rw [h.ctx],by rw [h.ctx],by rw [h.ctx],by rw [h.ctx],by rw [h.ctx],h.bank⟩

/-- Something that keeps the bank. -/
theorem keeps_onDevice {α : Type} {f : σ → α×σ} (h : ∀ d,view.bank (f d).2=view.bank d) :
    Keeps (Unprobed view s) (onDevice f) := by
  refine keeps_access fun t ht => ?_
  refine ⟨ht.romBase,ht.saveBase,ht.saveProbeValid,ht.saveProbeStatus,ht.saveProbe,fun hzero => ?_⟩
  dsimp only
  rw [h]
  exact ht.bank hzero

theorem keeps_getCtx : Keeps (Unprobed view s) getCtx := keeps_inspect _

theorem keeps_flashWaitcntEnter : Keeps (Unprobed view s) flashWaitcntEnter :=
  keeps_access fun _ ht =>
    ⟨ht.romBase,ht.saveBase,ht.saveProbeValid,ht.saveProbeStatus,ht.saveProbe,ht.bank⟩

theorem keeps_flashWaitcntRestore (old : UInt16) : Keeps (Unprobed view s) (flashWaitcntRestore old) :=
  keeps_update fun _ ht =>
    ⟨ht.romBase,ht.saveBase,ht.saveProbeValid,ht.saveProbeStatus,ht.saveProbe,ht.bank⟩

theorem keeps_switchFlashBank (hothers : OthersKeepBank hooks view) (b : UInt8) :
    Keeps (Unprobed view s) (switchFlashBank hooks b) := by
  unfold switchFlashBank
  refine keeps_getCtx.bind fun ctx => keeps_ite ?_ (keeps_pure ())
  cases hhook : hooks.switchFlashBank with
  | none => exact keeps_pure ()
  | some switch =>
    exact keeps_onDevice (f := fun d => ((),switch b d))
      fun d => hothers.switchFlashBank switch hhook b d

theorem keeps_readWindow (hread : ∀ a d,view.bank (hw.saveRead8 a d).2=view.bank d)
    (a n : ℕ) : Keeps (Unprobed view s) (readWindow hw a n) := by
  induction n generalizing a with
  | zero => exact keeps_pure []
  | succ n ih =>
    unfold readWindow
    refine (keeps_onDevice (hread a)).bind fun value => (ih (a+1)).bind fun rest => ?_
    exact keeps_pure _

/-- Reading FLASH. -/
theorem keeps_linearSaveRead (hread : ∀ a d,view.bank (hw.saveRead8 a d).2=view.bank d)
    (hothers : OthersKeepBank hooks view) (htype : s.ctx.saveType=.flash) (offset length : ℕ) :
    wp (linearSaveRead hw hooks offset length) (fun _ t => Unprobed view s t) (fun _ => False)
      s := by
  unfold linearSaveRead getCtx
  rw [wp_bind,wp_inspect,htype,if_pos rfl]
  refine keeps_flashWaitcntEnter.bind (fun old => ?_) s unprobed_self
  refine (keeps_readPieces (fun address n => ?_) _ _ _).bind fun data => ?_
  · unfold readBankPiece selectBank
    rw [if_pos rfl]
    refine (keeps_switchFlashBank hothers _).bind fun _ => ?_
    exact (keeps_readWindow hread _ n).bind fun data => keeps_pure _
  · refine (keeps_switchFlashBank hothers 0).bind fun _ => ?_
    exact (keeps_flashWaitcntRestore old).bind fun _ => keeps_pure _

theorem keeps_leaveFlash (hothers : OthersKeepBank hooks view) (old : UInt16) (ret : ℤ) :
    Keeps (Unprobed view s) (leaveFlash hooks old ret) :=
  (keeps_switchFlashBank hothers 0).bind fun _ =>
    (keeps_flashWaitcntRestore old).bind fun _ => keeps_pure ret

theorem keeps_eraseSectorOnce {erase : ℕ → σ → ℤ×σ}
    (herase : ∀ a d,view.bank (erase a d).2=view.bank d) (sector sectorBase : ℕ) :
    Keeps (Unprobed view s) (eraseSectorOnce erase sector sectorBase) := by
  unfold eraseSectorOnce
  refine keeps_getCtx.bind fun ctx => keeps_ite ?_ (keeps_pure 0)
  refine (keeps_onDevice (herase sectorBase)).bind fun ret => keeps_ite (keeps_pure ret) ?_
  refine Keeps.bind (keeps_update fun t ht => ?_) fun _ => keeps_pure 0
  exact ⟨ht.romBase,ht.saveBase,ht.saveProbeValid,ht.saveProbeStatus,ht.saveProbe,ht.bank⟩

theorem keeps_programWindow {write : ℕ → UInt8 → σ → ℤ×σ}
    (hwrite : ∀ a v d,view.bank (write a v d).2=view.bank d) (a : ℕ) (src : List UInt8) :
    Keeps (Unprobed view s) (programWindow write a src) := by
  induction src generalizing a with
  | nil => exact keeps_pure 0
  | cons v src ih =>
    unfold programWindow
    exact (keeps_onDevice (hwrite a v)).bind fun ret => keeps_ite (keeps_pure ret) (ih (a+1))

theorem keeps_verifyWindow (hread : ∀ a d,view.bank (hw.saveRead8 a d).2=view.bank d) (a : ℕ)
    (src : List UInt8) : Keeps (Unprobed view s) (verifyWindow hw a src) := by
  induction src generalizing a with
  | nil => exact keeps_pure true
  | cons v src ih =>
    unfold verifyWindow
    exact (keeps_onDevice (hread a)).bind fun now => keeps_ite (keeps_pure false) (ih (a+1))

/-- Writing FLASH. -/
theorem keeps_linearFlashWrite (hread : ∀ a d,view.bank (hw.saveRead8 a d).2=view.bank d)
    (hothers : OthersKeepBank hooks view) (offset : ℕ) (src : List UInt8) :
    Keeps (Unprobed view s) (linearFlashWrite hw hooks offset src) := by
  unfold linearFlashWrite
  split
  next erase write herase hwrite =>
    refine keeps_getCtx.bind fun ctx => keeps_ite (keeps_pure _) ?_
    refine keeps_flashWaitcntEnter.bind fun old => ?_
    refine (keeps_writePieces (fun address piece => ?_) _ _ _).bind fun ret => ?_
    · unfold flashPiece
      have hleave := fun ret => @keeps_leaveFlash σ hooks view s hothers old ret
      refine keeps_ite (hleave _) ?_
      refine (keeps_switchFlashBank hothers _).bind fun _ => ?_
      refine (keeps_eraseSectorOnce (hothers.eraseFlash erase herase) _ _).bind fun erased => ?_
      refine keeps_ite (hleave _) ?_
      refine (keeps_programWindow (hothers.writeFlashByte write hwrite) _ _).bind fun done => ?_
      refine keeps_ite (hleave _) ?_
      exact (keeps_verifyWindow hread _ _).bind fun right => keeps_ite (keeps_pure 0) (hleave _)
    · exact keeps_ite (keeps_pure ret) (keeps_leaveFlash hothers old 0)
  · exact keeps_pure _

/-- Reading EEPROM. -/
theorem keeps_eepromReadBytes (hothers : OthersKeepBank hooks view) (offset length : ℕ) :
    Keeps (Unprobed view s) (eepromReadBytes hooks offset length) := by
  unfold eepromReadBytes
  cases hhook : hooks.readEepromUnit with
  | none => exact keeps_pure _
  | some readUnit =>
    refine keeps_getCtx.bind fun ctx => keeps_readPieces (fun address n => ?_) _ _ _
    exact (keeps_onDevice (hothers.readEepromUnit readUnit hhook _ _)).bind
      fun reply => keeps_ite (keeps_pure _) (keeps_pure _)

/-- Writing it. -/
theorem keeps_eepromWriteBytes (hothers : OthersKeepBank hooks view) (offset : ℕ)
    (src : List UInt8) : Keeps (Unprobed view s) (eepromWriteBytes hooks offset src) := by
  unfold eepromWriteBytes
  split
  next readUnit writeUnit hreadUnit hwriteUnit =>
    refine keeps_getCtx.bind fun ctx => keeps_writePieces (fun address piece => ?_) _ _ _
    have hwrite := fun unit bits data =>
      @keeps_onDevice σ view s _ _ (hothers.writeEepromUnit writeUnit hwriteUnit unit bits data)
    unfold writeUnitPiece
    refine keeps_ite ?_ (hwrite _ _ _)
    exact (keeps_onDevice (hothers.readEepromUnit readUnit hreadUnit _ _)).bind
      fun reply => keeps_ite (keeps_pure _) (hwrite _ _ _)
  · exact keeps_pure _

/-- Reading the save, of any kind. -/
theorem wp_gbaRead_unprobed (hbanked : Banked hw hooks view s.ctx.saveSize)
    (hothers : OthersKeepBank hooks view) (offset length : ℕ) :
    wp (gbaRead hw hooks .save offset length) (fun _ t => Unprobed view s t)
      (fun _ => False) s := by
  by_cases hflash : s.ctx.saveType=.flash
  · unfold gbaRead readSave getCtx
    split
    · exact unprobed_self
    · dsimp only
      rw [wp_bind,wp_inspect]
      split
      · exact unprobed_self
      · split
        · exact unprobed_self
        · rw [if_neg (by rw [hflash]; decide),wp_bind]
          exact keeps_linearSaveRead hbanked.read_bank hothers hflash offset _
  · by_cases heeprom : s.ctx.saveType=.eeprom
    · unfold gbaRead readSave getCtx
      split
      · exact unprobed_self
      · dsimp only
        rw [wp_bind,wp_inspect]
        split
        · exact unprobed_self
        · split
          · exact unprobed_self
          · refine (keeps_eepromReadBytes hothers offset _).bind (fun reply => ?_) s unprobed_self
            cases reply with
            | error ret => exact keeps_pure _
            | ok data => exact keeps_pure _
    · exact wp_post (wp_gbaRead_home hbanked hflash heeprom offset length)
        (fun _ _ h => unprobed_home h)

/-- Writing the save, of any kind. -/
theorem wp_gbaWrite_unprobed (hbanked : Banked hw hooks view s.ctx.saveSize)
    (hothers : OthersKeepBank hooks view) (offset : ℕ) (src : List UInt8) :
    wp (gbaWrite hw hooks .save offset src) (fun _ t => Unprobed view s t)
      (fun _ => False) s := by
  by_cases hhome : s.ctx.saveType≠.flash ∧ s.ctx.saveType≠.eeprom
  · exact wp_post (wp_gbaWrite_home hbanked hhome.1 hhome.2 offset src)
      (fun _ _ h => unprobed_home h)
  · unfold gbaWrite writeSave getCtx
    split
    · exact unprobed_self
    · dsimp only
      rw [wp_bind,wp_inspect]
      split
      · exact unprobed_self
      · split
        · exact unprobed_self
        · split
          · exact (keeps_eepromWriteBytes hothers offset _).bind
              (fun ret => keeps_pure _) s unprobed_self
          next heeprom =>
            rw [if_pos (not_not.mp fun h => hhome ⟨h,heeprom⟩)]
            exact (keeps_linearFlashWrite hbanked.read_bank hothers offset _).bind
              (fun ret => keeps_pure _) s unprobed_self

end Accesses

section Calls

/-- The calls of the driver for a save. -/
inductive SaveUse where
  /-- Probe the hardware. -/
  | probe
  /-- Forget what was found. -/
  | invalidate
  /-- Configure the save. -/
  | configure (saveType : SaveType) (saveSize saveBase : ℕ)
  /-- Install the driver again. -/
  | install (romBase romSize saveBase : ℕ) (saveType : SaveType) (saveSize : ℕ)
  /-- Read the save. -/
  | read (offset length : ℕ)
  /-- Write it. -/
  | write (offset : ℕ) (src : List UInt8)
  /-- Set its size. -/
  | setSize (size : ℕ)

variable (hw : CartHardware σ) (hooks : SaveHooks σ) (view : SaveView σ) (kind : SramKind)

/-- The cartridge after the driver was installed. -/
def installed (romBase romSize saveBase : ℕ) (saveType : SaveType) (saveSize : ℕ)
    (s : Cart σ) : Cart σ :=
  {s with ctx := clCartGbaInstallDriver romBase romSize saveBase saveType saveSize s.ctx}

/-- The cartridge after a call. -/
def useSave (s : Cart σ) : SaveUse → Option (Cart σ)
  | .probe => some (clCartGbaProbeSaveHardware hw hooks s).2
  | .invalidate => some {s with ctx := clCartGbaInvalidateSaveProbe s.ctx}
  | .configure saveType saveSize saveBase =>
    some {s with ctx := (clCartGbaConfigureSave saveType saveSize saveBase s.ctx).2}
  | .install romBase romSize saveBase saveType saveSize =>
    some (installed romBase romSize saveBase saveType saveSize s)
  | .read offset length => some (gbaRead hw hooks .save offset length s).2
  | .write offset src => some (gbaWrite hw hooks .save offset src s).2
  | .setSize size => some (gbaSetSize hw .save size s).2

/-- A probe changes no byte, ends with the first bank and tells what there is. -/
def Harmless (s : Cart σ) : SaveUse → Prop
  | .probe => wp (clCartGbaProbeSaveHardware hw hooks)
    (fun report t => view.cells t.dev=view.cells s.dev ∧ view.bank t.dev=0 ∧ Tells kind report)
    (fun _ => False) s
  | _ => True

/-- The driver is installed, and what it remembers of a probe is right. -/
structure Known (s : Cart σ) : Prop where
  /-- There is a ROM. -/
  romBase : s.ctx.romBase≠0
  /-- There is a save. -/
  saveBase : s.ctx.saveBase≠0
  /-- What is remembered, and the bank. -/
  probed : s.ctx.saveProbeValid=true →
    view.bank s.dev=0 ∧ Tells kind (s.ctx.saveProbeStatus,s.ctx.saveProbe)

variable {hw hooks view kind} {s : Cart σ}

theorem applySaveConfig_addresses (ctx : CartCtx) (saveType : SaveType) (saveSize saveBase : ℕ)
    (hrom : ctx.romBase≠0) (hsave : ctx.saveBase≠0) :
    (applySaveConfig ctx saveType saveSize saveBase).romBase≠0 ∧
      (applySaveConfig ctx saveType saveSize saveBase).saveBase≠0 := by
  unfold applySaveConfig
  dsimp only
  split
  · refine ⟨hrom,?_⟩
    dsimp only
    split
    next hgiven => exact hgiven
    · exact hsave
  · refine ⟨hrom,?_⟩
    dsimp only
    split
    next hgiven => exact hgiven
    · exact hsave

theorem applySaveConfig_saveProbeValid (ctx : CartCtx) (saveType : SaveType)
    (saveSize saveBase : ℕ) :
    (applySaveConfig ctx saveType saveSize saveBase).saveProbeValid=ctx.saveProbeValid := by
  unfold applySaveConfig
  dsimp only
  split <;> rfl

/-- An installed driver knows of no probe. -/
theorem known_installed (romBase romSize saveBase : ℕ) (saveType : SaveType) (saveSize : ℕ)
    (s : Cart σ) : Known view kind (installed romBase romSize saveBase saveType saveSize s) := by
  have hdefault : ∀ {given default : ℕ},default≠0 → (if given≠0 then given else default)≠0 := by
    intro given default hdefault
    split
    next hgiven => exact hgiven
    · exact hdefault
  unfold installed clCartGbaInstallDriver
  have haddresses := applySaveConfig_addresses
    (clCartGbaInvalidateSaveProbe { s.ctx with
      romBase := if romBase≠0 then romBase else clCartGbaDefaultRomBase
      romSize := clampRomSize romSize
      saveBase := if saveBase≠0 then saveBase else clCartGbaDefaultSaveBase })
    (normalizeSaveType saveType) (if normalizeSaveType saveType=.none then 0 else saveSize)
    (if saveBase≠0 then saveBase else clCartGbaDefaultSaveBase)
    (hdefault (by decide)) (hdefault (by decide))
  refine ⟨haddresses.1,haddresses.2,fun hvalid => ?_⟩
  dsimp only at hvalid
  rw [applySaveConfig_saveProbeValid] at hvalid
  exact absurd hvalid Bool.false_ne_true

theorem known_of_unprobed {t : Cart σ} (hs : Known view kind s) (h : Unprobed view s t) :
    Known view kind t := by
  refine ⟨by rw [h.romBase]; exact hs.romBase,by rw [h.saveBase]; exact hs.saveBase,?_⟩
  rw [h.saveProbeValid,h.saveProbeStatus,h.saveProbe]
  exact fun hvalid => ⟨h.bank (hs.probed hvalid).1,(hs.probed hvalid).2⟩

/-- A probe, of the hardware or of what is remembered. -/
theorem wp_probe (hmemory : SramMemory hw hooks view kind) (hs : Known view kind s) :
    wp (clCartGbaProbeSaveHardware hw hooks)
      (fun report t => (view.cells t.dev=view.cells s.dev ∧ view.bank t.dev=0 ∧
        Tells kind report) ∧ Known view kind t)
      (fun _ => False) s := by
  unfold clCartGbaProbeSaveHardware getCtx
  rw [wp_bind,wp_inspect]
  split
  next hvalid =>
    obtain ⟨hbank,htells⟩ := hs.probed hvalid
    exact ⟨⟨rfl,hbank,htells⟩,hs⟩
  · refine wp_seq (wp_probeSaveHardwareUncached hmemory hs.romBase hs.saveBase) ?_
    rintro report t ⟨htells,ht⟩
    refine ⟨⟨ht.cells_eq,ht.bank_eq,htells⟩,?_,?_,fun _ => ⟨ht.bank_eq,htells⟩⟩
    · dsimp only
      rw [ht.ctx]
      exact hs.romBase
    · dsimp only
      rw [ht.ctx]
      exact hs.saveBase

theorem known_configure (hs : Known view kind s) (saveType : SaveType)
    (saveSize saveBase : ℕ) :
    Known view kind {s with ctx := (clCartGbaConfigureSave saveType saveSize saveBase s.ctx).2} := by
  unfold clCartGbaConfigureSave
  rw [if_neg hs.romBase]
  have haddresses := applySaveConfig_addresses (clCartGbaInvalidateSaveProbe s.ctx) saveType
    saveSize saveBase hs.romBase hs.saveBase
  refine ⟨haddresses.1,haddresses.2,fun hvalid => ?_⟩
  dsimp only at hvalid
  rw [applySaveConfig_saveProbeValid] at hvalid
  exact absurd hvalid Bool.false_ne_true

theorem known_setSize (hs : Known view kind s) (size : ℕ) :
    wp (gbaSetSize hw .save size) (fun _ t => Known view kind t) (fun _ => False) s := by
  unfold gbaSetSize getCtx
  dsimp only
  rw [wp_bind,wp_inspect]
  split
  · exact hs
  · exact ⟨hs.romBase,hs.saveBase,hs.probed⟩

theorem SramMemory.banked (hmemory : SramMemory hw hooks view kind) (size : ℕ) :
    Banked hw hooks view size := by
  obtain ⟨switch,hswitch,hselect⟩ := hmemory.switch
  exact ⟨hmemory.read_bank,hmemory.write_bank,
    fun _ => ⟨switch,hswitch,fun b d => (hselect b d).2⟩⟩

/-- A call keeps what is known. -/
theorem known_useSave (hmemory : SramMemory hw hooks view kind)
    (hothers : OthersKeepBank hooks view) (hs : Known view kind s) (call : SaveUse) {t : Cart σ}
    (ht : useSave hw hooks s call=some t) : Known view kind t := by
  have hbanked := hmemory.banked s.ctx.saveSize
  cases call with
  | probe =>
    obtain ⟨report,u,hrun,-,hu⟩ := wp_total (wp_probe hmemory hs)
    cases ht
    rw [hrun]
    exact hu
  | invalidate =>
    cases ht
    exact ⟨hs.romBase,hs.saveBase,fun h => absurd h Bool.false_ne_true⟩
  | configure saveType saveSize saveBase =>
    cases ht
    exact known_configure hs saveType saveSize saveBase
  | install romBase romSize saveBase saveType saveSize =>
    cases ht
    exact known_installed romBase romSize saveBase saveType saveSize s
  | read offset length =>
    obtain ⟨reply,u,hrun,hu⟩ := wp_total (wp_gbaRead_unprobed hbanked hothers offset length)
    cases ht
    rw [hrun]
    exact known_of_unprobed hs hu
  | write offset src =>
    obtain ⟨reply,u,hrun,hu⟩ := wp_total (wp_gbaWrite_unprobed hbanked hothers offset src)
    cases ht
    rw [hrun]
    exact known_of_unprobed hs hu
  | setSize size =>
    obtain ⟨reply,u,hrun,hu⟩ := wp_total (@known_setSize σ hw view kind s hs size)
    cases ht
    rw [hrun]
    exact hu

/-- In every run of calls after the driver was installed, whatever SRAM contains and
whichever bank is selected, every probe changes no byte of it, ends with the first bank and
tells rightly whether there is a second one. -/
theorem probes_are_harmless (hw : CartHardware σ) (hooks : SaveHooks σ) (view : SaveView σ)
    (kind : SramKind) (hmemory : SramMemory hw hooks view kind)
    (hothers : OthersKeepBank hooks view) (romBase romSize saveBase : ℕ) (saveType : SaveType)
    (saveSize : ℕ) (start : Cart σ) (trace : List (Cart σ×SaveUse)) (last : Cart σ)
    (run : Run (useSave hw hooks) (installed romBase romSize saveBase saveType saveSize start)
      trace last) :
    EveryStep (Harmless hw hooks view kind) trace := by
  have hall := run.always (known_installed romBase romSize saveBase saveType saveSize start)
    fun s call t hs ht => known_useSave hmemory hothers hs call ht
  rintro ⟨s,call⟩ hentry
  cases call with
  | probe =>
    exact wp_post (wp_probe hmemory (hall.1 _ hentry)) (fun _ _ h => h.1)
  | _ => trivial

end Calls

section Chips

theorem splice_single (c : ℕ → UInt8) (i : ℕ) (v : UInt8) :
    splice c i [v]=Function.update c i v := by
  funext j
  by_cases h : j=i
  · subst h
    rw [splice_head,Function.update_self]
  · rw [Function.update_of_ne h]
    refine splice_outside ?_
    rw [List.length_singleton]
    omega

/-- Each kind of SRAM behind the hook of the driver. -/
theorem sramMemory (kind : SramKind) (rom : ℕ → UInt16) :
    SramMemory (sramHardware kind rom) (sramHooks kind rom) sramView kind := by
  refine ⟨fun a d i hi => ?_,fun _ _ => rfl,fun _ _ => rfl,fun a v d i hi => ?_,fun a v d => ?_,
    fun a v d => ?_,⟨_,rfl,fun b d => ?_⟩⟩
  · have hat : kind.index d.bank a=some i := hi
    simp only [sramHardware,sramView,hat]
  · have hat : kind.index d.bank a=some i := hi
    simp only [sramHardware,sramView,hat]
    exact splice_single d.cells i v
  · simp only [sramHardware,sramView]
    cases kind.index d.bank a <;> rfl
  · change (if a=bankRegister then {d with bank := v.toNat} else d).cells=d.cells
    split <;> rfl
  · rw [defaultSwitchSramBank_sram]
    exact ⟨rfl,rfl⟩

theorem sram_othersKeepBank (kind : SramKind) (rom : ℕ → UInt16) :
    OthersKeepBank (sramHooks kind rom) sramView := by
  constructor
  all_goals
    intro hook h
    cases h

/-- The probe of a cartridge whose second bank is selected. -/
theorem probes_are_harmless_banked :
    EveryStep (Harmless (sramHardware .banked fun _ => 0) (sramHooks .banked fun _ => 0)
        sramView .banked)
      [(installed 0 0 0 .none 0 ({bankedCart with dev := ⟨fun _ => 0,1⟩} : Cart SramChip),
        .probe)] :=
  probes_are_harmless (sramHardware .banked fun _ => 0) (sramHooks .banked fun _ => 0) sramView
    .banked (sramMemory .banked fun _ => 0) (sram_othersKeepBank .banked fun _ => 0) 0 0 0 .none 0
    {bankedCart with dev := ⟨fun _ => 0,1⟩} _ _ (Run.nil.snoc rfl)

end Chips

end ChisLink.CartSaveProbe
