import ChisLink.AlignedTransfers

/-!
# The driver of a cartridge save

A save is SRAM, FLASH or EEPROM. SRAM and FLASH are seen through a window of sixty-four
kilobytes, larger saves have two banks. FLASH is erased sector by sector when a write
first comes to a sector, which a mask remembers. EEPROM is transferred in units of
eight bytes. The driver works on the hardware through hooks for the chip at hand.
-/

namespace ChisLink.CartSaveDriver

open AlignedTransfers DriverPrograms

/-- The kinds of save hardware. -/
inductive SaveType where
  /-- None. -/
  | none
  /-- `CL_CART_SAVE_SRAM`. -/
  | sram
  /-- `CL_CART_SAVE_EEPROM`. -/
  | eeprom
  /-- `CL_CART_SAVE_FLASH`. -/
  | flash
  /-- `CL_CART_SAVE_BATTERYLESS`. -/
  | batteryless
  /-- `CL_CART_SAVE_UNKNOWN`. -/
  | unknown
deriving DecidableEq

/-- The files of a cartridge. -/
inductive CartFileKind where
  /-- The ROM. -/
  | rom
  /-- The save. -/
  | save
  /-- The metadata. -/
  | info
deriving DecidableEq

/-- Size of the window of the save. -/
def clCartGbaSramBankSize : ℕ := 0x10000

/-- Size of the largest save in the window. -/
def clCartGbaMaxLinearSaveSize : ℕ := 0x20000

/-- Size of a sector of FLASH. -/
def clCartGbaFlashSectorSize : ℕ := 4096

/-- Sectors in a bank. -/
def clCartGbaFlashSectorsPerBank : ℕ := 16

/-- Size of a unit of EEPROM. -/
def clCartGbaEepromUnitSize : ℕ := 8

/-- Address of the ROM in the console. -/
def clCartGbaDefaultRomBase : ℕ := 0x08000000

/-- Address of the save in the console. -/
def clCartGbaDefaultSaveBase : ℕ := 0x0e000000

/-- What a probe of the save hardware found, `cl_cart_gba_save_probe_t`. -/
structure SaveProbe where
  /-- Identifier of a FLASH chip. -/
  flashId : UInt32
  /-- Size of the save. -/
  saveSize : ℕ
  /-- Where a batteryless save ends. -/
  batterylessOffset : ℕ
  /-- Its size. -/
  batterylessSize : ℕ
  /-- Size of its write buffer. -/
  batterylessWriteBufferSize : ℕ
  /-- Size of its real time save. -/
  batterylessRtsSize : ℕ
  /-- Kind of the save. -/
  saveType : SaveType
  /-- Whether it has two banks. -/
  hasBankSwitch : Bool
  /-- Whether it is a cartridge for an older console. -/
  isDmgCart : Bool
  /-- Whether it has a real time save. -/
  isBatterylessRts : Bool
deriving DecidableEq

/-- The cleared probe. -/
def clearSaveProbe : SaveProbe := ⟨0,0,0,0,0,0,.none,false,false,false⟩

/-- The variables of the driver, `cl_cart_gba_ctx_t`. Null pointers are zero or false. -/
structure CartCtx where
  /-- Address of the ROM. -/
  romBase : ℕ
  /-- Size of the ROM. -/
  romSize : ℕ
  /-- Address of the save. -/
  saveBase : ℕ
  /-- Whether `save8` is set. -/
  save8 : Bool
  /-- Size of the save. -/
  saveSize : ℕ
  /-- Kind of the save. -/
  saveType : SaveType
  /-- Whether it can be accessed as a file. -/
  saveLinear : Bool
  /-- The sectors of FLASH that were erased. -/
  flashErasedSectorMask : UInt32
  /-- Whether a probe was made. -/
  saveProbeValid : Bool
  /-- Its result. -/
  saveProbeStatus : ℤ
  /-- What it found. -/
  saveProbe : SaveProbe
deriving DecidableEq

/-- The variables before the driver is installed. -/
def initialCtx : CartCtx := ⟨0,0,0,false,0,.none,false,0,false,0,clearSaveProbe⟩

/-- The buses of the cartridge. -/
structure CartHardware (σ : Type) where
  /-- Read a byte of the save. -/
  saveRead8 : ℕ → σ → UInt8×σ
  /-- Write a byte of the save. -/
  saveWrite8 : ℕ → UInt8 → σ → σ
  /-- The halfword of the ROM at an address. -/
  romRead16 : ℕ → σ → UInt16
  /-- Write a halfword at an address of the ROM. -/
  romWrite16 : ℕ → UInt16 → σ → σ
  /-- Whether the driver of the ROM can program it, with its probe. -/
  norProbe : σ → Bool×σ
  /-- The function `cl_cart_nor_write`: result and count. -/
  norWrite : ℕ → List UInt8 → σ → (ℤ×ℕ)×σ
  /-- The function `cl_cart_nor_flush`. -/
  norFlush : σ → ℤ×σ
  /-- The function `cl_cart_nor_set_write_size`. -/
  norSetWriteSize : ℕ → σ → ℤ×σ

/-- The hooks for the chip of the save. -/
structure SaveHooks (σ : Type) where
  /-- Select a bank of SRAM. -/
  switchSramBank : Option (UInt8 → σ → σ)
  /-- Select a bank of FLASH. -/
  switchFlashBank : Option (UInt8 → σ → σ)
  /-- Erase the sector at an offset in the bank. -/
  eraseFlash : Option (ℕ → σ → ℤ×σ)
  /-- Program a byte at an offset in the bank. -/
  writeFlashByte : Option (ℕ → UInt8 → σ → ℤ×σ)
  /-- Read a unit of EEPROM, with so many bits of address. -/
  readEepromUnit : Option (ℕ → ℕ → σ → (ℤ×List UInt8)×σ)
  /-- Write a unit of EEPROM. -/
  writeEepromUnit : Option (ℕ → ℕ → List UInt8 → σ → ℤ×σ)

/-- The cartridge, the variables of the driver and the wait-state register. -/
structure Cart (σ : Type) where
  /-- State of the cartridge. -/
  dev : σ
  /-- Variables of the driver. -/
  ctx : CartCtx
  /-- The register. -/
  waitcnt : UInt16

section Configuration

/-- The function `clamp_rom_size`. -/
def clampRomSize (romSize : ℕ) : ℕ :=
  if romSize=0 ∨ 0x2000000< romSize then 0x2000000 else romSize

/-- The function `normalize_save_type`. -/
def normalizeSaveType : SaveType → SaveType
  | .sram => .sram
  | .flash => .flash
  | .batteryless => .batteryless
  | .eeprom => .eeprom
  | _ => .none

/-- The function `save_type_is_linear`. -/
def saveTypeIsLinear (saveType : SaveType) : Bool :=
  saveType=.sram || saveType=.flash || saveType=.eeprom

/-- The function `save_size_is_file_accessible`. -/
def saveSizeIsFileAccessible (saveType : SaveType) (saveSize : ℕ) : Bool :=
  match saveType with
  | .sram => saveSize≤ clCartGbaMaxLinearSaveSize
  | .flash => saveSize=clCartGbaSramBankSize || saveSize=clCartGbaMaxLinearSaveSize
  | .eeprom => saveSize=512 || saveSize=8192
  | _ => false

/-- The function `apply_save_config`. -/
def applySaveConfig (ctx : CartCtx) (saveType : SaveType) (saveSize saveBase : ℕ) : CartCtx :=
  let saveType := normalizeSaveType saveType
  if saveType=.none ∨ saveSize=0 then
    { ctx with
      saveBase := if saveBase≠0 then saveBase else ctx.saveBase
      save8 := false
      saveSize := 0
      saveType := .none
      saveLinear := false
      flashErasedSectorMask := 0 }
  else
    { ctx with
      saveBase := if saveBase≠0 then saveBase
        else if ctx.saveBase≠0 then ctx.saveBase else clCartGbaDefaultSaveBase
      save8 := true
      saveSize := saveSize
      saveType := saveType
      saveLinear := saveTypeIsLinear saveType && saveSizeIsFileAccessible saveType saveSize
      flashErasedSectorMask := 0 }

/-- The function `cl_cart_gba_invalidate_save_probe`. -/
def clCartGbaInvalidateSaveProbe (ctx : CartCtx) : CartCtx :=
  {ctx with saveProbeValid := false,saveProbeStatus := 0,saveProbe := clearSaveProbe}

/-- The variables that `cl_cart_gba_install_driver` sets up, an address that is not given
is that of the console. -/
def clCartGbaInstallDriver (romBase romSize saveBase : ℕ) (saveType : SaveType)
    (saveSize : ℕ) (ctx : CartCtx) : CartCtx :=
  let romBase := if romBase≠0 then romBase else clCartGbaDefaultRomBase
  let saveBase := if saveBase≠0 then saveBase else clCartGbaDefaultSaveBase
  let saveType := normalizeSaveType saveType
  applySaveConfig
    (clCartGbaInvalidateSaveProbe
      {ctx with romBase := romBase,romSize := clampRomSize romSize,saveBase := saveBase})
    saveType (if saveType=.none then 0 else saveSize) saveBase

/-- The function `cl_cart_gba_configure_save`. -/
def clCartGbaConfigureSave (saveType : SaveType) (saveSize saveBase : ℕ) (ctx : CartCtx) :
    ℤ×CartCtx :=
  if ctx.romBase=0 then (-1,ctx)
  else (0,applySaveConfig (clCartGbaInvalidateSaveProbe ctx) saveType saveSize saveBase)

end Configuration

variable {σ : Type}

section Access

variable (hw : CartHardware σ) (hooks : SaveHooks σ)

/-- The variables of the driver. -/
def getCtx : Prog (Cart σ) CartCtx := inspect Cart.ctx

/-- Change the variables of the driver. -/
def setCtx (f : CartCtx → CartCtx) : Prog (Cart σ) Unit :=
  update fun s => {s with ctx := f s.ctx}

/-- Call something of the cartridge. -/
def onDevice {α : Type} (f : σ → α×σ) : Prog (Cart σ) α :=
  access fun s => ((f s.dev).1,{s with dev := (f s.dev).2})

/-- Read a byte of the save. -/
def saveRead8 (offset : ℕ) : Prog (Cart σ) UInt8 := onDevice (hw.saveRead8 offset)

/-- Write a byte of the save. -/
def saveWrite8 (offset : ℕ) (value : UInt8) : Prog (Cart σ) Unit :=
  onDevice fun d => ((),hw.saveWrite8 offset value d)

/-- Call a hook that selects a bank, if there is one. -/
def callSwitch (hook : Option (UInt8 → σ → σ)) (bank : UInt8) : Prog (Cart σ) Unit :=
  match hook with
  | none => pure ()
  | some switch => onDevice fun d => ((),switch bank d)

/-- The function `switch_sram_bank`. -/
def switchSramBank (bank : UInt8) : Prog (Cart σ) Unit := do
  let ctx ← getCtx
  if clCartGbaSramBankSize<ctx.saveSize then callSwitch hooks.switchSramBank bank
  else pure ()

/-- The function `probe_switch_sram_bank`. -/
def probeSwitchSramBank (bank : UInt8) : Prog (Cart σ) Unit :=
  callSwitch hooks.switchSramBank bank

/-- The function `switch_flash_bank`. -/
def switchFlashBank (bank : UInt8) : Prog (Cart σ) Unit := do
  let ctx ← getCtx
  if clCartGbaSramBankSize<ctx.saveSize then callSwitch hooks.switchFlashBank bank
  else pure ()

/-- The function `flash_waitcnt_enter`. -/
def flashWaitcntEnter : Prog (Cart σ) UInt16 :=
  access fun s => (s.waitcnt,{s with waitcnt := (s.waitcnt &&& 0xfffc) ||| 0x0003})

/-- The function `flash_waitcnt_restore`. -/
def flashWaitcntRestore (old : UInt16) : Prog (Cart σ) Unit :=
  update fun s => {s with waitcnt := old}

/-- Read successive bytes of the window. -/
def readWindow (address : ℕ) : ℕ → Prog (Cart σ) (List UInt8)
  | 0 => pure []
  | n+1 => do
    let value ← saveRead8 hw address
    let rest ← readWindow (address+1) n
    pure (value::rest)

/-- Select the bank of an address, of FLASH or SRAM. -/
def selectBank (saveType : SaveType) (bank : UInt8) : Prog (Cart σ) Unit :=
  if saveType=.flash then switchFlashBank hooks bank else switchSramBank hooks bank

/-- One piece of `linear_save_read`. -/
def readBankPiece (saveType : SaveType) (absolute n : ℕ) :
    Prog (Cart σ) (Except ℤ (List UInt8)) := do
  selectBank hooks saveType (UInt8.ofNat (absolute/clCartGbaSramBankSize))
  let data ← readWindow hw (absolute%clCartGbaSramBankSize) n
  pure (.ok data)

/-- The function `linear_save_read`. -/
def linearSaveRead (offset length : ℕ) : Prog (Cart σ) (List UInt8) := do
  let ctx ← getCtx
  if ctx.saveType=.flash then do
    let oldWaitcnt ← flashWaitcntEnter
    let data ← readPieces clCartGbaSramBankSize (readBankPiece hw hooks ctx.saveType)
      length offset length
    switchFlashBank hooks 0
    flashWaitcntRestore oldWaitcnt
    pure (data.toOption.getD [])
  else do
    let data ← readPieces clCartGbaSramBankSize (readBankPiece hw hooks ctx.saveType)
      length offset length
    switchSramBank hooks 0
    pure (data.toOption.getD [])

/-- Write a byte of SRAM and read it back: whether it is there. -/
def writeChecked (address : ℕ) (value : UInt8) : Prog (Cart σ) Bool := do
  saveWrite8 hw address value
  let now ← saveRead8 hw address
  pure (now=value)

/-- Write a byte of SRAM, a second time if it is not there. -/
def writeTwice (address : ℕ) (value : UInt8) : Prog (Cart σ) Bool := do
  let stored ← writeChecked hw address value
  if stored then pure true else writeChecked hw address value

/-- Write successive bytes of SRAM. -/
def writeWindow (address : ℕ) : List UInt8 → Prog (Cart σ) ℤ
  | [] => pure 0
  | value::rest => do
    let stored ← writeTwice hw address value
    if stored then writeWindow (address+1) rest
    else do
      switchSramBank hooks 0
      pure (-7)

/-- One piece of `linear_save_write`. -/
def writeBankPiece (absolute : ℕ) (piece : List UInt8) : Prog (Cart σ) ℤ := do
  switchSramBank hooks (UInt8.ofNat (absolute/clCartGbaSramBankSize))
  writeWindow hw hooks (absolute%clCartGbaSramBankSize) piece

/-- The function `linear_save_write`. -/
def linearSaveWrite (offset : ℕ) (src : List UInt8) : Prog (Cart σ) ℤ := do
  let ret ← writePieces clCartGbaSramBankSize (writeBankPiece hw hooks) src.length offset src
  if ret<0 then pure ret
  else do
    switchSramBank hooks 0
    pure 0

/-- The bit of a sector in the mask. -/
def sectorBit (sector : ℕ) : UInt32 := 1 <<< UInt32.ofNat sector

/-- The end of a write to FLASH: the first bank and the wait-state register. -/
def leaveFlash (oldWaitcnt : UInt16) (ret : ℤ) : Prog (Cart σ) ℤ := do
  switchFlashBank hooks 0
  flashWaitcntRestore oldWaitcnt
  pure ret

/-- Erase a sector unless the mask says that it was erased. -/
def eraseSectorOnce (erase : ℕ → σ → ℤ×σ) (sector sectorBase : ℕ) : Prog (Cart σ) ℤ := do
  let ctx ← getCtx
  if ctx.flashErasedSectorMask &&& sectorBit sector=0 then do
    let ret ← onDevice (erase sectorBase)
    if ret<0 then pure ret
    else do
      setCtx fun ctx =>
        {ctx with flashErasedSectorMask := ctx.flashErasedSectorMask ||| sectorBit sector}
      pure 0
  else pure 0

/-- Program successive bytes of FLASH. -/
def programWindow (write : ℕ → UInt8 → σ → ℤ×σ) (address : ℕ) :
    List UInt8 → Prog (Cart σ) ℤ
  | [] => pure 0
  | value::rest => do
    let ret ← onDevice (write address value)
    if ret<0 then pure ret else programWindow write (address+1) rest

/-- Compare successive bytes with what was to be programmed. -/
def verifyWindow (address : ℕ) : List UInt8 → Prog (Cart σ) Bool
  | [] => pure true
  | value::rest => do
    let now ← saveRead8 hw address
    if now≠value then pure false else verifyWindow (address+1) rest

/-- One piece of `linear_flash_write`. -/
def flashPiece (erase : ℕ → σ → ℤ×σ) (write : ℕ → UInt8 → σ → ℤ×σ) (oldWaitcnt : UInt16)
    (absolute : ℕ) (piece : List UInt8) : Prog (Cart σ) ℤ :=
  let sector := absolute/clCartGbaFlashSectorSize
  let bankOffset := absolute%clCartGbaSramBankSize
  if 32≤ sector then leaveFlash hooks oldWaitcnt (-9)
  else do
    switchFlashBank hooks (UInt8.ofNat (sector/clCartGbaFlashSectorsPerBank))
    let erased ← eraseSectorOnce erase sector
      (sector%clCartGbaFlashSectorsPerBank*clCartGbaFlashSectorSize)
    if erased<0 then leaveFlash hooks oldWaitcnt erased
    else do
      let programmed ← programWindow write bankOffset piece
      if programmed<0 then leaveFlash hooks oldWaitcnt programmed
      else do
        let right ← verifyWindow hw bankOffset piece
        if right then pure 0 else leaveFlash hooks oldWaitcnt (-7)

/-- The function `linear_flash_write`. -/
def linearFlashWrite (offset : ℕ) (src : List UInt8) : Prog (Cart σ) ℤ :=
  match hooks.eraseFlash,hooks.writeFlashByte with
  | some erase,some write => do
    let ctx ← getCtx
    if ctx.flashErasedSectorMask=0 ∧ offset≠0 then pure (-6)
    else do
      let oldWaitcnt ← flashWaitcntEnter
      let ret ← writePieces clCartGbaFlashSectorSize (flashPiece hw hooks erase write oldWaitcnt)
        src.length offset src
      if ret<0 then pure ret else leaveFlash hooks oldWaitcnt 0
  | _,_ => pure (-5)

/-- The function `eeprom_address_bits`. -/
def eepromAddressBits (saveSize : ℕ) : ℕ := if saveSize=512 then 6 else 14

/-- One piece of `eeprom_read_bytes`. -/
def readUnitPiece (readUnit : ℕ → ℕ → σ → (ℤ×List UInt8)×σ) (addressBits absolute n : ℕ) :
    Prog (Cart σ) (Except ℤ (List UInt8)) := do
  let reply ← onDevice (readUnit (absolute/clCartGbaEepromUnitSize) addressBits)
  if reply.1<0 then pure (.error reply.1)
  else pure (.ok ((reply.2.drop (absolute%clCartGbaEepromUnitSize)).take n))

/-- The function `eeprom_read_bytes`. -/
def eepromReadBytes (offset length : ℕ) : Prog (Cart σ) (Except ℤ (List UInt8)) :=
  match hooks.readEepromUnit with
  | none => pure (.error (-5))
  | some readUnit => do
    let ctx ← getCtx
    readPieces clCartGbaEepromUnitSize (readUnitPiece readUnit (eepromAddressBits ctx.saveSize))
      length offset length

/-- One piece of `eeprom_write_bytes`: a part of a unit is put into what the unit holds. -/
def writeUnitPiece (readUnit : ℕ → ℕ → σ → (ℤ×List UInt8)×σ)
    (writeUnit : ℕ → ℕ → List UInt8 → σ → ℤ×σ) (addressBits absolute : ℕ)
    (piece : List UInt8) : Prog (Cart σ) ℤ :=
  let unit := absolute/clCartGbaEepromUnitSize
  let unitOffset := absolute%clCartGbaEepromUnitSize
  if piece.length≠clCartGbaEepromUnitSize then do
    let reply ← onDevice (readUnit unit addressBits)
    if reply.1<0 then pure reply.1
    else onDevice (writeUnit unit addressBits
      (reply.2.take unitOffset++piece++reply.2.drop (unitOffset+piece.length)))
  else onDevice (writeUnit unit addressBits piece)

/-- The function `eeprom_write_bytes`. -/
def eepromWriteBytes (offset : ℕ) (src : List UInt8) : Prog (Cart σ) ℤ :=
  match hooks.readEepromUnit,hooks.writeEepromUnit with
  | some readUnit,some writeUnit => do
    let ctx ← getCtx
    writePieces clCartGbaEepromUnitSize
      (writeUnitPiece readUnit writeUnit (eepromAddressBits ctx.saveSize)) src.length offset src
  | _,_ => pure (-5)

end Access

section Defaults

variable (hw : CartHardware σ)

/-- The function `default_switch_sram_bank`, for two kinds of cartridges. -/
def defaultSwitchSramBank (bank : UInt8) (d : σ) : σ :=
  let command := (0x0070 : UInt16) ||| (bank.toUInt16 <<< 3)
  let d := hw.romWrite16 0x09fffffe 0xa55a d
  let d := hw.romWrite16 0x09fffffe 0xa55a d
  let d := hw.romWrite16 0x09fffffe command d
  let d := hw.romWrite16 0x09fffffe command d
  hw.romWrite16 0x09000000 bank.toUInt16 d

/-- The function `default_switch_flash_bank`. -/
def defaultSwitchFlashBank (bank : UInt8) (d : σ) : σ :=
  let d := hw.saveWrite8 0x5555 0xaa d
  let d := hw.saveWrite8 0x2aaa 0x55 d
  let d := hw.saveWrite8 0x5555 0xb0 d
  hw.saveWrite8 0 bank d

/-- The loop of `flash_poll_equal`. -/
def flashPoll (address : ℕ) (value : UInt8) : ℕ → σ → σ
  | 0,d => (hw.saveRead8 address d).2
  | left+1,d =>
    let reply := hw.saveRead8 address d
    if reply.1≠value then flashPoll address value left reply.2 else reply.2

/-- Reads of a poll. -/
def clCartGbaFlashPollLimit : ℕ := 0x100000

/-- The function `flash_poll_equal`. -/
def flashPollEqual (address : ℕ) (value : UInt8) (d : σ) : ℤ×σ :=
  let reply := hw.saveRead8 address (flashPoll hw address value clCartGbaFlashPollLimit d)
  (if reply.1=value then 0 else -8,reply.2)

/-- The function `default_flash_erase`. -/
def defaultFlashErase (offset : ℕ) (d : σ) : ℤ×σ :=
  if clCartGbaSramBankSize≤offset then (-1,d)
  else
    let d := hw.saveWrite8 0x5555 0xaa d
    let d := hw.saveWrite8 0x2aaa 0x55 d
    let d := hw.saveWrite8 0x5555 0x80 d
    let d := hw.saveWrite8 0x5555 0xaa d
    let d := hw.saveWrite8 0x2aaa 0x55 d
    let d := hw.saveWrite8 offset 0x30 d
    flashPollEqual hw offset 0xff d

/-- The commands of `default_flash_write_byte`. -/
def programByte (offset : ℕ) (value : UInt8) (d : σ) : ℤ×σ :=
  let d := hw.saveWrite8 0x5555 0xaa d
  let d := hw.saveWrite8 0x2aaa 0x55 d
  let d := hw.saveWrite8 0x5555 0xa0 d
  let d := hw.saveWrite8 offset value d
  flashPollEqual hw offset value d

/-- The function `default_flash_write_byte`: what is blank already is left alone. -/
def defaultFlashWriteByte (offset : ℕ) (value : UInt8) (d : σ) : ℤ×σ :=
  if clCartGbaSramBankSize≤offset then (-1,d)
  else if value=0xff then
    let reply := hw.saveRead8 offset d
    if reply.1=0xff then (0,reply.2) else programByte hw offset value reply.2
  else programByte hw offset value d

end Defaults

section Calls

variable (hw : CartHardware σ) (hooks : SaveHooks σ)

/-- The function `rom_read8`. -/
def romRead8 (ctx : CartCtx) (d : σ) (offset : ℕ) : UInt8 :=
  let half := hw.romRead16 (ctx.romBase+offset/2*2) d
  if offset%2=1 then (half >>> 8).toUInt8 else half.toUInt8

/-- The function `rom_read_bytes`. -/
def romReadBytes (offset length : ℕ) : Prog (Cart σ) (List UInt8) :=
  inspect fun s => (List.range' offset length).map (romRead8 hw s.ctx s.dev)

/-- Read a save, clipped at its size. -/
def readSave (offset length : ℕ) : Prog (Cart σ) (ℤ×List UInt8) := do
  let ctx ← getCtx
  if ctx.save8=false ∨ ctx.saveSize=0 ∨ ctx.saveLinear=false then pure (-2,[])
  else if ctx.saveSize≤offset then pure (0,[])
  else if ctx.saveType=.eeprom then do
    match ← eepromReadBytes hooks offset (min (ctx.saveSize-offset) length) with
    | .error ret => pure (ret,[])
    | .ok data => pure (0,data)
  else do
    let data ← linearSaveRead hw hooks offset (min (ctx.saveSize-offset) length)
    pure (0,data)

/-- The function `gba_read`: the result and the bytes. -/
def gbaRead (kind : CartFileKind) (offset length : ℕ) : Prog (Cart σ) (ℤ×List UInt8) :=
  if 0xffffffff<offset then pure (-1,[])
  else
    match kind with
    | .rom => do
      let ctx ← getCtx
      if ctx.romSize≤offset then pure (0,[])
      else do
        let data ← romReadBytes hw offset (min (ctx.romSize-offset) length)
        pure (0,data)
    | .save => readSave hw hooks offset length
    | .info => pure (-2,[])

/-- What a write comes to: an error has no count. -/
def writeReply (count : ℕ) (ret : ℤ) : ℤ×ℕ := if ret<0 then (ret,0) else (0,count)

/-- Write a save, clipped at its size. -/
def writeSave (offset : ℕ) (src : List UInt8) : Prog (Cart σ) (ℤ×ℕ) := do
  let ctx ← getCtx
  if ctx.save8=false ∨ ctx.saveLinear=false then pure (-1,0)
  else if ctx.saveSize≤offset then pure (0,0)
  else do
    let data := src.take (ctx.saveSize-offset)
    let ret ←
      if ctx.saveType=.eeprom then eepromWriteBytes hooks offset data
      else if ctx.saveType=.flash then linearFlashWrite hw hooks offset data
      else linearSaveWrite hw hooks offset data
    pure (writeReply data.length ret)

/-- The function `gba_write`: the result and the count. -/
def gbaWrite (kind : CartFileKind) (offset : ℕ) (src : List UInt8) : Prog (Cart σ) (ℤ×ℕ) :=
  if 0xffffffff<offset then pure (-1,0)
  else
    match kind with
    | .rom => onDevice (hw.norWrite offset src)
    | .save => writeSave hw hooks offset src
    | .info => pure (-1,0)

/-- The function `gba_flush`. -/
def gbaFlush (kind : CartFileKind) : Prog (Cart σ) ℤ :=
  if kind=.rom then onDevice hw.norFlush else pure 0

/-- The function `gba_set_size`. -/
def gbaSetSize (kind : CartFileKind) (size : ℕ) : Prog (Cart σ) ℤ :=
  match kind with
  | .rom => onDevice (hw.norSetWriteSize size)
  | .save => do
    let ctx ← getCtx
    if size≠0 ∧ ctx.saveSize≠0 ∧ size≠ctx.saveSize then pure (-1)
    else do
      setCtx fun ctx => {ctx with flashErasedSectorMask := 0}
      pure 0
  | .info => pure 0

end Calls

end ChisLink.CartSaveDriver
