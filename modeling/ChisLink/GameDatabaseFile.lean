import ChisLink.FileOperations
import ChisLink.GameDatabase

/-!
# The game database in a file

The save of a cartridge is configured from a database in a file. The file is opened,
searched record by record and closed again on every path.
-/

namespace ChisLink.GameDatabaseFile

open DriverPrograms FileLayer FileOperations GameDatabase StorageClient

variable {W : Type}

/-- The kind `CL_CART_SAVE_NONE`. -/
def clCartSaveNone : UInt8 := 0

/-- The kind `CL_CART_SAVE_SRAM`. -/
def clCartSaveSram : UInt8 := 1

/-- The kind `CL_CART_SAVE_EEPROM`. -/
def clCartSaveEeprom : UInt8 := 2

/-- The kind `CL_CART_SAVE_FLASH`. -/
def clCartSaveFlash : UInt8 := 3

/-- The function `map_gamedb_save_type`. -/
def mapGamedbSaveType (dbType : UInt32) : Except ℤ UInt8 :=
  if dbType=clGameSaveNone then .ok clCartSaveNone
  else if dbType=clGameSaveSram then .ok clCartSaveSram
  else if dbType=clGameSaveEeprom then .ok clCartSaveEeprom
  else if dbType=clGameSaveFlash then .ok clCartSaveFlash
  else .error (-2)

/-- The function `read_exact_record`. -/
def readExactRecord (file : ℕ) (index : UInt64) (recordSize : ℕ) :
    Prog (Files W) (Except ℤ (List UInt8)) := do
  let ret ← access (clFileSeek file (index*UInt64.ofNat recordSize))
  if ret<0 then pure (.error ret)
  else do
    let reply ← access (clFileRead file (UInt32.ofNat recordSize) true)
    if reply.ret<0 then pure (.error reply.ret)
    else if reply.length=UInt32.ofNat recordSize then pure (.ok reply.data)
    else pure (.error (-3))

/-- The search between two indices. Every round shortens the interval, so that its length
bounds the rounds. -/
def searchRounds (file recordSize : ℕ) (gameCode : List UInt8) :
    ℕ → UInt64 → UInt64 → Prog (Files W) (Except ℤ (Option (List UInt8)))
  | 0,_,_ => pure (.ok none)
  | rounds+1,left,right =>
    if left< right then do
      let mid := left+((right-left) >>> 1)
      match ← readExactRecord file mid recordSize with
      | .error ret => pure (.error ret)
      | .ok record =>
        match compare (record.take 4) gameCode with
        | .eq => pure (.ok (some record))
        | .lt => searchRounds file recordSize gameCode rounds (mid+1) right
        | .gt => searchRounds file recordSize gameCode rounds left mid
    else pure (.ok none)

/-- The hardware of the cartridge: its code, and the configuration of its save. -/
structure CartHardware (W : Type) where
  /-- The result of `cl_cart_info` and the game code. -/
  info : W → (ℤ×List UInt8)×W
  /-- The function `cl_cart_gba_configure_save` with a kind and a size. -/
  configureSave : UInt8 → UInt32 → W → ℤ×W

/-- Call the hardware over the open files. -/
def onWorld {ρ : Type} (call : W → ρ×W) (s : Files W) : ρ×Files W :=
  let reply := call s.world
  (reply.1,{s with world := reply.2})

/-- After the search: a record configures the save. -/
def configureFound (hardware : CartHardware W) (recordSize : ℕ) (record : List UInt8) :
    Prog (Files W) ℤ :=
  let info := clGamedbDecodeRecord record recordSize
  match mapGamedbSaveType info.type with
  | .error ret => pure ret
  | .ok saveType => access (onWorld (hardware.configureSave saveType info.size))

/-- The function `cl_cart_gba_configure_save_from_gamedb`. -/
def clCartGbaConfigureSaveFromGamedb (backends : List (Backend W)) (others : Others W)
    (hardware : CartHardware W) (path : CString) : Prog (Files W) ℤ := do
  let cart ← access (onWorld hardware.info)
  if cart.1<0 then pure cart.1
  else do
    let stat ← access (clFileStat backends others path)
    if stat.1<0 then pure stat.1
    else if stat.2.size<5 ∨ 0xffffffff<stat.2.size then pure (-2)
    else
      match clGamedbRecordSize stat.2.size.toNat with
      | .error ret => pure ret
      | .ok recordSize =>
        match ← access (clFileOpen backends path clpOpenRead) with
        | .error ret => pure ret
        | .ok file => do
          let right := stat.2.size/UInt64.ofNat recordSize
          match ← searchRounds file recordSize cart.2 right.toNat 0 right with
          | .error ret => do
            let _ ← access (clFileClose file)
            pure ret
          | .ok none => do
            let _ ← access (clFileClose file)
            pure (-4)
          | .ok (some record) => do
            let _ ← access (clFileClose file)
            configureFound hardware recordSize record

end ChisLink.GameDatabaseFile
