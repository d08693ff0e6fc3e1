import Mathlib.Data.Nat.Bitwise
import ChisLink.DriverPrograms

/-!
# The NOR flash driver of the cartridge

The driver talks to the flash chip through the sixteen-bit cartridge bus. It
erases the sectors of an image when the writing arrives at them, or in the
background ahead of the writing. The chip is a parameter: the effect of a read
and of a write on its state. Addresses and sizes are natural numbers; the sizes
that the CFI tables give are computed in thirty-two bits. Waits without a bound
in the source are polling loops with fuel. The record of the bus holds every
access, with marks where a background erase begins and where it was waited for;
the driver never reads it.
-/

namespace ChisLink.CartNorDriver

open DriverPrograms

/-- One access of the bus, or a mark. -/
inductive BusEvent where
  /-- A halfword was read at this byte address. -/
  | read (addr : ℕ)
  /-- A halfword was written at this byte address. -/
  | write (addr : ℕ) (data : UInt16)
  /-- The commands of a background erase were sent. -/
  | preErased (addr : ℕ)
  /-- The wait for the background erase found the chip ready or given up. -/
  | waited (addr : ℕ)
deriving DecidableEq

/-- What the bus does to the chip: accesses at halfword indices. -/
structure Bus (σ : Type) where
  /-- The halfword that is read. -/
  read : ℕ → σ → UInt16×σ
  /-- The effect of a write. -/
  write : ℕ → UInt16 → σ → σ

/-- One erase region. -/
structure SectorRegion where
  /-- First address. -/
  start : ℕ
  /-- Address after the region. -/
  stop : ℕ
  /-- Size of its sectors. -/
  size : ℕ
deriving DecidableEq

/-- The struct `cl_cart_nor_probe_t`. -/
structure NorProbe where
  /-- Manufacturer and device. -/
  flashId : UInt32
  /-- Size of the flash. -/
  flashSize : ℕ
  /-- Size of the write buffer, zero if there is none. -/
  writeBufferSize : ℕ
  /-- Size of the sectors of the first region. -/
  sectorSize : ℕ
  /-- The erase regions, at most four. -/
  sectorRegions : List SectorRegion
  /-- Whether the CFI tables were read. -/
  cfiValid : Bool
  /-- Whether the chip has the Intel command set. -/
  isIntel : Bool
  /-- Whether the lines D0 and D1 are swapped. -/
  swapD0d1 : Bool
  /-- Whether the tables list the regions from the top. -/
  sectorRegionReversed : Bool
deriving DecidableEq

/-- The cleared probe. -/
def clearProbe : NorProbe := ⟨0,0,0,0,[],false,false,false,false⟩

/-- The static variables of the driver. -/
structure NorState where
  /-- `g_swap_d0d1`. -/
  swapD0d1 : Bool
  /-- `g_is_intel`. -/
  isIntel : Bool
  /-- `g_probe_valid`. -/
  probeValid : Bool
  /-- `g_probe_status`. -/
  probeStatus : ℤ
  /-- `g_probe_cache`. -/
  probeCache : NorProbe
  /-- `g_write_active`. -/
  writeActive : Bool
  /-- `g_write_offset`. -/
  writeOffset : ℕ
  /-- `g_write_expected_size`. -/
  writeExpectedSize : ℕ
  /-- `g_pre_erase_active`. -/
  preEraseActive : Bool
  /-- `g_pre_erased_addr`. -/
  preErasedAddr : ℕ
deriving DecidableEq

/-- The variables before the first call. -/
def initialNor : NorState := ⟨false,false,false,0,clearProbe,false,0,0,false,0⟩

/-- The chip, the driver and the record of the bus. -/
structure Machine (σ : Type) where
  /-- State of the chip. -/
  chip : σ
  /-- Variables of the driver. -/
  nor : NorState
  /-- The record. -/
  log : List BusEvent

variable {σ : Type}

/-- Swap the two lowest lines. -/
def swapLines (data : UInt16) : UInt16 :=
  (data &&& 0xfffc) ||| ((data &&& 0x0001) <<< (1 : UInt16)) |||
    ((data &&& 0x0002) >>> (1 : UInt16))

/-- Read a halfword. -/
def flashReadRaw (bus : Bus σ) (addr : ℕ) : Prog (Machine σ) UInt16 :=
  access fun s =>
    let reply := bus.read (addr/2) s.chip
    (reply.1,{s with chip := reply.2,log := s.log++[.read addr]})

/-- Write a halfword. -/
def flashWriteRaw (bus : Bus σ) (addr : ℕ) (data : UInt16) : Prog (Machine σ) Unit :=
  update fun s =>
    {s with chip := bus.write (addr/2) data s.chip,log := s.log++[.write addr data]}

/-- Put a mark in the record. -/
def mark (event : BusEvent) : Prog (Machine σ) Unit :=
  update fun s => {s with log := s.log++[event]}

/-- The variables of the driver. -/
def getNor : Prog (Machine σ) NorState := inspect Machine.nor

/-- Change the variables of the driver. -/
def setNor (f : NorState → NorState) : Prog (Machine σ) Unit :=
  update fun s => {s with nor := f s.nor}

/-- A halfword as a chip behind swapped lines means it. -/
def viaLines (swapped : Bool) (data : UInt16) : UInt16 :=
  if swapped then swapLines data else data

/-- Read a halfword as the chip means it. -/
def flashReadCmd (bus : Bus σ) (addr : ℕ) : Prog (Machine σ) UInt16 := do
  let data ← flashReadRaw bus addr
  let nor ← getNor
  pure (viaLines nor.swapD0d1 data)

/-- Write a command as the chip means it. -/
def flashWriteCmd (bus : Bus σ) (addr : ℕ) (data : UInt16) : Prog (Machine σ) Unit := do
  let nor ← getNor
  flashWriteRaw bus addr (viaLines nor.swapD0d1 data)

/-- Back to reading the array, for one of the two command sets. -/
def flashResetMode (bus : Bus σ) (intel : Bool) : Prog (Machine σ) Unit :=
  if intel then do
    flashWriteRaw bus 0 0x50
    flashWriteRaw bus 0 0xff
  else flashWriteCmd bus 0 0xf0

/-- Back to reading the array. -/
def flashReset (bus : Bus σ) : Prog (Machine σ) Unit := do
  let nor ← getNor
  flashResetMode bus nor.isIntel

/-- The region of an address. -/
def regionAt (probe : NorProbe) (addr : ℕ) : Option SectorRegion :=
  probe.sectorRegions.find? fun region => region.start≤addr && addr< region.stop

/-- Size of the sector at an address. -/
def sectorSizeAt (probe : NorProbe) (addr : ℕ) : ℕ :=
  if 2≤probe.sectorRegions.length then
    match regionAt probe addr with
    | some region => region.size
    | none => probe.sectorSize
  else probe.sectorSize

/-- Whether a sector begins at an address. -/
def isSectorBoundary (probe : NorProbe) (addr : ℕ) : Bool :=
  let size := sectorSizeAt probe addr
  if size=0 then false
  else if 2≤probe.sectorRegions.length then
    match regionAt probe addr with
    | some region => (addr-region.start)%size=0
    | none => addr%size=0
  else addr%size=0

/-- Whether two status words agree in D7 with an expected one. -/
def sameD7 (status expected : UInt16) : Bool := (status &&& 0x80)=(expected &&& 0x80)

/-- Read the status again and compare its D7. -/
def readSameD7 (bus : Bus σ) (addr : ℕ) (expected : UInt16) : Prog (Machine σ) Bool := do
  let status2 ← flashReadCmd bus addr
  pure (sameD7 status2 expected)

/-- Whether D7 is as expected, twice in a row. -/
def confirmD7 (bus : Bus σ) (addr : ℕ) (status1 expected : UInt16) :
    Prog (Machine σ) Bool :=
  if sameD7 status1 expected then readSameD7 bus addr expected else pure false

/-- One round of the data polling of the AMD command set: done, failed or go on. -/
def amdPollRound (bus : Bus σ) (addr : ℕ) (expected : UInt16) :
    Prog (Machine σ) (Option Bool) := do
  let status1 ← flashReadCmd bus addr
  let agreed ← confirmD7 bus addr status1 expected
  if agreed then pure (some true)
  else if status1 &&& 0x20≠0 then do
    let done ← readSameD7 bus addr expected
    pure (some done)
  else pure none

/-- The data polling loop: whether the expected D7 was seen. -/
def amdPoll (bus : Bus σ) (fuel addr : ℕ) (expected : UInt16) : Prog (Machine σ) Bool :=
  poll (amdPollRound bus addr expected) fuel

/-- End of a data polling: reset, and the result. -/
def amdFinish (bus : Bus σ) (done : Bool) : Prog (Machine σ) ℤ := do
  flashReset bus
  pure (if done then 0 else -1)

/-- The function `wait_amd_erase`. -/
def waitAmdErase (bus : Bus σ) (fuel addr : ℕ) : Prog (Machine σ) ℤ := do
  let done ← amdPoll bus fuel addr 0x80
  amdFinish bus done

/-- The function `wait_amd_program`. -/
def waitAmdProgram (bus : Bus σ) (fuel addr : ℕ) (expected : UInt16) :
    Prog (Machine σ) ℤ := do
  let done ← amdPoll bus fuel addr expected
  amdFinish bus done

/-- Send the command of a status poll, if there is one. -/
def pollCommand (bus : Bus σ) (addr : ℕ) (command : UInt16) : Prog (Machine σ) Unit :=
  if command≠0 then flashWriteCmd bus addr command else pure ()

/-- One round of the status polling of the Intel command set. -/
def intelPollRound (bus : Bus σ) (addr : ℕ) (command : UInt16) :
    Prog (Machine σ) (Option UInt16) := do
  pollCommand bus addr command
  let status ← flashReadCmd bus addr
  pure (if status &&& 0x80≠0 then some status else none)

/-- The function `wait_intel_ready`: the status once the chip is ready. -/
def waitIntelReady (bus : Bus σ) (fuel addr : ℕ) (command : UInt16) :
    Prog (Machine σ) UInt16 :=
  poll (intelPollRound bus addr command) fuel

/-- The commands that start the erase of a sector. -/
def sendErase (bus : Bus σ) (addr : ℕ) : Prog (Machine σ) Unit := do
  let nor ← getNor
  if nor.isIntel then do
    flashWriteRaw bus 0 0x50
    flashWriteRaw bus 0 0xff
    flashWriteRaw bus addr 0x60
    flashWriteRaw bus addr 0xd0
    flashWriteRaw bus addr 0x20
    flashWriteRaw bus addr 0xd0
  else do
    flashWriteCmd bus addr 0xf0
    flashWriteCmd bus 0xaaa 0xaa
    flashWriteCmd bus 0x555 0x55
    flashWriteCmd bus 0xaaa 0x80
    flashWriteCmd bus 0xaaa 0xaa
    flashWriteCmd bus 0x555 0x55
    flashWriteCmd bus addr 0x30

/-- The function `erase_sector`. -/
def eraseSector (bus : Bus σ) (fuel addr : ℕ) : Prog (Machine σ) ℤ := do
  sendErase bus addr
  let nor ← getNor
  if nor.isIntel then do
    let status ← waitIntelReady bus fuel addr 0
    flashReset bus
    pure (if status &&& 0x30≠0 then -2 else 0)
  else waitAmdErase bus fuel addr

/-- The function `pre_erase_sector`. -/
def preEraseSector (bus : Bus σ) (addr : ℕ) : Prog (Machine σ) Unit := do
  sendErase bus addr
  mark (.preErased addr)

/-- Wait until the background erase has ended or failed. -/
def awaitErase (bus : Bus σ) (fuel addr : ℕ) : Prog (Machine σ) ℤ := do
  let nor ← getNor
  if nor.isIntel then do
    let status ← waitIntelReady bus fuel addr 0
    mark (.waited addr)
    pure (if status &&& 0x30≠0 then -2 else 0)
  else do
    let done ← amdPoll bus fuel addr 0x80
    mark (.waited addr)
    amdFinish bus done

/-- The function `wait_pre_erased`. -/
def waitPreErased (bus : Bus σ) (fuel addr : ℕ) : Prog (Machine σ) ℤ := do
  let ret ← awaitErase bus fuel addr
  setNor fun n => {n with preEraseActive := false,preErasedAddr := 0}
  pure ret

/-- A halfword of the data, with ones past its end. -/
def loadLe16OrFf (src : List UInt8) (offset : ℕ) : UInt16 :=
  (src.getD offset 0xff).toUInt16 ||| ((src.getD (offset+1) 0xff).toUInt16 <<< 8)

/-- The function `program_word`. -/
def programWord (bus : Bus σ) (fuel addr : ℕ) (data : UInt16) : Prog (Machine σ) ℤ := do
  let nor ← getNor
  if nor.isIntel then do
    flashWriteCmd bus 0 0x70
    flashWriteCmd bus 0 0x10
    flashWriteRaw bus addr data
    let status ← waitIntelReady bus fuel addr 0
    flashReset bus
    pure (if status &&& 0x10≠0 then -2 else 0)
  else do
    flashWriteCmd bus 0xaaa 0xaa
    flashWriteCmd bus 0x555 0x55
    flashWriteCmd bus 0xaaa 0xa0
    flashWriteRaw bus addr data
    waitAmdProgram bus fuel addr data

/-- Load the write buffer from a halfword on. -/
def loadBuffer (bus : Bus σ) (addr : ℕ) (src : List UInt8) (i : ℕ) :
    ℕ → Prog (Machine σ) Unit
  | 0 => pure ()
  | words+1 => do
    flashWriteRaw bus (addr+i) (loadLe16OrFf src i)
    loadBuffer bus addr src (i+2) words

/-- The function `program_buffer`. -/
def programBuffer (bus : Bus σ) (fuel addr : ℕ) (src : List UInt8) (writeBufferSize : ℕ) :
    Prog (Machine σ) ℤ :=
  let words := writeBufferSize/2
  if words=0 ∨ writeBufferSize%2≠0 then pure (-1)
  else do
    let nor ← getNor
    if nor.isIntel then do
      let _ ← waitIntelReady bus fuel addr
        (if nor.probeCache.flashId &&& 0xffff≠0x88b0 then 0xe8 else 0xe9)
      flashWriteCmd bus addr (UInt16.ofNat (words-1))
      loadBuffer bus addr src 0 words
      flashWriteCmd bus addr 0xd0
      let status ← waitIntelReady bus fuel addr 0x70
      flashReset bus
      pure (if status &&& 0x10≠0 then -2 else 0)
    else do
      flashWriteCmd bus 0xaaa 0xaa
      flashWriteCmd bus 0x555 0x55
      flashWriteCmd bus addr 0x25
      flashWriteCmd bus addr (UInt16.ofNat (words-1))
      loadBuffer bus addr src 0 words
      flashWriteCmd bus addr 0x29
      waitAmdProgram bus fuel (addr+writeBufferSize-2) (loadLe16OrFf src (writeBufferSize-2))

/-- The function `choose_write_unit`. -/
def chooseWriteUnit (probe : NorProbe) (offset remaining : ℕ) : ℕ :=
  let unit := probe.writeBufferSize
  if unit=0 ∨ unit%2≠0 ∨ offset%unit≠0 ∨ remaining<unit then 2 else unit

/-- Start a background erase and remember it. -/
def startPreErase (bus : Bus σ) (addr : ℕ) : Prog (Machine σ) Unit := do
  setNor fun n => {n with preEraseActive := true,preErasedAddr := addr}
  preEraseSector bus addr

/-- The function `maybe_pre_erase_next_sector`. -/
def maybePreEraseNextSector (bus : Bus σ) (probe : NorProbe) (nextAddr : ℕ) :
    Prog (Machine σ) Unit := do
  let nor ← getNor
  if nor.writeExpectedSize≠0 ∧ nextAddr<nor.writeExpectedSize ∧ nextAddr<probe.flashSize ∧
      isSectorBoundary probe nextAddr=true ∧ nor.preEraseActive=false then
    startPreErase bus nextAddr
  else pure ()

/-- The letters QRY of the CFI tables. -/
def isQry (q r y : UInt16) : Bool := q=0x51 && r=0x52 && y=0x59

/-- The function `check_cfi_signature`. -/
def checkCfiSignature (bus : Bus σ) : Prog (Machine σ) Bool := do
  let q ← flashReadRaw bus 0x20
  let r ← flashReadRaw bus 0x22
  let y ← flashReadRaw bus 0x24
  if isQry q r y then do
    setNor fun n => {n with swapD0d1 := false}
    pure true
  else if isQry (swapLines q) (swapLines r) (swapLines y) then do
    setNor fun n => {n with swapD0d1 := true}
    pure true
  else pure false

/-- Back to reading the array, whatever the lines are. -/
def resetRaw (bus : Bus σ) (intel : Bool) : Prog (Machine σ) Unit :=
  if intel then do
    flashWriteRaw bus 0 0x50
    flashWriteRaw bus 0 0xff
  else flashWriteRaw bus 0 0xf0

/-- The function `enter_cfi`. -/
def enterCfi (bus : Bus σ) (intel : Bool) : Prog (Machine σ) Bool := do
  resetRaw bus intel
  flashWriteRaw bus 0xaa 0x98
  let found ← checkCfiSignature bus
  if found then do
    flashResetMode bus intel
    pure true
  else do
    flashResetMode bus intel
    flashWriteRaw bus 0x00 0x98
    let found ← checkCfiSignature bus
    flashResetMode bus intel
    pure found

/-- Read an identifier of a chip with the AMD command set. -/
def getIdAmdnor (bus : Bus σ) (addr : ℕ) : Prog (Machine σ) UInt16 := do
  flashWriteCmd bus 0 0xf0
  flashWriteCmd bus 0xaaa 0xaa
  flashWriteCmd bus 0x555 0x55
  flashWriteCmd bus 0xaaa 0x90
  let data ← flashReadCmd bus addr
  flashWriteCmd bus 0 0xf0
  pure data

/-- The function `get_mid_amdnor`. -/
def getMidAmdnor (bus : Bus σ) : Prog (Machine σ) UInt16 := getIdAmdnor bus 0

/-- The function `get_did_amdnor`. -/
def getDidAmdnor (bus : Bus σ) : Prog (Machine σ) UInt16 := getIdAmdnor bus 2

/-- Read an identifier of a chip with the Intel command set. -/
def getIdIntel (bus : Bus σ) (addr : ℕ) : Prog (Machine σ) UInt16 := do
  flashWriteCmd bus 0 0x50
  flashWriteCmd bus 0 0xff
  flashWriteCmd bus 0 0x90
  let data ← flashReadCmd bus addr
  flashWriteCmd bus 0 0x50
  flashWriteCmd bus 0 0xff
  pure data

/-- The function `get_mid_intel`. -/
def getMidIntel (bus : Bus σ) : Prog (Machine σ) UInt16 := getIdIntel bus 0

/-- The function `get_did_intel`. -/
def getDidIntel (bus : Bus σ) : Prog (Machine σ) UInt16 := getIdIntel bus 2

/-- Two halfwords in one word. -/
def joinHalfwords (high low : UInt16) : UInt32 := (high.toUInt32 <<< 16) ||| low.toUInt32

/-- The first two halfwords of the array. -/
def romData (bus : Bus σ) : Prog (Machine σ) UInt32 := do
  let high ← flashReadCmd bus 0
  let low ← flashReadCmd bus 2
  pure (joinHalfwords high low)

/-- The function `get_flash_id_auto`. -/
def getFlashIdAuto (bus : Bus σ) : Prog (Machine σ) UInt32 := do
  setNor fun n => {n with swapD0d1 := false,isIntel := false}
  let _ ← enterCfi bus false
  let mid ← getMidAmdnor bus
  let did ← getDidAmdnor bus
  let rom ← romData bus
  if joinHalfwords mid did=rom ∧ joinHalfwords mid did &&& 0xffff≠0x227e then do
    setNor fun n => {n with swapD0d1 := false}
    let _ ← enterCfi bus true
    let rom ← romData bus
    let mid ← getMidIntel bus
    let did ← getDidIntel bus
    if joinHalfwords mid did=rom then do
      flashResetMode bus true
      pure 0
    else do
      setNor fun n => {n with isIntel := true}
      flashReset bus
      pure (joinHalfwords mid did)
  else do
    flashReset bus
    pure (joinHalfwords mid did)

/-- Read a word of two bytes of the CFI tables, low byte first. -/
def readCfiWord (bus : Bus σ) (addr : ℕ) : Prog (Machine σ) UInt32 := do
  let high ← flashReadCmd bus (addr+2)
  let low ← flashReadCmd bus addr
  pure ((high.toUInt32 <<< 8) ||| low.toUInt32)

/-- Read the signature of the CFI tables. -/
def readCfiQry (bus : Bus σ) : Prog (Machine σ) Bool := do
  let q ← flashReadCmd bus 0x20
  let r ← flashReadCmd bus 0x22
  let y ← flashReadCmd bus 0x24
  pure (isQry q r y)

/-- Blocks and block sizes of the erase regions from an entry on. -/
def readCfiRegions (bus : Bus σ) (i : ℕ) : ℕ → Prog (Machine σ) (List (UInt32×UInt32))
  | 0 => pure []
  | count+1 => do
    let blockCount ← readCfiWord bus (0x5a+i*8)
    let blockSize ← readCfiWord bus (0x5a+i*8+4)
    let rest ← readCfiRegions bus (i+1) count
    pure ((blockCount+1,blockSize <<< 8)::rest)

/-- The regions from an address upwards. -/
def regionsFrom (current : UInt32) : List (UInt32×UInt32) → List SectorRegion
  | [] => []
  | (blocks,size)::rest =>
    ⟨current.toNat,(current+blocks*size).toNat,size.toNat⟩::
      regionsFrom (current+blocks*size) rest

/-- The regions from an address downwards, the last one first in the result. -/
def regionsDown (current : UInt32) : List (UInt32×UInt32) → List SectorRegion
  | [] => []
  | (blocks,size)::rest =>
    regionsDown (current-blocks*size) rest++
      [⟨(current-blocks*size).toNat,(current-blocks*size+blocks*size).toNat,size.toNat⟩]

/-- Total size of the regions. -/
def totalSize (regions : List (UInt32×UInt32)) : UInt32 :=
  regions.foldl (fun total region => total+region.1*region.2) 0

/-- Whether the vendor table says that the regions are listed from the top. -/
def readReversed (bus : Bus σ) (priAddress : ℕ) : Prog (Machine σ) Bool := do
  let p ← flashReadCmd bus priAddress
  if p≠0x50 then pure false
  else do
    let r ← flashReadCmd bus (priAddress+2)
    if r≠0x52 then pure false
    else do
      let i ← flashReadCmd bus (priAddress+4)
      if i≠0x49 then pure false
      else do
        let top ← flashReadCmd bus (priAddress+0x1e)
        pure (top=0x03)

/-- Whether the buffer write has a timeout in the tables, so that there is one. -/
def readBufferTimeout (bus : Bus σ) (bufferExp : UInt16) : Prog (Machine σ) Bool :=
  if bufferExp≤1 then pure false
  else do
    let first ← flashReadCmd bus 0x40
    if first=0 then pure false
    else do
      let second ← flashReadCmd bus 0x40
      pure (second<0xff && bufferExp<32)

/-- The tables of the function `read_cfi`, after their signature was seen. -/
def readCfiTables (bus : Bus σ) (probe : NorProbe) : Prog (Machine σ) NorProbe := do
  let deviceExp ← flashReadCmd bus 0x4e
  let bufferLow ← flashReadCmd bus 0x54
  let bufferHigh ← flashReadCmd bus 0x56
  let bufferExp := (bufferHigh <<< 8) ||| bufferLow
  let buffered ← readBufferTimeout bus bufferExp
  let sectorSize ← readCfiWord bus 0x5e
  let regionCount ← flashReadCmd bus 0x58
  let regions ← readCfiRegions bus 0 (min 4 regionCount.toNat)
  let priLow ← flashReadCmd bus 0x2a
  let priHigh ← flashReadCmd bus 0x2c
  let priAddress := (priLow.toUInt32 ||| (priHigh.toUInt32 <<< 8))*2
  let reversed ← readReversed bus
    (if 0x400≤priAddress+0x3c then 0x80 else priAddress.toNat)
  flashReset bus
  pure
    { probe with
      flashSize := if deviceExp<32 then 2^deviceExp.toNat else probe.flashSize
      writeBufferSize := if buffered then 2^bufferExp.toNat else probe.writeBufferSize
      sectorSize := (sectorSize <<< 8).toNat
      sectorRegions :=
        if reversed then regionsDown (totalSize regions) regions else regionsFrom 0 regions
      sectorRegionReversed := reversed
      cfiValid := true }

/-- The function `read_cfi`: the probe with what the tables say. -/
def readCfi (bus : Bus σ) (probe : NorProbe) : Prog (Machine σ) NorProbe := do
  flashReset bus
  flashWriteCmd bus 0xaa 0x98
  let found ← readCfiQry bus
  if found then readCfiTables bus probe
  else do
    flashReset bus
    flashWriteCmd bus 0x00 0x98
    let found ← readCfiQry bus
    if found then readCfiTables bus probe
    else do
      flashReset bus
      pure probe

/-- Identify the chip. -/
def runProbe (bus : Bus σ) : Prog (Machine σ) NorProbe := do
  let flashId ← getFlashIdAuto bus
  let nor ← getNor
  let probe := {clearProbe with
    flashId := flashId
    isIntel := nor.isIntel
    swapD0d1 := nor.swapD0d1}
  if flashId≠0 then readCfi bus probe else pure probe

/-- The function `cl_cart_nor_probe`. -/
def clCartNorProbe (bus : Bus σ) : Prog (Machine σ) (ℤ×NorProbe) := do
  let nor ← getNor
  if nor.probeValid then pure (nor.probeStatus,nor.probeCache)
  else do
    let probe ← runProbe bus
    let status : ℤ := if probe.flashId≠0 then 0 else -2
    setNor fun n =>
      {n with probeCache := probe,probeStatus := status,probeValid := true}
    pure (status,probe)

/-- The function `cl_cart_nor_invalidate`. -/
def clCartNorInvalidate : Prog (Machine σ) Unit :=
  setNor fun n =>
    {n with
      probeValid := false
      probeStatus := 0
      writeActive := false
      writeOffset := 0
      writeExpectedSize := 0
      preEraseActive := false
      preErasedAddr := 0
      probeCache := clearProbe}

/-- The function `cl_cart_nor_set_write_size`. -/
def clCartNorSetWriteSize (bus : Bus σ) (size : UInt64) : Prog (Machine σ) ℤ :=
  if 0xffffffff<size then pure (-1)
  else do
    setNor fun n =>
      {n with
        writeExpectedSize := size.toNat
        writeActive := false
        writeOffset := 0
        preEraseActive := false
        preErasedAddr := 0}
    if size=0 then pure 0
    else do
      let reply ← clCartNorProbe bus
      if reply.1<0 then pure reply.1
      else if reply.2.flashId=0 ∨ reply.2.flashSize=0 ∨
          (reply.2.sectorSize=0 ∧ reply.2.sectorRegions=[]) then pure (-2)
      else if isSectorBoundary reply.2 0 then do
        startPreErase bus 0
        pure 0
      else pure 0

/-- Make the sector at an address ready for programming if one begins there. -/
def arriveAt (bus : Bus σ) (fuel : ℕ) (probe : NorProbe) (addr : ℕ) :
    Prog (Machine σ) ℤ :=
  if isSectorBoundary probe addr then do
    let nor ← getNor
    if nor.preEraseActive=true ∧ nor.preErasedAddr=addr then waitPreErased bus fuel addr
    else eraseSector bus fuel addr
  else pure 0

/-- Program one unit of the data. -/
def programUnit (bus : Bus σ) (fuel addr unit : ℕ) (data : List UInt8) :
    Prog (Machine σ) ℤ :=
  if unit=2 then programWord bus fuel addr (loadLe16OrFf data 0)
  else programBuffer bus fuel addr data unit

/-- After the last unit the next sector may be erased in the background. -/
def afterUnit (bus : Bus σ) (probe : NorProbe) (nextAddr : ℕ) (last : Bool) :
    Prog (Machine σ) Unit :=
  if last then maybePreEraseNextSector bus probe nextAddr else pure ()

/-- The loop of `cl_cart_nor_write_stream`: the code and the bytes done. The last
argument is what remains of the data. -/
def writeUnits (bus : Bus σ) (fuel : ℕ) (probe : NorProbe) (offset n done : ℕ)
    (data : List UInt8) : Prog (Machine σ) (ℤ×ℕ) :=
  if _more : done<n then do
    let arrived ← arriveAt bus fuel probe (offset+done)
    if arrived<0 then pure (arrived,done)
    else do
      let unit := chooseWriteUnit probe (offset+done) (n-done)
      let step := min unit (n-done)
      let ret ← programUnit bus fuel (offset+done) unit data
      if ret<0 then pure (ret,done)
      else do
        afterUnit bus probe (offset+(done+step)) (n≤done+step)
        writeUnits bus fuel probe offset n (done+step) (data.drop step)
  else pure (0,done)
termination_by n-done
decreasing_by
  have hunit : 0<unit := by
    change 0<chooseWriteUnit probe (offset+done) (n-done)
    unfold chooseWriteUnit
    dsimp only
    split <;> omega
  omega

/-- How many bytes of the data a call takes. -/
def streamLength (probe : NorProbe) (expectedSize offset length : ℕ) : ℕ :=
  let room := min (probe.flashSize-offset) length
  if expectedSize≠0 ∧ expectedSize<offset+room then expectedSize-offset else room

/-- After the units of a call: advance the offset and look ahead. -/
def endStream (bus : Bus σ) (probe : NorProbe) (result : ℤ×ℕ) :
    Prog (Machine σ) (ℤ×ℕ) :=
  if result.1<0 then pure (result.1,0)
  else do
    setNor fun n => {n with writeOffset := n.writeOffset+result.2}
    let nor ← getNor
    afterUnit bus probe nor.writeOffset (result.2≠0 ∧ nor.writeExpectedSize≠0)
    pure (0,result.2)

/-- The part of `cl_cart_nor_write_stream` behind its checks of the probe. -/
def streamAt (bus : Bus σ) (fuel : ℕ) (probe : NorProbe) (offset : ℕ) (src : List UInt8) :
    Prog (Machine σ) (ℤ×ℕ) := do
  let nor ← getNor
  if offset%2≠0 ∨ offset≠nor.writeOffset then pure (-5,0)
  else if nor.writeExpectedSize≠0 ∧ nor.writeExpectedSize≤offset then pure (0,0)
  else do
    let n := streamLength probe nor.writeExpectedSize offset src.length
    let result ← writeUnits bus fuel probe offset n 0 (src.take n)
    endStream bus probe result

/-- The function `cl_cart_nor_write_stream`: the code and the bytes taken. -/
def clCartNorWriteStream (bus : Bus σ) (fuel offset : ℕ) (src : List UInt8) :
    Prog (Machine σ) (ℤ×ℕ) :=
  if src.length=0 then pure (0,0)
  else do
    let reply ← clCartNorProbe bus
    if reply.1<0 then pure (reply.1,0)
    else if reply.2.flashId=0 ∨ reply.2.flashSize=0 ∨ reply.2.flashSize≤offset then
      pure (-2,0)
    else if reply.2.sectorSize=0 ∧ reply.2.sectorRegions=[] then pure (-3,0)
    else do
      let nor ← getNor
      if nor.writeActive then streamAt bus fuel reply.2 offset src
      else if offset≠0 then pure (-4,0)
      else do
        setNor fun n => {n with writeActive := true,writeOffset := 0}
        streamAt bus fuel reply.2 offset src

/-- Wait for the background erase if there is one. -/
def flushPreErased (bus : Bus σ) (fuel : ℕ) : Prog (Machine σ) ℤ := do
  let nor ← getNor
  if nor.preEraseActive then waitPreErased bus fuel nor.preErasedAddr else pure 0

/-- The function `cl_cart_nor_flush`. -/
def clCartNorFlush (bus : Bus σ) (fuel : ℕ) : Prog (Machine σ) ℤ := do
  let ret ← flushPreErased bus fuel
  flashReset bus
  setNor fun n =>
    {n with
      writeActive := false
      writeOffset := 0
      writeExpectedSize := 0
      preEraseActive := false
      preErasedAddr := 0}
  pure ret

end ChisLink.CartNorDriver
