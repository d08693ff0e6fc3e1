import ChisLink.ClientExchange

/-!
# Save states of PocketNES

A state file is a stream of blocks, each with a tag and a signed size. The loads read and
skip within the bytes that remain of the file; an error is kept until the end, and the loop
goes on after it. The bridge answers as it likes, but stores no more bytes than were asked
for. Each request is recorded with what the bridge was when it was made. What boots the
game, prepares its variables and restores them is outside of the stream.
-/

namespace ChisLink.PocketnesSaveStates

open ClientExchange DriverPrograms WireProtocol

variable {σ : Type}

/-- The answer of `chislink_bridge_state_read`. -/
structure BridgeReply where
  /-- The result. -/
  ret : ℤ
  /-- The bytes stored at the destination. -/
  stored : List UInt8
  /-- The length. -/
  got : ℕ

/-- The bridge to the open state file. -/
structure StateBridge (σ : Type) where
  /-- `chislink_bridge_state_read`. -/
  read : ℕ → σ → BridgeReply×σ
  /-- `chislink_bridge_state_write`. -/
  write : List UInt8 → σ → ℤ×σ
  /-- `chislink_bridge_state_seek`. -/
  seek : ℕ → σ → ℤ×σ
  /-- No more is stored than was asked for. -/
  fits : ∀ n d,(read n d).1.stored.length≤n

/-- Where the emulator keeps its blocks. -/
structure LinkMap where
  /-- The bytes at `saveversion`, a constant. -/
  saveversion : List UInt8
  /-- They are as many as the block has. -/
  saveversion_length : saveversion.length=32
  /-- `cpustate`. -/
  cpustate : ℕ
  /-- `ppustate`. -/
  ppustate : ℕ
  /-- `NES_RAM`. -/
  nesRam : ℕ
  /-- `NES_SRAM`. -/
  nesSram : ℕ
  /-- `NES_VRAM`. -/
  nesVram : ℕ
  /-- `NES_VRAM2`. -/
  nesVram2 : ℕ
  /-- `NES_VRAM4`. -/
  nesVram4 : ℕ
  /-- `mapperstate`. -/
  mapperstate : ℕ
  /-- `nes_palette`. -/
  nesPalette : ℕ
  /-- `BGmirror`. -/
  bgMirror : ℕ
  /-- `sound_state`. -/
  soundState : ℕ
  /-- `TimeoutState`. -/
  timeoutState : ℕ
  /-- `emuflags`. -/
  emuflags : ℕ
  /-- `bank8`. -/
  bank8 : ℕ
  /-- `nes_chr_map`. -/
  nesChrMap : ℕ
  /-- `rommap`. -/
  rommap : ℕ
  /-- `lastbank`. -/
  lastbank : ℕ
  /-- `NESOAMBUFF1` and `NESOAMBUFF2`. -/
  nesOamBuff : Bool → ℕ
  /-- The two lie apart from the other blocks. -/
  apart : ∀ b,∀ block∈[(cpustate,32),(ppustate,40),(nesRam,2048),(nesSram,8192),(nesVram,8192),
    (nesVram2,2048),(nesVram4,2048),(mapperstate,48),(nesPalette,32),(bgMirror,4),
    (soundState,56),(timeoutState,208)],
    block.1+block.2≤nesOamBuff b ∨ nesOamBuff b+256≤block.1

/-- The part of the emulator that the stream looks at. The pointer `_nesoambuff` is that to
one of the two buffers. -/
structure Console where
  /-- The bytes of the memory. -/
  memory : ℕ → UInt8
  /-- The buffer of `_nesoambuff`. -/
  nesoambuff : Bool
  /-- `has_vram`. -/
  hasVram : Bool
  /-- `fourscreen`. -/
  fourscreen : Bool
  /-- `blocks_loaded`. -/
  blocksLoaded : UInt32

/-- The emulator with its stream. -/
structure Session (σ : Type) where
  /-- The emulator. -/
  console : Console
  /-- The bridge. -/
  device : σ
  /-- `chislink_state_io_error`. -/
  ioError : Bool
  /-- `chislink_state_remaining`. -/
  remaining : ℕ
  /-- The reads and the skips that were requested. -/
  requests : List (σ×ℕ)

/-- The kinds of blocks, `Savefunc_t`. -/
inductive Savefunc where
  /-- `SAVE_NORMAL`. -/
  | normal
  /-- `SAVE_DEREF`. -/
  | deref
  /-- `SAVE_WRITEONLY`. -/
  | writeonly
  /-- `SAVE_PPUSTATE`. -/
  | ppustate
  /-- `SAVE_VRAM1`. -/
  | vram1
  /-- `SAVE_VRAM4`. -/
  | vram4
  /-- `SAVE_NONE`. -/
  | none
  /-- `SAVE_INVALID`. -/
  | invalid
deriving DecidableEq

/-- The array `save_function_numbers`. -/
def saveFunctionNumbers : List Savefunc :=
  [.writeonly,.normal,.ppustate,.normal,.normal,.vram1,.normal,.vram4,.normal,.normal,.normal,
    .deref,.none,.normal,.normal,.invalid]

/-- Four characters as a word. -/
def tagWord (a b c d : Char) : UInt32 :=
  UInt32.ofNat (a.toNat+256*(b.toNat+256*(c.toNat+256*d.toNat)))

/-- The array `tags`. -/
def tags : List UInt32 :=
  [tagWord 'V' 'E' 'R' 'S',tagWord 'C' 'P' 'U' 'S',tagWord 'G' 'F' 'X' 'S',
    tagWord 'R' 'A' 'M' ' ',tagWord 'S' 'R' 'A' 'M',tagWord 'V' 'R' 'M' '1',
    tagWord 'V' 'R' 'M' '2',tagWord 'V' 'R' 'M' '4',tagWord 'M' 'A' 'P' 'R',
    tagWord 'P' 'A' 'L' '2',tagWord 'M' 'I' 'R' '2',tagWord 'O' 'A' 'M' ' ',
    tagWord 'S' 'N' 'D' '0',tagWord 'S' 'N' 'D' '1',tagWord 'T' 'I' 'M' 'E',
    tagWord 'N' 'O' 'P' 'E']

/-- The array `sizes`. -/
def sizes : List ℤ := [32,32,40,2048,8192,8192,2048,2048,48,32,4,256,-1,56,208,-1]

/-- The array `addresses`; that of the version is not written to, and the two null pointers
are not used. -/
def addresses (map : LinkMap) : List ℕ :=
  [0,map.cpustate,map.ppustate,map.nesRam,map.nesSram,map.nesVram,map.nesVram2,map.nesVram4,
    map.mapperstate,map.nesPalette,map.bgMirror,0,0,map.soundState,map.timeoutState,0]

/-- The constant `VERSION_TAG`. -/
def versionTag : ℕ := 0

/-- The place of a block in the memory; that of the sprites is behind the pointer. -/
def blockAddress (map : LinkMap) (console : Console) (tagid : ℕ) : ℕ :=
  if saveFunctionNumbers.getD tagid .invalid=.deref then map.nesOamBuff console.nesoambuff
  else (addresses map).getD tagid 0

/-- Store bytes in the memory. -/
def storeBytes (memory : ℕ → UInt8) (address : ℕ) (bytes : List UInt8) : ℕ → UInt8 :=
  fun x => if address≤ x ∧ x<address+bytes.length then bytes.getD (x-address) 0 else memory x

/-- Bytes of the memory. -/
def loadBytes (memory : ℕ → UInt8) (address length : ℕ) : List UInt8 :=
  (List.range length).map fun i => memory (address+i)

/-- Store a word in the memory. -/
def storeWord (memory : ℕ → UInt8) (address : ℕ) (word : UInt32) : ℕ → UInt8 :=
  storeBytes memory address (le32 word)

/-- Change the emulator. -/
def change (f : Console → Console) : Prog (Session σ) Unit :=
  update fun s => { s with console := f s.console }

section Stream

variable (bridge : StateBridge σ) (map : LinkMap)

variable (routines : Routines)

/-- The bytes of a block that is saved. -/
def blockBytes (console : Console) (tagid : ℕ) : List UInt8 :=
  if tagid=versionTag then map.saveversion
  else loadBytes console.memory (blockAddress map console tagid) (sizes.getD tagid (-1)).toNat

end Stream

end ChisLink.PocketnesSaveStates
