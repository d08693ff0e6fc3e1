import ChisLink.PocketnesTables

/-!
# Bank switches of PocketNES

The mappers switch banks with the routines of `cart.s`. A routine masks the number it
is given, writes the bank registers and asks the cache for the pages; for characters
the cache is asked first, and the registers and the table of the video memory follow.
Registers have eight bits. A routine is the list of its operations here, with the
numbers worked out. The table of the processor's memory is left out.
-/

namespace ChisLink.PocketnesSwitches

open SlotCache PocketnesCache

/-- The operations that the routines are made of. -/
inductive Op where
  /-- A register from `bank6` on is written. -/
  | bank (register : ℕ) (value : UInt8)
  /-- An entry of `nes_chr_map` is written. -/
  | chr (entry : ℕ) (value : UInt8)
  /-- The call of `chislink_pocketnes_ensure_prg`. -/
  | ensurePrg (page : ℕ)
  /-- The call of `chislink_pocketnes_ensure_chr`. -/
  | ensureChr (page : ℕ)
  /-- The call of `chislink_pocketnes_prg67`. -/
  | prg67 (page : ℕ)
  /-- An entry of `vram_map` is copied from the character table. -/
  | vram (entry page : ℕ)
  /-- The routine ends here if the last `ensure_prg` gave nothing. -/
  | expectPrg
  /-- The routine ends here if the character table has no address for a page. -/
  | expectChr (page : ℕ)
deriving DecidableEq

/-- The cache with the registers of the emulated machine. -/
structure Machine where
  /-- The cache. -/
  cache : Cache
  /-- `bank6`, `bank8`, `bankA`, `bankC` and `bankE`. -/
  bank6 : ℕ → UInt8
  /-- `nes_chr_map`, which is also `Cbank0`. -/
  chrMap : ℕ → UInt8
  /-- `vram_map`. -/
  vramMap : ℕ → Option Pointer
  /-- What the last `ensure_prg` returned. -/
  result : Option Pointer
  /-- The routine has ended early. -/
  ended : Bool

/-- The banks as the cache sees them. -/
def Machine.banks (m : Machine) : Banks :=
  ⟨fun i => (m.bank6 i).toNat,fun i => (m.chrMap i).toNat⟩

/-- One operation, with the outcome of its read. -/
def perform (cart : Cart) (read : Read) (m : Machine) : Op → Machine
  | .bank register value => {m with bank6 := Function.update m.bank6 register value}
  | .chr entry value => {m with chrMap := Function.update m.chrMap entry value}
  | .ensurePrg page =>
    let reply := ensurePrg cart m.banks read page m.cache
    {m with result := reply.1,cache := reply.2}
  | .ensureChr page => {m with cache := ensureChr cart m.banks read page m.cache}
  | .prg67 page => {m with cache := prg67 cart read page m.cache}
  | .vram entry page =>
    {m with vramMap := Function.update m.vramMap entry (m.cache.instantChrBanks page)}
  | .expectPrg => {m with ended := m.result.isNone}
  | .expectChr page => {m with ended := (m.cache.instantChrBanks page).isNone}

section Routines

variable (cart : Cart)

/-- The variable `rommask`. -/
def rommask : UInt32 := UInt32.ofNat cart.prgSize-1

/-- The variable `vrommask`. -/
def vrommask : UInt32 :=
  let vromsize := 8*1024*(if 0<cart.vrompages then cart.vrompages else 1)
  UInt32.ofNat (if cart.mapper=tqrom then vromsize*2 else vromsize)-1

/-- The bytes of a word, as a store to registers leaves them. -/
def byteOf (word : UInt32) (i : ℕ) : UInt8 := (word >>> UInt32.ofNat (8*i)).toUInt8

/-- A number in all four bytes. -/
def fourTimes (r0 : UInt32) : UInt32 :=
  let r2 := r0 ||| r0 <<< 8
  r2 ||| r2 <<< 16

/-- The routine `map67_`. -/
def map67 (r0 : UInt32) : List Op :=
  let page := r0 &&& rommask cart >>> 13
  [.bank 0 page.toUInt8,.prg67 page.toNat]

/-- Switch 8 KiB of the program. -/
def mapPage (register : ℕ) (r0 : UInt32) : List Op :=
  let page := r0 &&& rommask cart >>> 13
  [.bank register page.toUInt8,.ensurePrg page.toNat]

/-- The routine `map89_`. -/
def map89 (r0 : UInt32) : List Op := mapPage cart 1 r0

/-- The routine `mapAB_`. -/
def mapAB (r0 : UInt32) : List Op := mapPage cart 2 r0

/-- The routine `mapCD_`. -/
def mapCD (r0 : UInt32) : List Op := mapPage cart 3 r0

/-- The routine `mapEF_`. -/
def mapEF (r0 : UInt32) : List Op := mapPage cart 4 r0

/-- Switch 16 KiB of the program. -/
def mapPages (register : ℕ) (r0 : UInt32) : List Op :=
  let page := (r0 &&& rommask cart >>> 14) <<< 1
  [.bank register page.toUInt8,.bank (register+1) (page+1).toUInt8,.ensurePrg page.toNat]

/-- The routine `map89AB_`. -/
def map89AB (r0 : UInt32) : List Op := mapPages cart 1 r0

/-- The routine `mapCDEF_`. -/
def mapCDEF (r0 : UInt32) : List Op := mapPages cart 3 r0

/-- The routine `map89ABCDEF_`. -/
def map89ABCDEF (r0 : UInt32) : List Op :=
  let page := r0 &&& rommask cart >>> 15
  let word := (0x03020100 : UInt32) ||| fourTimes page <<< 2
  (List.range 4).map (fun i => .bank (i+1) (byteOf word i))++
    [.ensurePrg (page <<< 2).toNat]

/-- Switch 1 KiB of the characters. -/
def chrPage (entry : ℕ) (r0 : UInt32) : List Op :=
  let page := r0 &&& vrommask cart >>> 10
  [.ensureChr page.toNat,.chr entry page.toUInt8,.vram entry page.toNat]

/-- The routine `chr0_`. -/
def chr0 (r0 : UInt32) : List Op := chrPage cart 0 r0

/-- The routine `chr1_`. It writes the last entry of `vram_map` too. -/
def chr1 (r0 : UInt32) : List Op :=
  let page := r0 &&& vrommask cart >>> 10
  [.ensureChr page.toNat,.chr 1 page.toUInt8,.vram 1 page.toNat,.vram 7 page.toNat]

/-- The routine `chr2_`. -/
def chr2 (r0 : UInt32) : List Op := chrPage cart 2 r0

/-- The routine `chr3_`. -/
def chr3 (r0 : UInt32) : List Op := chrPage cart 3 r0

/-- The routine `chr4_`. -/
def chr4 (r0 : UInt32) : List Op := chrPage cart 4 r0

/-- The routine `chr5_`. -/
def chr5 (r0 : UInt32) : List Op := chrPage cart 5 r0

/-- The routine `chr6_`. -/
def chr6 (r0 : UInt32) : List Op := chrPage cart 6 r0

/-- The routine `chr7_`. -/
def chr7 (r0 : UInt32) : List Op := chrPage cart 7 r0

/-- The call of `chislink_pocketnes_ensure_chr_range`. -/
def ensureRange (page : UInt32) (count : ℕ) : List Op :=
  (List.range count).map fun i => .ensureChr (page+UInt32.ofNat i).toNat

/-- Entries of `vram_map` from consecutive pages. -/
def vramRange (entry : ℕ) (page : UInt32) (count : ℕ) : List Op :=
  (List.range count).map fun i => .vram (entry+i) (page+UInt32.ofNat i).toNat

/-- Switch 2 KiB of the characters. -/
def chrPair (entry : ℕ) (r0 : UInt32) : List Op :=
  let page := r0 <<< 1 &&& vrommask cart >>> 10
  ensureRange page 2++
    [.chr entry page.toUInt8,.chr (entry+1) (page ||| 1).toUInt8]++vramRange entry page 2

/-- The routine `chr01_`. -/
def chr01 (r0 : UInt32) : List Op := chrPair cart 0 r0

/-- The routine `chr23_`. -/
def chr23 (r0 : UInt32) : List Op := chrPair cart 2 r0

/-- The routine `chr45_`. -/
def chr45 (r0 : UInt32) : List Op := chrPair cart 4 r0

/-- The routine `chr67_`. -/
def chr67 (r0 : UInt32) : List Op := chrPair cart 6 r0

/-- Switch 4 KiB of the characters. -/
def chrHalf (entry : ℕ) (r0 : UInt32) : List Op :=
  let page := r0 &&& vrommask cart >>> 12
  let word := (0x03020100 : UInt32) ||| fourTimes page <<< 2
  ensureRange (page <<< 2) 4++(List.range 4).map (fun i => .chr (entry+i) (byteOf word i))++
    vramRange entry (page <<< 2) 4

/-- The routine `chr0123_`. -/
def chr0123 (r0 : UInt32) : List Op := chrHalf cart 0 r0

/-- The routine `chr4567_`. -/
def chr4567 (r0 : UInt32) : List Op := chrHalf cart 4 r0

/-- The routine `chr01234567_`. -/
def chr01234567 (r0 : UInt32) : List Op :=
  let page := r0 &&& vrommask cart >>> 13
  let low := (0x03020100 : UInt32) ||| fourTimes page <<< 3
  let high := (0x07060504 : UInt32) ||| fourTimes page <<< 3
  ensureRange (page <<< 3) 8++(List.range 4).map (fun i => .chr i (byteOf low i))++
    (List.range 4).map (fun i => .chr (i+4) (byteOf high i))++vramRange 0 (page <<< 3) 8

/-- The start of a game: no banks are set, in `loadcart` and in the picture unit. -/
def resetBanks : List Op :=
  .bank 0 0xff::(List.range 8).map fun i => .chr i 0xff

/-- A saved state: the registers come from the file, then
`chislink_pocketnes_restore_cache_map` asks for all their pages. -/
def restoreCacheMap (bank6 chrMap : ℕ → UInt8) : List Op :=
  (List.range 5).map (fun i => .bank i (bank6 i))++
    (List.range 8).map (fun i => .chr i (chrMap i))++
    ([1,2,3,4].filter fun i => bank6 i<255).flatMap
      (fun i => [.ensurePrg (bank6 i).toNat,.expectPrg])++
    (List.range 8).flatMap
      (fun i => [.ensureChr (chrMap i).toNat,.expectChr (chrMap i).toNat])++
    (List.range 8).map (fun i => .vram i (chrMap i).toNat)++
    if bank6 0<255 then map67 cart (bank6 0).toUInt32 else []

/-- The routines that switch banks, with their arguments. -/
inductive Switch where
  /-- `map67_`. -/
  | map67 (r0 : UInt32)
  /-- `map89_`. -/
  | map89 (r0 : UInt32)
  /-- `mapAB_`. -/
  | mapAB (r0 : UInt32)
  /-- `mapCD_`. -/
  | mapCD (r0 : UInt32)
  /-- `mapEF_`. -/
  | mapEF (r0 : UInt32)
  /-- `map89AB_`. -/
  | map89AB (r0 : UInt32)
  /-- `mapCDEF_`. -/
  | mapCDEF (r0 : UInt32)
  /-- `map89ABCDEF_`. -/
  | map89ABCDEF (r0 : UInt32)
  /-- `chr0_`. -/
  | chr0 (r0 : UInt32)
  /-- `chr1_`. -/
  | chr1 (r0 : UInt32)
  /-- `chr2_`. -/
  | chr2 (r0 : UInt32)
  /-- `chr3_`. -/
  | chr3 (r0 : UInt32)
  /-- `chr4_`. -/
  | chr4 (r0 : UInt32)
  /-- `chr5_`. -/
  | chr5 (r0 : UInt32)
  /-- `chr6_`. -/
  | chr6 (r0 : UInt32)
  /-- `chr7_`. -/
  | chr7 (r0 : UInt32)
  /-- `chr01_`. -/
  | chr01 (r0 : UInt32)
  /-- `chr23_`. -/
  | chr23 (r0 : UInt32)
  /-- `chr45_`. -/
  | chr45 (r0 : UInt32)
  /-- `chr67_`. -/
  | chr67 (r0 : UInt32)
  /-- `chr0123_`. -/
  | chr0123 (r0 : UInt32)
  /-- `chr4567_`. -/
  | chr4567 (r0 : UInt32)
  /-- `chr01234567_`. -/
  | chr01234567 (r0 : UInt32)
  /-- The reset of the registers. -/
  | reset
  /-- The load of a saved state. -/
  | restore (bank6 chrMap : ℕ → UInt8)

/-- The operations of a routine. -/
def Switch.ops : Switch → List Op
  | .map67 r0 => PocketnesSwitches.map67 cart r0
  | .map89 r0 => PocketnesSwitches.map89 cart r0
  | .mapAB r0 => PocketnesSwitches.mapAB cart r0
  | .mapCD r0 => PocketnesSwitches.mapCD cart r0
  | .mapEF r0 => PocketnesSwitches.mapEF cart r0
  | .map89AB r0 => PocketnesSwitches.map89AB cart r0
  | .mapCDEF r0 => PocketnesSwitches.mapCDEF cart r0
  | .map89ABCDEF r0 => PocketnesSwitches.map89ABCDEF cart r0
  | .chr0 r0 => PocketnesSwitches.chr0 cart r0
  | .chr1 r0 => PocketnesSwitches.chr1 cart r0
  | .chr2 r0 => PocketnesSwitches.chr2 cart r0
  | .chr3 r0 => PocketnesSwitches.chr3 cart r0
  | .chr4 r0 => PocketnesSwitches.chr4 cart r0
  | .chr5 r0 => PocketnesSwitches.chr5 cart r0
  | .chr6 r0 => PocketnesSwitches.chr6 cart r0
  | .chr7 r0 => PocketnesSwitches.chr7 cart r0
  | .chr01 r0 => PocketnesSwitches.chr01 cart r0
  | .chr23 r0 => PocketnesSwitches.chr23 cart r0
  | .chr45 r0 => PocketnesSwitches.chr45 cart r0
  | .chr67 r0 => PocketnesSwitches.chr67 cart r0
  | .chr0123 r0 => PocketnesSwitches.chr0123 cart r0
  | .chr4567 r0 => PocketnesSwitches.chr4567 cart r0
  | .chr01234567 r0 => PocketnesSwitches.chr01234567 cart r0
  | .reset => resetBanks
  | .restore bank6 chrMap => restoreCacheMap cart bank6 chrMap

end Routines

section Runs

variable (cart : Cart)

/-- An operation of a routine that has not ended. -/
def turn (m : Machine) (entry : Op×Read) : Machine :=
  if m.ended then m else perform cart entry.2 m entry.1

/-- A routine, with an outcome for each read that it may make. -/
def runSwitch (m : Machine) (switch : Switch) (reads : ℕ → Read) : Machine :=
  ((switch.ops cart).zipIdx.map fun entry => (entry.1,reads entry.2)).foldl (turn cart)
    {m with ended := false}

end Runs

end ChisLink.PocketnesSwitches
