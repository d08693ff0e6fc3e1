import Mathlib.Algebra.GroupWithZero.Nat
import Mathlib.Data.Nat.Log
import ChisLink.SlotCache

/-!
# The page cache of PocketNES

The emulator keeps parts of a ROM image in memory: four slots for groups of four
8 KiB program pages, one page at `$6000`, and 9 or 17 slots for 1 KiB character
pages. Two lookup tables say where a page is. Page numbers may be at or above the
number of pages, they then stand for their remainder. A read through the bridge
gets the bytes of the image or fails and leaves some bytes behind. Memory is a
function from positions to bytes.
-/

namespace ChisLink.PocketnesCache

open SlotCache

/-- Number of a mapper with character memory among its pages. -/
def tqrom : ℕ := 119

/-- Bytes of a group of program pages. -/
def prgGroupBytes : ℕ := 32*1024

/-- Bytes of a program page. -/
def prgPageBytes : ℕ := 8*1024

/-- Program pages in a group. -/
def prgGroupPages : ℕ := 4

/-- Slots for groups. -/
def prgCacheGroups : ℕ := 4

/-- Bytes of a character page. -/
def chrPageBytes : ℕ := 1024

/-- Slots for character pages. -/
def chrCachePagesMin : ℕ := 9

/-- Slots for character pages where the page at `$6000` is not needed. -/
def chrCachePagesMax : ℕ := 17

/-- A cartridge: the image and what its header says. -/
structure Cart where
  /-- Bytes of the image file. -/
  rom : ℕ → UInt8
  /-- Where the program begins in it. -/
  prgOffset : ℕ
  /-- Program size in units of 16 KiB, `rompages`. -/
  rompages : ℕ
  /-- There is a program. -/
  rompages_pos : 0< rompages
  /-- It is one byte of the header. -/
  rompages_lt : rompages<256
  /-- Character size in units of 8 KiB. -/
  chrBanks : ℕ
  /-- Larger images are refused. -/
  chrBanks_le : chrBanks≤128
  /-- The mapper. -/
  mapper : ℕ

/-- Bytes of the program. -/
def Cart.prgSize (cart : Cart) : ℕ := cart.rompages*(16*1024)

/-- Bytes of the characters. -/
def Cart.chrSize (cart : Cart) : ℕ := cart.chrBanks*(8*1024)

/-- Where the characters begin in the image. -/
def Cart.chrOffset (cart : Cart) : ℕ := cart.prgOffset+cart.prgSize

/-- The variable `vrompages`: the character size rounded up to a power of two. -/
def Cart.vrompages (cart : Cart) : ℕ :=
  if cart.chrBanks=0 then 0 else 2^Nat.clog 2 cart.chrBanks

/-- Number of program pages. -/
def Cart.prgPages (cart : Cart) : ℕ := cart.rompages*2

/-- Number of character pages. -/
def Cart.chrPages (cart : Cart) : ℕ := cart.chrSize/chrPageBytes

/-- Entries of the character table. -/
def Cart.chrTablePages (cart : Cart) : ℕ :=
  if cart.mapper=tqrom then cart.vrompages*8*2 else cart.vrompages*8

/-- Number of character slots, `s_chr_slots`. -/
def Cart.chrSlots (cart : Cart) : ℕ :=
  if cart.mapper=4 then chrCachePagesMax else chrCachePagesMin

/-- Where the character slots begin behind the groups. With mapper 4 they use the
page at `$6000` too. -/
def Cart.chrBase (cart : Cart) : ℕ := if cart.mapper=4 then 0 else prgPageBytes

/-- An address in one of the caches or in the video memory. -/
inductive Pointer where
  /-- A page of a group slot. -/
  | prg (slot page : ℕ)
  /-- A character slot. -/
  | chr (slot : ℕ)
  /-- An offset in `NES_VRAM`. -/
  | vram (offset : ℕ)
deriving DecidableEq

/-- The variables of the cache. A tag is missing where the C code has
`INVALID_GROUP`, which is larger than all numbers of groups and pages. -/
structure Cache where
  /-- `s_prg_cache`, by slots. -/
  prg : ℕ → ℕ → UInt8
  /-- The memory behind it, from the page at `$6000` on. -/
  lower : ℕ → UInt8
  /-- `s_prg_group`. -/
  prgGroup : ℕ → Option ℕ
  /-- `s_chr_page`. -/
  chrPage : ℕ → Option ℕ
  /-- `s_prg_age`. -/
  prgAge : ℕ → UInt32
  /-- `s_chr_age`. -/
  chrAge : ℕ → UInt32
  /-- `s_clock`. -/
  clock : UInt32
  /-- `s_prg67_page`. -/
  prg67Page : Option ℕ
  /-- `instant_prg_banks`. -/
  instantPrgBanks : ℕ → Option Pointer
  /-- `instant_chr_banks`. -/
  instantChrBanks : ℕ → Option Pointer

/-- The banks that the emulated machine has mapped. -/
structure Banks where
  /-- `bank6`: the program pages. -/
  bank6 : ℕ → ℕ
  /-- `Cbank0`: the character pages. -/
  cbank0 : ℕ → ℕ

/-- What a read through the bridge does: it succeeds, or it fails and leaves bytes at
the destination. -/
abbrev Read : Type := Option (ℕ → UInt8)

/-- The bytes at a read's destination, where the image has the given bytes. -/
def readBytes (read : Read) (image : ℕ → UInt8) : ℕ → UInt8 :=
  match read with
  | none => image
  | some left => left

/-- The function `active_prg_group`. -/
def activePrgGroup (banks : Banks) (group : ℕ) : Bool :=
  [1,2,3,4].any fun i => banks.bank6 i/prgGroupPages=group

/-- The function `chr_ram_page`. -/
def chrRamPage (cart : Cart) (page : ℕ) : Option Pointer :=
  let base := if cart.rompages=32 then 8 else 0
  if cart.mapper=74 ∧ base≤page ∧ page<base+2 then some (.vram ((page-base)*chrPageBytes))
  else if cart.mapper=tqrom ∧ 64≤page ∧ page<128 then some (.vram (page%8*chrPageBytes))
  else none

/-- The function `active_chr_page`. -/
def activeChrPage (cart : Cart) (banks : Banks) (page : ℕ) : Bool :=
  (List.range 8).any fun i =>
    let active := banks.cbank0 i
    cart.chrPages≠0 && (chrRamPage cart active).isNone && active<cart.vrompages*8 &&
      active%cart.chrPages=page

/-- The function `read_group`: whether it succeeds, and the bytes of the slot. -/
def readGroup (cart : Cart) (fileOffset fileBytes groupBytes group : ℕ) (read : Read) :
    Bool×(ℕ → UInt8) :=
  let offset := group*groupBytes
  if fileBytes≤offset then (false,fun _ => 0xff)
  else
    let take := min (fileBytes-offset) groupBytes
    let bytes := readBytes read fun i => cart.rom (fileOffset+offset+i)
    (read.isNone,fun i => if i<take then bytes i else 0xff)

/-- The function `map_prg_group`: the entries that its loop visits. -/
def mapPrgGroup (cart : Cart) (slot group : ℕ) (s : Cache) : Cache :=
  { s with
    instantPrgBanks := fun k =>
      if k/prgGroupPages=group ∧ k<cart.rompages*2 then some (.prg slot (k%prgGroupPages))
      else s.instantPrgBanks k }

/-- The function `unmap_prg_group`. -/
def unmapPrgGroup (cart : Cart) (slot : ℕ) (s : Cache) : Cache :=
  match s.prgGroup slot with
  | none => s
  | some group =>
    { s with
      instantPrgBanks := fun k =>
        if k/prgGroupPages=group ∧ k<cart.rompages*2 then none else s.instantPrgBanks k }

/-- The function `unmap_chr_page`. -/
def unmapChrPage (cart : Cart) (slot : ℕ) (s : Cache) : Cache :=
  match s.chrPage slot with
  | none => s
  | some _ =>
    { s with
      instantChrBanks := fun k =>
        if k<cart.chrTablePages ∧ s.instantChrBanks k=some (.chr slot) then none
        else s.instantChrBanks k }

/-- The function `map_chr_aliases`: the entries that its loop visits, from a page
below the number of pages on. -/
def mapChrAliases (cart : Cart) (page slot : ℕ) (s : Cache) : Cache :=
  { s with
    instantChrBanks := fun k =>
      if k<cart.chrTablePages ∧ k%cart.chrPages=page ∧ chrRamPage cart k=none then
        some (.chr slot)
      else s.instantChrBanks k }

/-- The function `choose_prg_slot`. -/
def choosePrgSlot (banks : Banks) (s : Cache) : ℕ :=
  choose s.prgGroup s.prgAge (activePrgGroup banks) prgCacheGroups 0

/-- The function `choose_chr_slot`. -/
def chooseChrSlot (cart : Cart) (banks : Banks) (s : Cache) : ℕ :=
  choose s.chrPage s.chrAge (activeChrPage cart banks) cart.chrSlots 0

/-- A group slot was used. -/
def touchPrg (slot : ℕ) (s : Cache) : Cache :=
  { s with
    clock := s.clock+1
    prgAge := Function.update s.prgAge slot (s.clock+1) }

/-- A character slot was used. -/
def touchChr (slot : ℕ) (s : Cache) : Cache :=
  { s with
    clock := s.clock+1
    chrAge := Function.update s.chrAge slot (s.clock+1) }

/-- An entry of the program table is copied to a number that was out of range. -/
def aliasPrg (requested page : ℕ) (s : Cache) : Cache :=
  if requested≠page then
    { s with
      instantPrgBanks :=
        Function.update s.instantPrgBanks requested (s.instantPrgBanks page) }
  else s

/-- Set an entry of the character table. -/
def setChr (requested : ℕ) (address : Pointer) (s : Cache) : Cache :=
  { s with instantChrBanks := Function.update s.instantChrBanks requested (some address) }

/-- The contents of a group slot are replaced. -/
def fillPrg (slot : ℕ) (bytes : ℕ → UInt8) (s : Cache) : Cache :=
  { s with prg := Function.update s.prg slot bytes }

/-- Where a character slot begins. -/
def Cart.chrAt (cart : Cart) (slot : ℕ) : ℕ := cart.chrBase+slot*chrPageBytes

/-- The contents of a character slot are replaced. -/
def fillChr (cart : Cart) (slot : ℕ) (bytes : ℕ → UInt8) (s : Cache) : Cache :=
  { s with
    lower := fun at' =>
      if cart.chrAt slot≤at' ∧ at'<cart.chrAt slot+chrPageBytes then
        bytes (at'-cart.chrAt slot)
      else s.lower at' }

/-- The tag of a group slot is set. -/
def tagPrg (slot group : ℕ) (s : Cache) : Cache :=
  { s with prgGroup := Function.update s.prgGroup slot (some group) }

/-- The tag of a character slot is set. -/
def tagChr (slot page : ℕ) (s : Cache) : Cache :=
  { s with chrPage := Function.update s.chrPage slot (some page) }

/-- The function `chislink_pocketnes_prg67`. Its result is always the page at `$6000`. -/
def prg67 (cart : Cart) (read : Read) (page : ℕ) (s : Cache) : Cache :=
  let page := page%cart.prgPages
  if s.prg67Page≠some page then
    let bytes := readBytes read fun i => cart.rom (cart.prgOffset+page*prgPageBytes+i)
    { s with
      lower := fun i => if i<prgPageBytes then bytes i else s.lower i
      prg67Page := some page }
  else s

/-- The function `chislink_pocketnes_ensure_prg`. -/
def ensurePrg (cart : Cart) (banks : Banks) (read : Read) (requested : ℕ) (s : Cache) :
    Option Pointer×Cache :=
  let page := requested%cart.prgPages
  let group := page/prgGroupPages
  match find s.prgGroup prgCacheGroups group with
  | some slot =>
    (some (.prg slot (page%prgGroupPages)),aliasPrg requested page (touchPrg slot s))
  | none =>
    let slot := choosePrgSlot banks s
    let reply := readGroup cart cart.prgOffset cart.prgSize prgGroupBytes group read
    let filled := fillPrg slot reply.2 (unmapPrgGroup cart slot s)
    if reply.1=false then (none,filled)
    else
      (some (.prg slot (page%prgGroupPages)),
        aliasPrg requested page
          (mapPrgGroup cart slot group (touchPrg slot (tagPrg slot group filled))))

/-- The function `chislink_pocketnes_ensure_chr`. -/
def ensureChr (cart : Cart) (banks : Banks) (read : Read) (requested : ℕ) (s : Cache) :
    Cache :=
  if cart.chrPages=0 then s
  else
    match chrRamPage cart requested with
    | some ram => setChr requested ram s
    | none =>
      let page := requested%cart.chrPages
      match find s.chrPage cart.chrSlots page with
      | some slot =>
        setChr requested (.chr slot) (mapChrAliases cart page slot (touchChr slot s))
      | none =>
        let slot := chooseChrSlot cart banks s
        let reply := readGroup cart cart.chrOffset cart.chrSize chrPageBytes page read
        let filled := fillChr cart slot reply.2 (unmapChrPage cart slot s)
        if reply.1=false then filled
        else
          setChr requested (.chr slot)
            (mapChrAliases cart page slot (touchChr slot (tagChr slot page filled)))

/-- The function `chislink_pocketnes_ensure_chr_range`, with a read for each page. -/
def ensureChrRange (cart : Cart) (banks : Banks) (reads : ℕ → Read) :
    ℕ → ℕ → Cache → Cache
  | _,0,s => s
  | page,count+1,s =>
    ensureChrRange cart banks (fun i => reads (i+1)) (page+1) count
      (ensureChr cart banks (reads 0) page s)

/-- The byte at an address in the caches. -/
def byteAt (cart : Cart) (s : Cache) : Pointer → ℕ → UInt8
  | .prg slot page,i => s.prg slot (page*prgPageBytes+i)
  | .chr slot,i => s.lower (cart.chrAt slot+i)
  | .vram _,_ => 0

/-- The tables and tags are cleared. What lies beyond the tables is not theirs; the
model has no pointers there. -/
def clearCache (s : Cache) : Cache :=
  { s with
    instantPrgBanks := fun _ => none
    instantChrBanks := fun _ => none
    prgGroup := fun _ => none
    chrPage := fun _ => none
    prgAge := fun _ => 0
    chrAge := fun _ => 0
    clock := 0
    prg67Page := none }

/-- The first groups are loaded. -/
def initPrg (cart : Cart) (banks : Banks) (reads : ℕ → Read) (s : Cache) : Cache :=
  (List.range (min prgCacheGroups ((cart.prgSize+prgGroupBytes-1)/prgGroupBytes))).foldl
    (fun s i => (ensurePrg cart banks (reads i) (i*prgGroupPages) s).2) s

/-- The page at `$6000` is copied from the first program page, if it was loaded. -/
def initPrg67 (cart : Cart) (s : Cache) : Cache :=
  match s.instantPrgBanks 0 with
  | none => s
  | some address =>
    { s with
      lower := fun i => if i<prgPageBytes then byteAt cart s address i else s.lower i
      prg67Page := some 0 }

/-- The first character pages are loaded. -/
def initChr (cart : Cart) (banks : Banks) (reads : ℕ → Read) (s : Cache) : Cache :=
  (List.range (min cart.chrSlots cart.chrPages)).foldl
    (fun s i => ensureChr cart banks (reads i) i s) s

/-- The entries of the character memory are set. -/
def initChrRam (cart : Cart) (s : Cache) : Cache :=
  { s with
    instantChrBanks := fun k =>
      if cart.chrPages=0 ∧ k<8 then some (.vram (k*chrPageBytes))
      else if k<cart.chrTablePages ∧ (chrRamPage cart k).isSome then chrRamPage cart k
      else s.instantChrBanks k }

/-- The function `chislink_pocketnes_cache_init`, with its reads. -/
def cacheInit (cart : Cart) (banks : Banks) (prgReads chrReads : ℕ → Read) (s : Cache) :
    Cache :=
  initChrRam cart (initChr cart banks chrReads (initPrg67 cart
    (initPrg cart banks prgReads (clearCache s))))

end ChisLink.PocketnesCache
