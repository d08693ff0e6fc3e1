import ChisLink.ErasableMemory
import ChisLink.CartNorDriver

/-!
# NOR flash chips

A chip on the cartridge bus with the AMD or the Intel command set, as the JEDEC
and CFI command tables describe them: unlock cycles, sector erase, word and
buffer programming, identifier and query modes. Programming clears bits, an erase
sets a sector to ones. An operation keeps the chip busy for a number of status
reads that the model leaves open; a busy chip answers with its status and ignores
commands. The chip may sit behind swapped data lines; commands and statuses pass
them, the contents are given as the console reads them.
-/

namespace ChisLink.NorFlashChip

open ErasableMemory CartNorDriver

/-- First address of the sector of an address, in regions from a base address on.
What lies behind the regions counts as one sector. -/
def sectorStart (base : ℕ) : List (ℕ×ℕ) → ℕ → ℕ
  | [], _ => base
  | (count,size)::regions, addr =>
    if addr<base+count*size then base+(addr-base)/size*size
    else sectorStart (base+count*size) regions addr

/-- Total size of regions. -/
def regionsSize (regions : List (ℕ×ℕ)) : ℕ := (regions.map fun r => r.1*r.2).sum

/-- The erase sectors of a chip: regions of sectors of one size, from the bottom. -/
structure Geometry where
  /-- Number of sectors and their size, for each region. -/
  regions : List (ℕ×ℕ)
  /-- Sectors are not empty. -/
  size_pos : ∀ r∈regions,0< r.2
  /-- Sectors consist of halfwords. -/
  size_even : ∀ r∈regions,2∣r.2

theorem base_le_sectorStart (base : ℕ) (regions : List (ℕ×ℕ)) (addr : ℕ) :
    base≤ sectorStart base regions addr := by
  induction regions generalizing base with
  | nil => exact le_refl _
  | cons r regions ih =>
    unfold sectorStart
    split
    · omega
    · have hrest := ih (base+r.1*r.2)
      omega

theorem sectorStart_le {base addr : ℕ} (regions : List (ℕ×ℕ)) (h : base≤addr) :
    sectorStart base regions addr≤addr := by
  induction regions generalizing base with
  | nil => exact h
  | cons r regions ih =>
    unfold sectorStart
    split
    · have hdiv := Nat.div_mul_le_self (addr-base) r.2
      omega
    · exact ih (by omega)

/-- All addresses from the start of a sector up to one of its addresses are in it. -/
theorem sectorStart_eq {base i j : ℕ} (regions : List (ℕ×ℕ)) (hbase : base≤j)
    (hlow : sectorStart base regions i≤j) (hle : j≤ i) :
    sectorStart base regions j=sectorStart base regions i := by
  induction regions generalizing base with
  | nil => rfl
  | cons r regions ih =>
    unfold sectorStart at hlow ⊢
    by_cases hi : i<base+r.1*r.2
    · rw [if_pos hi] at hlow ⊢
      rw [if_pos (by omega)]
      have hquot : (j-base)/r.2=(i-base)/r.2 := by
        rcases Nat.eq_zero_or_pos r.2 with hzero | hpos
        · rw [hzero,Nat.div_zero,Nat.div_zero]
        · refine Nat.le_antisymm (Nat.div_le_div_right (by omega)) ?_
          rw [Nat.le_div_iff_mul_le hpos]
          omega
      rw [hquot]
    · rw [if_neg hi] at hlow ⊢
      have hnext := base_le_sectorStart (base+r.1*r.2) regions i
      rw [if_neg (by omega)]
      exact ih (by omega) hlow

/-- Sectors begin at multiples of what divides all their sizes. -/
theorem dvd_sectorStart {base d : ℕ} {regions : List (ℕ×ℕ)} (hbase : d∣base)
    (hsize : ∀ r∈regions,d∣r.2) (addr : ℕ) : d∣sectorStart base regions addr := by
  induction regions generalizing base with
  | nil => exact hbase
  | cons r regions ih =>
    have hr := hsize r (List.mem_cons_self)
    unfold sectorStart
    split
    · exact Nat.dvd_add hbase (Dvd.dvd.mul_left hr _)
    · exact ih (Nat.dvd_add hbase (Dvd.dvd.mul_left hr _))
        fun r' hr' => hsize r' (List.mem_cons_of_mem _ hr')

/-- First address of the sector of an address. -/
def Geometry.sectorStart (g : Geometry) (addr : ℕ) : ℕ :=
  NorFlashChip.sectorStart 0 g.regions addr

/-- Sectors begin at even addresses. -/
theorem Geometry.even_sectorStart (g : Geometry) (addr : ℕ) : g.sectorStart addr%2=0 :=
  Nat.mod_eq_zero_of_dvd (dvd_sectorStart (Nat.dvd_zero 2) g.size_even addr)

/-- The sectors as blocks of halfwords. -/
def Geometry.blocks (g : Geometry) : Blocks where
  start i := g.sectorStart (2*i)/2
  start_le i := by
    have hle := NorFlashChip.sectorStart_le g.regions (Nat.zero_le (2*i))
    unfold Geometry.sectorStart
    omega
  start_eq i j hlow hle := by
    have heven := g.even_sectorStart (2*i)
    have hlow' : NorFlashChip.sectorStart 0 g.regions (2*i)≤2*j := by
      unfold Geometry.sectorStart at hlow heven
      omega
    have heq := NorFlashChip.sectorStart_eq g.regions (Nat.zero_le (2*j)) hlow' (by omega)
    exact congrArg (fun n => n/2) heq

/-- Programming a halfword clears bits; an erased one has ones. -/
def norCell : CellKind UInt16 where
  combine old new := old &&& new
  blank := 0xffff
  combine_blank v := by
    have hones : (0xffff : UInt16).toBitVec=BitVec.allOnes 16 := rfl
    apply UInt16.toBitVec_inj.mp
    rw [UInt16.toBitVec_and,hones,BitVec.allOnes_and]

/-- What a chip is doing. -/
inductive ChipMode where
  /-- Reading the array. -/
  | array
  /-- Reading the status register, Intel. -/
  | status
  /-- Reading the identifier. -/
  | identifier
  /-- Reading the CFI tables. -/
  | query
  /-- One unlock cycle was seen, AMD. -/
  | unlock1
  /-- Both unlock cycles were seen, AMD. -/
  | unlock2
  /-- An erase was set up. -/
  | eraseSetup
  /-- One unlock cycle of an erase was seen, AMD. -/
  | eraseUnlock1
  /-- Both unlock cycles of an erase were seen, AMD. -/
  | eraseUnlock2
  /-- A change of the block lock was set up, Intel. -/
  | lockSetup
  /-- The next write is the data to program. -/
  | programData
  /-- The write buffer was asked for and not granted yet, Intel. -/
  | bufferWait
  /-- The next write is the number of halfwords of a buffer, less one. -/
  | bufferCount
  /-- So many halfwords of the buffer are missing after these. -/
  | bufferLoad (missing : ℕ) (loaded : List (ℕ×UInt16))
  /-- The buffer is loaded and waits for its confirmation. -/
  | bufferConfirm (loaded : List (ℕ×UInt16))
  /-- A buffer command went wrong. -/
  | aborted
deriving DecidableEq

/-- What a chip is: its command set, wiring and sectors, what it answers when it is
identified, and how long its operations take. -/
structure ChipConfig where
  /-- Whether the chip has the Intel command set. -/
  intel : Bool
  /-- Whether the lines D0 and D1 are swapped. -/
  swapped : Bool
  /-- The sectors. -/
  geometry : Geometry
  /-- Addresses have thirty-two bits. -/
  size_lt : regionsSize geometry.regions<2^32
  /-- Halfwords of the write buffer. -/
  bufferWords : ℕ
  /-- Their number is written in one cycle, less one. -/
  bufferWords_le : bufferWords≤65536
  /-- The command that asks for the write buffer, Intel. -/
  bufferCommand : UInt16
  /-- It is one of the two that there are. -/
  bufferCommand_eq : bufferCommand=0xe8 ∨ bufferCommand=0xe9
  /-- What is read in the identifier and query modes. -/
  answer : ChipMode → ℕ → UInt16
  /-- Status reads until the n-th operation has ended. -/
  delay : ℕ → ℕ

/-- The state of a chip with a record of the operations that it has carried out. -/
structure NorChip where
  /-- The contents. -/
  cells : ℕ → UInt16
  /-- What the chip is doing. -/
  mode : ChipMode
  /-- Status reads until the current operation has ended. -/
  busy : ℕ
  /-- The status while it lasts. -/
  pending : UInt16
  /-- Number of operations so far. -/
  clock : ℕ
  /-- The operations on the array. -/
  ops : List (MemoryOp UInt16)

variable (cfg : ChipConfig)

/-- Carry out operations on the array. -/
def NorChip.perform (c : NorChip) (ops : List (MemoryOp UInt16)) : NorChip :=
  {c with
    cells := replay cfg.geometry.blocks norCell ops c.cells
    ops := c.ops++ops}

/-- Become busy. -/
def NorChip.begin (c : NorChip) (pending : UInt16) (mode : ChipMode) : NorChip :=
  {c with
    busy := cfg.delay c.clock
    clock := c.clock+1
    pending := pending
    mode := mode}

/-- The mode in which an operation ends. -/
def ChipConfig.doneMode : ChipMode := if cfg.intel then .status else .array

/-- The status while something is programmed: D7 is the complement of the data for
the AMD command set, and not ready for the Intel one. -/
def ChipConfig.programStatus (data : UInt16) : UInt16 :=
  if cfg.intel then 0 else ~~~data &&& 0x80

/-- The sector of a halfword index, as an index. -/
def ChipConfig.sector (index : ℕ) : ℕ := cfg.geometry.blocks.start index

/-- Erase the sector of an index. -/
def NorChip.erase (c : NorChip) (index : ℕ) : NorChip :=
  (c.perform cfg [.erase (cfg.sector index)]).begin cfg 0 cfg.doneMode

/-- Program halfwords, the status shows the last one. -/
def NorChip.program (c : NorChip) (data : List (ℕ×UInt16)) (last : UInt16) : NorChip :=
  (c.perform cfg (data.map fun d => .program d.1 d.2)).begin cfg (cfg.programStatus last)
    cfg.doneMode

/-- The number of halfwords of a buffer. -/
def NorChip.count (c : NorChip) (cmd : UInt16) : NorChip :=
  if cmd.toNat+1≤ cfg.bufferWords then {c with mode := .bufferLoad (cmd.toNat+1) []}
  else {c with mode := .aborted}

/-- Whether two indices are in one page of the write buffer. -/
def ChipConfig.samePage (first second : ℕ) : Bool :=
  first/cfg.bufferWords=second/cfg.bufferWords

/-- A halfword of a buffer. -/
def NorChip.load (c : NorChip) (missing : ℕ) (loaded : List (ℕ×UInt16)) (index : ℕ)
    (data : UInt16) : NorChip :=
  if loaded.all fun d => cfg.samePage d.1 index then
    if missing=1 then {c with mode := .bufferConfirm (loaded++[(index,data)])}
    else {c with mode := .bufferLoad (missing-1) (loaded++[(index,data)])}
  else {c with mode := .aborted}

/-- A write to a chip with the AMD command set that is not busy. -/
def NorChip.amdWrite (c : NorChip) (index : ℕ) (cmd data : UInt16) : NorChip :=
  match c.mode with
  | .array | .status | .lockSetup | .bufferWait =>
    if cmd=0xaa ∧ index=0x555 then {c with mode := .unlock1}
    else if cmd=0x98 then {c with mode := .query}
    else {c with mode := .array}
  | .identifier | .query => if cmd=0xf0 then {c with mode := .array} else c
  | .unlock1 =>
    if cmd=0x55 ∧ index=0x2aa then {c with mode := .unlock2} else {c with mode := .array}
  | .unlock2 =>
    if cmd=0x25 then {c with mode := .bufferCount}
    else if index=0x555 ∧ cmd=0x90 then {c with mode := .identifier}
    else if index=0x555 ∧ cmd=0x80 then {c with mode := .eraseSetup}
    else if index=0x555 ∧ cmd=0xa0 then {c with mode := .programData}
    else {c with mode := .array}
  | .eraseSetup =>
    if cmd=0xaa ∧ index=0x555 then {c with mode := .eraseUnlock1}
    else {c with mode := .array}
  | .eraseUnlock1 =>
    if cmd=0x55 ∧ index=0x2aa then {c with mode := .eraseUnlock2}
    else {c with mode := .array}
  | .eraseUnlock2 => if cmd=0x30 then c.erase cfg index else {c with mode := .array}
  | .programData => c.program cfg [(index,data)] data
  | .bufferCount => c.count cfg cmd
  | .bufferLoad missing loaded => c.load cfg missing loaded index data
  | .bufferConfirm loaded =>
    if cmd=0x29 then c.program cfg loaded ((loaded.getLastD (0,0)).2)
    else {c with mode := .aborted}
  | .aborted => c

/-- A first command cycle of a chip with the Intel command set. -/
def NorChip.intelCommand (c : NorChip) (cmd : UInt16) : NorChip :=
  if cmd=0xff then {c with mode := .array}
  else if cmd=0x70 then {c with mode := .status}
  else if cmd=0x90 then {c with mode := .identifier}
  else if cmd=0x98 then {c with mode := .query}
  else if cmd=0x60 then {c with mode := .lockSetup}
  else if cmd=0x20 then {c with mode := .eraseSetup}
  else if cmd=0x10 ∨ cmd=0x40 then {c with mode := .programData}
  else if cmd=cfg.bufferCommand then c.begin cfg 0 .bufferWait
  else c

/-- A write to a chip with the Intel command set that is not busy. -/
def NorChip.intelWrite (c : NorChip) (index : ℕ) (cmd data : UInt16) : NorChip :=
  match c.mode with
  | .programData => c.program cfg [(index,data)] data
  | .eraseSetup => if cmd=0xd0 then c.erase cfg index else {c with mode := .status}
  | .lockSetup => {c with mode := .status}
  | .bufferWait => if cmd=cfg.bufferCommand then c else c.intelCommand cfg cmd
  | .bufferCount => c.count cfg cmd
  | .bufferLoad missing loaded => c.load cfg missing loaded index data
  | .bufferConfirm loaded =>
    if cmd=0xd0 then c.program cfg loaded ((loaded.getLastD (0,0)).2)
    else {c with mode := .aborted}
  | .array | .status | .identifier | .query | .unlock1 | .unlock2 | .eraseUnlock1
  | .eraseUnlock2 | .aborted => c.intelCommand cfg cmd

/-- A write to the chip. A busy chip ignores it. -/
def chipWrite (index : ℕ) (data : UInt16) (c : NorChip) : NorChip :=
  if 0<c.busy then c
  else if cfg.intel then c.intelWrite cfg index (viaLines cfg.swapped data) data
  else c.amdWrite cfg index (viaLines cfg.swapped data) data

/-- A read of the chip. -/
def chipRead (index : ℕ) (c : NorChip) : UInt16×NorChip :=
  if 0<c.busy then (viaLines cfg.swapped c.pending,{c with busy := c.busy-1})
  else match c.mode with
    | .array => (c.cells index,c)
    | .identifier | .query => (cfg.answer c.mode index,c)
    | .bufferWait => (viaLines cfg.swapped 0x80,{c with mode := .bufferCount})
    | _ => if cfg.intel then (viaLines cfg.swapped 0x80,c) else (c.cells index,c)

/-- The chip on the bus. -/
def chipBus : Bus NorChip where
  read := chipRead cfg
  write := chipWrite cfg

end ChisLink.NorFlashChip
