import ChisLink.CartNorProbe

/-!
# Programming an image

A session writes an image in consecutive chunks, with or without an announcement
of its size. Its operations are those of the canonical order: each sector is
erased when the writing arrives at it. Whether that erase was begun by the arrival
or ahead of it makes no difference. Only the first one is lost if the chip is
still busy with an erase from before the session.
-/

namespace ChisLink.CartNorProgramming

open ErasableMemory DriverPrograms CartNorDriver NorFlashChip CartNorCommands CartNorProbe

/-- The regions of a chip as the driver lists them. -/
def layout (base : ℕ) : List (ℕ×ℕ) → List SectorRegion
  | [] => []
  | (count,size)::regions => ⟨base,base+count*size,size⟩::layout (base+count*size) regions

/-- The tables listed from the bottom give the regions of the chip, if its size fits. -/
theorem regionsFrom_eq_layout (current : UInt32) (regions : List (UInt32×UInt32))
    (hfits : current.toNat+regionsSize (regions.map fun r => (r.1.toNat,r.2.toNat))<2^32) :
    regionsFrom current regions=
      layout current.toNat (regions.map fun r => (r.1.toNat,r.2.toNat)) := by
  induction regions generalizing current with
  | nil => rfl
  | cons r regions ih =>
    obtain ⟨blocks,size⟩ := r
    have htotal : regionsSize (((blocks,size)::regions).map fun r => (r.1.toNat,r.2.toNat))=
        blocks.toNat*size.toNat+regionsSize (regions.map fun r => (r.1.toNat,r.2.toNat)) := by
      simp [regionsSize]
    have hnext : (current+blocks*size).toNat=current.toNat+blocks.toNat*size.toNat := by
      have hproduct : blocks.toNat*size.toNat%2^32=blocks.toNat*size.toNat :=
        Nat.mod_eq_of_lt (by omega)
      rw [UInt32.toNat_add,UInt32.toNat_mul,hproduct]
      exact Nat.mod_eq_of_lt (by omega)
    unfold regionsFrom
    rw [ih _ (by omega),hnext]
    rfl

/-- What the driver found out about a chip. -/
structure Describes (cfg : ChipConfig) (nor : NorState) : Prop where
  /-- The command set and the wiring. -/
  matched : Matched cfg nor
  /-- The size. -/
  size : nor.probeCache.flashSize=regionsSize cfg.geometry.regions
  /-- The sectors: some regions, or sectors of one size. -/
  sectors : (2≤nor.probeCache.sectorRegions.length ∧
      nor.probeCache.sectorRegions=layout 0 cfg.geometry.regions) ∨
    (nor.probeCache.sectorRegions.length<2 ∧
      ∃ count,cfg.geometry.regions=[(count,nor.probeCache.sectorSize)])
  /-- The write buffer, if it is used. The sizes of sectors are multiples of its size. -/
  buffer : nor.probeCache.writeBufferSize=0 ∨
    (nor.probeCache.writeBufferSize=2*cfg.bufferWords ∧ @Buffered cfg nor ∧
      ∀ r∈cfg.geometry.regions,2*cfg.bufferWords∣r.2)

/-- The region of an address in a layout, and where its sector begins. -/
theorem find_layout {base addr : ℕ} {regions : List (ℕ×ℕ)} (hbase : base≤addr)
    (haddr : addr<base+regionsSize regions) :
    ∃ region,(layout base regions).find?
        (fun region => region.start≤addr && addr< region.stop)=some region ∧
      region.start≤addr ∧ (∃ count,(count,region.size)∈regions) ∧
      sectorStart base regions addr=
        region.start+(addr-region.start)/region.size*region.size := by
  induction regions generalizing base with
  | nil =>
    simp only [regionsSize,List.map_nil,List.sum_nil] at haddr
    omega
  | cons r regions ih =>
    obtain ⟨count,size⟩ := r
    have htotal : regionsSize ((count,size)::regions)=count*size+regionsSize regions := by
      simp [regionsSize]
    unfold layout sectorStart
    by_cases hin : addr<base+count*size
    · refine ⟨⟨base,base+count*size,size⟩,?_,hbase,⟨count,List.mem_cons_self⟩,if_pos hin⟩
      exact List.find?_cons_of_pos (by simp [hbase,hin])
    · have hbeyond : base+count*size≤addr := by omega
      obtain ⟨region,hfind,hstart,⟨n,hmem⟩,hsector⟩ := ih hbeyond (by omega)
      refine ⟨region,?_,hstart,⟨n,List.mem_cons_of_mem _ hmem⟩,?_⟩
      · rw [List.find?_cons_of_neg (by simp [hin])]
        exact hfind
      · rw [if_neg hin]
        exact hsector

/-- A multiple of a size is reached. -/
theorem div_mul_eq_iff {n d : ℕ} : n/d*d=n ↔ n%d=0 := by
  have hdiv := Nat.div_add_mod' n d
  omega

variable {cfg : ChipConfig} {nor : NorState} {α σ : Type}

/-- The driver sees a boundary exactly where a sector of the chip begins. -/
theorem Describes.isSectorBoundary_iff (h : Describes cfg nor) {addr : ℕ}
    (haddr : addr<nor.probeCache.flashSize) :
    isSectorBoundary nor.probeCache addr=true ↔ cfg.geometry.sectorStart addr=addr := by
  rw [h.size] at haddr
  have hpositive := cfg.geometry.size_pos
  rcases h.sectors with ⟨hlength,hregions⟩ | ⟨hlength,count,hregions⟩
  · obtain ⟨region,hfind,hstart,⟨n,hmem⟩,hsector⟩ := @find_layout 0 addr
      cfg.geometry.regions (Nat.zero_le addr) (by omega)
    have hsize := hpositive _ hmem
    have hat : regionAt nor.probeCache addr=some region := by
      unfold regionAt
      rw [hregions]
      exact hfind
    have hmod := @div_mul_eq_iff (addr-region.start) region.size
    have hsize' : region.size≠0 := by omega
    unfold isSectorBoundary sectorSizeAt Geometry.sectorStart
    simp only [hat,hlength,if_true,hsize',if_false,decide_eq_true_iff,hsector]
    omega
  · have hsize := hpositive (count,nor.probeCache.sectorSize)
      (by rw [hregions]; exact List.mem_singleton.mpr rfl)
    have htotal : regionsSize cfg.geometry.regions=count*nor.probeCache.sectorSize := by
      rw [hregions]
      simp [regionsSize]
    have hmod := @div_mul_eq_iff addr nor.probeCache.sectorSize
    have hsize' : nor.probeCache.sectorSize≠0 := by
      dsimp only at hsize
      omega
    have hlength' : ¬2≤nor.probeCache.sectorRegions.length := by omega
    rw [htotal] at haddr
    unfold isSectorBoundary sectorSizeAt Geometry.sectorStart
    simp only [hlength',hsize',if_false,decide_eq_true_iff,hregions,sectorStart,Nat.zero_add,
      Nat.sub_zero,haddr,if_true]
    exact hmod.symm

/-- The same in halfwords. -/
theorem Describes.boundary_iff (h : Describes cfg nor) {addr : ℕ} (heven : addr%2=0)
    (haddr : addr<nor.probeCache.flashSize) :
    isSectorBoundary nor.probeCache addr=true ↔
      cfg.geometry.blocks.start (addr/2)=addr/2 := by
  rw [h.isSectorBoundary_iff haddr]
  have hsector := cfg.geometry.even_sectorStart addr
  have hdouble : 2*(addr/2)=addr := by omega
  change _ ↔ cfg.geometry.sectorStart (2*(addr/2))/2=addr/2
  rw [hdouble]
  omega

/-- No sector begins inside of what is programmed at once. -/
theorem Describes.inside_unit (h : Describes cfg nor) (addr remaining : ℕ) :
    ∀ i,addr/2< i → i<addr/2+chooseWriteUnit nor.probeCache addr remaining/2 →
      cfg.geometry.blocks.start i≠i := by
  intro i hlow hhigh hstart
  have heven := cfg.geometry.even_sectorStart (2*i)
  change cfg.geometry.sectorStart (2*i)/2=i at hstart
  unfold chooseWriteUnit at hhigh
  dsimp only at hhigh
  split at hhigh
  · omega
  next hunit =>
    rcases h.buffer with hnone | ⟨hsize,-,hsizes⟩
    · exact hunit (Or.inl hnone)
    · push Not at hunit
      obtain ⟨hzero,-,haligned,-⟩ := hunit
      rw [hsize] at hhigh hzero haligned
      have hdvd : 2*cfg.bufferWords∣2*i := by
        have hsector : cfg.geometry.sectorStart (2*i)=2*i := by omega
        rw [← hsector]
        exact dvd_sectorStart (Nat.dvd_zero _) hsizes (2*i)
      have hdvd' : 2*cfg.bufferWords∣addr := Nat.dvd_of_mod_eq_zero haligned
      obtain ⟨q,hq⟩ := hdvd
      obtain ⟨r,hr⟩ := hdvd'
      have hqr : r<q := by
        refine Nat.lt_of_mul_lt_mul_left (a := 2*cfg.bufferWords) ?_
        omega
      have hnext : 2*cfg.bufferWords*(r+1)≤2*cfg.bufferWords*q :=
        Nat.mul_le_mul_left _ hqr
      rw [Nat.mul_add] at hnext
      omega

/-- A halfword of an image, with ones behind its end. -/
def imageWord (image : List UInt8) (i : ℕ) : UInt16 := loadLe16OrFf image (2*i)

/-- The rest of an image has the halfwords of the image. -/
theorem loadLe16OrFf_drop (image : List UInt8) {addr : ℕ} (heven : addr%2=0) (j : ℕ) :
    loadLe16OrFf (image.drop addr) (2*j)=imageWord image (addr/2+j) := by
  have hfirst : addr+2*j=2*(addr/2+j) := by omega
  have hsecond : addr+(2*j+1)=2*(addr/2+j)+1 := by omega
  unfold imageWord loadLe16OrFf
  simp only [List.getD_eq_getElem?_getD,List.getElem?_drop,hfirst,hsecond]

/-- The write buffer is filled with halfwords of the image. -/
theorem bufferData_drop (image : List UInt8) {addr : ℕ} (heven : addr%2=0) (j words : ℕ) :
    ((bufferData addr (image.drop addr) (2*j) words).map fun d => .program d.1 d.2)=
      programRun (imageWord image) (addr/2+j) words := by
  induction words generalizing j with
  | zero => rfl
  | succ words ih =>
    have hindex : (addr+2*j)/2=addr/2+j := by omega
    have hrest := ih (j+1)
    have hnext : 2*(j+1)=2*j+2 := by omega
    rw [hnext] at hrest
    unfold bufferData programRun
    rw [List.map_cons,hindex,loadLe16OrFf_drop image heven j,hrest]
    rfl

variable {c c₀ : NorChip}

/-- One unit: its halfwords are programmed. -/
theorem after_programUnit (hd : Describes cfg nor) (hc : Ready cfg c) {addr : ℕ}
    (heven : addr%2=0) (image : List UInt8) (fuel remaining : ℕ) :
    After (programUnit (chipBus cfg) fuel addr
        (chooseWriteUnit nor.probeCache addr remaining) (image.drop addr)) c nor
      (fun _ c' nor' => Ready cfg c' ∧ nor'=nor ∧ Performed cfg c c'
        (programRun (imageWord image) (addr/2)
          (chooseWriteUnit nor.probeCache addr remaining/2))) := by
  unfold programUnit
  by_cases hunit : chooseWriteUnit nor.probeCache addr remaining=2
  · rw [if_pos hunit,hunit]
    have hword := loadLe16OrFf_drop image heven 0
    rw [Nat.mul_zero,Nat.add_zero] at hword
    rw [hword]
    exact after_programWord hd.matched hc fuel addr (imageWord image (addr/2))
  · rw [if_neg hunit]
    unfold chooseWriteUnit at hunit ⊢
    dsimp only at hunit ⊢
    split at hunit
    · exact absurd rfl hunit
    next hbuffer =>
      rw [if_neg hbuffer]
      push Not at hbuffer
      obtain ⟨hzero,-,haligned,-⟩ := hbuffer
      rcases hd.buffer with hnone | ⟨hsize,hbuffered,-⟩
      · exact absurd hnone hzero
      · rw [hsize] at haligned ⊢
        have hwords : 2*cfg.bufferWords/2=cfg.bufferWords := by omega
        have hdata := bufferData_drop image heven 0 cfg.bufferWords
        rw [Nat.add_zero,Nat.mul_zero] at hdata
        rw [hwords,← hdata]
        exact after_programBuffer hd.matched hbuffered hc haligned fuel (image.drop addr)

/-- The operations since the beginning of a session, of which so many first ones got lost. -/
def Did (cfg : ChipConfig) (lost : ℕ) (c₀ c : NorChip) (ops : List (MemoryOp UInt16)) : Prop :=
  Performed cfg c₀ c (ops.drop lost)

variable {lost : ℕ} {image : List UInt8}

theorem Did.more {c' : NorChip} {ops more : List (MemoryOp UInt16)}
    (h : Did cfg lost c₀ c ops) (hlost : lost≤ops.length) (hmore : Performed cfg c c' more) :
    Did cfg lost c₀ c' (ops++more) := by
  unfold Did
  rw [List.drop_append_of_le_length hlost]
  exact h.trans hmore

/-- The chip and the driver of a session that is at a byte of the image. -/
inductive Standing (cfg : ChipConfig) (lost : ℕ) (c₀ : NorChip) (image : List UInt8) (p : ℕ)
    (c : NorChip) (nor : NorState) : Prop where
  /-- Nothing was done; the first operation gets lost if the chip is busy. -/
  | start (hp : p=0) (hactive : nor.preEraseActive=false) (hcalm : Calm cfg c)
    (hops : Performed cfg c₀ c []) (hlost : lost=if c.busy=0 then 0 else 1)
  /-- Everything up to the byte was programmed. -/
  | level (hp : 0<p) (hlost : lost≤1) (hactive : nor.preEraseActive=false)
    (hready : Ready cfg c)
    (hops : Did cfg lost c₀ c (imageOps cfg.geometry.blocks (imageWord image) ((p+1)/2)))
  /-- Besides, the next sector is being erased. -/
  | ahead (heven : p%2=0) (hlost : lost≤1) (hsector : cfg.geometry.blocks.start (p/2)=p/2)
    (hannounced : p<nor.writeExpectedSize) (hactive : nor.preEraseActive=true)
    (haddr : nor.preErasedAddr=p) (herasing : Erasing cfg c)
    (hops : Did cfg lost c₀ c
      (imageOps cfg.geometry.blocks (imageWord image) (p/2)++[.erase (p/2)]))

/-- The variables with a background erase or without. -/
def withErase (nor : NorState) (active : Bool) (addr : ℕ) : NorState :=
  {nor with preEraseActive := active,preErasedAddr := addr}

theorem Describes.withErase (h : Describes cfg nor) (active : Bool) (addr : ℕ) :
    Describes cfg (withErase nor active addr) :=
  ⟨h.matched,h.size,h.sectors,h.buffer.imp_right fun ⟨hsize,hbuffered,hsizes⟩ =>
    ⟨hsize,⟨hbuffered.words_pos,hbuffered.command⟩,hsizes⟩⟩

/-- The chip is told to erase the sector at a byte where one begins. -/
theorem Standing.begun {p : ℕ} {c' : NorChip} (h : Standing cfg lost c₀ image p c nor)
    (heven : p%2=0) (hactive : nor.preEraseActive=false)
    (hsector : cfg.geometry.blocks.start (p/2)=p/2)
    (herase : Performed cfg c c'
      (if c.busy=0 then [.erase (cfg.sector (p/2))] else [])) :
    lost≤1 ∧ Did cfg lost c₀ c'
      (imageOps cfg.geometry.blocks (imageWord image) (p/2)++[.erase (p/2)]) := by
  have hat : cfg.sector (p/2)=p/2 := hsector
  rw [hat] at herase
  cases h with
  | start hp _ hcalm hops hlost =>
    subst hp
    split at hlost
    next hidle =>
      rw [if_pos hidle] at herase
      subst hlost
      exact ⟨by omega,hops.trans herase⟩
    next hbusy =>
      rw [if_neg hbusy] at herase
      subst hlost
      exact ⟨le_refl _,hops.trans herase⟩
  | level hp hlost _ hready hops =>
    rw [if_pos hready.1] at herase
    have hhalf : (p+1)/2=p/2 := by omega
    have hlength := le_length_imageOps cfg.geometry.blocks (imageWord image) (p/2)
    rw [hhalf] at hops
    exact ⟨hlost,hops.more (by omega) herase⟩
  | ahead _ _ _ _ hother => rw [hactive] at hother; exact absurd hother Bool.false_ne_true

theorem Standing.calm {p : ℕ} (h : Standing cfg lost c₀ image p c nor)
    (hactive : nor.preEraseActive=false) : Calm cfg c := by
  cases h with
  | start _ _ hcalm => exact hcalm
  | level _ _ _ hready => exact Or.inl hready
  | ahead _ _ _ _ hother => rw [hactive] at hother; exact absurd hother Bool.false_ne_true

/-- At a sector of the image its erase has ended when the arrival is over. -/
theorem after_arriveAt {p : ℕ} (hd : Describes cfg nor) (heven : p%2=0)
    (hp : p<nor.probeCache.flashSize) (h : Standing cfg lost c₀ image p c nor) (fuel : ℕ) :
    After (arriveAt (chipBus cfg) fuel nor.probeCache p) c nor (fun _ c' nor' =>
      (∃ addr,nor'=withErase nor false addr) ∧ Ready cfg c' ∧ lost≤1 ∧
      Did cfg lost c₀ c' (imageOps cfg.geometry.blocks (imageWord image) (p/2)++
        eraseAt cfg.geometry.blocks (p/2))) := by
  have hboundary := hd.boundary_iff heven hp
  unfold arriveAt eraseAt
  split
  next hat =>
    have hsector := hboundary.mp hat
    rw [if_pos hsector]
    refine after_getNor ?_
    split
    next hahead =>
      cases h with
      | ahead _ hlost _ _ _ _ herasing hops =>
        refine (after_waitPreErased hd.matched herasing fuel p).mono ?_
        rintro _ c' nor' ⟨hready,hnone,rfl⟩
        have hdone := hops.trans hnone
        rw [List.append_nil] at hdone
        exact ⟨⟨0,rfl⟩,hready,hlost,hdone⟩
      | start _ hactive => rw [hactive] at hahead; exact absurd hahead.1 Bool.false_ne_true
      | level _ _ hactive => rw [hactive] at hahead; exact absurd hahead.1 Bool.false_ne_true
    next hahead =>
      have hactive : nor.preEraseActive=false := by
        cases h with
        | start _ hactive => exact hactive
        | level _ _ hactive => exact hactive
        | ahead _ _ _ _ hactive haddr => exact absurd ⟨hactive,haddr⟩ hahead
      refine (after_eraseSector hd.matched (h.calm hactive) fuel p).mono ?_
      rintro _ c' nor' ⟨hready,rfl,herase⟩
      obtain ⟨hlost,hops⟩ := h.begun heven hactive hsector herase
      refine ⟨⟨nor'.preErasedAddr,?_⟩,hready,hlost,hops⟩
      unfold withErase
      rw [← hactive]
  next hat =>
    have hsector : cfg.geometry.blocks.start (p/2)≠p/2 := fun hs => hat (hboundary.mpr hs)
    rw [if_neg hsector,List.append_nil]
    cases h with
    | start hp =>
      subst hp
      exact absurd (Nat.le_zero.mp (cfg.geometry.blocks.start_le 0)) hsector
    | level _ hlost hactive hready hops =>
      have hhalf : (p+1)/2=p/2 := by omega
      rw [hhalf] at hops
      refine after_pure ⟨⟨nor.preErasedAddr,?_⟩,hready,hlost,hops⟩
      unfold withErase
      rw [← hactive]
    | ahead _ _ hs => exact absurd hs hsector

/-- A unit is a halfword, or a write buffer that the data fill. -/
theorem chooseWriteUnit_cases (probe : NorProbe) (offset remaining : ℕ) :
    0<chooseWriteUnit probe offset remaining ∧ chooseWriteUnit probe offset remaining%2=0 ∧
      (chooseWriteUnit probe offset remaining=2 ∨
        chooseWriteUnit probe offset remaining≤ remaining) := by
  unfold chooseWriteUnit
  dsimp only
  split
  · exact ⟨by omega,rfl,Or.inl rfl⟩
  · omega

/-- The arrival and the unit together make the next step of the canonical order. -/
theorem standing_unit {p remaining : ℕ} {c' : NorChip} (hd : Describes cfg nor)
    (heven : p%2=0) (hremaining : 0< remaining) (hlost : lost≤1)
    (hactive : nor.preEraseActive=false) (hready : Ready cfg c')
    (hops : Did cfg lost c₀ c (imageOps cfg.geometry.blocks (imageWord image) (p/2)++
      eraseAt cfg.geometry.blocks (p/2)))
    (hunit : Performed cfg c c' (programRun (imageWord image) (p/2)
      (chooseWriteUnit nor.probeCache p remaining/2))) :
    Standing cfg lost c₀ image (p+min (chooseWriteUnit nor.probeCache p remaining) remaining)
      c' nor := by
  obtain ⟨hpos,hhalf,hsize⟩ := chooseWriteUnit_cases nor.probeCache p remaining
  have hinside := hd.inside_unit p remaining
  generalize chooseWriteUnit nor.probeCache p remaining=unit at *
  obtain ⟨words,hwords⟩ : ∃ words,unit/2=words+1 := ⟨unit/2-1,by omega⟩
  have hend : (p+min unit remaining+1)/2=p/2+(words+1) := by omega
  rw [hwords] at hunit hinside
  have hlength : lost≤(imageOps cfg.geometry.blocks (imageWord image) (p/2)++
      eraseAt cfg.geometry.blocks (p/2)).length := by
    rcases Nat.eq_zero_or_pos (p/2) with hzero | hfar
    · have hfirst : cfg.geometry.blocks.start (p/2)=p/2 := by
        rw [hzero]
        exact Nat.le_zero.mp (cfg.geometry.blocks.start_le 0)
      unfold eraseAt
      rw [if_pos hfirst,List.length_append,List.length_singleton]
      omega
    · have hle := le_length_imageOps cfg.geometry.blocks (imageWord image) (p/2)
      rw [List.length_append]
      omega
  refine .level (by omega) hlost hactive hready ?_
  rw [hend,imageOps_add cfg.geometry.blocks (imageWord image) (p/2) words hinside,
    ← List.append_assoc]
  exact hops.more hlength hunit

/-- A background erase of the sector at the byte that was reached. -/
theorem after_startPreErase {p : ℕ} (hd : Describes cfg nor) (heven : p%2=0)
    (h : Standing cfg lost c₀ image p c nor) (hactive : nor.preEraseActive=false)
    (hsector : cfg.geometry.blocks.start (p/2)=p/2) (hannounced : p<nor.writeExpectedSize) :
    After (startPreErase (chipBus cfg) p) c nor (fun _ c' nor' =>
      (∃ active addr,nor'=withErase nor active addr) ∧
      Standing cfg lost c₀ image p c' nor') := by
  unfold startPreErase
  refine after_setNor ?_
  unfold preEraseSector
  refine (after_sendErase (hd.withErase true p).matched (h.calm hactive) p).bind ?_
  rintro _ c' nor' ⟨herasing,hnor,herase⟩
  obtain ⟨hlost,hops⟩ := h.begun heven hactive hsector herase
  refine after_mark_last ⟨⟨true,p,hnor⟩,?_⟩
  subst hnor
  exact .ahead heven hlost hsector hannounced rfl rfl herasing hops

/-- Looking ahead may start a background erase. -/
theorem after_maybePreEraseNextSector {p : ℕ} (hd : Describes cfg nor)
    (h : Standing cfg lost c₀ image p c nor) :
    After (maybePreEraseNextSector (chipBus cfg) nor.probeCache p) c nor (fun _ c' nor' =>
      (∃ active addr,nor'=withErase nor active addr) ∧
      Standing cfg lost c₀ image p c' nor') := by
  unfold maybePreEraseNextSector
  refine after_getNor ?_
  split
  next hahead =>
    obtain ⟨-,hannounced,hsize,hboundary,hactive⟩ := hahead
    have hstart := (hd.isSectorBoundary_iff hsize).mp hboundary
    have heven := cfg.geometry.even_sectorStart p
    rw [hstart] at heven
    exact after_startPreErase hd heven h hactive ((hd.boundary_iff heven hsize).mp hboundary)
      hannounced
  next => exact after_pure ⟨⟨nor.preEraseActive,nor.preErasedAddr,rfl⟩,h⟩

theorem after_afterUnit {p : ℕ} (hd : Describes cfg nor)
    (h : Standing cfg lost c₀ image p c nor) (last : Bool) :
    After (afterUnit (chipBus cfg) nor.probeCache p last) c nor (fun _ c' nor' =>
      (∃ active addr,nor'=withErase nor active addr) ∧
      Standing cfg lost c₀ image p c' nor') := by
  unfold afterUnit
  split
  · exact after_maybePreEraseNextSector hd h
  · exact after_pure ⟨⟨nor.preEraseActive,nor.preErasedAddr,rfl⟩,h⟩

/-- The loop over the units of a chunk that ends at a byte of the image. -/
theorem after_writeUnits {offset n done : ℕ} (hd : Describes cfg nor) (hdone : done≤n)
    (heven : done<n → (offset+done)%2=0) (hfits : offset+n≤nor.probeCache.flashSize)
    (h : Standing cfg lost c₀ image (offset+done) c nor) (fuel : ℕ) :
    After (writeUnits (chipBus cfg) fuel nor.probeCache offset n done
        (image.drop (offset+done))) c nor
      (fun result c' nor' => 0≤ result.1 → result.2=n ∧
        (∃ active addr,nor'=withErase nor active addr) ∧
        Standing cfg lost c₀ image (offset+n) c' nor') := by
  obtain ⟨left,hleft⟩ : ∃ left,left=n-done := ⟨_,rfl⟩
  induction left using Nat.strong_induction_on generalizing done c nor with
  | _ left ih =>
    unfold writeUnits
    by_cases hmore : done<n
    · rw [dif_pos hmore]
      have heven := heven hmore
      refine (after_arriveAt hd heven (by omega) h fuel).bind ?_
      rintro arrived c₁ nor₁ ⟨⟨addr,rfl⟩,hready,hlost,hops⟩
      split
      next hfailed => exact after_pure fun hok => absurd hfailed (by omega)
      · have hd₁ := hd.withErase false addr
        dsimp only
        refine (after_programUnit hd₁ hready heven image fuel (n-done)).bind ?_
        rintro ret c₂ nor₂ ⟨hready₂,rfl,hunit⟩
        split
        next hfailed => exact after_pure fun hok => absurd hfailed (by omega)
        · have hstanding := standing_unit hd₁ heven (by omega) hlost rfl hready₂ hops hunit
          obtain ⟨hpos,hhalf,hsize⟩ := chooseWriteUnit_cases nor.probeCache (offset+done)
            (n-done)
          have hcache : (withErase nor false addr).probeCache=nor.probeCache := rfl
          rw [hcache] at hstanding
          obtain ⟨step,hstep⟩ : ∃ step,
              step=min (chooseWriteUnit nor.probeCache (offset+done) (n-done)) (n-done) :=
            ⟨_,rfl⟩
          rw [← hstep,Nat.add_assoc] at hstanding
          have hrest : (image.drop (offset+done)).drop step=
              image.drop (offset+(done+step)) := by
            rw [List.drop_drop,Nat.add_assoc]
          rw [← hstep,hrest]
          refine (after_afterUnit hd₁ hstanding _).bind ?_
          rintro _ c₃ nor₃ ⟨⟨active,addr₃,rfl⟩,hstanding₃⟩
          refine (ih (n-(done+step)) (by omega) (hd₁.withErase active addr₃) (by omega)
            (fun hmore => by omega) hfits hstanding₃ rfl).mono ?_
          rintro result c₄ nor₄ hresult hok
          obtain ⟨hall,⟨active₄,addr₄,rfl⟩,hend⟩ := hresult hok
          exact ⟨hall,⟨active₄,addr₄,rfl⟩,hend⟩
    · rw [dif_neg hmore]
      have hend : done=n := by omega
      subst hend
      exact after_pure fun _ => ⟨rfl,⟨nor.preEraseActive,nor.preErasedAddr,rfl⟩,h⟩

/-- The state between the calls of a session that has written some bytes. -/
structure Between (cfg : ChipConfig) (lost expected : ℕ) (c₀ : NorChip)
    (written : List UInt8) (c : NorChip) (nor : NorState) : Prop where
  /-- The chip was identified. -/
  valid : nor.probeValid=true
  /-- What the driver found out is right. -/
  describes : Describes cfg nor
  /-- The size that was announced, or zero. -/
  expected : nor.writeExpectedSize=expected
  /-- The next byte of the session; or the session has not begun. -/
  place : (nor.writeActive=true ∧ nor.writeOffset=written.length) ∨
    (nor.writeActive=false ∧ written=[])
  /-- The chip. -/
  standing : Standing cfg lost c₀ written written.length c nor

/-- The halfwords of the bytes that were written are those of the longer image. -/
theorem imageOps_append (blocks : Blocks) {written : List UInt8} (more : List UInt8)
    {n : ℕ} (hn : 2*n≤written.length) :
    imageOps blocks (imageWord written) n=imageOps blocks (imageWord (written++more)) n := by
  refine imageOps_congr blocks fun i hi => ?_
  unfold imageWord loadLe16OrFf
  simp only [List.getD_eq_getElem?_getD]
  rw [List.getElem?_append_left (by omega),List.getElem?_append_left (by omega)]

/-- More bytes are to come. -/
theorem Standing.append {written : List UInt8} (heven : written.length%2=0)
    (h : Standing cfg lost c₀ written written.length c nor) (more : List UInt8) :
    Standing cfg lost c₀ (written++more) written.length c nor := by
  cases h with
  | start hp hactive hcalm hops hlost => exact .start hp hactive hcalm hops hlost
  | level hp hlost hactive hready hops =>
    rw [imageOps_append cfg.geometry.blocks more (by omega)] at hops
    exact .level hp hlost hactive hready hops
  | ahead heven hlost hsector hannounced hactive haddr herasing hops =>
    rw [imageOps_append cfg.geometry.blocks more (by omega)] at hops
    exact .ahead heven hlost hsector hannounced hactive haddr herasing hops

/-- The variables that only tell where a session is do not matter to the chip. -/
theorem Standing.place {p : ℕ} {active : Bool} {offset : ℕ}
    (h : Standing cfg lost c₀ image p c nor) :
    Standing cfg lost c₀ image p c
      {nor with writeActive := active,writeOffset := offset} := by
  cases h with
  | start hp hactive hcalm hops hlost => exact .start hp hactive hcalm hops hlost
  | level hp hlost hactive hready hops => exact .level hp hlost hactive hready hops
  | ahead heven hlost hsector hannounced hactive haddr herasing hops =>
    exact .ahead heven hlost hsector hannounced hactive haddr herasing hops

theorem Describes.place {active : Bool} {offset : ℕ} (h : Describes cfg nor) :
    Describes cfg {nor with writeActive := active,writeOffset := offset} :=
  ⟨h.matched,h.size,h.sectors,h.buffer.imp_right fun ⟨hsize,hbuffered,hsizes⟩ =>
    ⟨hsize,⟨hbuffered.words_pos,hbuffered.command⟩,hsizes⟩⟩

/-- The whole chunk is taken if it fits. -/
theorem streamLength_eq {probe : NorProbe} {expected offset length : ℕ}
    (hsize : offset+length≤probe.flashSize)
    (hexpected : expected=0 ∨ offset+length≤expected) :
    streamLength probe expected offset length=length := by
  unfold streamLength
  have hroom : min (probe.flashSize-offset) length=length := by omega
  rw [hroom]
  exact if_neg (by omega)

/-- The end of a call: the offset is advanced, and the driver looks ahead. -/
theorem after_endStream {result : ℤ×ℕ} (hd : Describes cfg nor) (hok : 0≤ result.1)
    (h : Standing cfg lost c₀ image (nor.writeOffset+result.2) c nor) :
    After (endStream (chipBus cfg) nor.probeCache result) c nor (fun _ c' nor' =>
      (∃ active addr,nor'=withErase {nor with writeOffset := nor.writeOffset+result.2}
        active addr) ∧
      Standing cfg lost c₀ image (nor.writeOffset+result.2) c' nor') := by
  unfold endStream
  rw [if_neg (by omega)]
  refine after_setNor (after_getNor ?_)
  have hd' : Describes cfg {nor with writeOffset := nor.writeOffset+result.2} :=
    hd.place
  have h' : Standing cfg lost c₀ image (nor.writeOffset+result.2) c
      {nor with writeOffset := nor.writeOffset+result.2} :=
    h.place
  refine (after_afterUnit hd' h' _).bind ?_
  intro _ c' nor' hstanding
  exact after_pure hstanding

/-- A chunk of a session that is under way. -/
theorem after_streamAt {expected : ℕ} {written : List UInt8} (src : List UInt8)
    (h : Between cfg lost expected c₀ written c nor) (hactive : nor.writeActive=true)
    (hsize : written.length+src.length≤nor.probeCache.flashSize)
    (hexpected : expected=0 ∨ written.length+src.length≤expected) (hsrc : src≠[])
    (fuel : ℕ) :
    After (streamAt (chipBus cfg) fuel nor.probeCache written.length src) c nor
      (fun reply c' nor' => reply.1=0 →
        Between cfg lost expected c₀ (written++src) c' nor' ∧
        nor'.probeCache=nor.probeCache) := by
  have hpos : 0<src.length := List.length_pos_iff.mpr hsrc
  have hplace : nor.writeOffset=written.length := by
    rcases h.place with ⟨-,hplace⟩ | ⟨hnot,-⟩
    · exact hplace
    · rw [hactive] at hnot
      exact absurd hnot (by decide)
  unfold streamAt
  refine after_getNor ?_
  rw [h.expected,hplace]
  split
  next hodd => exact after_pure fun hok => absurd hok (by decide)
  next heven =>
    push Not at heven
    rw [if_neg (by omega),streamLength_eq hsize hexpected]
    dsimp only
    rw [List.take_length]
    have hdrop : src=(written++src).drop (written.length+0) := by
      rw [Nat.add_zero,List.drop_left]
    have hbegin : Standing cfg lost c₀ (written++src) (written.length+0) c nor := by
      rw [Nat.add_zero]
      exact h.standing.append heven.1 src
    have hloop := after_writeUnits h.describes (Nat.zero_le src.length)
      (fun _ => by omega) hsize hbegin fuel
    rw [← hdrop] at hloop
    refine hloop.bind ?_
    rintro result c₁ nor₁ hresult
    by_cases hok : 0≤ result.1
    · obtain ⟨hall,⟨active,addr,rfl⟩,hstanding⟩ := hresult hok
      have hnext : (withErase nor active addr).writeOffset+result.2=
          written.length+src.length := by
        rw [hall]
        exact congrArg (fun n => n+src.length) hplace
      rw [← hnext] at hstanding
      refine (after_endStream (h.describes.withErase active addr) hok hstanding).mono ?_
      rintro _ c₂ nor₂ ⟨⟨active₂,addr₂,rfl⟩,hstanding₂⟩ -
      have hlength : (withErase nor active addr).writeOffset+result.2=
          (written++src).length := by
        rw [hnext,List.length_append]
      refine ⟨⟨h.valid,?_,h.expected,Or.inl ⟨hactive,hlength⟩,?_⟩,rfl⟩
      · have hplaced : Describes cfg {withErase nor active addr with
            writeActive := nor.writeActive
            writeOffset := (withErase nor active addr).writeOffset+result.2} :=
          (h.describes.withErase active addr).place
        exact hplaced.withErase active₂ addr₂
      · rw [← hlength]
        exact hstanding₂
    · unfold endStream
      rw [if_pos (by omega)]
      exact after_pure fun hzero => by dsimp only at hzero; omega

/-- A probe of a chip that was identified is the cached result. -/
theorem after_clCartNorProbe_valid {f : ℤ×NorProbe → Prog (Machine NorChip) α}
    {Q : α → NorChip → NorState → Prop} (hvalid : nor.probeValid=true)
    (h : After (f (nor.probeStatus,nor.probeCache)) c nor Q) :
    After (clCartNorProbe (chipBus cfg) >>= f) c nor Q := by
  refine After.bind (P := fun reply c' nor' =>
    reply=(nor.probeStatus,nor.probeCache) ∧ c'=c ∧ nor'=nor) ?_ ?_
  · unfold clCartNorProbe
    refine after_getNor ?_
    rw [if_pos hvalid]
    exact after_pure ⟨rfl,rfl,rfl⟩
  · rintro _ _ _ ⟨rfl,rfl,rfl⟩
    exact h

/-- A chunk, behind the identification. -/
def streamBehindProbe (bus : Bus σ) (fuel offset : ℕ) (src : List UInt8)
    (reply : ℤ×NorProbe) : Prog (Machine σ) (ℤ×ℕ) :=
  if reply.1<0 then pure (reply.1,0)
  else if reply.2.flashId=0 ∨ reply.2.flashSize=0 ∨ reply.2.flashSize≤offset then
    pure (-2,0)
  else if reply.2.sectorSize=0 ∧ reply.2.sectorRegions=[] then pure (-3,0)
  else do
    let nor ← getNor
    if nor.writeActive then streamAt bus fuel reply.2 offset src
    else if offset≠0 then pure (-4,0)
    else do
      setNor fun n => {n with writeActive := true,writeOffset := 0}
      streamAt bus fuel reply.2 offset src

theorem clCartNorWriteStream_eq {bus : Bus σ} {fuel offset : ℕ} {src : List UInt8}
    (hsrc : src≠[]) : clCartNorWriteStream bus fuel offset src=
      clCartNorProbe bus >>= streamBehindProbe bus fuel offset src := by
  unfold clCartNorWriteStream
  rw [if_neg (fun h => hsrc (List.length_eq_zero_iff.mp h))]
  rfl

/-- A chunk of a session on a chip that was identified. -/
theorem after_streamBehindProbe {expected : ℕ} {written : List UInt8} (src : List UInt8)
    {status : ℤ} (h : Between cfg lost expected c₀ written c nor)
    (hsize : written.length+src.length≤nor.probeCache.flashSize)
    (hexpected : expected=0 ∨ written.length+src.length≤expected) (hsrc : src≠[])
    (fuel : ℕ) :
    After (streamBehindProbe (chipBus cfg) fuel written.length src (status,nor.probeCache))
      c nor (fun reply c' nor' => reply.1=0 →
        Between cfg lost expected c₀ (written++src) c' nor' ∧
        nor'.probeCache=nor.probeCache) := by
  unfold streamBehindProbe
  dsimp only
  split
  next hfailed => exact after_pure fun hzero => by dsimp only at hzero; omega
  · split
    · exact after_pure fun hzero => absurd hzero (by decide)
    · split
      · exact after_pure fun hzero => absurd hzero (by decide)
      · refine after_getNor ?_
        split
        next hactive => exact after_streamAt src h hactive hsize hexpected hsrc fuel
        next hactive =>
          split
          · exact after_pure fun hzero => absurd hzero (by decide)
          next hoffset =>
            have hempty : written=[] := List.length_eq_zero_iff.mp (not_not.mp hoffset)
            subst hempty
            refine after_setNor ?_
            have hbegun : Between cfg lost expected c₀ [] c
                {nor with writeActive := true,writeOffset := 0} :=
              ⟨h.valid,h.describes.place,h.expected,Or.inl ⟨rfl,rfl⟩,h.standing.place⟩
            exact after_streamAt src hbegun rfl hsize hexpected hsrc fuel

end ChisLink.CartNorProgramming
