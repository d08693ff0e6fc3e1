import ChisLink.CartNorProgramming

/-!
# The erase regions of a chip

The tables of a chip list its erase regions from the bottom or from the top. Whichever it is,
the driver stores them from the bottom, one behind the other, and finds the beginnings of
their sectors. Behind the last region it falls back to sectors of one size.
-/

namespace ChisLink.CartNorRegions

open DriverPrograms CartNorDriver NorFlashChip CartNorProgramming

section Partitions

/-- Regions that follow one another from a base address up to an end. -/
structure Partition (regions : List SectorRegion) (base stop : ℕ) : Prop where
  /-- The first one begins at the base address. -/
  starts : ∀ region∈regions.head?,region.start=base
  /-- Each one begins where the one before ends. -/
  contiguous : regions.IsChain fun first second => first.stop=second.start
  /-- They go up and do not overlap. -/
  ascending : regions.Pairwise fun first second => first.stop≤ second.start
  /-- They are not empty. -/
  proper : ∀ region∈regions,region.start< region.stop
  /-- They cover the addresses from the base up to the end, and no others. -/
  covers : ∀ addr,(base≤addr ∧ addr<stop) ↔
    ∃ region∈regions,region.start≤addr ∧ addr< region.stop

/-- Some sector of the regions begins at an address. -/
def IsSectorStart (regions : List SectorRegion) (addr : ℕ) : Prop :=
  ∃ region∈regions,∃ k,region.start+k*region.size< region.stop ∧
    addr=region.start+k*region.size

variable {regions : List SectorRegion} {base stop addr : ℕ}

/-- An address is in one region only. -/
theorem Partition.unique (h : Partition regions base stop) {first second : SectorRegion}
    (hfirst : first∈regions) (hsecond : second∈regions)
    (hin : first.start≤addr ∧ addr<first.stop)
    (hin' : second.start≤addr ∧ addr<second.stop) : first=second := by
  obtain ⟨i,hi,rfl⟩ := List.getElem_of_mem hfirst
  obtain ⟨j,hj,rfl⟩ := List.getElem_of_mem hsecond
  have hpairs := List.pairwise_iff_getElem.mp h.ascending
  rcases Nat.lt_trichotomy i j with hlt | rfl | hgt
  · have hbefore := hpairs i j hi hj hlt
    omega
  · rfl
  · have hbehind := hpairs j i hj hi hgt
    omega

/-- The regions of a layout follow one another. -/
theorem layout_partition (base : ℕ) (regions : List (ℕ×ℕ))
    (hpositive : ∀ r∈regions,0< r.1 ∧ 0< r.2) :
    Partition (layout base regions) base (base+regionsSize regions) := by
  induction regions generalizing base with
  | nil =>
    refine ⟨fun region hregion => ?_,List.IsChain.nil,List.Pairwise.nil,
      fun region hregion => absurd hregion List.not_mem_nil,fun addr => ?_⟩
    · cases hregion
    · unfold regionsSize layout
      simp only [List.map_nil,List.sum_nil,List.not_mem_nil,false_and,exists_false,iff_false]
      omega
  | cons r regions ih =>
    obtain ⟨count,size⟩ := r
    obtain ⟨⟨hcount,hsize⟩,hrest⟩ := List.forall_mem_cons.mp hpositive
    have htotal : regionsSize ((count,size)::regions)=count*size+regionsSize regions := by
      unfold regionsSize
      rw [List.map_cons,List.sum_cons]
    have hproduct : 0<count*size := Nat.mul_pos hcount hsize
    have htail := ih (base+count*size) hrest
    have hbehind : ∀ region∈layout (base+count*size) regions,base+count*size≤ region.start := by
      intro region hregion
      have hproper := htail.proper region hregion
      exact ((htail.covers region.start).mpr
        ⟨region,hregion,Nat.le_refl _,hproper⟩).1
    rw [htotal]
    unfold layout
    refine ⟨fun region hregion => ?_,?_,?_,?_,fun addr => ?_⟩
    · cases hregion
      rfl
    · refine List.isChain_cons.mpr ⟨fun region hregion => ?_,htail.contiguous⟩
      exact (htail.starts region hregion).symm
    · exact List.pairwise_cons.mpr ⟨hbehind,htail.ascending⟩
    · refine List.forall_mem_cons.mpr ⟨?_,htail.proper⟩
      dsimp only
      omega
    · have hcovers := htail.covers addr
      constructor
      · rintro ⟨hlow,hhigh⟩
        by_cases hin : addr<base+count*size
        · exact ⟨_,List.mem_cons_self,hlow,hin⟩
        · obtain ⟨region,hregion,hat⟩ := hcovers.mp (by omega)
          exact ⟨region,List.mem_cons_of_mem _ hregion,hat⟩
      · rintro ⟨region,hregion,hat⟩
        rcases List.mem_cons.mp hregion with rfl | hregion
        · dsimp only at hat
          omega
        · have hrange := hcovers.mpr ⟨region,hregion,hat⟩
          omega

theorem layout_cons (base count size : ℕ) (regions : List (ℕ×ℕ)) :
    layout base ((count,size)::regions)=
      ⟨base,base+count*size,size⟩::layout (base+count*size) regions := rfl

/-- Behind other regions a layout goes on where they end. -/
theorem layout_append (base : ℕ) (first second : List (ℕ×ℕ)) :
    layout base (first++second)=layout base first++layout (base+regionsSize first) second := by
  induction first generalizing base with
  | nil => rfl
  | cons r first ih =>
    obtain ⟨count,size⟩ := r
    have htotal : base+regionsSize ((count,size)::first)=
        base+count*size+regionsSize first := by
      unfold regionsSize
      rw [List.map_cons,List.sum_cons,Nat.add_assoc]
    rw [htotal,List.cons_append,layout_cons,layout_cons,ih,List.cons_append]

theorem length_layout (base : ℕ) (regions : List (ℕ×ℕ)) :
    (layout base regions).length=regions.length := by
  induction regions generalizing base with
  | nil => rfl
  | cons r regions ih =>
    obtain ⟨count,size⟩ := r
    unfold layout
    rw [List.length_cons,List.length_cons,ih]

/-- The sizes of the sectors in a layout are those that were listed. -/
theorem size_of_mem_layout {base : ℕ} {regions : List (ℕ×ℕ)} {region : SectorRegion}
    (h : region∈layout base regions) : ∃ r∈regions,region.size=r.2 := by
  induction regions generalizing base with
  | nil => exact absurd h List.not_mem_nil
  | cons r regions ih =>
    obtain ⟨count,size⟩ := r
    unfold layout at h
    rcases List.mem_cons.mp h with rfl | h
    · exact ⟨_,List.mem_cons_self,rfl⟩
    · obtain ⟨r,hr,hsize⟩ := ih h
      exact ⟨r,List.mem_cons_of_mem _ hr,hsize⟩

/-- In the region of an address its distance from the beginning decides. -/
theorem Partition.isSectorStart_iff (h : Partition regions base stop) {region : SectorRegion}
    (hregion : region∈regions) (hin : region.start≤addr ∧ addr< region.stop) :
    IsSectorStart regions addr ↔ (addr-region.start)%region.size=0 := by
  constructor
  · rintro ⟨other,hother,k,hend,rfl⟩
    have hsame := h.unique hregion hother hin ⟨Nat.le_add_right _ _,hend⟩
    subst hsame
    rw [Nat.add_sub_cancel_left]
    exact Nat.mul_mod_left k region.size
  · intro hmod
    have hdiv := Nat.div_add_mod' (addr-region.start) region.size
    exact ⟨region,hregion,(addr-region.start)/region.size,by omega,by omega⟩

variable {probe : NorProbe}

/-- The driver finds the region of an address. -/
theorem regionAt_eq_some (h : Partition probe.sectorRegions base stop)
    (hlow : base≤addr) (hhigh : addr<stop) :
    ∃ region,regionAt probe addr=some region ∧ region∈probe.sectorRegions ∧
      region.start≤addr ∧ addr< region.stop := by
  obtain ⟨region,hregion,hin⟩ := (h.covers addr).mp ⟨hlow,hhigh⟩
  have hsome : (regionAt probe addr).isSome := by
    unfold regionAt
    rw [List.find?_isSome]
    refine ⟨region,hregion,?_⟩
    simp only [hin,decide_true,Bool.and_self]
  obtain ⟨found,hfound⟩ := Option.isSome_iff_exists.mp hsome
  have hat := List.find?_some hfound
  simp only [Bool.and_eq_true,decide_eq_true_iff] at hat
  exact ⟨found,hfound,List.mem_of_find?_eq_some hfound,hat⟩

theorem regionAt_eq_none (h : Partition probe.sectorRegions base stop) (haddr : stop≤addr) :
    regionAt probe addr=none := by
  unfold regionAt
  rw [List.find?_eq_none]
  intro region hregion hat
  simp only [Bool.and_eq_true,decide_eq_true_iff] at hat
  have hin := (h.covers addr).mpr ⟨region,hregion,hat⟩
  omega

/-- The driver sees a boundary exactly where a sector of the regions begins. -/
theorem isSectorBoundary_iff (h : Partition probe.sectorRegions base stop)
    (hlength : 2≤probe.sectorRegions.length)
    (hsizes : ∀ region∈probe.sectorRegions,0< region.size)
    (hlow : base≤addr) (hhigh : addr<stop) :
    isSectorBoundary probe addr=true ↔ IsSectorStart probe.sectorRegions addr := by
  obtain ⟨region,hat,hregion,hin⟩ := regionAt_eq_some h hlow hhigh
  have hsize : region.size≠0 := (hsizes region hregion).ne'
  rw [h.isSectorStart_iff hregion hin]
  unfold isSectorBoundary sectorSizeAt
  simp only [hat,hlength,if_true,hsize,if_false,decide_eq_true_iff]

/-- Behind the regions it goes by the one size of the probe. -/
theorem isSectorBoundary_beyond (h : Partition probe.sectorRegions base stop)
    (hsize : 0<probe.sectorSize) (haddr : stop≤addr) :
    isSectorBoundary probe addr=true ↔ addr%probe.sectorSize=0 := by
  have hnone := regionAt_eq_none h haddr
  have hsize' : probe.sectorSize≠0 := hsize.ne'
  unfold isSectorBoundary sectorSizeAt
  simp only [hnone,ite_self,hsize',if_false,decide_eq_true_iff]

end Partitions

section Tables

/-- A word of two bytes in the tables. -/
def tableWord (cfi : ℕ → UInt16) (addr : ℕ) : UInt32 :=
  ((cfi ((addr+2)/2)).toUInt32 <<< 8) ||| (cfi (addr/2)).toUInt32

/-- Blocks and block size of an entry of the erase table. -/
def tableEntry (cfi : ℕ → UInt16) (i : ℕ) : UInt32×UInt32 :=
  (tableWord cfi (0x5a+i*8)+1,tableWord cfi (0x5a+i*8+4) <<< 8)

/-- The entries of the erase table, at most four. -/
def eraseTable (cfi : ℕ → UInt16) : List (UInt32×UInt32) :=
  (List.range' 0 (min 4 (cfi (0x58/2)).toNat)).map (tableEntry cfi)

/-- Address of the vendor table. -/
def vendorTable (cfi : ℕ → UInt16) : ℕ :=
  let priAddress := ((cfi (0x2a/2)).toUInt32 ||| ((cfi (0x2c/2)).toUInt32 <<< 8))*2
  if 0x400≤priAddress+0x3c then 0x80 else priAddress.toNat

/-- Whether the vendor table lists the regions from the top. -/
def listedFromTop (cfi : ℕ → UInt16) : Bool :=
  let addr := vendorTable cfi
  cfi (addr/2)=0x50 && cfi ((addr+2)/2)=0x52 && cfi ((addr+4)/2)=0x49 &&
    cfi ((addr+0x1e)/2)=0x03

/-- Blocks and block sizes of the table from the bottom of the chip. -/
def tableRegions (cfi : ℕ → UInt16) : List (ℕ×ℕ) :=
  let entries := (eraseTable cfi).map fun entry => (entry.1.toNat,entry.2.toNat)
  if listedFromTop cfi then entries.reverse else entries

/-- The size of the chip by the table. -/
def tableTotal (cfi : ℕ → UInt16) : ℕ := regionsSize (tableRegions cfi)

variable {cfi : ℕ → UInt16}

/-- A word of two bytes in thirty-two bits leaves room for one more. -/
theorem tableWord_lt (cfi : ℕ → UInt16) (addr : ℕ) : (tableWord cfi addr).toNat<2^24 := by
  have hhigh := (cfi ((addr+2)/2)).toNat_lt
  have hlow := (cfi (addr/2)).toNat_lt
  unfold tableWord
  rw [UInt32.toNat_or,UInt32.toNat_shiftLeft,UInt16.toNat_toUInt32,UInt16.toNat_toUInt32]
  refine Nat.or_lt_two_pow ?_ (by omega)
  have hshift : (8 : UInt32).toNat%32=8 := rfl
  rw [hshift,Nat.shiftLeft_eq]
  have hmod := Nat.mod_le ((cfi ((addr+2)/2)).toNat*2^8) (2^32)
  omega

/-- Every entry has blocks. -/
theorem tableEntry_pos (cfi : ℕ → UInt16) (i : ℕ) : 0<(tableEntry cfi i).1.toNat := by
  have hlt := tableWord_lt cfi (0x5a+i*8)
  unfold tableEntry
  rw [UInt32.toNat_add]
  have hone : (1 : UInt32).toNat=1 := rfl
  rw [hone]
  omega

/-- The total that the driver computes is that of the table. -/
theorem totalSize_toNat (entries : List (UInt32×UInt32))
    (hfits : regionsSize (entries.map fun r => (r.1.toNat,r.2.toNat))<2^32) :
    (totalSize entries).toNat=regionsSize (entries.map fun r => (r.1.toNat,r.2.toNat)) := by
  have hgeneral : ∀ (entries : List (UInt32×UInt32)) (total : UInt32),
      total.toNat+regionsSize (entries.map fun r => (r.1.toNat,r.2.toNat))<2^32 →
      (entries.foldl (fun total region => total+region.1*region.2) total).toNat=
        total.toNat+regionsSize (entries.map fun r => (r.1.toNat,r.2.toNat)) := by
    intro entries
    induction entries with
    | nil => exact fun _ _ => rfl
    | cons r entries ih =>
      intro total hfits
      have hsize : regionsSize ((r::entries).map fun r => (r.1.toNat,r.2.toNat))=
          r.1.toNat*r.2.toNat+regionsSize (entries.map fun r => (r.1.toNat,r.2.toNat)) := by
        simp [regionsSize]
      have hnext : (total+r.1*r.2).toNat=total.toNat+r.1.toNat*r.2.toNat := by
        have hproduct : r.1.toNat*r.2.toNat%2^32=r.1.toNat*r.2.toNat :=
          Nat.mod_eq_of_lt (by omega)
        rw [UInt32.toNat_add,UInt32.toNat_mul,hproduct]
        exact Nat.mod_eq_of_lt (by omega)
      rw [List.foldl_cons,ih _ (by omega),hnext,hsize,Nat.add_assoc]
  have h := hgeneral entries 0 (by rw [UInt32.toNat_zero,Nat.zero_add]; exact hfits)
  rw [UInt32.toNat_zero,Nat.zero_add] at h
  exact h

theorem regionsSize_reverse (regions : List (ℕ×ℕ)) :
    regionsSize regions.reverse=regionsSize regions := by
  unfold regionsSize
  rw [List.map_reverse,List.sum_reverse]

/-- The tables listed from the top give the layout of the reversed table. -/
theorem regionsDown_eq_layout (base : ℕ) (current : UInt32) (entries : List (UInt32×UInt32))
    (hcurrent : current.toNat=
      base+regionsSize (entries.map fun r => (r.1.toNat,r.2.toNat))) :
    regionsDown current entries=
      layout base (entries.map fun r => (r.1.toNat,r.2.toNat)).reverse := by
  induction entries generalizing current with
  | nil => rfl
  | cons r entries ih =>
    obtain ⟨blocks,size⟩ := r
    have hsize : regionsSize (((blocks,size)::entries).map fun r => (r.1.toNat,r.2.toNat))=
        blocks.toNat*size.toNat+regionsSize (entries.map fun r => (r.1.toNat,r.2.toNat)) := by
      simp [regionsSize]
    have hlt := current.toNat_lt
    have hproduct : (blocks*size).toNat=blocks.toNat*size.toNat := by
      rw [UInt32.toNat_mul]
      exact Nat.mod_eq_of_lt (by omega)
    have hdown : (current-blocks*size).toNat=
        base+regionsSize (entries.map fun r => (r.1.toNat,r.2.toNat)) := by
      have hle : blocks*size≤ current := UInt32.le_iff_toNat_le.mpr (by omega)
      rw [UInt32.toNat_sub_of_le _ _ hle]
      omega
    unfold regionsDown
    rw [ih _ hdown,UInt32.sub_add_cancel,List.map_cons,List.reverse_cons,layout_append,
      regionsSize_reverse,hdown,layout_cons,hcurrent,hsize]
    have hend : base+(blocks.toNat*size.toNat+
        regionsSize (entries.map fun r => (r.1.toNat,r.2.toNat)))=
      base+regionsSize (entries.map fun r => (r.1.toNat,r.2.toNat))+
        blocks.toNat*size.toNat := by omega
    rw [hend]
    rfl

/-- The regions that the driver stores are the layout of the table from the bottom. -/
theorem stored_eq_layout (hfits : tableTotal cfi<2^32) :
    (if listedFromTop cfi then regionsDown (totalSize (eraseTable cfi)) (eraseTable cfi)
      else regionsFrom 0 (eraseTable cfi))=layout 0 (tableRegions cfi) := by
  unfold tableTotal tableRegions at hfits
  unfold tableRegions
  cases hlisted : listedFromTop cfi with
  | true =>
    simp only [hlisted,if_true,regionsSize_reverse] at hfits ⊢
    refine regionsDown_eq_layout 0 _ _ ?_
    rw [totalSize_toNat _ hfits,Nat.zero_add]
  | false =>
    simp only [hlisted,Bool.false_eq_true,if_false] at hfits ⊢
    refine regionsFrom_eq_layout 0 _ ?_
    rw [UInt32.toNat_zero,Nat.zero_add]
    exact hfits

end Tables


section Reading

variable {σ α β : Type} {bus : Bus σ} {swapped : Bool} {cfi : ℕ → UInt16}

/-- A device after some reads. -/
def afterReads (bus : Bus σ) (c : σ) (indices : List ℕ) : σ :=
  indices.foldl (fun c i => (bus.read i c).2) c

/-- From now on a device answers reads with its tables. -/
def Shows (bus : Bus σ) (swapped : Bool) (cfi : ℕ → UInt16) (c : σ) : Prop :=
  ∀ indices i,viaLines swapped (bus.read i (afterReads bus c indices)).1=cfi i

/-- A device answers the next three reads with the signature of the tables. -/
def ShowsSignature (bus : Bus σ) (swapped : Bool) (c : σ) : Prop :=
  let q := bus.read (0x20/2) c
  let r := bus.read (0x22/2) q.2
  let y := bus.read (0x24/2) r.2
  isQry (viaLines swapped q.1) (viaLines swapped r.1) (viaLines swapped y.1)=true

theorem Shows.value {c : σ} (h : Shows bus swapped cfi c) (i : ℕ) :
    viaLines swapped (bus.read i c).1=cfi i := h [] i

theorem Shows.read {c : σ} (h : Shows bus swapped cfi c) (i : ℕ) :
    Shows bus swapped cfi (bus.read i c).2 := fun indices j => h (i::indices) j

theorem Shows.after {c : σ} (h : Shows bus swapped cfi c) (indices : List ℕ) :
    Shows bus swapped cfi (afterReads bus c indices) := by
  intro more i
  have hvalue := h (indices++more) i
  unfold afterReads at hvalue ⊢
  rw [List.foldl_append] at hvalue
  exact hvalue

/-- From a device that shows the tables a program reads a value, and the device goes on. -/
def Gives (bus : Bus σ) (swapped : Bool) (cfi : ℕ → UInt16) (p : Prog (Machine σ) α) (a : α) :
    Prop :=
  ∀ s,s.nor.swapD0d1=swapped → Shows bus swapped cfi s.chip →
    ∃ t,p s=(some a,t) ∧ t.nor.swapD0d1=swapped ∧ Shows bus swapped cfi t.chip

theorem gives_pure (a : α) : Gives bus swapped cfi (pure a) a :=
  fun s hlines hshows => ⟨s,rfl,hlines,hshows⟩

theorem Gives.bind {p : Prog (Machine σ) β} {f : β → Prog (Machine σ) α} {b : β} {a : α}
    (hp : Gives bus swapped cfi p b) (hf : Gives bus swapped cfi (f b) a) :
    Gives bus swapped cfi (p >>= f) a := by
  intro s hlines hshows
  obtain ⟨t,hrun,hlines,hshows⟩ := hp s hlines hshows
  rw [bind_run hrun]
  exact hf t hlines hshows

theorem gives_flashReadCmd (addr : ℕ) :
    Gives bus swapped cfi (flashReadCmd bus addr) (cfi (addr/2)) := by
  intro s hlines hshows
  have hvalue := hshows.value (addr/2)
  rw [← hlines] at hvalue
  refine ⟨⟨(bus.read (addr/2) s.chip).2,s.nor,s.log++[.read addr]⟩,?_,hlines,
    hshows.read (addr/2)⟩
  rw [← hvalue]
  rfl

theorem gives_readCfiWord (addr : ℕ) :
    Gives bus swapped cfi (readCfiWord bus addr) (tableWord cfi addr) :=
  (gives_flashReadCmd (addr+2)).bind ((gives_flashReadCmd addr).bind (gives_pure _))

theorem gives_readCfiRegions (i count : ℕ) :
    Gives bus swapped cfi (readCfiRegions bus i count)
      ((List.range' i count).map (tableEntry cfi)) := by
  induction count generalizing i with
  | zero => exact gives_pure []
  | succ count ih =>
    rw [List.range'_succ,List.map_cons]
    refine (gives_readCfiWord (0x5a+i*8)).bind ?_
    refine (gives_readCfiWord (0x5a+i*8+4)).bind ?_
    exact (ih (i+1)).bind (gives_pure _)

/-- The vendor table is read letter by letter. -/
theorem gives_readReversed (addr : ℕ) :
    Gives bus swapped cfi (readReversed bus addr)
      (cfi (addr/2)=0x50 && cfi ((addr+2)/2)=0x52 && cfi ((addr+4)/2)=0x49 &&
        cfi ((addr+0x1e)/2)=0x03) := by
  refine (gives_flashReadCmd addr).bind ?_
  by_cases hp : cfi (addr/2)=0x50
  · rw [if_neg (not_not_intro hp)]
    refine (gives_flashReadCmd (addr+2)).bind ?_
    by_cases hr : cfi ((addr+2)/2)=0x52
    · rw [if_neg (not_not_intro hr)]
      refine (gives_flashReadCmd (addr+4)).bind ?_
      by_cases hi : cfi ((addr+4)/2)=0x49
      · rw [if_neg (not_not_intro hi)]
        simp only [hp,hr,hi,decide_true,Bool.true_and]
        exact (gives_flashReadCmd (addr+0x1e)).bind (gives_pure _)
      · rw [if_pos hi]
        simp only [hi,decide_false,Bool.and_false,Bool.false_and]
        exact gives_pure false
    · rw [if_pos hr]
      simp only [hr,decide_false,Bool.and_false,Bool.false_and]
      exact gives_pure false
  · rw [if_pos hp]
    simp only [hp,decide_false,Bool.false_and]
    exact gives_pure false

theorem gives_readBufferTimeout (bufferExp : UInt16) :
    ∃ buffered,Gives bus swapped cfi (readBufferTimeout bus bufferExp) buffered := by
  unfold readBufferTimeout
  by_cases hexp : bufferExp≤1
  · rw [if_pos hexp]
    exact ⟨false,gives_pure false⟩
  · rw [if_neg hexp]
    by_cases hfirst : cfi (0x40/2)=0
    · refine ⟨false,(gives_flashReadCmd 0x40).bind ?_⟩
      rw [if_pos hfirst]
      exact gives_pure false
    · refine ⟨cfi (0x40/2)<0xff && bufferExp<32,(gives_flashReadCmd 0x40).bind ?_⟩
      rw [if_neg hfirst]
      exact (gives_flashReadCmd 0x40).bind (gives_pure _)

/-- What the probe has of the tables. -/
structure HasTables (cfi : ℕ → UInt16) (probe : NorProbe) : Prop where
  /-- The regions. -/
  regions : probe.sectorRegions=
    if listedFromTop cfi then regionsDown (totalSize (eraseTable cfi)) (eraseTable cfi)
    else regionsFrom 0 (eraseTable cfi)
  /-- The one size is that of the first entry. -/
  sectorSize : probe.sectorSize=(tableEntry cfi 0).2.toNat

variable {s : Machine σ}

theorem wp_flashReset_any : wp (flashReset bus) (fun _ _ => True) (fun _ => False) s := by
  unfold flashReset getNor flashResetMode
  rw [wp_bind,wp_inspect]
  cases s.nor.isIntel <;> exact trivial

/-- The reader of the tables finds what the device shows. -/
theorem wp_readCfiTables (probe : NorProbe) (hlines : s.nor.swapD0d1=swapped)
    (hshows : Shows bus swapped cfi s.chip) :
    wp (readCfiTables bus probe) (fun found _ => HasTables cfi found) (fun _ => False) s := by
  unfold readCfiTables
  obtain ⟨s,hrun,hlines,hshows⟩ := gives_flashReadCmd 0x4e s hlines hshows
  rw [wp_bind_run hrun]
  obtain ⟨s,hrun,hlines,hshows⟩ := gives_flashReadCmd 0x54 s hlines hshows
  rw [wp_bind_run hrun]
  obtain ⟨s,hrun,hlines,hshows⟩ := gives_flashReadCmd 0x56 s hlines hshows
  rw [wp_bind_run hrun]
  obtain ⟨buffered,htimeout⟩ := @gives_readBufferTimeout σ bus swapped cfi
    ((cfi (0x56/2) <<< 8) ||| cfi (0x54/2))
  obtain ⟨s,hrun,hlines,hshows⟩ := htimeout s hlines hshows
  rw [wp_bind_run hrun]
  obtain ⟨s,hrun,hlines,hshows⟩ := gives_readCfiWord 0x5e s hlines hshows
  rw [wp_bind_run hrun]
  obtain ⟨s,hrun,hlines,hshows⟩ := gives_flashReadCmd 0x58 s hlines hshows
  rw [wp_bind_run hrun]
  obtain ⟨s,hrun,hlines,hshows⟩ := gives_readCfiRegions 0 _ s hlines hshows
  rw [wp_bind_run hrun]
  obtain ⟨s,hrun,hlines,hshows⟩ := gives_flashReadCmd 0x2a s hlines hshows
  rw [wp_bind_run hrun]
  obtain ⟨s,hrun,hlines,hshows⟩ := gives_flashReadCmd 0x2c s hlines hshows
  rw [wp_bind_run hrun]
  obtain ⟨s,hrun,hlines,hshows⟩ := gives_readReversed (vendorTable cfi) s hlines hshows
  change wp (readReversed bus (vendorTable cfi) >>= _) _ _ _
  rw [wp_bind_run hrun]
  refine wp_seq wp_flashReset_any ?_
  intro _ _ _
  exact ⟨rfl,rfl⟩

/-- The signature tells what the device shows. -/
theorem wp_readCfiQry
    (hquery : ∀ c,ShowsSignature bus swapped c → Shows bus swapped cfi c)
    (hlines : s.nor.swapD0d1=swapped) :
    wp (readCfiQry bus) (fun found t => t.nor.swapD0d1=swapped ∧
      (found=true → Shows bus swapped cfi t.chip)) (fun _ => False) s := by
  refine ⟨hlines,fun hfound => ?_⟩
  subst hlines
  exact (hquery s.chip hfound).after [0x20/2,0x22/2,0x24/2]

theorem wp_flashReset_lines (hlines : s.nor.swapD0d1=swapped) :
    wp (flashReset bus) (fun _ t => t.nor.swapD0d1=swapped) (fun _ => False) s := by
  unfold flashReset getNor flashResetMode
  rw [wp_bind,wp_inspect]
  cases s.nor.isIntel <;> exact hlines

/-- The reader takes over what the device shows, or nothing. -/
theorem wp_readCfi (probe : NorProbe)
    (hquery : ∀ c,ShowsSignature bus swapped c → Shows bus swapped cfi c)
    (hlines : s.nor.swapD0d1=swapped) :
    wp (readCfi bus probe) (fun found _ => found=probe ∨ HasTables cfi found)
      (fun _ => False) s := by
  have hread : ∀ {s : Machine σ},s.nor.swapD0d1=swapped → Shows bus swapped cfi s.chip →
      wp (readCfiTables bus probe) (fun found _ => found=probe ∨ HasTables cfi found)
        (fun _ => False) s := by
    intro s hlines hshows
    exact wp_post (wp_readCfiTables probe hlines hshows) (fun _ _ h => Or.inr h)
  unfold readCfi
  refine wp_seq (wp_flashReset_lines hlines) ?_
  intro _ s hlines
  rw [wp_bind]
  change wp (readCfiQry bus >>= _) _ _ _
  refine wp_seq (wp_readCfiQry hquery hlines) ?_
  rintro found s ⟨hlines,hfound⟩
  cases found with
  | true => exact hread hlines (hfound rfl)
  | false =>
    rw [if_neg Bool.false_ne_true]
    refine wp_seq (wp_flashReset_lines hlines) ?_
    intro _ s hlines
    rw [wp_bind]
    change wp (readCfiQry bus >>= _) _ _ _
    refine wp_seq (wp_readCfiQry hquery hlines) ?_
    rintro found s ⟨hlines,hfound⟩
    cases found with
    | true => exact hread hlines (hfound rfl)
    | false =>
      rw [if_neg Bool.false_ne_true]
      exact wp_seq (wp_flashReset_lines hlines) (fun _ _ _ => Or.inl rfl)

end Reading

section Result

variable {σ : Type} {bus : Bus σ} {cfi : ℕ → UInt16} {found : NorProbe}

/-- The regions of a probe and the boundaries that the driver sees. -/
structure Mapped (cfi : ℕ → UInt16) (found : NorProbe) : Prop where
  /-- The regions are those of the table, from the bottom. -/
  listed : found.sectorRegions=layout 0 (tableRegions cfi)
  /-- They follow one another from the beginning of the chip up to its end. -/
  partition : Partition found.sectorRegions 0 (tableTotal cfi)
  /-- In the chip the boundaries of several regions are the beginnings of their sectors. -/
  boundary : 2≤found.sectorRegions.length → ∀ addr,addr<tableTotal cfi →
    (isSectorBoundary found addr=true ↔ IsSectorStart found.sectorRegions addr)
  /-- Behind it they are the multiples of the block size of the first entry. -/
  beyond : 2≤found.sectorRegions.length → ∀ addr,tableTotal cfi≤addr →
    (isSectorBoundary found addr=true ↔ addr%(tableEntry cfi 0).2.toNat=0)

/-- The blocks of a table and their sizes. -/
theorem tableRegions_pos (hsizes : ∀ entry∈eraseTable cfi,0<entry.2) :
    ∀ r∈tableRegions cfi,0< r.1 ∧ 0< r.2 := by
  have hentries : ∀ r∈(eraseTable cfi).map fun entry => (entry.1.toNat,entry.2.toNat),
      0< r.1 ∧ 0< r.2 := by
    intro r hr
    obtain ⟨entry,hentry,rfl⟩ := List.mem_map.mp hr
    obtain ⟨i,-,rfl⟩ := List.mem_map.mp hentry
    exact ⟨tableEntry_pos cfi i,UInt32.lt_iff_toNat_lt.mp (hsizes _ hentry)⟩
  intro r hr
  unfold tableRegions at hr
  dsimp only at hr
  split at hr
  · exact hentries r (List.mem_reverse.mp hr)
  · exact hentries r hr

theorem length_tableRegions (cfi : ℕ → UInt16) :
    (tableRegions cfi).length=min 4 (cfi (0x58/2)).toNat := by
  unfold tableRegions eraseTable
  dsimp only
  split
  · rw [List.length_reverse,List.length_map,List.length_map,List.length_range']
  · rw [List.length_map,List.length_map,List.length_range']

/-- What the reader stores maps the chip. -/
theorem HasTables.mapped (h : HasTables cfi found)
    (hsizes : ∀ entry∈eraseTable cfi,0<entry.2) (hfits : tableTotal cfi<2^32) :
    Mapped cfi found := by
  have hlisted : found.sectorRegions=layout 0 (tableRegions cfi) :=
    h.regions.trans (stored_eq_layout hfits)
  have hpositive := tableRegions_pos hsizes
  have hpartition := layout_partition 0 (tableRegions cfi) hpositive
  rw [Nat.zero_add,← hlisted] at hpartition
  refine ⟨hlisted,hpartition,fun hlength addr haddr => ?_,fun hlength addr haddr => ?_⟩
  · refine isSectorBoundary_iff hpartition hlength (fun region hregion => ?_)
      (Nat.zero_le addr) haddr
    rw [hlisted] at hregion
    obtain ⟨r,hr,hsize⟩ := size_of_mem_layout hregion
    rw [hsize]
    exact (hpositive r hr).2
  · have hfirst : tableEntry cfi 0∈eraseTable cfi := by
      rw [hlisted,length_layout,length_tableRegions] at hlength
      refine List.mem_map.mpr ⟨0,List.mem_range'_1.mpr ⟨le_refl 0,?_⟩,rfl⟩
      omega
    have hsize := UInt32.lt_iff_toNat_lt.mp (hsizes _ hfirst)
    rw [← h.sectorSize]
    refine isSectorBoundary_beyond hpartition ?_ haddr
    rw [h.sectorSize]
    exact hsize

/-- For a device that shows its tables after their signature: the regions that the reader
stores follow one another and cover the chip, in both orders of the table. Several regions
have boundaries in the chip exactly where their sectors begin. -/
theorem regions_mapped (bus : Bus σ) (cfi : ℕ → UInt16) (probe : NorProbe) (s : Machine σ)
    (hnew : probe.cfiValid=false)
    (hquery : ∀ c,ShowsSignature bus s.nor.swapD0d1 c → Shows bus s.nor.swapD0d1 cfi c)
    (hsizes : ∀ entry∈eraseTable cfi,0<entry.2) (hfits : tableTotal cfi<2^32) :
    wp (readCfi bus probe) (fun found _ => found.cfiValid=true → Mapped cfi found)
      (fun _ => False) s := by
  refine wp_post (wp_readCfi probe hquery rfl) ?_
  rintro found t (rfl | htables) hvalid
  · rw [hnew] at hvalid
    exact absurd hvalid Bool.false_ne_true
  · exact htables.mapped hsizes hfits

/-- A device that always answers with its tables. -/
def tableBus (cfi : ℕ → UInt16) : Bus Unit where
  read index _ := (cfi index,())
  write _ _ _ := ()

theorem tableBus_shows (cfi : ℕ → UInt16) : Shows (tableBus cfi) false cfi () :=
  fun _ _ => rfl

/-- The tables of a chip of four megabytes with small sectors at its top, listed from
the top: eight of eight kilobytes, sixty-three of sixty-four. -/
def topBoot (index : ℕ) : UInt16 :=
  if index=0x10 then 0x51 else if index=0x11 then 0x52 else if index=0x12 then 0x59
  else if index=0x15 then 0x40 else if index=0x27 then 22
  else if index=0x2c then 2
  else if index=0x2d then 7 else if index=0x2f then 0x20
  else if index=0x31 then 62 else if index=0x34 then 1
  else if index=0x40 then 0x50 else if index=0x41 then 0x52 else if index=0x42 then 0x49
  else if index=0x4f then 3 else 0

/-- What the reader stores for it. -/
def readTopBoot : Option NorProbe :=
  (readCfi (tableBus topBoot) clearProbe ⟨(),initialNor,[]⟩).1

theorem readTopBoot_eq : readTopBoot=some {clearProbe with
    flashSize := 0x400000
    sectorSize := 0x2000
    sectorRegions := [⟨0,0x3f0000,0x10000⟩,⟨0x3f0000,0x400000,0x2000⟩]
    cfiValid := true
    sectorRegionReversed := true} := by decide +kernel

/-- No entry of its table has a size of zero. -/
theorem topBoot_sizes : ∀ entry∈eraseTable topBoot,0<entry.2 := by
  have hsizes : (eraseTable topBoot).all (fun entry => decide (0<entry.2))=true := by
    decide
  exact fun entry hentry => of_decide_eq_true (List.all_eq_true.mp hsizes entry hentry)

/-- The regions of that chip. -/
theorem regions_mapped_topBoot :
    tableTotal topBoot=0x400000 ∧
      wp (readCfi (tableBus topBoot) clearProbe)
        (fun found _ => found.cfiValid=true → Mapped topBoot found) (fun _ => False)
        ⟨(),initialNor,[]⟩ :=
  ⟨by decide,regions_mapped (tableBus topBoot) topBoot clearProbe ⟨(),initialNor,[]⟩ rfl
    (fun _ _ => tableBus_shows topBoot) topBoot_sizes (by decide)⟩

/-- Behind that chip, where no sector begins, the driver sees a boundary. -/
theorem boundary_beyond_topBoot :
    ∃ found,readTopBoot=some found ∧ found.cfiValid=true ∧ 2≤found.sectorRegions.length ∧
      isSectorBoundary found 0x400000=true ∧ ¬IsSectorStart found.sectorRegions 0x400000 := by
  refine ⟨_,readTopBoot_eq,rfl,by decide,by decide,?_⟩
  rintro ⟨region,hregion,k,hend,haddr⟩
  rcases List.mem_cons.mp hregion with rfl | hregion
  · dsimp only at hend haddr
    omega
  · cases List.mem_singleton.mp hregion
    dsimp only at hend haddr
    omega

end Result

end ChisLink.CartNorRegions
