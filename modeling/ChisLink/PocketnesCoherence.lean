import Mathlib.Data.Finset.Card
import ChisLink.LabelledRuns
import ChisLink.PocketnesCache

/-!
# Coherence of the PocketNES cache

A slot that carries the number of a group or page holds its bytes, and an entry of
a lookup table is the address of a slot that carries the number the entry stands
for. Each operation keeps the first if its read succeeds, or if what a failed read
leaves behind is what the tag of the slot says. It keeps the second unless an entry
beyond the end of a table points to the slot that is replaced.
-/

namespace ChisLink.PocketnesCoherence

open SlotCache PocketnesCache LabelledRuns

/-- The bytes of a program page. -/
def prgPageAt (cart : Cart) (page i : ℕ) : UInt8 :=
  cart.rom (cart.prgOffset+page*prgPageBytes+i)

/-- The bytes of a group. The last one is filled up if the program ends in it. -/
def prgGroupAt (cart : Cart) (group i : ℕ) : UInt8 :=
  if group*prgGroupBytes+i<cart.prgSize then
    cart.rom (cart.prgOffset+group*prgGroupBytes+i)
  else 0xff

/-- The bytes of a character page. -/
def chrPageAt (cart : Cart) (page i : ℕ) : UInt8 :=
  cart.rom (cart.chrOffset+page*chrPageBytes+i)

/-- The bytes of a character slot. -/
def chrData (cart : Cart) (s : Cache) (slot i : ℕ) : UInt8 := s.lower (cart.chrAt slot+i)

/-- What is tagged is what is held: the groups, the character pages, and the page at
`$6000` where it is not part of the character slots. -/
structure Coherent (cart : Cart) (s : Cache) : Prop where
  /-- The groups. -/
  prg : Holds prgCacheGroups prgGroupBytes s.prgGroup s.prg (prgGroupAt cart)
  /-- The character pages. -/
  chr : Holds cart.chrSlots chrPageBytes s.chrPage (chrData cart s) (chrPageAt cart)
  /-- The page at `$6000`. -/
  prg67 : cart.mapper≠4 → ∀ page,s.prg67Page=some page → ∀ i,i<prgPageBytes →
    s.lower i=prgPageAt cart page i

/-- The operations of the cache, with the banks that are mapped and the outcome of the
read, if there is one. -/
inductive Action where
  /-- `chislink_pocketnes_ensure_prg`. -/
  | ensurePrg (banks : Banks) (read : Read) (page : ℕ)
  /-- `chislink_pocketnes_ensure_chr`. -/
  | ensureChr (banks : Banks) (read : Read) (page : ℕ)
  /-- `chislink_pocketnes_prg67`. -/
  | prg67 (read : Read) (page : ℕ)

/-- One operation. -/
def step (cart : Cart) (s : Cache) : Action → Option Cache
  | .ensurePrg banks read page => some (ensurePrg cart banks read page s).2
  | .ensureChr banks read page => some (ensureChr cart banks read page s)
  | .prg67 read page => some (prg67 cart read page s)

/-- The victim of a group keeps the contents of its tag: the read succeeds, or the slot is
empty, or the right bytes are left in it. -/
def PrgKept (cart : Cart) (banks : Banks) (read : Read) (requested : ℕ) (s : Cache) : Prop :=
  find s.prgGroup prgCacheGroups (requested%cart.prgPages/prgGroupPages)=none →
    read.isSome → ∀ group,s.prgGroup (choosePrgSlot banks s)=some group →
      ∀ i,i<prgGroupBytes →
        (readGroup cart cart.prgOffset cart.prgSize prgGroupBytes
          (requested%cart.prgPages/prgGroupPages) read).2 i=prgGroupAt cart group i

/-- The same for the victim of a character page. -/
def ChrKept (cart : Cart) (banks : Banks) (read : Read) (requested : ℕ) (s : Cache) : Prop :=
  cart.chrPages≠0 → chrRamPage cart requested=none →
    find s.chrPage cart.chrSlots (requested%cart.chrPages)=none →
      read.isSome → ∀ page,s.chrPage (chooseChrSlot cart banks s)=some page →
        ∀ i,i<chrPageBytes →
          (readGroup cart cart.chrOffset cart.chrSize chrPageBytes
            (requested%cart.chrPages) read).2 i=chrPageAt cart page i

/-- The page at `$6000` gets the bytes of its new tag; with mapper 4 it is the memory of
the first eight character slots, which keep the bytes of their tags. -/
def Prg67Kept (cart : Cart) (read : Read) (requested : ℕ) (s : Cache) : Prop :=
  s.prg67Page≠some (requested%cart.prgPages) →
    if cart.mapper=4 then
      ∀ slot page,slot<8 → s.chrPage slot=some page → ∀ i,i<chrPageBytes →
        readBytes read (prgPageAt cart (requested%cart.prgPages)) (slot*chrPageBytes+i)=
          chrPageAt cart page i
    else
      ∀ i,i<prgPageBytes → readBytes read (prgPageAt cart (requested%cart.prgPages)) i=
        prgPageAt cart (requested%cart.prgPages) i

/-- An operation whose read does not separate a slot from its tag. -/
def Kept (cart : Cart) (s : Cache) : Action → Prop
  | .ensurePrg banks read page => PrgKept cart banks read page s
  | .ensureChr banks read page => ChrKept cart banks read page s
  | .prg67 read page => Prg67Kept cart read page s

section Reads

variable {cart : Cart} {read : Read}

theorem prgPages_pos (cart : Cart) : 0<cart.prgPages := by
  have hpos := cart.rompages_pos
  unfold Cart.prgPages
  omega

/-- A group that is asked for lies in the program. -/
theorem group_lt (cart : Cart) (requested : ℕ) :
    requested%cart.prgPages/prgGroupPages*prgGroupBytes<cart.prgSize := by
  have hlt := Nat.mod_lt requested (prgPages_pos cart)
  unfold Cart.prgPages at hlt
  unfold prgGroupPages prgGroupBytes Cart.prgSize Cart.prgPages
  omega

/-- The read of a group. -/
theorem readGroup_prg (requested : ℕ) :
    (readGroup cart cart.prgOffset cart.prgSize prgGroupBytes
        (requested%cart.prgPages/prgGroupPages) read).1=read.isNone ∧
      (read=none → ∀ i,i<prgGroupBytes →
        (readGroup cart cart.prgOffset cart.prgSize prgGroupBytes
          (requested%cart.prgPages/prgGroupPages) read).2 i=
          prgGroupAt cart (requested%cart.prgPages/prgGroupPages) i) := by
  have hlt := group_lt cart requested
  unfold readGroup
  rw [if_neg (Nat.not_le.mpr hlt)]
  refine ⟨rfl,fun hread i hi => ?_⟩
  subst hread
  unfold prgGroupAt readBytes
  dsimp only
  by_cases hin : requested%cart.prgPages/prgGroupPages*prgGroupBytes+i<cart.prgSize
  · rw [if_pos hin,if_pos (by omega)]
  · rw [if_neg hin,if_neg (by omega)]

/-- A character page that is asked for lies in the characters. -/
theorem page_lt {requested : ℕ} (hpages : cart.chrPages≠0) :
    (requested%cart.chrPages+1)*chrPageBytes≤ cart.chrSize := by
  have hlt := Nat.mod_lt requested (Nat.pos_of_ne_zero hpages)
  have hmul := Nat.div_mul_le_self cart.chrSize chrPageBytes
  exact le_trans (Nat.mul_le_mul_right chrPageBytes hlt) hmul

/-- The read of a character page. -/
theorem readGroup_chr {requested : ℕ} (hpages : cart.chrPages≠0) :
    (readGroup cart cart.chrOffset cart.chrSize chrPageBytes
        (requested%cart.chrPages) read).1=read.isNone ∧
      (read=none → ∀ i,i<chrPageBytes →
        (readGroup cart cart.chrOffset cart.chrSize chrPageBytes
          (requested%cart.chrPages) read).2 i=chrPageAt cart (requested%cart.chrPages) i) := by
  have hle := @page_lt cart requested hpages
  rw [Nat.add_mul,Nat.one_mul] at hle
  have hpositive : 0<chrPageBytes := by decide
  unfold readGroup
  rw [if_neg (by omega)]
  refine ⟨rfl,fun hread i hi => ?_⟩
  subst hread
  unfold chrPageAt readBytes
  dsimp only
  rw [if_pos (by omega)]

end Reads

section Tables

variable (cart : Cart) (s : Cache) (requested page slot : ℕ)

/-- Copying an entry changes the program table only. -/
theorem aliasPrg_eq : aliasPrg requested page s=
    { s with instantPrgBanks := fun k =>
      if k=requested then s.instantPrgBanks page else s.instantPrgBanks k } := by
  unfold aliasPrg
  split
  · congr 1
    funext k
    exact Function.update_apply _ _ _ _
  next hsame =>
    obtain ⟨prg,lower,prgGroup,chrPage,prgAge,chrAge,clock,prg67Page,prgTable,chrTable⟩ := s
    congr 1
    funext k
    dsimp only
    rw [not_not.mp hsame]
    split
    next heq => rw [heq]
    next => rfl

/-- Removing a group changes the program table only. -/
theorem unmapPrgGroup_eq : unmapPrgGroup cart slot s=
    { s with instantPrgBanks := fun k =>
      if some (k/prgGroupPages)=s.prgGroup slot ∧ k<cart.prgPages then none
      else s.instantPrgBanks k } := by
  unfold unmapPrgGroup
  split
  next hnone =>
    have hsame : (fun k => if some (k/prgGroupPages)=s.prgGroup slot ∧ k<cart.prgPages
        then none else s.instantPrgBanks k)=s.instantPrgBanks := by
      funext k
      rw [if_neg]
      rintro ⟨h,-⟩
      rw [hnone] at h
      cases h
    rw [hsame]
  next group hsome =>
    congr 1
    funext k
    refine if_congr ?_ rfl rfl
    rw [hsome,Option.some.injEq]
    rfl

/-- Removing a character page changes the character table only. -/
theorem unmapChrPage_eq : unmapChrPage cart slot s=
    { s with instantChrBanks := fun k =>
      if (s.chrPage slot).isSome ∧ k<cart.chrTablePages ∧
        s.instantChrBanks k=some (.chr slot) then none
      else s.instantChrBanks k } := by
  unfold unmapChrPage
  split
  next hnone =>
    have hsame : (fun k => if (s.chrPage slot).isSome ∧ k<cart.chrTablePages ∧
        s.instantChrBanks k=some (.chr slot) then none else s.instantChrBanks k)=
          s.instantChrBanks := by
      funext k
      rw [if_neg]
      rintro ⟨h,-⟩
      rw [hnone] at h
      cases h
    rw [hsame]
  next page hsome =>
    congr 1
    funext k
    refine if_congr ?_ rfl rfl
    rw [hsome]
    simp

end Tables

section Coherence

variable {cart : Cart} {s : Cache} {banks : Banks} {read : Read} {requested : ℕ}

theorem choosePrgSlot_lt (banks : Banks) (s : Cache) :
    choosePrgSlot banks s< prgCacheGroups :=
  choose_lt (by decide)

theorem chooseChrSlot_lt (cart : Cart) (banks : Banks) (s : Cache) :
    chooseChrSlot cart banks s<cart.chrSlots := by
  refine choose_lt ?_
  unfold Cart.chrSlots
  split <;> decide

/-- `ensure_prg` finds the group. -/
theorem ensurePrg_hit {slot : ℕ}
    (h : find s.prgGroup prgCacheGroups (requested%cart.prgPages/prgGroupPages)=some slot) :
    ensurePrg cart banks read requested s=
      (some (.prg slot (requested%cart.prgPages%prgGroupPages)),
        aliasPrg requested (requested%cart.prgPages) (touchPrg slot s)) := by
  unfold ensurePrg
  dsimp only
  rw [h]

/-- `ensure_prg` reads the group. -/
theorem ensurePrg_miss
    (h : find s.prgGroup prgCacheGroups (requested%cart.prgPages/prgGroupPages)=none) :
    ensurePrg cart banks read requested s=
      (if (readGroup cart cart.prgOffset cart.prgSize prgGroupBytes
          (requested%cart.prgPages/prgGroupPages) read).1=false then
        (none,fillPrg (choosePrgSlot banks s)
          (readGroup cart cart.prgOffset cart.prgSize prgGroupBytes
            (requested%cart.prgPages/prgGroupPages) read).2
          (unmapPrgGroup cart (choosePrgSlot banks s) s))
      else
        (some (.prg (choosePrgSlot banks s) (requested%cart.prgPages%prgGroupPages)),
          aliasPrg requested (requested%cart.prgPages)
            (mapPrgGroup cart (choosePrgSlot banks s)
              (requested%cart.prgPages/prgGroupPages)
              (touchPrg (choosePrgSlot banks s)
                (tagPrg (choosePrgSlot banks s) (requested%cart.prgPages/prgGroupPages)
                  (fillPrg (choosePrgSlot banks s)
                    (readGroup cart cart.prgOffset cart.prgSize prgGroupBytes
                      (requested%cart.prgPages/prgGroupPages) read).2
                    (unmapPrgGroup cart (choosePrgSlot banks s) s))))))) := by
  unfold ensurePrg
  dsimp only
  rw [h]

/-- Coherence looks at the contents and the tags. -/
theorem Coherent.of_same {t : Cache} (h : Coherent cart s) (hprg : t.prg=s.prg)
    (hlower : t.lower=s.lower) (hgroup : t.prgGroup=s.prgGroup) (hpage : t.chrPage=s.chrPage)
    (h67 : t.prg67Page=s.prg67Page) : Coherent cart t := by
  have hdata : chrData cart t=chrData cart s := by
    unfold chrData
    rw [hlower]
  exact ⟨by rw [hprg,hgroup]; exact h.prg,by rw [hdata,hpage]; exact h.chr,
    by rw [hlower,h67]; exact h.prg67⟩

/-- Contents of a group slot are replaced under its tag. -/
theorem coherent_fillPrg_iff (h : Coherent cart s) (slot : ℕ) (bytes : ℕ → UInt8) :
    Coherent cart (fillPrg slot bytes s) ↔
      ∀ group,slot<prgCacheGroups → s.prgGroup slot=some group →
        ∀ i,i<prgGroupBytes → bytes i=prgGroupAt cart group i := by
  have hself : (fillPrg slot bytes s).prg slot=bytes := Function.update_self _ _ _
  have hkept : Holds prgCacheGroups prgGroupBytes s.prgGroup (fillPrg slot bytes s).prg
      (prgGroupAt cart) ↔ _ := h.prg.replaced_iff (fun other _ hother i _ =>
        congrFun (Function.update_of_ne hother _ _) i)
  rw [hself] at hkept
  rw [← hkept]
  constructor
  · intro hall
    exact hall.prg
  · intro hprg
    exact ⟨hprg,h.chr,h.prg67⟩

/-- A group slot is filled and tagged. -/
theorem coherent_tagPrg_fillPrg (h : Coherent cart s) {slot group : ℕ}
    {bytes : ℕ → UInt8} (hslot : slot<prgCacheGroups)
    (hbytes : ∀ i,i<prgGroupBytes → bytes i=prgGroupAt cart group i) :
    Coherent cart (tagPrg slot group (fillPrg slot bytes s)) := by
  have htag : (tagPrg slot group (fillPrg slot bytes s)).prgGroup slot=some group :=
    Function.update_self _ _ _
  have hself : (tagPrg slot group (fillPrg slot bytes s)).prg slot=bytes :=
    Function.update_self _ _ _
  refine ⟨?_,h.chr,h.prg67⟩
  refine (h.prg.filled_iff hslot htag ?_ ?_).mpr ?_
  · intro other hother
    exact Function.update_of_ne hother _ _
  · intro other _ hother i _
    exact congrFun (Function.update_of_ne hother _ _) i
  · intro i hi
    rw [hself]
    exact hbytes i hi

/-- `ensure_prg` keeps coherence exactly if its victim keeps the contents of its tag. -/
theorem coherent_ensurePrg_iff (h : Coherent cart s) :
    Coherent cart (ensurePrg cart banks read requested s).2 ↔
      PrgKept cart banks read requested s := by
  obtain ⟨hok,hbytes⟩ := @readGroup_prg cart read requested
  cases hfind : find s.prgGroup prgCacheGroups
      (requested%cart.prgPages/prgGroupPages) with
  | some slot =>
    rw [ensurePrg_hit hfind,aliasPrg_eq]
    refine iff_of_true (h.of_same rfl rfl rfl rfl rfl) ?_
    intro hnone
    rw [hfind] at hnone
    cases hnone
  | none =>
    have hvictim := choosePrgSlot_lt banks s
    have hunmapped : Coherent cart (unmapPrgGroup cart (choosePrgSlot banks s) s) := by
      rw [unmapPrgGroup_eq]
      exact h.of_same rfl rfl rfl rfl rfl
    have htags : (unmapPrgGroup cart (choosePrgSlot banks s) s).prgGroup=s.prgGroup := by
      rw [unmapPrgGroup_eq]
    rw [ensurePrg_miss hfind,hok]
    cases hread : read with
    | none =>
      rw [hread] at hbytes
      rw [if_neg (by simp),aliasPrg_eq]
      have hfilled := coherent_tagPrg_fillPrg hunmapped hvictim (hbytes rfl)
      exact iff_of_true (hfilled.of_same rfl rfl rfl rfl rfl)
        (fun _ hsome => by cases hsome)
    | some left =>
      rw [if_pos (by simp),coherent_fillPrg_iff hunmapped,htags]
      constructor
      · intro hall _ _ group hgroup
        exact hall group hvictim hgroup
      · intro hkept group _ hgroup
        exact hkept hfind rfl group hgroup

/-- Character slots do not overlap. -/
theorem chrData_fillChr (cart : Cart) (s : Cache) (slot other : ℕ) (bytes : ℕ → UInt8) {i : ℕ}
    (hi : i<chrPageBytes) : chrData cart (fillChr cart slot bytes s) other i=
      if other=slot then bytes i else chrData cart s other i := by
  unfold chrData fillChr Cart.chrAt
  unfold chrPageBytes at hi ⊢
  dsimp only
  by_cases heq : other=slot
  · rw [heq,if_pos rfl,if_pos (by omega)]
    congr 1
    omega
  · rw [if_neg heq,if_neg (by omega)]

/-- They do not overlap the page at `$6000` where it is needed. -/
theorem lower_fillChr (cart : Cart) (s : Cache) (slot : ℕ) (bytes : ℕ → UInt8) {i : ℕ}
    (hmapper : cart.mapper≠4) (hi : i<prgPageBytes) :
    (fillChr cart slot bytes s).lower i=s.lower i := by
  unfold fillChr Cart.chrAt Cart.chrBase
  dsimp only
  rw [if_neg hmapper,if_neg (by omega)]

/-- Contents of a character slot are replaced under its tag. -/
theorem coherent_fillChr_iff (h : Coherent cart s) (slot : ℕ) (bytes : ℕ → UInt8) :
    Coherent cart (fillChr cart slot bytes s) ↔
      ∀ page,slot<cart.chrSlots → s.chrPage slot=some page →
        ∀ i,i<chrPageBytes → bytes i=chrPageAt cart page i := by
  have hkept : Holds cart.chrSlots chrPageBytes s.chrPage
      (chrData cart (fillChr cart slot bytes s)) (chrPageAt cart) ↔ _ :=
    h.chr.replaced_iff (fun other _ hother i hi => by
      rw [chrData_fillChr cart s slot other bytes hi,if_neg hother])
  have hdata : (∀ page,slot<cart.chrSlots → s.chrPage slot=some page →
      ∀ i,i<chrPageBytes → chrData cart (fillChr cart slot bytes s) slot i=
        chrPageAt cart page i) ↔ ∀ page,slot<cart.chrSlots → s.chrPage slot=some page →
      ∀ i,i<chrPageBytes → bytes i=chrPageAt cart page i := by
    refine forall_congr' fun page => forall_congr' fun _ => forall_congr' fun _ =>
      forall_congr' fun i => forall_congr' fun hi => ?_
    rw [chrData_fillChr cart s slot slot bytes hi,if_pos rfl]
  rw [← hdata,← hkept]
  constructor
  · intro hall
    exact hall.chr
  · intro hchr
    refine ⟨h.prg,hchr,fun hmapper page hpage i hi => ?_⟩
    rw [lower_fillChr cart s slot bytes hmapper hi]
    exact h.prg67 hmapper page hpage i hi

/-- A character slot is filled and tagged. -/
theorem coherent_tagChr_fillChr (h : Coherent cart s) {slot page : ℕ}
    {bytes : ℕ → UInt8} (hslot : slot<cart.chrSlots)
    (hbytes : ∀ i,i<chrPageBytes → bytes i=chrPageAt cart page i) :
    Coherent cart (tagChr slot page (fillChr cart slot bytes s)) := by
  have htag : (tagChr slot page (fillChr cart slot bytes s)).chrPage slot=some page :=
    Function.update_self _ _ _
  have hdata : chrData cart (tagChr slot page (fillChr cart slot bytes s))=
      chrData cart (fillChr cart slot bytes s) := rfl
  refine ⟨h.prg,?_,fun hmapper q hq i hi => ?_⟩
  · refine (h.chr.filled_iff hslot htag ?_ ?_).mpr ?_
    · intro other hother
      exact Function.update_of_ne hother _ _
    · intro other _ hother i hi
      rw [hdata,chrData_fillChr cart s slot other bytes hi,if_neg hother]
    · intro i hi
      rw [hdata,chrData_fillChr cart s slot slot bytes hi,if_pos rfl]
      exact hbytes i hi
  · have hlower := lower_fillChr cart s slot bytes hmapper hi
    exact hlower.trans (h.prg67 hmapper q hq i hi)

/-- `ensure_chr` has no pages to load. -/
theorem ensureChr_none (h : cart.chrPages=0) : ensureChr cart banks read requested s=s := by
  unfold ensureChr
  rw [if_pos h]

/-- `ensure_chr` is asked for a page in the character memory. -/
theorem ensureChr_ram {ram : Pointer} (h : cart.chrPages≠0)
    (hram : chrRamPage cart requested=some ram) :
    ensureChr cart banks read requested s=setChr requested ram s := by
  unfold ensureChr
  rw [if_neg h,hram]

/-- `ensure_chr` finds the page. -/
theorem ensureChr_hit {slot : ℕ} (h : cart.chrPages≠0)
    (hram : chrRamPage cart requested=none)
    (hfind : find s.chrPage cart.chrSlots (requested%cart.chrPages)=some slot) :
    ensureChr cart banks read requested s=
      setChr requested (.chr slot)
        (mapChrAliases cart (requested%cart.chrPages) slot (touchChr slot s)) := by
  unfold ensureChr
  rw [if_neg h,hram]
  dsimp only
  rw [hfind]

/-- `ensure_chr` reads the page. -/
theorem ensureChr_miss (h : cart.chrPages≠0) (hram : chrRamPage cart requested=none)
    (hfind : find s.chrPage cart.chrSlots (requested%cart.chrPages)=none) :
    ensureChr cart banks read requested s=
      if (readGroup cart cart.chrOffset cart.chrSize chrPageBytes
          (requested%cart.chrPages) read).1=false then
        fillChr cart (chooseChrSlot cart banks s)
          (readGroup cart cart.chrOffset cart.chrSize chrPageBytes
            (requested%cart.chrPages) read).2
          (unmapChrPage cart (chooseChrSlot cart banks s) s)
      else
        setChr requested (.chr (chooseChrSlot cart banks s))
          (mapChrAliases cart (requested%cart.chrPages) (chooseChrSlot cart banks s)
            (touchChr (chooseChrSlot cart banks s)
              (tagChr (chooseChrSlot cart banks s) (requested%cart.chrPages)
                (fillChr cart (chooseChrSlot cart banks s)
                  (readGroup cart cart.chrOffset cart.chrSize chrPageBytes
                    (requested%cart.chrPages) read).2
                  (unmapChrPage cart (chooseChrSlot cart banks s) s))))) := by
  unfold ensureChr
  rw [if_neg h,hram]
  dsimp only
  rw [hfind]

/-- `ensure_chr` keeps coherence exactly if its victim keeps the contents of its tag. -/
theorem coherent_ensureChr_iff (h : Coherent cart s) :
    Coherent cart (ensureChr cart banks read requested s) ↔
      ChrKept cart banks read requested s := by
  by_cases hpages : cart.chrPages=0
  · rw [ensureChr_none hpages]
    exact iff_of_true h (fun hne => absurd hpages hne)
  cases hram : chrRamPage cart requested with
  | some ram =>
    rw [ensureChr_ram hpages hram]
    refine iff_of_true (h.of_same rfl rfl rfl rfl rfl) (fun _ hnone => ?_)
    rw [hram] at hnone
    cases hnone
  | none =>
    cases hfind : find s.chrPage cart.chrSlots (requested%cart.chrPages) with
    | some slot =>
      rw [ensureChr_hit hpages hram hfind]
      refine iff_of_true (h.of_same rfl rfl rfl rfl rfl) (fun _ _ hnone => ?_)
      rw [hfind] at hnone
      cases hnone
    | none =>
      obtain ⟨hok,hbytes⟩ := @readGroup_chr cart read requested hpages
      have hvictim := chooseChrSlot_lt cart banks s
      have hunmapped : Coherent cart (unmapChrPage cart (chooseChrSlot cart banks s) s) := by
        rw [unmapChrPage_eq]
        exact h.of_same rfl rfl rfl rfl rfl
      have htags : (unmapChrPage cart (chooseChrSlot cart banks s) s).chrPage=s.chrPage := by
        rw [unmapChrPage_eq]
      rw [ensureChr_miss hpages hram hfind,hok]
      cases hread : read with
      | none =>
        rw [hread] at hbytes
        rw [if_neg (by simp)]
        have hfilled := coherent_tagChr_fillChr hunmapped hvictim (hbytes rfl)
        exact iff_of_true (hfilled.of_same rfl rfl rfl rfl rfl)
          (fun _ _ _ hsome => by cases hsome)
      | some left =>
        rw [if_pos (by simp),coherent_fillChr_iff hunmapped,htags]
        constructor
        · intro hall _ _ _ _ page hpage
          exact hall page hvictim hpage
        · intro hkept page _ hpage
          exact hkept hpages hram hfind rfl page hpage

/-- `prg67` has the page already. -/
theorem prg67_hit (h : s.prg67Page=some (requested%cart.prgPages)) :
    prg67 cart read requested s=s := by
  unfold prg67
  dsimp only
  rw [if_neg (not_not.mpr h)]

/-- `prg67` reads the page. -/
theorem prg67_miss (h : s.prg67Page≠some (requested%cart.prgPages)) :
    prg67 cart read requested s=
      { s with
        lower := fun i =>
          if i<prgPageBytes then
            readBytes read (prgPageAt cart (requested%cart.prgPages)) i
          else s.lower i
        prg67Page := some (requested%cart.prgPages) } := by
  unfold prg67
  dsimp only
  rw [if_pos h]
  rfl

/-- The page at `$6000` and a character slot. With mapper 4 the first eight slots lie in
the page. -/
theorem chrData_prg67 (h : s.prg67Page≠some (requested%cart.prgPages)) {slot i : ℕ}
    (hi : i<chrPageBytes) : chrData cart (prg67 cart read requested s) slot i=
      if cart.mapper=4 ∧ slot<8 then
        readBytes read (prgPageAt cart (requested%cart.prgPages)) (slot*chrPageBytes+i)
      else chrData cart s slot i := by
  rw [prg67_miss h]
  unfold chrData Cart.chrAt Cart.chrBase
  unfold chrPageBytes at hi
  dsimp only
  unfold prgPageBytes chrPageBytes
  by_cases hmapper : cart.mapper=4
  · rw [if_pos hmapper,Nat.zero_add]
    refine if_congr ?_ rfl rfl
    constructor
    · intro hlt
      exact ⟨hmapper,by omega⟩
    · rintro ⟨-,hslot⟩
      omega
  · rw [if_neg hmapper,if_neg (by omega),if_neg (by tauto)]

/-- `prg67` keeps coherence exactly if its bytes are those of the tags. -/
theorem coherent_prg67_iff (h : Coherent cart s) :
    Coherent cart (prg67 cart read requested s) ↔ Prg67Kept cart read requested s := by
  by_cases hhit : s.prg67Page=some (requested%cart.prgPages)
  · rw [prg67_hit hhit]
    exact iff_of_true h (fun hmiss => absurd hhit hmiss)
  have hdata := @chrData_prg67 cart s read requested hhit
  have hprg : (prg67 cart read requested s).prg=s.prg := by
    rw [prg67_miss hhit]
  have hgroup : (prg67 cart read requested s).prgGroup=s.prgGroup := by
    rw [prg67_miss hhit]
  have hpage : (prg67 cart read requested s).chrPage=s.chrPage := by
    rw [prg67_miss hhit]
  have htag : (prg67 cart read requested s).prg67Page=some (requested%cart.prgPages) := by
    rw [prg67_miss hhit]
  have hlower : ∀ i,i<prgPageBytes → (prg67 cart read requested s).lower i=
      readBytes read (prgPageAt cart (requested%cart.prgPages)) i := by
    intro i hi
    rw [prg67_miss hhit]
    exact if_pos hi
  unfold Prg67Kept
  by_cases hmapper : cart.mapper=4
  · have hslots : (8 : ℕ)≤ cart.chrSlots := by
      unfold Cart.chrSlots
      split <;> decide
    rw [if_pos hmapper]
    constructor
    · intro hall _ slot page hslot hslotpage i hi
      have hheld := hall.chr slot page (by omega) (by rw [hpage]; exact hslotpage) i hi
      rwa [hdata hi,if_pos ⟨hmapper,hslot⟩] at hheld
    · intro hkept
      refine ⟨by rw [hprg,hgroup]; exact h.prg,?_,fun hne => absurd hmapper hne⟩
      intro slot page hslot hslotpage i hi
      rw [hpage] at hslotpage
      rw [hdata hi]
      by_cases hlow : slot<8
      · rw [if_pos ⟨hmapper,hlow⟩]
        exact hkept hhit slot page hlow hslotpage i hi
      · rw [if_neg (by tauto)]
        exact h.chr slot page hslot hslotpage i hi
  · rw [if_neg hmapper]
    constructor
    · intro hall _ i hi
      rw [← hlower i hi]
      exact hall.prg67 hmapper _ htag i hi
    · intro hkept
      refine ⟨by rw [hprg,hgroup]; exact h.prg,?_,?_⟩
      · intro slot page hslot hslotpage i hi
        rw [hpage] at hslotpage
        rw [hdata hi,if_neg (by tauto)]
        exact h.chr slot page hslot hslotpage i hi
      · intro _ page hpage' i hi
        rw [htag] at hpage'
        cases hpage'
        rw [hlower i hi]
        exact hkept hhit i hi

/-- One operation keeps coherence exactly if its read does not separate a slot from its
tag. -/
theorem coherent_step_iff {t : Cache} {a : Action} (h : Coherent cart s)
    (hstep : step cart s a=some t) : Coherent cart t ↔ Kept cart s a := by
  cases a with
  | ensurePrg banks read page =>
    cases hstep
    exact coherent_ensurePrg_iff h
  | ensureChr banks read page =>
    cases hstep
    exact coherent_ensureChr_iff h
  | prg67 read page =>
    cases hstep
    exact coherent_prg67_iff h

end Coherence

end ChisLink.PocketnesCoherence
