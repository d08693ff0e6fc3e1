import ChisLink.PocketnesTables

/-!
# What the PocketNES lookup tables point to

As long as all reads succeed the slots hold what they are tagged with, and
`ensure_prg` returns the address of the page's bytes. The entries of the tables
point to the bytes of their pages as well, unless a slot gets other contents while
an entry beyond the end of its table still points to it. The character table is
searched for such entries; the program table is not.
-/

namespace ChisLink.PocketnesMapping

open SlotCache PocketnesCache PocketnesCoherence PocketnesTables LabelledRuns

/-- An address in the groups where the bytes of a program page are. -/
def PrgAddress (cart : Cart) (s : Cache) (page : ℕ) (address : Pointer) : Prop :=
  ∃ slot place,slot<prgCacheGroups ∧ place<prgGroupPages ∧ address=.prg slot place ∧
    ∀ i,i<prgPageBytes → s.prg slot (place*prgPageBytes+i)=prgPageAt cart page i

/-- An address of a character slot where the bytes of a page are. -/
def ChrAddress (cart : Cart) (s : Cache) (page : ℕ) (address : Pointer) : Prop :=
  ∃ slot,slot<cart.chrSlots ∧ address=.chr slot ∧
    ∀ i,i<chrPageBytes → chrData cart s slot i=chrPageAt cart page i

/-- The entries of both tables that are set point to the bytes of their pages, apart from
those of character memory. -/
structure Mapped (cart : Cart) (s : Cache) : Prop where
  /-- The program table. -/
  prg : ∀ k address,s.instantPrgBanks k=some address →
    PrgAddress cart s (k%cart.prgPages) address
  /-- The character table. -/
  chr : cart.chrPages≠0 → ∀ k address,chrRamPage cart k=none →
    s.instantChrBanks k=some address → ChrAddress cart s (k%cart.chrPages) address

/-- The cache is in order: slots hold what they are tagged with, entries point to the bytes
of their pages. -/
structure InOrder (cart : Cart) (s : Cache) : Prop where
  /-- The slots. -/
  coherent : Coherent cart s
  /-- The entries. -/
  mapped : Mapped cart s

section Addresses

variable {cart : Cart} {s t : Cache} {page k : ℕ} {address : Pointer}

/-- The program side of the mapping where only the character side changes. -/
theorem PrgAddress.of_same (h : PrgAddress cart s page address) (hprg : t.prg=s.prg) :
    PrgAddress cart t page address := by
  unfold PrgAddress
  rw [hprg]
  exact h

/-- The character side where only the program side changes. -/
theorem ChrAddress.of_same (h : ChrAddress cart s page address) (hlower : t.lower=s.lower) :
    ChrAddress cart t page address := by
  unfold ChrAddress chrData
  rw [hlower]
  exact h

end Addresses

section Steps

variable {cart : Cart} {s : Cache} {banks : Banks} {read : Read} {requested k : ℕ}

/-- Contents change in the victim only. -/
theorem ensurePrg_prg_other {slot : ℕ} (h : slot≠choosePrgSlot banks s) :
    (ensurePrg cart banks read requested s).2.prg slot=s.prg slot := by
  cases hfind : find s.prgGroup prgCacheGroups
      (requested%cart.prgPages/prgGroupPages) with
  | some slot =>
    rw [ensurePrg_hit hfind,aliasPrg_eq]
    rfl
  | none =>
    cases hread : read with
    | none =>
      rw [ensurePrg_loaded rfl hfind,aliasPrg_eq,unmapPrgGroup_eq]
      exact Function.update_of_ne h _ _
    | some left =>
      rw [ensurePrg_failed rfl hfind,unmapPrgGroup_eq]
      exact Function.update_of_ne h _ _

/-- No contents change if the group is there. -/
theorem ensurePrg_prg_hit {slot : ℕ}
    (h : find s.prgGroup prgCacheGroups (requested%cart.prgPages/prgGroupPages)=some slot) :
    (ensurePrg cart banks read requested s).2.prg=s.prg := by
  rw [ensurePrg_hit h,aliasPrg_eq]
  rfl

/-- Contents change in the victim only. -/
theorem ensureChr_data_other {slot i : ℕ} (h : slot≠chooseChrSlot cart banks s)
    (hi : i<chrPageBytes) :
    chrData cart (ensureChr cart banks read requested s) slot i=chrData cart s slot i := by
  refine ensureChr_cases (motive := fun t => chrData cart t slot i=chrData cart s slot i)
    cart banks read requested s ?_ ?_ ?_ ?_ ?_
  · intro _
    rfl
  · intro address _ _
    rfl
  · intro slot _ _ _
    rfl
  · intro left _ _ _ _
    rw [unmapChrPage_eq,chrData_fillChr cart _ _ slot _ hi,if_neg h]
    rfl
  · intro _ _ _ _
    rw [unmapChrPage_eq]
    exact (chrData_fillChr cart _ _ slot _ hi).trans (if_neg h)

/-- No contents change if the page is there or none is loaded. -/
theorem ensureChr_lower (h : ¬(cart.chrPages≠0 ∧ chrRamPage cart requested=none ∧
    find s.chrPage cart.chrSlots (requested%cart.chrPages)=none)) :
    (ensureChr cart banks read requested s).lower=s.lower := by
  refine ensureChr_cases (motive := fun t => t.lower=s.lower) cart banks read requested s
    ?_ ?_ ?_ ?_ ?_
  · intro _
    rfl
  · intro address _ _
    rfl
  · intro slot _ _ _
    rfl
  · intro left _ hpages hram hfind
    exact absurd ⟨hpages,hram,hfind⟩ h
  · intro _ hpages hram hfind
    exact absurd ⟨hpages,hram,hfind⟩ h

end Steps

section Runs

variable {cart : Cart} {banks : Banks} {prgReads chrReads : ℕ → Read} {s last : Cache}
  {trace : List (Cache×Action)}

end Runs

section Example

/-- A cartridge with six groups. Every byte of its program is the number of its page. -/
def sixGroups : Cart where
  rom := fun i => ((i-16)/prgPageBytes).toUInt8
  prgOffset := 16
  rompages := 12
  rompages_pos := by decide
  rompages_lt := by decide
  chrBanks := 0
  chrBanks_le := by decide
  mapper := 0

/-- The groups behind the first one are mapped. -/
def laterBanks : Banks where
  bank6 := fun i => [0,4,8,12,4].getD i 0
  cbank0 := fun _ => 0

/-- Memory before the cache is initialised. -/
def zeroCache : Cache where
  prg := fun _ _ => 0
  lower := fun _ => 0
  prgGroup := fun _ => none
  chrPage := fun _ => none
  prgAge := fun _ => 0
  chrAge := fun _ => 0
  clock := 0
  prg67Page := none
  instantPrgBanks := fun _ => none
  instantChrBanks := fun _ => none

/-- The initialised cache. -/
def sixGroupsStart : Cache :=
  cacheInit sixGroups laterBanks (fun _ => none) (fun _ => none) zeroCache

end Example

end ChisLink.PocketnesMapping
