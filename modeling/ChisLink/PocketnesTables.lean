import ChisLink.PocketnesCoherence

/-!
# Lookup tables of the PocketNES cache

An entry of a lookup table stands for a page. Below the end of its table it is the
address of a slot that is tagged with the group or the page, at all times and
whatever the reads do. An entry beyond the end of the program table is written too,
when it is requested, and nothing removes it when its slot is replaced.
-/

namespace ChisLink.PocketnesTables

open SlotCache PocketnesCache PocketnesCoherence LabelledRuns

/-- The entries of the tables are addresses of slots with their tags. -/
structure Tagged (cart : Cart) (s : Cache) : Prop where
  /-- The program table. -/
  prg : ∀ k address,k<cart.prgPages → s.instantPrgBanks k=some address →
    ∃ slot,slot<prgCacheGroups ∧ address=.prg slot (k%prgGroupPages) ∧
      s.prgGroup slot=some (k/prgGroupPages)
  /-- The character table, apart from character memory. -/
  chr : ∀ k address,k<cart.chrTablePages → cart.chrPages≠0 → chrRamPage cart k=none →
    s.instantChrBanks k=some address →
      ∃ slot,slot<cart.chrSlots ∧ address=.chr slot ∧ s.chrPage slot=some (k%cart.chrPages)

section Entries

variable {cart : Cart} {s : Cache} {banks : Banks} {read : Read} {requested k : ℕ}

/-- An entry below the end of the table is not an alias. -/
theorem aliasPrg_entry_lt (hk : k<cart.prgPages) :
    (aliasPrg requested (requested%cart.prgPages) s).instantPrgBanks k=
      s.instantPrgBanks k := by
  rw [aliasPrg_eq]
  dsimp only
  by_cases heq : k=requested
  · rw [if_pos heq,← heq,Nat.mod_eq_of_lt hk]
  · rw [if_neg heq]

/-- The other entries stay. -/
theorem aliasPrg_entry_other {page : ℕ} (hk : k≠requested) :
    (aliasPrg requested page s).instantPrgBanks k=s.instantPrgBanks k := by
  rw [aliasPrg_eq]
  exact if_neg hk

/-- The table entries after a group was loaded, before the alias. -/
theorem mapPrgGroup_entry {slot group : ℕ} {bytes : ℕ → UInt8} :
    (mapPrgGroup cart slot group (touchPrg slot (tagPrg slot group (fillPrg slot bytes
      (unmapPrgGroup cart slot s))))).instantPrgBanks k=
      if k/prgGroupPages=group ∧ k<cart.prgPages then some (.prg slot (k%prgGroupPages))
      else if some (k/prgGroupPages)=s.prgGroup slot ∧ k<cart.prgPages then none
      else s.instantPrgBanks k := by
  rw [unmapPrgGroup_eq]
  rfl

/-- The table entries after a character page was loaded. -/
theorem setChr_entry {slot page : ℕ} {bytes : ℕ → UInt8} :
    (setChr requested (.chr slot) (mapChrAliases cart page slot (touchChr slot (tagChr slot page
      (fillChr cart slot bytes (unmapChrPage cart slot s)))))).instantChrBanks k=
      if k=requested then some (.chr slot)
      else if k<cart.chrTablePages ∧ k%cart.chrPages=page ∧ chrRamPage cart k=none then
        some (.chr slot)
      else if (s.chrPage slot).isSome ∧ k<cart.chrTablePages ∧
        s.instantChrBanks k=some (.chr slot) then none
      else s.instantChrBanks k := by
  rw [unmapChrPage_eq]
  exact Function.update_apply _ _ _ _

end Entries

section Steps

variable {cart : Cart} {s : Cache} {banks : Banks} {read : Read} {requested : ℕ}

/-- `ensure_prg` reads the group and fails. -/
theorem ensurePrg_failed {left : ℕ → UInt8} (hread : read=some left)
    (h : find s.prgGroup prgCacheGroups (requested%cart.prgPages/prgGroupPages)=none) :
    ensurePrg cart banks read requested s=
      (none,fillPrg (choosePrgSlot banks s)
        (readGroup cart cart.prgOffset cart.prgSize prgGroupBytes
          (requested%cart.prgPages/prgGroupPages) read).2
        (unmapPrgGroup cart (choosePrgSlot banks s) s)) := by
  rw [ensurePrg_miss h,(readGroup_prg requested).1,if_pos (by rw [hread]; rfl)]

/-- `ensure_prg` reads the group. -/
theorem ensurePrg_loaded (hread : read=none)
    (h : find s.prgGroup prgCacheGroups (requested%cart.prgPages/prgGroupPages)=none) :
    ensurePrg cart banks read requested s=
      (some (.prg (choosePrgSlot banks s) (requested%cart.prgPages%prgGroupPages)),
        aliasPrg requested (requested%cart.prgPages)
          (mapPrgGroup cart (choosePrgSlot banks s) (requested%cart.prgPages/prgGroupPages)
            (touchPrg (choosePrgSlot banks s)
              (tagPrg (choosePrgSlot banks s) (requested%cart.prgPages/prgGroupPages)
                (fillPrg (choosePrgSlot banks s)
                  (readGroup cart cart.prgOffset cart.prgSize prgGroupBytes
                    (requested%cart.prgPages/prgGroupPages) read).2
                  (unmapPrgGroup cart (choosePrgSlot banks s) s)))))) := by
  rw [ensurePrg_miss h,(readGroup_prg requested).1,if_neg (by rw [hread]; decide)]

/-- The character side of the cache is not touched by `ensure_prg`. -/
theorem ensurePrg_chr : (ensurePrg cart banks read requested s).2.chrPage=s.chrPage ∧
    (ensurePrg cart banks read requested s).2.instantChrBanks=s.instantChrBanks ∧
    (ensurePrg cart banks read requested s).2.lower=s.lower := by
  cases hfind : find s.prgGroup prgCacheGroups
      (requested%cart.prgPages/prgGroupPages) with
  | some slot =>
    rw [ensurePrg_hit hfind,aliasPrg_eq]
    exact ⟨rfl,rfl,rfl⟩
  | none =>
    cases hread : read with
    | none =>
      rw [ensurePrg_loaded rfl hfind,aliasPrg_eq,unmapPrgGroup_eq]
      exact ⟨rfl,rfl,rfl⟩
    | some left =>
      rw [ensurePrg_failed rfl hfind,unmapPrgGroup_eq]
      exact ⟨rfl,rfl,rfl⟩

/-- The tags of the groups: that of the victim is set if it was loaded. -/
theorem ensurePrg_prgGroup {slot : ℕ} (h : slot≠choosePrgSlot banks s) :
    (ensurePrg cart banks read requested s).2.prgGroup slot=s.prgGroup slot := by
  cases hfind : find s.prgGroup prgCacheGroups
      (requested%cart.prgPages/prgGroupPages) with
  | some slot =>
    rw [ensurePrg_hit hfind,aliasPrg_eq]
    rfl
  | none =>
    cases hread : read with
    | none =>
      rw [ensurePrg_loaded rfl hfind,aliasPrg_eq,unmapPrgGroup_eq]
      exact Function.update_of_ne h _ _
    | some left =>
      rw [ensurePrg_failed rfl hfind,unmapPrgGroup_eq]
      rfl

/-- `ensure_prg` keeps the tables in agreement with the tags. -/
theorem tagged_ensurePrg (h : Tagged cart s) :
    Tagged cart (ensurePrg cart banks read requested s).2 := by
  obtain ⟨hpage,hchr,-⟩ := @ensurePrg_chr cart s banks read requested
  refine ⟨?_,by rw [hpage,hchr]; exact h.chr⟩
  intro k address hk hentry
  cases hfind : find s.prgGroup prgCacheGroups
      (requested%cart.prgPages/prgGroupPages) with
  | some slot =>
    rw [ensurePrg_hit hfind] at hentry ⊢
    dsimp only at hentry ⊢
    rw [aliasPrg_entry_lt hk] at hentry
    obtain ⟨slot',hslot,haddress,htag⟩ := h.prg k address hk hentry
    refine ⟨slot',hslot,haddress,?_⟩
    rw [aliasPrg_eq]
    exact htag
  | none =>
    have hvictim := choosePrgSlot_lt banks s
    cases hread : read with
    | none =>
      rw [hread,ensurePrg_loaded rfl hfind] at hentry
      rw [ensurePrg_loaded rfl hfind]
      dsimp only at hentry ⊢
      rw [aliasPrg_entry_lt hk,mapPrgGroup_entry] at hentry
      rw [aliasPrg_eq,unmapPrgGroup_eq]
      by_cases hgroup : k/prgGroupPages=requested%cart.prgPages/prgGroupPages
      · rw [if_pos ⟨hgroup,hk⟩] at hentry
        cases hentry
        refine ⟨_,hvictim,rfl,?_⟩
        rw [hgroup]
        exact Function.update_self _ _ _
      · rw [if_neg (fun hand => hgroup hand.1)] at hentry
        split at hentry
        · cases hentry
        next hkept =>
          obtain ⟨slot,hslot,haddress,htag⟩ := h.prg k address hk hentry
          refine ⟨slot,hslot,haddress,?_⟩
          have hne : slot≠choosePrgSlot banks s := by
            intro heq
            rw [heq] at htag
            exact hkept ⟨htag.symm,hk⟩
          exact (Function.update_of_ne hne _ _).trans htag
    | some left =>
      rw [hread,ensurePrg_failed rfl hfind] at hentry
      rw [ensurePrg_failed rfl hfind]
      rw [unmapPrgGroup_eq] at hentry ⊢
      have hkept : (if some (k/prgGroupPages)=s.prgGroup (choosePrgSlot banks s) ∧
          k<cart.prgPages then none else s.instantPrgBanks k)=some address := hentry
      split at hkept
      · cases hkept
      · exact h.prg k address hk hkept

/-- `ensure_chr` reads the page and fails. -/
theorem ensureChr_failed {left : ℕ → UInt8} (hread : read=some left) (h : cart.chrPages≠0)
    (hram : chrRamPage cart requested=none)
    (hfind : find s.chrPage cart.chrSlots (requested%cart.chrPages)=none) :
    ensureChr cart banks read requested s=
      fillChr cart (chooseChrSlot cart banks s)
        (readGroup cart cart.chrOffset cart.chrSize chrPageBytes
          (requested%cart.chrPages) read).2
        (unmapChrPage cart (chooseChrSlot cart banks s) s) := by
  rw [ensureChr_miss h hram hfind,(readGroup_chr h).1,if_pos (by rw [hread]; rfl)]

/-- `ensure_chr` reads the page. -/
theorem ensureChr_loaded (hread : read=none) (h : cart.chrPages≠0)
    (hram : chrRamPage cart requested=none)
    (hfind : find s.chrPage cart.chrSlots (requested%cart.chrPages)=none) :
    ensureChr cart banks read requested s=
      setChr requested (.chr (chooseChrSlot cart banks s))
        (mapChrAliases cart (requested%cart.chrPages) (chooseChrSlot cart banks s)
          (touchChr (chooseChrSlot cart banks s)
            (tagChr (chooseChrSlot cart banks s) (requested%cart.chrPages)
              (fillChr cart (chooseChrSlot cart banks s)
                (readGroup cart cart.chrOffset cart.chrSize chrPageBytes
                  (requested%cart.chrPages) read).2
                (unmapChrPage cart (chooseChrSlot cart banks s) s))))) := by
  rw [ensureChr_miss h hram hfind,(readGroup_chr h).1,if_neg (by rw [hread]; decide)]

/-- What a call of `ensure_chr` does, by its five outcomes. -/
theorem ensureChr_cases {motive : Cache → Prop} (cart : Cart) (banks : Banks) (read : Read)
    (requested : ℕ) (s : Cache)
    (noPages : cart.chrPages=0 → motive s)
    (ram : ∀ address,cart.chrPages≠0 → chrRamPage cart requested=some address →
      motive (setChr requested address s))
    (hit : ∀ slot,cart.chrPages≠0 → chrRamPage cart requested=none →
      find s.chrPage cart.chrSlots (requested%cart.chrPages)=some slot →
      motive (setChr requested (.chr slot)
        (mapChrAliases cart (requested%cart.chrPages) slot (touchChr slot s))))
    (failed : ∀ left,read=some left → cart.chrPages≠0 → chrRamPage cart requested=none →
      find s.chrPage cart.chrSlots (requested%cart.chrPages)=none →
      motive (fillChr cart (chooseChrSlot cart banks s)
        (readGroup cart cart.chrOffset cart.chrSize chrPageBytes
          (requested%cart.chrPages) read).2
        (unmapChrPage cart (chooseChrSlot cart banks s) s)))
    (loaded : read=none → cart.chrPages≠0 → chrRamPage cart requested=none →
      find s.chrPage cart.chrSlots (requested%cart.chrPages)=none →
      motive (setChr requested (.chr (chooseChrSlot cart banks s))
        (mapChrAliases cart (requested%cart.chrPages) (chooseChrSlot cart banks s)
          (touchChr (chooseChrSlot cart banks s)
            (tagChr (chooseChrSlot cart banks s) (requested%cart.chrPages)
              (fillChr cart (chooseChrSlot cart banks s)
                (readGroup cart cart.chrOffset cart.chrSize chrPageBytes
                  (requested%cart.chrPages) read).2
                (unmapChrPage cart (chooseChrSlot cart banks s) s))))))) :
    motive (ensureChr cart banks read requested s) := by
  by_cases hpages : cart.chrPages=0
  · rw [ensureChr_none hpages]
    exact noPages hpages
  cases hram : chrRamPage cart requested with
  | some address =>
    rw [ensureChr_ram hpages hram]
    exact ram address hpages hram
  | none =>
    cases hfind : find s.chrPage cart.chrSlots (requested%cart.chrPages) with
    | some slot =>
      rw [ensureChr_hit hpages hram hfind]
      exact hit slot hpages hram hfind
    | none =>
      cases hread : read with
      | some left =>
        rw [ensureChr_failed rfl hpages hram hfind,← hread]
        exact failed left hread hpages hram hfind
      | none =>
        rw [ensureChr_loaded rfl hpages hram hfind,← hread]
        exact loaded hread hpages hram hfind

/-- The program side of the cache is not touched by `ensure_chr`. -/
theorem ensureChr_prg : (ensureChr cart banks read requested s).prgGroup=s.prgGroup ∧
    (ensureChr cart banks read requested s).instantPrgBanks=s.instantPrgBanks ∧
    (ensureChr cart banks read requested s).prg=s.prg := by
  refine ensureChr_cases (motive := fun t => t.prgGroup=s.prgGroup ∧
    t.instantPrgBanks=s.instantPrgBanks ∧ t.prg=s.prg) cart banks read requested s
    ?_ ?_ ?_ ?_ ?_
  · intro _
    exact ⟨rfl,rfl,rfl⟩
  · intro address _ _
    exact ⟨rfl,rfl,rfl⟩
  · intro slot _ _ _
    exact ⟨rfl,rfl,rfl⟩
  · intro left _ _ _ _
    rw [unmapChrPage_eq]
    exact ⟨rfl,rfl,rfl⟩
  · intro _ _ _ _
    rw [unmapChrPage_eq]
    exact ⟨rfl,rfl,rfl⟩

/-- The tags of the character slots: that of the victim is set if it was loaded. -/
theorem ensureChr_chrPage {slot : ℕ} (h : slot≠chooseChrSlot cart banks s) :
    (ensureChr cart banks read requested s).chrPage slot=s.chrPage slot := by
  refine ensureChr_cases (motive := fun t => t.chrPage slot=s.chrPage slot)
    cart banks read requested s ?_ ?_ ?_ ?_ ?_
  · intro _
    rfl
  · intro address _ _
    rfl
  · intro slot _ _ _
    rfl
  · intro left _ _ _ _
    rw [unmapChrPage_eq]
    rfl
  · intro _ _ _ _
    rw [unmapChrPage_eq]
    exact Function.update_of_ne h _ _

/-- `ensure_chr` keeps the tables in agreement with the tags. -/
theorem tagged_ensureChr (h : Tagged cart s) :
    Tagged cart (ensureChr cart banks read requested s) := by
  obtain ⟨hgroup,hprg,-⟩ := @ensureChr_prg cart s banks read requested
  refine ⟨by rw [hgroup,hprg]; exact h.prg,?_⟩
  intro k address hk hpages hram
  refine ensureChr_cases (motive := fun t => t.instantChrBanks k=some address →
    ∃ slot,slot<cart.chrSlots ∧ address=.chr slot ∧ t.chrPage slot=some (k%cart.chrPages))
    cart banks read requested s ?_ ?_ ?_ ?_ ?_
  · intro _ hentry
    exact h.chr k address hk hpages hram hentry
  · intro ram _ hrequested hentry
    have hne : k≠requested := by
      intro heq
      rw [heq,hrequested] at hram
      cases hram
    have hkept : s.instantChrBanks k=some address :=
      (Function.update_of_ne hne _ _).symm.trans hentry
    exact h.chr k address hk hpages hram hkept
  · intro slot _ _ hfind hentry
    obtain ⟨hslot,htag⟩ := find_eq_some hfind
    have hcases : (if k=requested then some (Pointer.chr slot)
        else if k<cart.chrTablePages ∧ k%cart.chrPages=requested%cart.chrPages ∧
          chrRamPage cart k=none then some (.chr slot)
        else s.instantChrBanks k)=some address :=
      (Function.update_apply _ _ _ _).symm.trans hentry
    split at hcases
    next heq =>
      cases hcases
      exact ⟨slot,hslot,rfl,by rw [heq]; exact htag⟩
    next =>
      split at hcases
      next halias =>
        cases hcases
        exact ⟨slot,hslot,rfl,by rw [halias.2.1]; exact htag⟩
      next => exact h.chr k address hk hpages hram hcases
  · intro left _ _ _ _ hentry
    rw [unmapChrPage_eq] at hentry ⊢
    have hkept : (if (s.chrPage (chooseChrSlot cart banks s)).isSome ∧ k<cart.chrTablePages ∧
        s.instantChrBanks k=some (.chr (chooseChrSlot cart banks s)) then none
        else s.instantChrBanks k)=some address := hentry
    split at hkept
    · cases hkept
    · exact h.chr k address hk hpages hram hkept
  · intro _ _ _ _ hentry
    have hvictim := chooseChrSlot_lt cart banks s
    rw [setChr_entry] at hentry
    rw [unmapChrPage_eq]
    split at hentry
    next heq =>
      cases hentry
      refine ⟨_,hvictim,rfl,?_⟩
      rw [heq]
      exact Function.update_self _ _ _
    next =>
      split at hentry
      next halias =>
        cases hentry
        refine ⟨_,hvictim,rfl,?_⟩
        rw [halias.2.1]
        exact Function.update_self _ _ _
      next =>
        split at hentry
        · cases hentry
        next hkept =>
          obtain ⟨slot,hslot,haddress,htag⟩ := h.chr k address hk hpages hram hentry
          refine ⟨slot,hslot,haddress,?_⟩
          have hne : slot≠chooseChrSlot cart banks s := by
            intro heq
            rw [heq] at htag haddress
            rw [haddress] at hentry
            exact hkept ⟨by rw [htag]; rfl,hk,hentry⟩
          exact (Function.update_of_ne hne _ _).trans htag

end Steps

section Beyond

variable {cart : Cart} {s : Cache} {banks : Banks} {read : Read} {requested k : ℕ}

/-- An entry beyond the program table is written when it is requested. -/
theorem ensurePrg_entry_beyond (hk : cart.prgPages≤k) (hne : k≠requested) :
    (ensurePrg cart banks read requested s).2.instantPrgBanks k=s.instantPrgBanks k := by
  have hout : ¬k<cart.prgPages := Nat.not_lt.mpr hk
  cases hfind : find s.prgGroup prgCacheGroups
      (requested%cart.prgPages/prgGroupPages) with
  | some slot =>
    rw [ensurePrg_hit hfind]
    exact aliasPrg_entry_other hne
  | none =>
    cases hread : read with
    | none =>
      rw [ensurePrg_loaded rfl hfind]
      dsimp only
      rw [aliasPrg_entry_other hne,mapPrgGroup_entry,if_neg (fun hand => hout hand.2),
        if_neg (fun hand => hout hand.2)]
    | some left =>
      rw [ensurePrg_failed rfl hfind,unmapPrgGroup_eq]
      exact if_neg fun hand => hout hand.2

/-- The same for the character table. -/
theorem ensureChr_entry_beyond (hk : cart.chrTablePages≤k) (hne : k≠requested) :
    (ensureChr cart banks read requested s).instantChrBanks k=s.instantChrBanks k := by
  have hout : ¬k<cart.chrTablePages := Nat.not_lt.mpr hk
  refine ensureChr_cases (motive := fun t => t.instantChrBanks k=s.instantChrBanks k)
    cart banks read requested s ?_ ?_ ?_ ?_ ?_
  · intro _
    rfl
  · intro address _ _
    exact Function.update_of_ne hne _ _
  · intro slot _ _ _
    have hmapped : (setChr requested (.chr slot) (mapChrAliases cart (requested%cart.chrPages) slot
        (touchChr slot s))).instantChrBanks k=_ := Function.update_of_ne hne _ _
    exact hmapped.trans (if_neg fun hand => hout hand.1)
  · intro left _ _ _ _
    rw [unmapChrPage_eq]
    exact if_neg fun hand => hout hand.2.1
  · intro _ _ _ _
    rw [setChr_entry,if_neg hne,if_neg (fun hand => hout hand.1),
      if_neg (fun hand => hout hand.2.1)]

/-- Every page has an entry. -/
theorem chrPages_le (cart : Cart) : cart.chrPages≤ cart.chrTablePages := by
  have hpages : cart.chrPages=cart.chrBanks*8 := by
    unfold Cart.chrPages Cart.chrSize chrPageBytes
    omega
  have hbanks : cart.chrBanks≤ cart.vrompages := by
    unfold Cart.vrompages
    split
    · omega
    · exact Nat.le_pow_clog (by decide) _
  rw [hpages]
  unfold Cart.chrTablePages
  split <;> omega

end Beyond

section Start

variable {cart : Cart} {banks : Banks} {s : Cache}

/-- The cache while it is initialised: what is tagged is held, and the tables have no
entries beyond their ends. -/
structure Loading (cart : Cart) (s : Cache) : Prop where
  /-- The slots hold the contents of their tags. -/
  coherent : Coherent cart s
  /-- The tables agree with the tags. -/
  tagged : Tagged cart s
  /-- Nothing was requested beyond the program table. -/
  prgBeyond : ∀ k,cart.prgPages≤k → s.instantPrgBanks k=none
  /-- Nothing was requested beyond the character table. -/
  chrBeyond : cart.chrPages≠0 → ∀ k,cart.chrTablePages≤k → s.instantChrBanks k=none

/-- The cache after the first turns of the loop that loads the groups. -/
structure PrgLoading (cart : Cart) (i : ℕ) (s : Cache) : Prop extends Loading cart s where
  /-- The slots that no turn has used. -/
  free : ∀ slot,i≤ slot → s.prgGroup slot=none
  /-- The character slots. -/
  chrFree : ∀ slot,s.chrPage slot=none

/-- The cache after the first turns of the loop that loads the character pages. -/
structure ChrLoading (cart : Cart) (i : ℕ) (s : Cache) : Prop extends Loading cart s where
  /-- The slots that no turn has used. -/
  free : ∀ slot,i≤ slot → s.chrPage slot=none

/-- The cleared cache. -/
theorem prgLoading_clearCache (cart : Cart) (s : Cache) :
    PrgLoading cart 0 (clearCache s) := by
  refine ⟨⟨⟨?_,?_,?_⟩,⟨?_,?_⟩,fun _ _ => rfl,fun _ _ _ => rfl⟩,fun _ _ => rfl,fun _ => rfl⟩
  · intro slot p _ htag
    cases htag
  · intro slot p _ htag
    cases htag
  · intro _ page hpage
    cases hpage
  · intro k address _ hentry
    cases hentry
  · intro k address _ _ _ hentry
    cases hentry

/-- The groups are loaded one after another, each into an empty slot. -/
theorem prgLoading_initPrg (reads : ℕ → Read) (h : PrgLoading cart 0 s) :
    ∃ i,PrgLoading cart i (initPrg cart banks reads s) := by
  refine ⟨_,foldl_range_invariant h ?_⟩
  intro i t hi hloading
  have hslot : i< prgCacheGroups := lt_of_lt_of_le hi (Nat.min_le_left _ _)
  have hgroup : i*prgGroupPages<cart.prgPages := by
    have hcount := lt_of_lt_of_le hi (Nat.min_le_right _ _)
    unfold Cart.prgSize prgGroupBytes at hcount
    unfold prgGroupPages Cart.prgPages
    omega
  have hnone := hloading.free i le_rfl
  have hempty : t.prgGroup (choosePrgSlot banks t)=none := choose_empty ⟨i,hslot,hnone⟩
  have hfirst : choosePrgSlot banks t≤ i := choose_le_empty hslot hnone
  have hkept : PrgKept cart banks (reads i) (i*prgGroupPages) t := by
    intro _ _ group htag
    rw [hempty] at htag
    cases htag
  obtain ⟨hpage,hchr,-⟩ := @ensurePrg_chr cart t banks (reads i) (i*prgGroupPages)
  refine ⟨⟨(coherent_ensurePrg_iff hloading.coherent).mpr hkept,
    tagged_ensurePrg hloading.tagged,?_,?_⟩,?_,?_⟩
  · intro k hk
    rw [ensurePrg_entry_beyond hk (by omega)]
    exact hloading.prgBeyond k hk
  · rw [hchr]
    exact hloading.chrBeyond
  · intro slot hle
    rw [ensurePrg_prgGroup (by omega)]
    exact hloading.free slot (by omega)
  · rw [hpage]
    exact hloading.chrFree

/-- The page at `$6000` is a copy of the first page. -/
theorem chrLoading_initPrg67 {i : ℕ} (h : PrgLoading cart i s) :
    ChrLoading cart 0 (initPrg67 cart s) := by
  unfold initPrg67
  split
  · exact ⟨h.toLoading,fun slot _ => h.chrFree slot⟩
  next address hentry =>
    obtain ⟨slot,hslot,haddress,htag⟩ := h.tagged.prg 0 address (prgPages_pos cart) hentry
    refine ⟨⟨⟨h.coherent.prg,?_,?_⟩,⟨h.tagged.prg,h.tagged.chr⟩,h.prgBeyond,h.chrBeyond⟩,
      fun slot _ => h.chrFree slot⟩
    · intro slot page _ hpage
      rw [h.chrFree slot] at hpage
      cases hpage
    · intro _ page hpage i hi
      cases hpage
      have hheld := h.coherent.prg slot (0/prgGroupPages) hslot htag (0*prgPageBytes+i)
        (by unfold prgGroupBytes; unfold prgPageBytes at hi ⊢; omega)
      have hrompages := cart.rompages_pos
      have hin : 0/prgGroupPages*prgGroupBytes+(0*prgPageBytes+i)<cart.prgSize := by
        unfold Cart.prgSize prgGroupPages
        unfold prgPageBytes at hi ⊢
        omega
      dsimp only
      rw [if_pos hi,haddress]
      unfold prgGroupAt at hheld
      rw [if_pos hin] at hheld
      refine hheld.trans ?_
      unfold prgPageAt
      congr 1
      unfold prgGroupPages
      omega

/-- The character pages are loaded one after another, each into an empty slot. -/
theorem loading_initChr (reads : ℕ → Read) (h : ChrLoading cart 0 s) :
    Loading cart (initChr cart banks reads s) := by
  have hall : ChrLoading cart (min cart.chrSlots cart.chrPages)
      (initChr cart banks reads s) := by
    refine foldl_range_invariant h ?_
    intro i t hi hloading
    have hslot : i<cart.chrSlots := lt_of_lt_of_le hi (Nat.min_le_left _ _)
    have hin : i<cart.chrTablePages :=
      lt_of_lt_of_le (lt_of_lt_of_le hi (Nat.min_le_right _ _)) (chrPages_le cart)
    have hnone := hloading.free i le_rfl
    have hempty : t.chrPage (chooseChrSlot cart banks t)=none := choose_empty ⟨i,hslot,hnone⟩
    have hfirst : chooseChrSlot cart banks t≤ i := choose_le_empty hslot hnone
    have hkept : ChrKept cart banks (reads i) i t := by
      intro _ _ _ _ page htag
      rw [hempty] at htag
      cases htag
    obtain ⟨hgroup,hprg,-⟩ := @ensureChr_prg cart t banks (reads i) i
    refine ⟨⟨(coherent_ensureChr_iff hloading.coherent).mpr hkept,
      tagged_ensureChr hloading.tagged,?_,?_⟩,?_⟩
    · rw [hprg]
      exact hloading.prgBeyond
    · intro hpages k hk
      rw [ensureChr_entry_beyond hk (by omega)]
      exact hloading.chrBeyond hpages k hk
    · intro slot hle
      rw [ensureChr_chrPage (by omega)]
      exact hloading.free slot (by omega)
  exact hall.toLoading

/-- The entries of character memory. -/
theorem loading_initChrRam (h : Loading cart s) : Loading cart (initChrRam cart s) := by
  have hentry : ∀ k,cart.chrPages≠0 → ¬(k<cart.chrTablePages ∧ (chrRamPage cart k).isSome) →
      (initChrRam cart s).instantChrBanks k=s.instantChrBanks k := by
    intro k hpages hram
    unfold initChrRam
    dsimp only
    rw [if_neg (fun hand => hpages hand.1),if_neg hram]
  refine ⟨h.coherent.of_same rfl rfl rfl rfl rfl,⟨h.tagged.prg,?_⟩,h.prgBeyond,?_⟩
  · intro k address hk hpages hram hsome
    rw [hentry k hpages (by rw [hram]; simp)] at hsome
    exact h.tagged.chr k address hk hpages hram hsome
  · intro hpages k hk
    rw [hentry k hpages (fun hand => absurd hand.1 (Nat.not_lt.mpr hk))]
    exact h.chrBeyond hpages k hk

/-- The initialised cache, whatever its reads do. -/
theorem loading_cacheInit (cart : Cart) (banks : Banks) (prgReads chrReads : ℕ → Read)
    (s : Cache) : Loading cart (cacheInit cart banks prgReads chrReads s) := by
  obtain ⟨i,hprg⟩ := prgLoading_initPrg prgReads (prgLoading_clearCache cart s)
  have h67 := chrLoading_initPrg67 hprg
  exact loading_initChrRam (loading_initChr chrReads h67)

end Start

end ChisLink.PocketnesTables
