import Mathlib.Data.Fintype.Card
import ChisLink.PocketnesSwitches
import ChisLink.PocketnesMapping

/-!
# Active pages of PocketNES stay resident

A call for a page that is not in the cache replaces the slot that was used least
recently among those whose page is not active. A group counts as active if a bank
register divided by four gives its number, so that a register at or above the number
of pages protects another group than the one it stands for. An entry of the character
map counts if it lies below the character size of the header, so that the upper half
of the doubled table protects nothing.
-/

namespace ChisLink.PocketnesResidency

open SlotCache PocketnesCache PocketnesCoherence PocketnesTables PocketnesMapping
open PocketnesSwitches LabelledRuns

section Selection

variable (cart : Cart) (m : Machine)

/-- A program bank register selects a page of the group. -/
def SelectsGroup (group : ℕ) : Prop :=
  ∃ register∈[1,2,3,4],(m.bank6 register).toNat%cart.prgPages/prgGroupPages=group

/-- An entry of the character map selects the page, and is not one of character
memory. -/
def SelectsPage (page : ℕ) : Prop :=
  ∃ entry,entry<8 ∧ chrRamPage cart (m.chrMap entry).toNat=none ∧
    (m.chrMap entry).toNat%cart.chrPages=page

/-- A call leaves the slots of selected groups or pages alone, whatever its read
gives. -/
def Keeps : Op → Prop
  | .ensurePrg page => ∀ read slot group,slot< prgCacheGroups →
      m.cache.prgGroup slot=some group → SelectsGroup cart m group →
        (ensurePrg cart m.banks read page m.cache).2.prgGroup slot=some group ∧
        (ensurePrg cart m.banks read page m.cache).2.prg slot=m.cache.prg slot
  | .ensureChr page => ∀ read slot p,slot<cart.chrSlots →
      m.cache.chrPage slot=some p → SelectsPage cart m p →
        (ensureChr cart m.banks read page m.cache).chrPage slot=some p ∧
        ∀ i,i<chrPageBytes →
          chrData cart (ensureChr cart m.banks read page m.cache) slot i=
            chrData cart m.cache slot i
  | _ => True

/-- The oldest slot that does not count as active is not selected, if the call replaces
one. -/
def SparesSelected : Op → Prop
  | .ensurePrg page =>
    find m.cache.prgGroup prgCacheGroups (page%cart.prgPages/prgGroupPages)=none →
      Spares m.cache.prgGroup m.cache.prgAge (activePrgGroup m.banks) (SelectsGroup cart m)
        prgCacheGroups 0
  | .ensureChr page =>
    cart.chrPages≠0 → chrRamPage cart page=none →
      find m.cache.chrPage cart.chrSlots (page%cart.chrPages)=none →
        Spares m.cache.chrPage m.cache.chrAge (activeChrPage cart m.banks)
          (SelectsPage cart m) cart.chrSlots 0
  | _ => True

end Selection

section Calls

variable {cart : Cart} {m : Machine} {page : ℕ}

/-- A group that is loaded takes the slot of the victim. -/
theorem ensurePrg_tag_victim {banks : Banks} {s : Cache}
    (h : find s.prgGroup prgCacheGroups (page%cart.prgPages/prgGroupPages)=none) :
    (ensurePrg cart banks none page s).2.prgGroup (choosePrgSlot banks s)=
      some (page%cart.prgPages/prgGroupPages) := by
  rw [ensurePrg_loaded rfl h,aliasPrg_eq,unmapPrgGroup_eq]
  exact Function.update_self _ _ _

/-- A page that is loaded takes the slot of the victim. -/
theorem ensureChr_tag_victim {banks : Banks} {s : Cache} (hpages : cart.chrPages≠0)
    (hram : chrRamPage cart page=none)
    (h : find s.chrPage cart.chrSlots (page%cart.chrPages)=none) :
    (ensureChr cart banks none page s).chrPage (chooseChrSlot cart banks s)=
      some (page%cart.chrPages) := by
  rw [ensureChr_loaded rfl hpages hram h,unmapChrPage_eq]
  exact Function.update_self _ _ _

/-- No tag changes if the page is there or none is loaded. -/
theorem ensureChr_tags_hit {banks : Banks} {read : Read} {s : Cache}
    (h : ¬(cart.chrPages≠0 ∧ chrRamPage cart page=none ∧
      find s.chrPage cart.chrSlots (page%cart.chrPages)=none)) :
    (ensureChr cart banks read page s).chrPage=s.chrPage := by
  refine ensureChr_cases (motive := fun t => t.chrPage=s.chrPage) cart banks read page s
    ?_ ?_ ?_ ?_ ?_
  · intro _
    rfl
  · intro address _ _
    rfl
  · intro slot _ _ _
    rfl
  · intro left _ hpages hram hfind
    exact absurd ⟨hpages,hram,hfind⟩ h
  · intro _ hpages hram hfind
    exact absurd ⟨hpages,hram,hfind⟩ h

/-- A call for a program page keeps the selected groups exactly if its victim is none of
them. -/
theorem keeps_ensurePrg_iff :
    Keeps cart m (.ensurePrg page) ↔ SparesSelected cart m (.ensurePrg page) := by
  unfold Keeps SparesSelected
  dsimp only
  constructor
  · intro h hfind
    refine choose_spares_iff.mp fun group htag hselects => ?_
    have hkept := (h none _ group (choosePrgSlot_lt m.banks m.cache) htag hselects).1
    have hloaded := @ensurePrg_tag_victim cart page m.banks m.cache hfind
    rw [hkept] at hloaded
    cases hloaded
    exact find_eq_none hfind (choosePrgSlot_lt m.banks m.cache) htag
  · intro h read slot group hslot htag hselects
    cases hfind : find m.cache.prgGroup prgCacheGroups
        (page%cart.prgPages/prgGroupPages) with
    | some found =>
      rw [ensurePrg_prg_hit hfind,ensurePrg_hit hfind,aliasPrg_eq]
      exact ⟨htag,rfl⟩
    | none =>
      have hother : slot≠choosePrgSlot m.banks m.cache := by
        intro heq
        rw [heq] at htag
        exact choose_spares_iff.mpr (h hfind) group htag hselects
      rw [ensurePrg_prgGroup hother,ensurePrg_prg_other hother]
      exact ⟨htag,rfl⟩

/-- A call for a character page keeps the selected pages exactly if its victim is none of
them. -/
theorem keeps_ensureChr_iff :
    Keeps cart m (.ensureChr page) ↔ SparesSelected cart m (.ensureChr page) := by
  unfold Keeps SparesSelected
  dsimp only
  constructor
  · intro h hpages hram hfind
    refine choose_spares_iff.mp fun p htag hselects => ?_
    have hlt := chooseChrSlot_lt cart m.banks m.cache
    have hkept := (h none _ p hlt htag hselects).1
    have hloaded := @ensureChr_tag_victim cart page m.banks m.cache hpages hram hfind
    rw [hkept] at hloaded
    cases hloaded
    exact find_eq_none hfind hlt htag
  · intro h read slot p hslot htag hselects
    by_cases hmiss : cart.chrPages≠0 ∧ chrRamPage cart page=none ∧
        find m.cache.chrPage cart.chrSlots (page%cart.chrPages)=none
    · have hother : slot≠chooseChrSlot cart m.banks m.cache := by
        intro heq
        rw [heq] at htag
        exact choose_spares_iff.mpr (h hmiss.1 hmiss.2.1 hmiss.2.2) p htag hselects
      rw [ensureChr_chrPage hother]
      exact ⟨htag,fun i hi => ensureChr_data_other hother hi⟩
    · have hlower := @ensureChr_lower cart m.cache m.banks read page hmiss
      refine ⟨?_,fun i hi => ?_⟩
      · rw [ensureChr_tags_hit hmiss]
        exact htag
      · unfold chrData
        rw [hlower]

end Calls

section Tags

variable {cart : Cart} {m : Machine} {s : Cache} {banks : Banks} {read : Read} {page : ℕ}

/-- No group and no character page has two slots. -/
structure Single (cart : Cart) (s : Cache) : Prop where
  /-- The groups. -/
  prg : Distinct s.prgGroup prgCacheGroups
  /-- The character pages. -/
  chr : Distinct s.chrPage cart.chrSlots

theorem Single.of_same {t : Cache} (h : Single cart s) (hprg : t.prgGroup=s.prgGroup)
    (hchr : t.chrPage=s.chrPage) : Single cart t := by
  refine ⟨?_,?_⟩
  · rw [hprg]
    exact h.prg
  · rw [hchr]
    exact h.chr

theorem single_ensurePrg (h : Single cart s) :
    Single cart (ensurePrg cart banks read page s).2 := by
  obtain ⟨hchr,-,-⟩ := @ensurePrg_chr cart s banks read page
  cases hfind : find s.prgGroup prgCacheGroups (page%cart.prgPages/prgGroupPages) with
  | some slot =>
    refine h.of_same ?_ hchr
    rw [ensurePrg_hit hfind,aliasPrg_eq]
    rfl
  | none =>
    cases hread : read with
    | some left =>
      rw [← hread]
      refine h.of_same ?_ hchr
      rw [ensurePrg_failed hread hfind,unmapPrgGroup_eq]
      rfl
    | none =>
      rw [hread] at hchr
      refine ⟨?_,hchr▸h.chr⟩
      rw [ensurePrg_loaded rfl hfind,aliasPrg_eq,unmapPrgGroup_eq]
      exact h.prg.update hfind

theorem single_ensureChr (h : Single cart s) :
    Single cart (ensureChr cart banks read page s) := by
  obtain ⟨hgroup,-,-⟩ := @ensureChr_prg cart s banks read page
  refine ⟨hgroup▸h.prg,?_⟩
  refine ensureChr_cases (motive := fun t => Distinct t.chrPage cart.chrSlots) cart banks read
    page s ?_ ?_ ?_ ?_ ?_
  · intro _
    exact h.chr
  · intro address _ _
    exact h.chr
  · intro slot _ _ _
    exact h.chr
  · intro left _ _ _ _
    rw [unmapChrPage_eq]
    exact h.chr
  · intro _ _ _ hfind
    rw [unmapChrPage_eq]
    exact h.chr.update hfind

theorem single_prg67 (h : Single cart s) : Single cart (prg67 cart read page s) := by
  unfold prg67
  dsimp only
  split
  · exact h.of_same rfl rfl
  · exact h

theorem single_cacheInit (cart : Cart) (banks : Banks) (prgReads chrReads : ℕ → Read)
    (s : Cache) : Single cart (cacheInit cart banks prgReads chrReads s) := by
  have hclear : Single cart (clearCache s) := ⟨distinct_empty _,distinct_empty _⟩
  have hprg : Single cart (initPrg cart banks prgReads (clearCache s)) := by
    refine foldl_range_invariant (P := fun _ t => Single cart t) hclear ?_
    intro i t _ ht
    exact single_ensurePrg ht
  have h67 : Single cart (initPrg67 cart (initPrg cart banks prgReads (clearCache s))) := by
    unfold initPrg67
    split
    · exact hprg
    · exact hprg.of_same rfl rfl
  have hchr : Single cart (initChr cart banks chrReads (initPrg67 cart
      (initPrg cart banks prgReads (clearCache s)))) := by
    refine foldl_range_invariant (P := fun _ t => Single cart t) h67 ?_
    intro i t _ ht
    exact single_ensureChr ht
  exact hchr.of_same rfl rfl

/-- Every operation keeps pages in single slots. -/
theorem single_perform (h : Single cart m.cache) (op : Op) :
    Single cart (perform cart read m op).cache := by
  cases op with
  | ensurePrg page => exact single_ensurePrg h
  | ensureChr page => exact single_ensureChr h
  | prg67 page => exact single_prg67 h
  | bank register value => exact h
  | chr entry value => exact h
  | vram entry page => exact h
  | expectPrg => exact h
  | expectChr page => exact h

end Tags

section Direct

variable (cart : Cart) (m : Machine)

/-- The registers say what is in use: program registers lie below the number of pages and
one of them holds the page that is asked for, entries of the character map lie below the
character size of the header or are character memory, and no age is the largest. -/
def Direct : Op → Prop
  | .ensurePrg page =>
    (∀ register∈[1,2,3,4],(m.bank6 register).toNat<cart.prgPages) ∧
      (∃ register∈[1,2,3,4],(m.bank6 register).toNat=page) ∧
      ∀ slot,slot< prgCacheGroups → m.cache.prgAge slot<0xffffffff
  | .ensureChr _ =>
    (∀ entry,entry<8 → chrRamPage cart (m.chrMap entry).toNat=none →
      (m.chrMap entry).toNat<cart.vrompages*8) ∧
      ∀ slot,slot<cart.chrSlots → m.cache.chrAge slot<0xffffffff
  | _ => True

variable {cart} {m} {page : ℕ}

theorem activePrgGroup_iff {banks : Banks} {group : ℕ} :
    activePrgGroup banks group=true ↔
      ∃ register∈[1,2,3,4],banks.bank6 register/prgGroupPages=group := by
  unfold activePrgGroup
  rw [List.any_eq_true]
  simp only [decide_eq_true_eq]

theorem activeChrPage_iff {banks : Banks} {p : ℕ} :
    activeChrPage cart banks p=true ↔ ∃ entry,entry<8 ∧ cart.chrPages≠0 ∧
      chrRamPage cart (banks.cbank0 entry)=none ∧ banks.cbank0 entry<cart.vrompages*8 ∧
      banks.cbank0 entry%cart.chrPages=p := by
  unfold activeChrPage
  rw [List.any_eq_true]
  simp only [List.mem_range,Bool.and_eq_true,decide_eq_true_eq,Option.isNone_iff_eq_none,
    and_assoc,ne_eq]

/-- Slots with different pages need as many registers that give their pages. -/
theorem exists_inactive {tag : ℕ → Option ℕ} {active : ℕ → Bool} {count : ℕ}
    {registers : Finset ℕ} {number : ℕ → ℕ} (hdistinct : Distinct tag count)
    (hmany : registers.card<count)
    (hactive : ∀ slot p,slot<count → tag slot=some p → active p=true →
      ∃ register∈registers,number register=p)
    (hfull : ∀ slot,slot<count → tag slot≠none) :
    ∃ slot p,slot<count ∧ tag slot=some p ∧ active p=false := by
  by_contra hnone
  have hall : ∀ slot : Fin count,∃ register,register∈registers ∧
      tag slot=some (number register) := by
    intro slot
    obtain ⟨p,htag⟩ := Option.ne_none_iff_exists'.mp (hfull slot slot.2)
    have hp : active p=true := by
      by_contra hfalse
      exact hnone ⟨slot,p,slot.2,htag,eq_false_of_ne_true hfalse⟩
    obtain ⟨register,hregister,hnumber⟩ := hactive slot p slot.2 htag hp
    exact ⟨register,hregister,hnumber▸htag⟩
  choose f hf htag using hall
  have hcard : registers.card<(Finset.univ : Finset (Fin count)).card := by
    rw [Finset.card_univ,Fintype.card_fin]
    exact hmany
  obtain ⟨slot,-,other,-,hne,heq⟩ :=
    Finset.exists_ne_map_eq_of_card_lt_of_maps_to hcard fun slot _ => hf slot
  refine hne (Fin.ext (hdistinct slot.1 other.1 _ slot.2 other.2 (htag slot) ?_))
  rw [heq]
  exact htag other

/-- Registers in range protect the groups that they select. -/
theorem spares_ensurePrg (hsingle : Single cart m.cache)
    (h : Direct cart m (.ensurePrg page)) : SparesSelected cart m (.ensurePrg page) := by
  obtain ⟨hrange,⟨asked,hasked,hpage⟩,hage⟩ := h
  have hselects : ∀ group,SelectsGroup cart m group → activePrgGroup m.banks group=true := by
    rintro group ⟨register,hregister,hgroup⟩
    rw [Nat.mod_eq_of_lt (hrange register hregister)] at hgroup
    exact activePrgGroup_iff.mpr ⟨register,hregister,hgroup⟩
  intro hfind hfull
  refine ⟨fun slot group hslot htag hused => ?_,fun hnone => ?_⟩
  · obtain ⟨⟨group',htag',hactive⟩,-⟩ := hslot.eligible
    rw [htag] at htag'
    cases htag'
    rw [hselects group hused] at hactive
    cases hactive
  · have hmissing : ∀ slot p,slot< prgCacheGroups → m.cache.prgGroup slot=some p →
        activePrgGroup m.banks p=true → ∃ register∈({1,2,3,4} : Finset ℕ).erase asked,
          m.banks.bank6 register/prgGroupPages=p := by
      intro slot p hslot htag hactive
      obtain ⟨register,hregister,hgroup⟩ := activePrgGroup_iff.mp hactive
      refine ⟨register,Finset.mem_erase.mpr ⟨?_,?_⟩,hgroup⟩
      · rintro rfl
        have hlt := hrange register hregister
        have hsame : page%cart.prgPages/prgGroupPages=p := by
          rw [← hgroup,← hpage,Nat.mod_eq_of_lt hlt]
          rfl
        exact find_eq_none hfind hslot (hsame▸htag)
      · simpa using hregister
    have hcard : (({1,2,3,4} : Finset ℕ).erase asked).card< prgCacheGroups := by
      have hmem : asked∈({1,2,3,4} : Finset ℕ) := by simpa using hasked
      rw [Finset.card_erase_of_mem hmem]
      decide
    obtain ⟨slot,p,hslot,htag,hactive⟩ :=
      exists_inactive hsingle.prg hcard hmissing hfull
    exact absurd ⟨⟨p,htag,hactive⟩,hage slot hslot⟩ (hnone slot hslot)

/-- Entries in range protect the pages that they select. -/
theorem spares_ensureChr (hsingle : Single cart m.cache)
    (h : Direct cart m (.ensureChr page)) : SparesSelected cart m (.ensureChr page) := by
  obtain ⟨hrange,hage⟩ := h
  intro hpages _ _ hfull
  refine ⟨fun slot p hslot htag hused => ?_,fun hnone => ?_⟩
  · obtain ⟨⟨p',htag',hactive⟩,-⟩ := hslot.eligible
    obtain ⟨entry,hentry,hram,hp⟩ := hused
    rw [htag] at htag'
    cases htag'
    rw [activeChrPage_iff.mpr ⟨entry,hentry,hpages,hram,hrange entry hentry hram,hp⟩]
      at hactive
    cases hactive
  · have hgives : ∀ slot p,slot<cart.chrSlots → m.cache.chrPage slot=some p →
        activeChrPage cart m.banks p=true → ∃ entry∈Finset.range 8,
          m.banks.cbank0 entry%cart.chrPages=p := by
      intro slot p _ _ hactive
      obtain ⟨entry,hentry,-,-,-,hp⟩ := activeChrPage_iff.mp hactive
      exact ⟨entry,Finset.mem_range.mpr hentry,hp⟩
    have hcard : (Finset.range 8).card<cart.chrSlots := by
      rw [Finset.card_range]
      unfold Cart.chrSlots
      split <;> decide
    obtain ⟨slot,p,hslot,htag,hactive⟩ := exists_inactive hsingle.chr hcard hgives hfull
    exact absurd ⟨⟨p,htag,hactive⟩,hage slot hslot⟩ (hnone slot hslot)

end Direct

section Runs

variable (cart : Cart)

/-- The operations of a routine that are reached, with the machine before each of them. -/
def reached : Machine → List (Op×Read) → List (Machine×Op)
  | _,[] => []
  | m,entry::rest =>
    if m.ended then [] else (m,entry.1)::reached (turn cart m entry) rest

/-- The operations of a routine with the outcomes of their reads. -/
def entries (switch : Switch) (reads : ℕ → Read) : List (Op×Read) :=
  (switch.ops cart).zipIdx.map fun entry => (entry.1,reads entry.2)

/-- A routine as a step of the machine. -/
def switchStep (m : Machine) (action : Switch×(ℕ → Read)) : Option Machine :=
  some (runSwitch cart m action.1 action.2)

/-- A property of all operations that a routine reaches. -/
def EveryCall (P : Machine → Op → Prop) (m : Machine) (action : Switch×(ℕ → Read)) : Prop :=
  ∀ call∈reached cart {m with ended := false} (entries cart action.1 action.2),
    P call.1 call.2

variable {cart}

theorem keeps_iff (m : Machine) (op : Op) : Keeps cart m op ↔ SparesSelected cart m op := by
  cases op with
  | ensurePrg page => exact keeps_ensurePrg_iff
  | ensureChr page => exact keeps_ensureChr_iff
  | bank register value => exact Iff.rfl
  | chr entry value => exact Iff.rfl
  | prg67 page => exact Iff.rfl
  | vram entry page => exact Iff.rfl
  | expectPrg => exact Iff.rfl
  | expectChr page => exact Iff.rfl

theorem spares_of_direct {m : Machine} {op : Op} (hsingle : Single cart m.cache)
    (h : Direct cart m op) : SparesSelected cart m op := by
  cases op with
  | ensurePrg page => exact spares_ensurePrg hsingle h
  | ensureChr page => exact spares_ensureChr hsingle h
  | bank register value => trivial
  | chr entry value => trivial
  | prg67 page => trivial
  | vram entry page => trivial
  | expectPrg => trivial
  | expectChr page => trivial

/-- A page has one slot before every operation of a routine, and after it. -/
theorem single_reached {m : Machine} (h : Single cart m.cache) (list : List (Op×Read)) :
    (∀ call∈reached cart m list,Single cart call.1.cache) ∧
      Single cart (list.foldl (turn cart) m).cache := by
  induction list generalizing m with
  | nil => exact ⟨fun call hcall => (by cases hcall),h⟩
  | cons entry rest ih =>
    unfold reached
    rw [List.foldl_cons]
    by_cases hended : m.ended=true
    · have hstays : turn cart m entry=m := if_pos hended
      rw [if_pos hended,hstays]
      exact ⟨fun call hcall => (by cases hcall),(ih h).2⟩
    · have hturn : Single cart (turn cart m entry).cache := by
        unfold turn
        rw [if_neg hended]
        exact single_perform h entry.1
      rw [if_neg hended]
      refine ⟨fun call hcall => ?_,(ih hturn).2⟩
      rcases List.mem_cons.mp hcall with rfl | hcall
      · exact h
      · exact (ih hturn).1 call hcall

/-- Over every run of bank switches from an initialised cache, no call replaces a selected
group or page exactly if at each call the least recently used one among those that do not
count as active is not selected. This is so if the registers are in range. -/
theorem selected_stay_iff {start : Machine} {banks : Banks} {prgReads chrReads : ℕ → Read}
    {s : Cache} (hstart : start.cache=cacheInit cart banks prgReads chrReads s)
    {trace : List (Machine×(Switch×(ℕ → Read)))} {last : Machine}
    (run : Run (switchStep cart) start trace last) :
    (EveryStep (EveryCall cart (Keeps cart)) trace ↔
      EveryStep (EveryCall cart (SparesSelected cart)) trace) ∧
    (EveryStep (EveryCall cart (Direct cart)) trace →
      EveryStep (EveryCall cart (Keeps cart)) trace) := by
  refine ⟨?_,fun h entry hentry call hcall => ?_⟩
  · unfold EveryStep EveryCall
    simp only [keeps_iff]
  · have hinit : Single cart start.cache := by
      rw [hstart]
      exact single_cacheInit ..
    have hkeep : ∀ m action t,Single cart m.cache → switchStep cart m action=some t →
        Single cart t.cache := by
      rintro m action t hm hstep
      cases hstep
      exact (single_reached (m := {m with ended := false}) hm (entries cart action.1 action.2)).2
    have hsingle := (run.always (I := fun m => Single cart m.cache) hinit hkeep).1
    have hbefore := (single_reached (m := {entry.1 with ended := false})
      (hsingle entry hentry) _).1 call hcall
    exact (keeps_iff _ _).mpr (spares_of_direct hbefore (h entry hentry call hcall))

/-- A cartridge with nine banks of 16 KiB. -/
def nineBanks : Cart where
  rom := fun _ => 0
  prgOffset := 16
  rompages := 9
  rompages_pos := by decide
  rompages_lt := by decide
  chrBanks := 0
  chrBanks_le := sixGroups.chrBanks_le
  mapper := 1

/-- Its machine after the start, with the first groups in the slots. -/
def nineBanksStart : Machine where
  cache := cacheInit nineBanks ⟨fun _ => 0,fun _ => 0⟩ (fun _ => none) (fun _ => none)
    ⟨fun _ _ => 0,fun _ => 0,fun _ => none,fun _ => none,fun _ => 0,fun _ => 0,0,none,
      fun _ => none,fun _ => none⟩
  bank6 := fun _ => 0
  chrMap := fun _ => 0
  vramMap := fun _ => none
  result := none
  ended := false

theorem selected_stay_iff_bank :
    EveryStep (EveryCall nineBanks (Keeps nineBanks))
      [(nineBanksStart,(.map89 1,fun _ => none))] := by
  have run : Run (switchStep nineBanks) nineBanksStart
      ([]++[(nineBanksStart,(.map89 1,fun _ => none))])
      (runSwitch nineBanks nineBanksStart (.map89 1) fun _ => none) := .snoc .nil rfl
  refine (selected_stay_iff rfl run).1.mpr ?_
  intro entry hentry call hcall
  rw [List.nil_append,List.mem_singleton] at hentry
  subst hentry
  have hfound : find nineBanksStart.cache.prgGroup prgCacheGroups
      (1%nineBanks.prgPages/prgGroupPages)≠none := by decide +kernel
  rcases List.mem_cons.mp hcall with rfl | hcall
  · trivial
  rcases List.mem_cons.mp hcall with rfl | hcall
  · exact fun hfind => absurd hfind hfound
  · cases hcall

/-- The last 32 KiB of an odd number of banks replace a group that two of the registers
stand for. -/
theorem last_switch_replaces_selected :
    ¬∀ (cart : Cart) (banks : Banks) (prgReads chrReads : ℕ → Read) (s : Cache)
      (start : Machine),start.cache=cacheInit cart banks prgReads chrReads s →
        ∀ trace last,Run (switchStep cart) start trace last →
          EveryStep (EveryCall cart (Keeps cart)) trace := by
  intro h
  have run : Run (switchStep nineBanks) nineBanksStart
      ([]++[(nineBanksStart,(.map89ABCDEF 4,fun _ => none))])
      (runSwitch nineBanks nineBanksStart (.map89ABCDEF 4) fun _ => none) := .snoc .nil rfl
  have hall := h nineBanks _ _ _ _ nineBanksStart rfl _ _ run _ List.mem_cons_self
  obtain ⟨m,hm⟩ : ∃ m,m={nineBanksStart with
    bank6 := Function.update (Function.update (Function.update (Function.update
      (fun _ => 0) 1 16) 2 17) 3 18) 4 19} := ⟨_,rfl⟩
  have hkeeps : Keeps nineBanks m (.ensurePrg 16) := by
    rw [hm]
    exact hall _ (.tail _ (.tail _ (.tail _ (.tail _ (.head _)))))
  have htag : m.cache.prgGroup 0=some 0 := by
    rw [hm]
    decide +kernel
  have hselects : SelectsGroup nineBanks m 0 := by
    rw [hm]
    exact ⟨3,by decide,by decide⟩
  have hkept := (hkeeps none 0 0 (by decide) htag hselects).1
  have hloaded : (ensurePrg nineBanks m.banks none 16 m.cache).2.prgGroup 0=some 4 := by
    rw [hm]
    decide +kernel
  rw [hloaded] at hkept
  cases hkept

end Runs

end ChisLink.PocketnesResidency
