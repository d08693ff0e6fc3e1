import Mathlib.Data.Finset.Card
import ChisLink.GoombaCache

/-!
# The two windows of Goomba Color

A selection of two banks is followed by `update_cache`, which brings them into the cache
and enters their slots in the memory map. A bank that is missing needs a slot that may be
replaced: an empty one, or one whose page is not selected and whose age is not the
largest. The clock of the ages wraps around, so that a page can keep the largest age
until it is used again.
-/

namespace ChisLink.GoombaMapping

open SlotCache GoombaCache LabelledRuns

/-- The running emulator. -/
structure Machine where
  /-- The game, with the number of slots. -/
  game : Game
  /-- The cache. -/
  cache : Cache
  /-- The selected banks, `g_banks`. -/
  banks : Banks
  /-- `g_memmap_tbl`: the slot an entry points to, and what is subtracted from its
  address. -/
  memmap : ℕ → Option (ℕ×ℕ)

/-- The bank of a window. -/
def bank (banks : Banks) (window : ℕ) : ℕ :=
  if window=0 then banks.bank0 else banks.bank1

/-- The function `get_rom_map`. -/
def getRomMap (s : Cache) (banks : Banks) (memmap : ℕ → Option (ℕ×ℕ)) :
    ℕ → Option (ℕ×ℕ) := fun entry =>
  if entry<8 then
    (s.instantPages (bank banks (entry/4))).map fun slot => (slot,entry/4*pageBytes)
  else memmap entry

/-- The function `update_cache` with its call of `get_rom_map`, when all reads succeed. -/
def update (m : Machine) : Machine :=
  let cache := updateCache m.game m.banks (fun _ => none) m.cache
  { m with
    cache := cache
    memmap := getRomMap cache m.banks m.memmap }

/-- The function `init_cache`, when all reads succeed. It takes the contents of the first
slot as they are. -/
def initSlots (game : Game) (s : Cache) : Cache :=
  regenerateInstantPrg game
    ((List.range (initPages game)).foldl (initSlot game fun _ => none) (flushcache s))

/-- The game with another number of slots. -/
def resized (game : Game) (cachepages : ℕ) (hpos : 0<cachepages)
    (hle : cachepages≤ maxCacheSize) : Game :=
  { game with
    cachepages := cachepages
    cachepages_pos := hpos
    cachepages_le := hle }

/-- What happens to the windows. -/
inductive Action where
  /-- Two banks are selected, and `update_cache`. -/
  | select (banks : Banks)
  /-- `add_exram`, which leaves the cache fewer slots. -/
  | addExram (cachepages : ℕ)

/-- One step. Selected banks have an entry of `INSTANT_PAGES`. The cache is initialised
again only while the first window maps the first page. -/
def step (m : Machine) : Action → Option Machine
  | .select banks =>
    if banks.bank0< maxRomPages ∧ banks.bank1< maxRomPages then
      some (update {m with banks := banks})
    else none
  | .addExram cachepages =>
    if h : m.banks.bank0=0 ∧ 2≤ cachepages ∧ cachepages≤ m.game.cachepages then
      let game := resized m.game cachepages (by omega) (h.2.2.trans m.game.cachepages_le)
      some (update {m with game := game, cache := initSlots game m.cache})
    else none

section Properties

variable (game : Game) (banks : Banks) (s : Cache)

/-- `INSTANT_PAGES` gives the slots of the pages that have one. -/
def Agrees : Prop :=
  ∀ page slot,s.instantPages page=some slot ↔
    slot<game.cachepages ∧ s.prgcache slot=some page

/-- The cache is in order. -/
structure InOrder : Prop where
  /-- A slot holds the page that it is tagged with. -/
  coherent : Coherent game s
  /-- Entries and tags agree. -/
  agrees : Agrees game s

/-- The selected pages that no slot has. -/
def missing : Finset ℕ :=
  ({banks.bank0,banks.bank1} : Finset ℕ).filter fun page =>
    cacheSlotForPage game page s=none

/-- A slot that `getbank` may replace. -/
def Replaceable (slot : ℕ) : Prop :=
  s.prgcache slot=none ∨
    Eligible s.prgcache s.cacheAge (fun page => page=banks.bank0 || page=banks.bank1) slot

instance (slot : ℕ) : Decidable (Replaceable banks s slot) :=
  inferInstanceAs (Decidable (_∨_))

/-- Those slots. -/
def replaceable : Finset ℕ :=
  (Finset.range game.cachepages).filter fun slot => Replaceable banks s slot

/-- There are slots for the missing pages. -/
def Room : Prop := (missing game banks s).card≤(replaceable game banks s).card

end Properties

/-- Both windows map slots with the bytes of the selected banks, no page has two slots, and
entries and tags agree. -/
structure Settled (m : Machine) : Prop where
  /-- The entries of a window point to a slot that holds the bank. -/
  windows : ∀ window entry,window<2 → entry<4 → ∃ slot,slot< m.game.cachepages ∧
    m.memmap (window*4+entry)=some (slot,window*pageBytes) ∧
    ∀ i,i<pageBytes → m.cache.memory slot i=pageAt m.game (bank m.banks window) i
  /-- No page has two slots. -/
  distinct : Distinct m.cache.prgcache m.game.cachepages
  /-- Entries and tags agree. -/
  agrees : Agrees m.game m.cache

/-- A step leaves the windows settled. -/
def Settles (m : Machine) (action : Action) : Prop :=
  ∀ t,step m action=some t → Settled t

/-- There is room for the selected banks, and the first slot holds the first page when it
is tagged with it unread. -/
def Steady (m : Machine) : Action → Prop
  | .select banks => Room m.game banks m.cache
  | .addExram _ =>
    m.game.size≠0 → ∀ i,i<pageBytes → m.cache.memory 0 i=pageAt m.game 0 i

/-- A table that agrees with the tags has one entry for a page. -/
theorem Agrees.distinct {game : Game} {s : Cache} (h : Agrees game s) :
    Distinct s.prgcache game.cachepages := by
  intro slot other page hslot hother htag htag'
  have hentry := (h page slot).mpr ⟨hslot,htag⟩
  rw [(h page other).mpr ⟨hother,htag'⟩] at hentry
  exact (Option.some.inj hentry).symm

section Getbank

variable {game : Game} {banks : Banks} {s : Cache} {page : ℕ}

theorem mem_missing : page∈missing game banks s ↔
    (page=banks.bank0 ∨ page=banks.bank1) ∧ cacheSlotForPage game page s=none := by
  unfold missing
  rw [Finset.mem_filter,Finset.mem_insert,Finset.mem_singleton]

theorem mem_replaceable {slot : ℕ} : slot∈replaceable game banks s ↔
    slot<game.cachepages ∧ Replaceable banks s slot := by
  unfold replaceable
  rw [Finset.mem_filter,Finset.mem_range]

/-- A slot with a selected page is not replaced. -/
theorem not_replaceable_selected {slot : ℕ} (htag : s.prgcache slot=some page)
    (hselected : page=banks.bank0 ∨ page=banks.bank1) : ¬Replaceable banks s slot := by
  rintro (hempty | ⟨⟨other,hother,hactive⟩,-⟩)
  · rw [htag] at hempty
    cases hempty
  · rw [htag] at hother
    cases hother
    simp only [Bool.or_eq_false_iff,decide_eq_false_iff_not] at hactive
    rcases hselected with h | h
    · exact hactive.1 h
    · exact hactive.2 h

/-- The victim of `getbank` is a replaceable slot, if there is one. -/
theorem victim_lt_iff :
    victim game banks s<game.cachepages ↔ (replaceable game banks s).Nonempty := by
  unfold victim
  rw [choose_lt_iff game.cachepages_le]
  constructor
  · rintro ⟨slot,hslot,h⟩
    exact ⟨slot,mem_replaceable.mpr ⟨hslot,h⟩⟩
  · rintro ⟨slot,hslot⟩
    exact ⟨slot,mem_replaceable.mp hslot⟩

theorem victim_mem (h : victim game banks s<game.cachepages) :
    victim game banks s∈replaceable game banks s :=
  mem_replaceable.mpr ⟨h,choose_replaceable game.cachepages_le h⟩

/-- A page that is loaded into a slot. -/
def taken (game : Game) (page slot : ℕ) (s : Cache) : Cache where
  memory := Function.update s.memory slot (loaded game page none)
  prgcache := Function.update s.prgcache slot (some page)
  cacheAge := Function.update s.cacheAge slot (s.cacheClock+1)
  cacheClock := s.cacheClock+1
  instantPages := Function.update (unmap slot s).instantPages page (some slot)

/-- What `getbank` does: the page is used, or no slot may be replaced, or it is loaded into
one. -/
theorem getbank_cases {motive : Cache → Prop}
    (hhit : ∀ slot,cacheSlotForPage game page s=some slot → motive (touch slot s))
    (hfull : cacheSlotForPage game page s=none → replaceable game banks s=∅ → motive s)
    (hload : ∀ slot,cacheSlotForPage game page s=none → slot∈replaceable game banks s →
      motive (taken game page slot s)) :
    motive (getbank game banks none (page*16) s) := by
  have hpage : page*16/16=page := Nat.mul_div_cancel _ (by decide)
  unfold getbank
  dsimp only
  rw [hpage]
  cases hfind : cacheSlotForPage game page s with
  | some slot => exact hhit slot hfind
  | none =>
    dsimp only
    by_cases hlt : victim game banks s<game.cachepages
    · rw [if_neg (Nat.not_le.mpr hlt)]
      have hmem := @victim_mem game banks s hlt
      have hunmap : ∃ entries,unmap (victim game banks s) s={s with instantPages := entries} := by
        unfold unmap
        cases s.prgcache (victim game banks s) with
        | none => exact ⟨s.instantPages,rfl⟩
        | some old =>
          dsimp only
          split
          · exact ⟨_,rfl⟩
          · exact ⟨s.instantPages,rfl⟩
      have hresult := hload _ hfind hmem
      obtain ⟨entries,hentries⟩ := hunmap
      unfold taken at hresult
      rw [hentries] at hresult ⊢
      exact hresult
    · rw [if_pos (Nat.not_lt.mp hlt)]
      refine hfull hfind (Finset.not_nonempty_iff_eq_empty.mp fun hsome => hlt ?_)
      exact victim_lt_iff.mpr hsome

theorem Replaceable.of_same {t : Cache} {slot : ℕ} (h : Replaceable banks s slot)
    (htag : t.prgcache slot=s.prgcache slot) (hage : t.cacheAge slot=s.cacheAge slot) :
    Replaceable banks t slot := by
  unfold Replaceable Eligible at h ⊢
  rw [htag,hage]
  exact h

section Selected

variable (hselected : page=banks.bank0 ∨ page=banks.bank1)

include hselected

theorem replaceable_touch {slot : ℕ} (htag : s.prgcache slot=some page) :
    replaceable game banks (touch slot s)=replaceable game banks s := by
  ext other
  rw [mem_replaceable,mem_replaceable]
  by_cases heq : other=slot
  · have hbefore := not_replaceable_selected htag hselected
    have hafter : ¬Replaceable banks (touch slot s) slot :=
      not_replaceable_selected (s := touch slot s) htag hselected
    rw [heq]
    exact iff_of_false (fun h => hafter h.2) (fun h => hbefore h.2)
  · have hage : (touch slot s).cacheAge other=s.cacheAge other := Function.update_of_ne heq _ _
    constructor
    · rintro ⟨hlt,h⟩
      exact ⟨hlt,h.of_same rfl hage.symm⟩
    · rintro ⟨hlt,h⟩
      exact ⟨hlt,h.of_same rfl hage⟩

theorem missing_taken {slot : ℕ} (hslot : slot∈replaceable game banks s) :
    missing game banks (taken game page slot s)=(missing game banks s).erase page := by
  obtain ⟨hlt,hfree⟩ := mem_replaceable.mp hslot
  have hself : (taken game page slot s).prgcache slot=some page := Function.update_self _ _ _
  ext other
  rw [Finset.mem_erase,mem_missing,mem_missing]
  unfold cacheSlotForPage
  rw [find_eq_none_iff,find_eq_none_iff]
  constructor
  · rintro ⟨hother,hnone⟩
    refine ⟨?_,hother,fun x hx htag => ?_⟩
    · rintro rfl
      exact hnone slot hlt hself
    · by_cases heq : x=slot
      · rw [heq] at htag
        exact not_replaceable_selected htag hother hfree
      · refine hnone x hx ?_
        have hsame : (taken game page slot s).prgcache x=s.prgcache x :=
          Function.update_of_ne heq _ _
        rw [hsame]
        exact htag
  · rintro ⟨hne,hother,hnone⟩
    refine ⟨hother,fun x hx htag => ?_⟩
    by_cases heq : x=slot
    · rw [heq,hself] at htag
      cases htag
      exact hne rfl
    · have hsame : (taken game page slot s).prgcache x=s.prgcache x :=
        Function.update_of_ne heq _ _
      rw [hsame] at htag
      exact hnone x hx htag

theorem replaceable_taken {slot : ℕ} :
    replaceable game banks (taken game page slot s)=
      (replaceable game banks s).erase slot := by
  ext other
  rw [Finset.mem_erase,mem_replaceable,mem_replaceable]
  by_cases heq : other=slot
  · have hself : (taken game page slot s).prgcache slot=some page :=
      Function.update_self _ _ _
    rw [heq]
    refine iff_of_false (fun h => ?_) (fun h => h.1 rfl)
    exact not_replaceable_selected hself hselected h.2
  · have htag : (taken game page slot s).prgcache other=s.prgcache other :=
      Function.update_of_ne heq _ _
    have hage : (taken game page slot s).cacheAge other=s.cacheAge other :=
      Function.update_of_ne heq _ _
    constructor
    · rintro ⟨hlt,h⟩
      exact ⟨heq,hlt,h.of_same htag.symm hage.symm⟩
    · rintro ⟨-,hlt,h⟩
      exact ⟨hlt,h.of_same htag hage⟩

end Selected

/-- What a call for a selected page does to the pages that are missing and the slots that
may be replaced. -/
structure Progress (game : Game) (banks : Banks) (page : ℕ) (s t : Cache) : Prop where
  /-- No other page becomes missing. -/
  missing : missing game banks t⊆missing game banks s
  /-- No other slot may be replaced. -/
  replaceable : replaceable game banks t⊆replaceable game banks s
  /-- Both become fewer together. -/
  room : Room game banks t ↔ Room game banks s
  /-- The page stays missing only if no slot may be replaced. -/
  served : page∈GoombaMapping.missing game banks t →
    GoombaMapping.replaceable game banks t=∅

theorem progress_getbank (hselected : page=banks.bank0 ∨ page=banks.bank1) :
    Progress game banks page s (getbank game banks none (page*16) s) := by
  refine getbank_cases (motive := fun t => Progress game banks page s t) ?_ ?_ ?_
  · intro slot hfind
    have hmissing : missing game banks (touch slot s)=missing game banks s := rfl
    have hsame := @replaceable_touch game banks s page hselected slot (find_eq_some hfind).2
    refine ⟨hmissing.subset,hsame.subset,?_,fun hpage => ?_⟩
    · unfold Room
      rw [hmissing,hsame]
    · have hnone : cacheSlotForPage game page s=none := (mem_missing.mp hpage).2
      rw [hfind] at hnone
      cases hnone
  · intro _ hempty
    exact ⟨subset_rfl,subset_rfl,Iff.rfl,fun _ => hempty⟩
  · intro slot hfind hslot
    have hmissing := @missing_taken game banks s page hselected slot hslot
    have hreplaceable := @replaceable_taken game banks s page hselected slot
    have hpage : page∈missing game banks s := mem_missing.mpr ⟨hselected,hfind⟩
    refine ⟨?_,?_,?_,?_⟩
    · rw [hmissing]
      exact Finset.erase_subset _ _
    · rw [hreplaceable]
      exact Finset.erase_subset _ _
    · have hm := Finset.card_pos.mpr ⟨page,hpage⟩
      have hr := Finset.card_pos.mpr ⟨slot,hslot⟩
      unfold Room
      rw [hmissing,hreplaceable,Finset.card_erase_of_mem hpage,Finset.card_erase_of_mem hslot]
      omega
    · intro h
      rw [hmissing] at h
      exact absurd rfl (Finset.ne_of_mem_erase h)

/-- A selected page stays in its slot. -/
theorem getbank_stays {slot selected : ℕ} (htag : s.prgcache slot=some selected)
    (hselected : selected=banks.bank0 ∨ selected=banks.bank1) :
    (getbank game banks none (page*16) s).prgcache slot=some selected ∧
      (getbank game banks none (page*16) s).memory slot=s.memory slot := by
  refine getbank_cases
    (motive := fun t => t.prgcache slot=some selected ∧ t.memory slot=s.memory slot) ?_ ?_ ?_
  · intro _ _
    exact ⟨htag,rfl⟩
  · intro _ _
    exact ⟨htag,rfl⟩
  · intro other _ hother
    have hne : slot≠other := by
      rintro rfl
      exact not_replaceable_selected htag hselected (mem_replaceable.mp hother).2
    exact ⟨(Function.update_of_ne hne _ _).trans htag,Function.update_of_ne hne _ _⟩

/-- A page that is loaded takes the entry from the page that had the slot. -/
theorem agrees_taken {slot : ℕ} (h : Agrees game s)
    (hfind : cacheSlotForPage game page s=none) (hslot : slot<game.cachepages) :
    Agrees game (taken game page slot s) := by
  have hunmap : ∀ p x,(unmap slot s).instantPages p=some x ↔
      s.instantPages p=some x ∧ x≠slot := by
    intro p x
    unfold unmap
    cases htag : s.prgcache slot with
    | none =>
      refine ⟨fun hp => ⟨hp,?_⟩,And.left⟩
      rintro rfl
      rw [((h p x).mp hp).2] at htag
      cases htag
    | some old =>
      have hold : s.instantPages old=some slot := (h old slot).mpr ⟨hslot,htag⟩
      dsimp only
      rw [if_pos hold]
      dsimp only
      rw [Function.update_apply]
      by_cases heq : p=old
      · rw [if_pos heq,heq,hold]
        refine iff_of_false (by simp) fun hand => hand.2 ?_
        exact (Option.some.inj hand.1).symm
      · rw [if_neg heq]
        refine ⟨fun hp => ⟨hp,?_⟩,And.left⟩
        rintro rfl
        have hp' := ((h p x).mp hp).2
        rw [htag] at hp'
        exact heq (Option.some.inj hp').symm
  intro p x
  have hentries : (taken game page slot s).instantPages p=
      if p=page then some slot else (unmap slot s).instantPages p :=
    Function.update_apply _ _ _ _
  have htags : (taken game page slot s).prgcache x=
      if x=slot then some page else s.prgcache x := Function.update_apply _ _ _ _
  rw [hentries,htags]
  by_cases hp : p=page
  · rw [if_pos hp,hp]
    by_cases hx : x=slot
    · rw [if_pos hx,hx]
      exact iff_of_true rfl ⟨hslot,rfl⟩
    · rw [if_neg hx]
      refine iff_of_false (fun heq => hx (Option.some.inj heq).symm) fun hand => ?_
      exact find_eq_none hfind hand.1 hand.2
  · rw [if_neg hp,hunmap,h p x]
    by_cases hx : x=slot
    · rw [if_pos hx]
      refine iff_of_false (fun hand => hand.2 hx) fun hand => ?_
      exact hp (Option.some.inj hand.2).symm
    · rw [if_neg hx]
      exact ⟨And.left,fun hand => ⟨hand,hx⟩⟩

/-- Calls keep the cache in order. -/
theorem inOrder_getbank (h : InOrder game s) :
    InOrder game (getbank game banks none (page*16) s) := by
  refine ⟨(coherent_getbank_iff h.coherent).mpr ?_,?_⟩
  · intro _ _ i hi
    exact loaded_success game _ hi
  · refine getbank_cases (motive := fun t => Agrees game t) ?_ ?_ ?_
    · intro _ _
      exact h.agrees
    · intro _ _
      exact h.agrees
    · intro slot hfind hslot
      exact agrees_taken h.agrees hfind (mem_replaceable.mp hslot).1

end Getbank

section Regenerate

variable {game : Game} {s : Cache}

/-- A table that agrees with the tags is not changed. -/
theorem regenerateInstantPrg_agreeing (h : Agrees game s) : regenerateInstantPrg game s=s := by
  unfold regenerateInstantPrg
  refine foldl_range_invariant (P := fun _ t => t=s) rfl ?_
  rintro slot t hslot rfl
  cases htag : t.prgcache slot with
  | none => rfl
  | some page =>
    have hentry : t.instantPages page=some slot := (h page slot).mpr ⟨hslot,htag⟩
    dsimp only
    rw [← hentry,Function.update_eq_self]

/-- An empty table agrees with the tags afterwards. -/
theorem agrees_regenerateInstantPrg (hempty : s.instantPages=fun _ => none)
    (hdistinct : Distinct s.prgcache game.cachepages) :
    Agrees game (regenerateInstantPrg game s) := by
  have hloop : (regenerateInstantPrg game s).prgcache=s.prgcache ∧
      ∀ page slot,(regenerateInstantPrg game s).instantPages page=some slot ↔
        slot<game.cachepages ∧ s.prgcache slot=some page := by
    unfold regenerateInstantPrg
    refine foldl_range_invariant (P := fun n (t : Cache) => n≤game.cachepages → t.prgcache=s.prgcache ∧
      ∀ page slot,t.instantPages page=some slot ↔ slot<n ∧ s.prgcache slot=some page)
      ?_ ?_ (Nat.le_refl _)
    · refine fun _ => ⟨rfl,fun page slot => iff_of_false ?_ fun h => by omega⟩
      rw [hempty]
      simp
    · intro n t hn ih _
      obtain ⟨htags,hentries⟩ := ih (by omega)
      rw [htags]
      cases htag : s.prgcache n with
      | none =>
        refine ⟨htags,fun page slot => (hentries page slot).trans ⟨?_,?_⟩⟩
        · rintro ⟨hlt,h⟩
          exact ⟨by omega,h⟩
        · rintro ⟨hlt,h⟩
          refine ⟨?_,h⟩
          have hne : slot≠n := by
            rintro rfl
            rw [htag] at h
            cases h
          omega
      | some old =>
        refine ⟨rfl,fun page slot => ?_⟩
        dsimp only
        rw [Function.update_apply]
        by_cases heq : page=old
        · rw [if_pos heq,heq]
          constructor
          · intro h
            cases h
            exact ⟨by omega,htag⟩
          · rintro ⟨hlt,h⟩
            rw [hdistinct slot n old (by omega) (by omega) h htag]
        · rw [if_neg heq,hentries]
          constructor
          · rintro ⟨hlt,h⟩
            exact ⟨by omega,h⟩
          · rintro ⟨hlt,h⟩
            refine ⟨?_,h⟩
            have hne : slot≠n := by
              rintro rfl
              rw [htag] at h
              exact heq (Option.some.inj h).symm
            omega
  intro page slot
  rw [hloop.2,hloop.1]

end Regenerate

section Update

variable {m : Machine}

/-- On a cache in order the table need not be built again. -/
theorem updateCache_eq {game : Game} {s : Cache} (banks : Banks) (h : InOrder game s) :
    updateCache game banks (fun _ => none) s=
      getbank game banks none (banks.bank1*16) (getbank game banks none (banks.bank0*16) s) :=
  regenerateInstantPrg_agreeing (inOrder_getbank (inOrder_getbank h)).agrees

theorem inOrder_update (h : InOrder m.game m.cache) : InOrder m.game (update m).cache := by
  unfold update
  dsimp only
  rw [updateCache_eq m.banks h]
  exact inOrder_getbank (inOrder_getbank h)

/-- After `update_cache` no selected page is missing exactly if there was room. -/
theorem missing_update_iff (h : InOrder m.game m.cache) :
    missing m.game m.banks (update m).cache=∅ ↔ Room m.game m.banks m.cache := by
  have heq : (update m).cache=_ := updateCache_eq m.banks h
  have hfirst := @progress_getbank m.game m.banks m.cache m.banks.bank0 (.inl rfl)
  have hsecond := @progress_getbank m.game m.banks
    (getbank m.game m.banks none (m.banks.bank0*16) m.cache) m.banks.bank1 (.inr rfl)
  rw [heq,← hfirst.room,← hsecond.room]
  constructor
  · intro hempty
    unfold Room
    rw [hempty]
    exact Nat.zero_le _
  · intro hroom
    by_contra hsome
    obtain ⟨page,hpage⟩ := Finset.nonempty_iff_ne_empty.mpr hsome
    have hnone : replaceable m.game m.banks (getbank m.game m.banks none (m.banks.bank1*16)
        (getbank m.game m.banks none (m.banks.bank0*16) m.cache))=∅ := by
      rcases (mem_missing.mp hpage).1 with rfl | rfl
      · have hbefore := hfirst.served (hsecond.missing hpage)
        exact Finset.subset_empty.mp (hbefore▸hsecond.replaceable)
      · exact hsecond.served hpage
    unfold Room at hroom
    rw [hnone,Finset.card_empty] at hroom
    have hcard := Finset.card_pos.mpr ⟨page,hpage⟩
    omega

/-- The windows are settled after `update_cache` exactly if no selected page is missing. -/
theorem settled_update_iff (h : InOrder m.game m.cache) :
    Settled (update m) ↔ Room m.game m.banks m.cache := by
  have hafter := inOrder_update h
  have hentry : ∀ window entry,window<2 → entry<4 →
      (update m).memmap (window*4+entry)=((update m).cache.instantPages
        (bank m.banks window)).map fun slot => (slot,window*pageBytes) := by
    intro window entry hwindow hentry
    have hdiv : (window*4+entry)/4=window := by omega
    have hmap : (update m).memmap (window*4+entry)=_ := if_pos (by omega)
    rw [hmap,hdiv]
    rfl
  rw [← missing_update_iff h]
  constructor
  · intro hsettled
    refine Finset.eq_empty_of_forall_notMem fun page hpage => ?_
    obtain ⟨hselected,hnone⟩ := mem_missing.mp hpage
    have hwindow : ∃ window,window<2 ∧ bank m.banks window=page := by
      rcases hselected with rfl | rfl
      · exact ⟨0,by omega,rfl⟩
      · exact ⟨1,by omega,rfl⟩
    obtain ⟨window,hlt,rfl⟩ := hwindow
    obtain ⟨slot,hslot,hmap,-⟩ := hsettled.windows window 0 hlt (by omega)
    rw [hentry window 0 hlt (by omega)] at hmap
    obtain ⟨slot',hinstant,hpair⟩ := Option.map_eq_some_iff.mp hmap
    obtain ⟨hslot',htag⟩ := (hafter.agrees _ _).mp hinstant
    exact find_eq_none hnone hslot' htag
  · intro hempty
    refine ⟨fun window entry hwindow hlt => ?_,hafter.agrees.distinct,hafter.agrees⟩
    have hselected : bank m.banks window=m.banks.bank0 ∨ bank m.banks window=m.banks.bank1 := by
      unfold bank
      split
      · exact .inl rfl
      · exact .inr rfl
    cases hfind : cacheSlotForPage m.game (bank m.banks window) (update m).cache with
    | none =>
      have hpage : bank m.banks window∈missing m.game m.banks (update m).cache :=
        mem_missing.mpr ⟨hselected,hfind⟩
      rw [hempty] at hpage
      cases hpage
    | some slot =>
      obtain ⟨hslot,htag⟩ := find_eq_some hfind
      have hinstant := (hafter.agrees (bank m.banks window) slot).mpr ⟨hslot,htag⟩
      refine ⟨slot,hslot,?_,fun i hi => hafter.coherent slot _ hslot htag i hi⟩
      rw [hentry window entry hwindow hlt,hinstant]
      rfl

end Update

section Start

variable {game : Game} {banks : Banks} {s : Cache}

/-- The cache after the first turns of the loop in `init_cache`. -/
structure Started (game : Game) (s : Cache) (i : ℕ) (t : Cache) : Prop where
  /-- The slots are tagged in order. -/
  tags : ∀ slot,t.prgcache slot=if slot< i then some slot else none
  /-- All but the first one are read. -/
  contents : ∀ slot,slot< i → slot≠0 → ∀ k,k<pageBytes → t.memory slot k=pageAt game slot k
  /-- The first one has what it had. -/
  first : t.memory 0=s.memory 0
  /-- The clock counts the turns. -/
  clock : t.cacheClock.toNat=i
  /-- No slot is younger. -/
  ages : ∀ slot,(t.cacheAge slot).toNat≤ i
  /-- There are no entries yet. -/
  entries : t.instantPages=fun _ => none

/-- One turn. -/
theorem Started.initSlot {i : ℕ} {t : Cache} (h : Started game s i t) (hi : i< maxCacheSize) :
    Started game s (i+1) (initSlot game (fun _ => none) t i) := by
  have hbound : maxCacheSize=16 := rfl
  have hclock : (t.cacheClock+1).toNat=i+1 := by
    rw [UInt32.toNat_add,h.clock]
    exact Nat.mod_eq_of_lt (by
      have : (1 : UInt32).toNat=1 := rfl
      omega)
  have htags : ∀ slot,(GoombaCache.initSlot game (fun _ => none) t i).prgcache slot=
      if slot=i then some i else t.prgcache slot := by
    intro slot
    unfold GoombaCache.initSlot
    split <;> exact Function.update_apply _ _ _ _
  have hages : ∀ slot,(GoombaCache.initSlot game (fun _ => none) t i).cacheAge slot=
      if slot=i then t.cacheClock+1 else t.cacheAge slot := by
    intro slot
    unfold GoombaCache.initSlot
    split <;> exact Function.update_apply _ _ _ _
  have hmemory : ∀ slot,slot=0 ∨ slot≠i →
      (GoombaCache.initSlot game (fun _ => none) t i).memory slot=t.memory slot := by
    intro slot hslot
    unfold GoombaCache.initSlot
    split
    · rfl
    next hne =>
      exact Function.update_of_ne (by omega) _ _
  refine ⟨fun slot => ?_,fun slot hslot hne k hk => ?_,?_,?_,fun slot => ?_,?_⟩
  · rw [htags,h.tags]
    by_cases heq : slot=i
    · rw [if_pos heq,if_pos (by omega),heq]
    · rw [if_neg heq]
      exact if_congr (by omega) rfl rfl
  · by_cases heq : slot=i
    · have hread : (GoombaCache.initSlot game (fun _ => none) t i).memory i=
          loaded game i none := by
        unfold GoombaCache.initSlot
        rw [if_neg (heq▸hne)]
        exact Function.update_self _ _ _
      rw [heq,hread]
      exact loaded_success game i hk
    · rw [hmemory slot (.inr heq)]
      exact h.contents slot (by omega) hne k hk
  · rw [hmemory 0 (.inl rfl)]
    exact h.first
  · unfold GoombaCache.initSlot
    split <;> exact hclock
  · rw [hages]
    split
    · exact Nat.le_of_eq hclock
    · exact (h.ages slot).trans (Nat.le_succ i)
  · unfold GoombaCache.initSlot
    split <;> exact h.entries

/-- All turns. -/
theorem started_fill (game : Game) (s : Cache) :
    Started game s (initPages game) ((List.range (initPages game)).foldl
      (initSlot game fun _ => none) (flushcache s)) := by
  have hpages : initPages game≤ maxCacheSize :=
    (Nat.min_le_left _ _).trans game.cachepages_le
  refine foldl_range_invariant ⟨fun slot => ?_,fun slot hslot => by omega,rfl,rfl,fun slot => ?_,
    rfl⟩ fun i t hi h => h.initSlot (by omega)
  · rw [if_neg (Nat.not_lt_zero slot)]
    rfl
  · exact Nat.le_refl _

/-- The table is built without a change of the ages. -/
theorem regenerateInstantPrg_ages (game : Game) (s : Cache) :
    (regenerateInstantPrg game s).cacheAge=s.cacheAge := by
  unfold regenerateInstantPrg
  refine foldl_range_invariant (P := fun _ (t : Cache) => t.cacheAge=s.cacheAge) rfl ?_
  intro slot t _ hsame
  split <;> exact hsame

theorem initSlots_tags (game : Game) (s : Cache) (slot : ℕ) :
    (initSlots game s).prgcache slot=if slot< initPages game then some slot else none := by
  unfold initSlots
  rw [(regenerateInstantPrg_same game _).2]
  exact (started_fill game s).tags slot

theorem initSlots_first (game : Game) (s : Cache) :
    (initSlots game s).memory 0=s.memory 0 := by
  unfold initSlots
  rw [(regenerateInstantPrg_same game _).1]
  exact (started_fill game s).first

theorem agrees_initSlots (game : Game) (s : Cache) : Agrees game (initSlots game s) := by
  have hfill := started_fill game s
  refine agrees_regenerateInstantPrg hfill.entries ?_
  intro slot other page _ _ htag htag'
  rw [hfill.tags] at htag htag'
  split at htag
  · split at htag'
    · cases htag
      cases htag'
      rfl
    · cases htag'
  · cases htag

/-- The image is not empty exactly if the first slot is tagged. -/
theorem initPages_pos_iff (game : Game) : 0< initPages game ↔ game.size≠0 := by
  have hpos := game.cachepages_pos
  unfold initPages pageBytes
  rw [Nat.lt_min]
  omega

/-- After `init_cache` the cache is coherent exactly if the first slot had the first page. -/
theorem coherent_initSlots_iff (game : Game) (s : Cache) : Coherent game (initSlots game s) ↔
    (game.size≠0 → ∀ i,i<pageBytes → s.memory 0 i=pageAt game 0 i) := by
  constructor
  · intro hcoherent hsize i hi
    rw [← initSlots_first game s]
    refine hcoherent 0 0 game.cachepages_pos ?_ i hi
    rw [initSlots_tags,if_pos ((initPages_pos_iff game).mpr hsize)]
  · intro hfirst slot page _ htag i hi
    rw [initSlots_tags] at htag
    split at htag
    next hlt =>
      cases htag
      by_cases hzero : slot=0
      · have hsize : game.size≠0 := (initPages_pos_iff game).mp (by omega)
        rw [hzero,initSlots_first]
        exact hfirst hsize i hi
      · unfold initSlots
        rw [(regenerateInstantPrg_same game _).1]
        exact (started_fill game s).contents slot hlt hzero i hi
    next => cases htag

/-- There is room as long as no age is the largest. -/
theorem room_of_young (hcount : 2≤game.cachepages)
    (hdistinct : Distinct s.prgcache game.cachepages)
    (hages : ∀ slot,slot<game.cachepages → s.cacheAge slot<0xffffffff) :
    Room game banks s := by
  obtain ⟨selected,hselected⟩ : ∃ selected : Finset ℕ,
    selected={banks.bank0,banks.bank1} := ⟨_,rfl⟩
  obtain ⟨taken,htaken⟩ : ∃ taken : Finset ℕ,taken=(Finset.range game.cachepages).filter
    fun slot => ¬Replaceable banks s slot := ⟨_,rfl⟩
  have hpage : ∀ slot∈taken,∃ page∈selected,s.prgcache slot=some page := by
    intro slot hslot
    rw [htaken,Finset.mem_filter,Finset.mem_range] at hslot
    obtain ⟨hlt,hkept⟩ := hslot
    cases htag : s.prgcache slot with
    | none => exact absurd (.inl htag) hkept
    | some page =>
      refine ⟨page,?_,rfl⟩
      rw [hselected,Finset.mem_insert,Finset.mem_singleton]
      by_contra hother
      refine hkept (.inr ((eligible_iff htag).mpr ⟨?_,hages slot hlt⟩))
      simpa using hother
  have hcard : taken.card≤(selected.filter fun page =>
      ¬cacheSlotForPage game page s=none).card := by
    refine Finset.card_le_card_of_injOn (fun slot => (s.prgcache slot).getD 0) ?_ ?_
    · intro slot hslot
      obtain ⟨page,hin,htag⟩ := hpage slot hslot
      have hlt := Finset.mem_range.mp (Finset.mem_filter.mp (htaken▸hslot)).1
      simp only [htag,Option.getD_some]
      exact Finset.mem_filter.mpr ⟨hin,fun hnone => find_eq_none hnone hlt htag⟩
    · intro slot hslot other hother heq
      obtain ⟨page,-,htag⟩ := hpage slot hslot
      obtain ⟨page',-,htag'⟩ := hpage other hother
      simp only [htag,htag',Option.getD_some] at heq
      rw [← heq] at htag'
      have hlt := Finset.mem_range.mp (Finset.mem_filter.mp (htaken▸hslot)).1
      have hlt' := Finset.mem_range.mp (Finset.mem_filter.mp (htaken▸hother)).1
      exact hdistinct slot other page hlt hlt' htag htag'
  have hslots := Finset.card_filter_add_card_filter_not
    (s := Finset.range game.cachepages) (fun slot => Replaceable banks s slot)
  have hpages := Finset.card_filter_add_card_filter_not
    (s := selected) (fun page => cacheSlotForPage game page s=none)
  have htwo : selected.card≤2 := hselected▸Finset.card_le_two
  rw [Finset.card_range,← htaken] at hslots
  unfold Room missing replaceable
  rw [← hselected]
  omega

theorem room_initSlots (hcount : 2≤game.cachepages) (banks : Banks) (s : Cache) :
    Room game banks (initSlots game s) := by
  refine room_of_young hcount (agrees_initSlots game s).distinct fun slot _ => ?_
  have hage := (started_fill game s).ages slot
  have hpages : initPages game≤ maxCacheSize :=
    (Nat.min_le_left _ _).trans game.cachepages_le
  have hbound : maxCacheSize=16 := rfl
  have hmax : (0xffffffff : UInt32).toNat=2^32-1 := by decide
  unfold initSlots
  rw [regenerateInstantPrg_ages,UInt32.lt_iff_toNat_lt]
  omega

end Start

section Runs

variable {m t : Machine} {action : Action}

/-- A page stays in its slot while it is selected. -/
theorem update_stays {slot selected : ℕ} (htag : m.cache.prgcache slot=some selected)
    (hselected : selected=m.banks.bank0 ∨ selected=m.banks.bank1) :
    (update m).cache.prgcache slot=some selected ∧
      (update m).cache.memory slot=m.cache.memory slot := by
  obtain ⟨htag₁,hmemory₁⟩ :=
    @getbank_stays m.game m.banks m.cache m.banks.bank0 slot selected htag hselected
  obtain ⟨htag₂,hmemory₂⟩ := @getbank_stays m.game m.banks _ m.banks.bank1 slot selected
    htag₁ hselected
  unfold update updateCache
  dsimp only
  obtain ⟨hmemory,htags⟩ := regenerateInstantPrg_same m.game
    (getbank m.game m.banks none (m.banks.bank1*16)
      (getbank m.game m.banks none (m.banks.bank0*16) m.cache))
  rw [htags,hmemory]
  exact ⟨htag₂,hmemory₂.trans hmemory₁⟩

/-- The windows are settled after an initialisation exactly if the first slot had the first
page. -/
theorem settled_initSlots_iff {s : Cache} (hcount : 2≤ m.game.cachepages) (hbank : m.banks.bank0=0)
    (hcache : m.cache=initSlots m.game s) :
    Settled (update m) ↔
      (m.game.size≠0 → ∀ i,i<pageBytes → s.memory 0 i=pageAt m.game 0 i) := by
  have hroom : Room m.game m.banks m.cache := hcache▸room_initSlots hcount m.banks s
  constructor
  · intro hsettled hsize i hi
    have htag : m.cache.prgcache 0=some 0 := by
      rw [hcache,initSlots_tags,if_pos ((initPages_pos_iff _).mpr hsize)]
    obtain ⟨hstays,hmemory⟩ := update_stays htag (.inl hbank.symm)
    obtain ⟨slot,-,hmap,hbytes⟩ := hsettled.windows 0 0 (by omega) (by omega)
    have hentry : (update m).memmap 0=((update m).cache.instantPages m.banks.bank0).map
        fun slot => (slot,0*pageBytes) := rfl
    have hfirst : (update m).cache.instantPages m.banks.bank0=some 0 := by
      rw [hbank]
      exact (hsettled.agrees 0 0).mpr ⟨m.game.cachepages_pos,hstays⟩
    rw [Nat.zero_mul,Nat.zero_add,hentry,hfirst] at hmap
    cases hmap
    have hread := hbytes i hi
    rw [hmemory,hcache,initSlots_first] at hread
    have hzero : bank m.banks 0=0 := hbank
    have hsame : bank (update m).banks 0=bank m.banks 0 := rfl
    rw [hsame,hzero] at hread
    exact hread
  · intro hfirst
    have horder : InOrder m.game m.cache := by
      rw [hcache]
      exact ⟨(coherent_initSlots_iff _ _).mpr hfirst,agrees_initSlots _ _⟩
    exact (settled_update_iff horder).mpr hroom

/-- What a selection does. -/
theorem step_select {banks : Banks} (h : step m (.select banks)=some t) :
    t=update {m with banks := banks} := by
  simp only [step] at h
  split at h
  · exact (Option.some.inj h).symm
  · cases h

theorem selected_step {banks : Banks} (h₀ : banks.bank0< maxRomPages)
    (h₁ : banks.bank1< maxRomPages) :
    step m (.select banks)=some (update {m with banks := banks}) := by
  simp only [step]
  rw [if_pos ⟨h₀,h₁⟩]

/-- What an initialisation does. -/
theorem step_addExram {cachepages : ℕ} (h : step m (.addExram cachepages)=some t) :
    ∃ hpos hle,m.banks.bank0=0 ∧ 2≤ cachepages ∧
      t=update ⟨resized m.game cachepages hpos hle,
        initSlots (resized m.game cachepages hpos hle) m.cache,m.banks,m.memmap⟩ := by
  simp only [step] at h
  split at h
  next hguard =>
    exact ⟨by omega,hguard.2.2.trans m.game.cachepages_le,hguard.1,hguard.2.1,
      (Option.some.inj h).symm⟩
  · cases h

/-- One step leaves the windows settled exactly if it is steady. -/
theorem settles_iff (h : InOrder m.game m.cache) (henabled : step m action=some t) :
    Settles m action ↔ Steady m action := by
  have hthe : Settles m action ↔ Settled t := by
    unfold Settles
    rw [henabled]
    exact ⟨fun hall => hall t rfl,fun hsettled t' heq => Option.some.inj heq▸hsettled⟩
  rw [hthe]
  cases action with
  | select banks =>
    rw [step_select henabled]
    exact settled_update_iff (m := {m with banks := banks}) h
  | addExram cachepages =>
    obtain ⟨hpos,hle,hbank,hcount,rfl⟩ := step_addExram henabled
    exact settled_initSlots_iff (m := Machine.mk (resized m.game cachepages hpos hle)
      (initSlots (resized m.game cachepages hpos hle) m.cache) m.banks m.memmap) hcount hbank rfl

/-- A step that leaves the windows settled leaves the cache in order. -/
theorem inOrder_step (h : InOrder m.game m.cache) (hsettles : Settles m action)
    (henabled : step m action=some t) : InOrder t.game t.cache := by
  have hsteady := (settles_iff h henabled).mp hsettles
  cases action with
  | select banks =>
    rw [step_select henabled]
    exact inOrder_update (m := {m with banks := banks}) h
  | addExram cachepages =>
    obtain ⟨hpos,hle,-,-,rfl⟩ := step_addExram henabled
    refine inOrder_update (m := Machine.mk (resized m.game cachepages hpos hle)
      (initSlots (resized m.game cachepages hpos hle) m.cache) m.banks m.memmap)
      ⟨?_,agrees_initSlots _ _⟩
    exact (coherent_initSlots_iff _ _).mpr hsteady

theorem inOrder_initCache (game : Game) (s : Cache) :
    InOrder game (initCache game none (fun _ => none) s) := by
  have hinit : initCache game none (fun _ => none) s=
      initSlots game (loadcachepage game none 0 0 s) := rfl
  rw [hinit]
  refine ⟨(coherent_initSlots_iff _ _).mpr fun _ i hi => ?_,agrees_initSlots _ _⟩
  have hfirst : (loadcachepage game none 0 0 s).memory 0=loaded game 0 none := by
    simp [loadcachepage]
  rw [hfirst]
  exact loaded_success game 0 hi

/-- Over every run from the start of a game, the windows are settled after each step exactly
if there is room at each selection and the first slot holds the first page whenever it is
tagged with it unread. -/
theorem windows_settle_iff {start : Machine} {s : Cache}
    (hstart : start.cache=initCache start.game none (fun _ => none) s)
    {trace : List (Machine×Action)} {last : Machine} (run : Run step start trace last) :
    EveryStep Settles trace ↔ EveryStep Steady trace := by
  refine run.everyStep_iff (I := fun m => InOrder m.game m.cache) ?_ ?_ ?_
  · rw [hstart]
    exact inOrder_initCache start.game s
  · intro m action t hm hsettles henabled
    exact inOrder_step hm hsettles henabled
  · intro m action t hm henabled
    exact settles_iff hm henabled

/-- A game with three pages and two slots. -/
def threePages : Game where
  rom := fun _ => 0
  size := 3*pageBytes
  cachepages := 2
  cachepages_pos := by decide
  cachepages_le := by decide

/-- Its start. -/
def threePagesStart : Machine where
  game := threePages
  cache := initCache threePages none (fun _ => none)
    ⟨fun _ _ => 0,fun _ => none,fun _ => 0,0,fun _ => none⟩
  banks := ⟨0,1⟩
  memmap := fun _ => none

theorem windows_settle_selection :
    EveryStep Settles [(threePagesStart,Action.select ⟨0,2⟩)] := by
  have run : Run step threePagesStart ([]++[(threePagesStart,Action.select ⟨0,2⟩)])
      (update {threePagesStart with banks := ⟨0,2⟩}) := .snoc .nil rfl
  refine (windows_settle_iff rfl run).mpr ?_
  intro entry hentry
  rw [List.nil_append,List.mem_singleton] at hentry
  subst hentry
  have hroom : Room threePages ⟨0,2⟩ threePagesStart.cache := by
    unfold Room
    decide +kernel
  exact hroom

/-- The same two pages, selected again and again: the ages go on and nothing else
changes. -/
structure Idle (k : ℕ) (m : Machine) : Prop where
  /-- The game stays. -/
  game : m.game=threePages
  /-- The cache is in order. -/
  order : InOrder m.game m.cache
  /-- The first page. -/
  first : m.cache.prgcache 0=some 0
  /-- The second page. -/
  second : m.cache.prgcache 1=some 1
  /-- The first page was used before the last use. -/
  age : m.cache.cacheAge 0=UInt32.ofNat (2*k+1)
  /-- Two uses for each selection. -/
  clock : m.cache.cacheClock=UInt32.ofNat (2*k+2)

/-- One more selection. -/
theorem Idle.select {k : ℕ} {m : Machine} (h : Idle k m) :
    Idle (k+1) (update {m with banks := ⟨0,1⟩}) := by
  have hfind : cacheSlotForPage m.game 0 m.cache=some 0 := by
    unfold cacheSlotForPage find
    rw [h.game]
    have hrange : List.range threePages.cachepages=[0,1] := rfl
    rw [hrange,List.find?_cons_of_pos]
    rw [h.first]
    rfl
  have hfind' : cacheSlotForPage m.game 1 (touch 0 m.cache)=some 1 := by
    unfold cacheSlotForPage find
    rw [h.game]
    have hrange : List.range threePages.cachepages=[0,1] := rfl
    have htags : (touch 0 m.cache).prgcache=m.cache.prgcache := rfl
    rw [hrange,htags,List.find?_cons_of_neg,List.find?_cons_of_pos]
    · rw [h.second]
      rfl
    · rw [h.first]
      decide
  have hcache : (update {m with banks := ⟨0,1⟩}).cache=touch 1 (touch 0 m.cache) := by
    refine (updateCache_eq ⟨0,1⟩ h.order).trans ?_
    have hfirst : getbank m.game ⟨0,1⟩ none (0*16) m.cache=touch 0 m.cache := by
      unfold getbank
      dsimp only
      rw [hfind]
    dsimp only
    rw [hfirst]
    unfold getbank
    dsimp only
    rw [hfind']
  have horder := inOrder_update (m := {m with banks := ⟨0,1⟩}) h.order
  refine ⟨h.game,horder,?_,?_,?_,?_⟩
  · rw [hcache]
    exact h.first
  · rw [hcache]
    exact h.second
  · have hage : (touch 1 (touch 0 m.cache)).cacheAge 0=m.cache.cacheClock+1 := by
      simp [touch]
    rw [hcache,hage,h.clock,← UInt32.ofNat_one,← UInt32.ofNat_add]
    rfl
  · have hclock : (touch 1 (touch 0 m.cache)).cacheClock=m.cache.cacheClock+1+1 := rfl
    rw [hcache,hclock,h.clock,← UInt32.ofNat_one,← UInt32.ofNat_add,← UInt32.ofNat_add]
    rfl

theorem exists_idle (k : ℕ) :
    ∃ trace m,Run step threePagesStart trace m ∧ Idle k m := by
  induction k with
  | zero =>
    refine ⟨[],threePagesStart,.nil,rfl,inOrder_initCache threePages _,?_,?_,?_,?_⟩
    all_goals decide +kernel
  | succ k ih =>
    obtain ⟨trace,m,run,h⟩ := ih
    have henabled : step m (.select ⟨0,1⟩)=some (update {m with banks := ⟨0,1⟩}) := by
      exact selected_step (by decide) (by decide)
    exact ⟨_,_,run.snoc henabled,h.select⟩

/-- A page with the largest age is never replaced. With two slots the other one is needed
for the selected page that is there, and the new one is not loaded. -/
theorem largest_age_leaves_window :
    ¬∀ (start : Machine) (s : Cache),2≤ start.game.cachepages →
      start.cache=initCache start.game none (fun _ => none) s →
        ∀ trace last,Run step start trace last → EveryStep Settles trace := by
  intro h
  obtain ⟨trace,m,run,hidle⟩ := exists_idle (2^31-1)
  have henabled : step m (.select ⟨1,2⟩)=some (update {m with banks := ⟨1,2⟩}) := by
    exact selected_step (by decide) (by decide)
  have hall := h threePagesStart _ (by decide) rfl _ _ (run.snoc henabled)
  have hsettles : Settles m (.select ⟨1,2⟩) := (everyStep_snoc.mp hall).2
  have hroom : Room m.game ⟨1,2⟩ m.cache := (settles_iff hidle.order henabled).mp hsettles
  have hcount : m.game.cachepages=2 := by
    rw [hidle.game]
    rfl
  have hmissing : 2∈missing m.game ⟨1,2⟩ m.cache := by
    refine mem_missing.mpr ⟨.inr rfl,find_eq_none_iff.mpr fun slot hslot htag => ?_⟩
    rcases (by omega : slot=0 ∨ slot=1) with rfl | rfl
    · rw [hidle.first] at htag
      cases htag
    · rw [hidle.second] at htag
      cases htag
  have hnone : replaceable m.game ⟨1,2⟩ m.cache=∅ := by
    refine Finset.eq_empty_of_forall_notMem fun slot hslot => ?_
    obtain ⟨hlt,hfree⟩ := mem_replaceable.mp hslot
    rcases (by omega : slot=0 ∨ slot=1) with rfl | rfl
    · rcases hfree with hempty | heligible
      · rw [hidle.first] at hempty
        cases hempty
      · have hage := heligible.2
        rw [hidle.age] at hage
        revert hage
        decide
    · exact not_replaceable_selected hidle.second (.inl rfl) hfree
  have hcard := Finset.card_pos.mpr ⟨2,hmissing⟩
  unfold Room at hroom
  rw [hnone,Finset.card_empty] at hroom
  omega

end Runs

end ChisLink.GoombaMapping
