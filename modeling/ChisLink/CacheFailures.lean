import ChisLink.GoombaMapping
import ChisLink.PocketnesMapping

/-!
# Failed reads in the emulator caches

When a read fails, a slot has lost its old contents and did not get the new ones.
PocketNES leaves the tag of the old contents on it, Goomba Color sets the tag of the
new ones. In both caches the tags stay right exactly as long as what the failed reads
leave behind happens to be what the tags say.
-/

namespace ChisLink.CacheFailures

open SlotCache LabelledRuns
open PocketnesCache (Cart Read readBytes cacheInit)
open GoombaCache (Game initCache initSlot initPages pageBytes StartKept)

section Goomba

open GoombaCache

variable {game : Game} {s : GoombaCache.Cache} {banks : GoombaCache.Banks}

/-- A page that `getbank` was asked for is not replaced while it is mapped. -/
theorem victim_ne {slot bank : ℕ} (htag : s.prgcache slot=some bank)
    (hmapped : bank=banks.bank0 ∨ bank=banks.bank1)
    (hvictim : victim game banks s<game.cachepages) : slot≠victim game banks s := by
  intro heq
  rw [heq] at htag
  have hdefault : victim game banks s≠maxCacheSize := by
    have hle := game.cachepages_le
    omega
  have hactive := choose_inactive hdefault htag
  rcases hmapped with hbank | hbank
  · simp [hbank] at hactive
  · simp [hbank] at hactive

/-- A mapped page with other bytes stays in its slot. -/
theorem not_coherent_getbank {read : Read} {kilobyte slot bank i : ℕ}
    (hslot : slot<game.cachepages) (htag : s.prgcache slot=some bank)
    (hmapped : bank=banks.bank0 ∨ bank=banks.bank1) (hi : i<pageBytes)
    (hbad : s.memory slot i≠pageAt game bank i) :
    ¬Coherent game (getbank game banks read kilobyte s) := by
  intro hcoherent
  by_cases hloads : cacheSlotForPage game (kilobyte/16) s=none ∧
      victim game banks s<game.cachepages
  · obtain ⟨hfind,hvictim⟩ := hloads
    obtain ⟨hmemory,htags⟩ := @getbank_loaded game s banks read kilobyte hfind hvictim
    have hne := victim_ne htag hmapped hvictim
    have htag' : (getbank game banks read kilobyte s).prgcache slot=some bank := by
      rw [htags,Function.update_of_ne hne]
      exact htag
    have hheld := hcoherent slot bank hslot htag' i hi
    rw [hmemory,Function.update_of_ne hne] at hheld
    exact hbad hheld
  · obtain ⟨hmemory,htags⟩ := @getbank_same game s banks read kilobyte hloads
    have hheld := hcoherent slot bank hslot (by rw [htags]; exact htag) i hi
    rw [hmemory] at hheld
    exact hbad hheld

/-- `update_cache` keeps coherence exactly if both of its pages are left with their bytes. -/
theorem coherent_updateCache_iff {reads : ℕ → Read} (h : Coherent game s) :
    Coherent game (updateCache game banks reads s) ↔ Kept game s (.updateCache banks reads) := by
  obtain ⟨hmemory,htags⟩ := regenerateInstantPrg_same game
    (getbank game banks (reads 1) (banks.bank1*16)
      (getbank game banks (reads 0) (banks.bank0*16) s))
  have hafter : Coherent game (updateCache game banks reads s) ↔
      Coherent game (getbank game banks (reads 1) (banks.bank1*16)
        (getbank game banks (reads 0) (banks.bank0*16) s)) := by
    unfold Coherent updateCache
    dsimp only
    rw [hmemory,htags]
  rw [hafter]
  unfold Kept
  dsimp only
  by_cases hfirst : BankKept game banks (reads 0) (banks.bank0*16) s
  · rw [coherent_getbank_iff ((coherent_getbank_iff h).mpr hfirst)]
    exact ⟨fun hsecond => ⟨hfirst,hsecond⟩,And.right⟩
  · refine iff_of_false ?_ (fun hand => hfirst hand.1)
    unfold BankKept at hfirst
    push Not at hfirst
    obtain ⟨hfind,hvictim,i,hi,hbad⟩ := hfirst
    obtain ⟨hloaded,htagged⟩ := @getbank_loaded game s banks (reads 0) _ hfind hvictim
    have hbank : banks.bank0*16/16=banks.bank0 := Nat.mul_div_left _ (by decide)
    rw [hbank] at hloaded htagged hbad
    refine not_coherent_getbank hvictim ?_ (Or.inl rfl) hi ?_
    · rw [htagged]
      exact Function.update_self _ _ _
    · rw [hloaded,Function.update_self]
      exact hbad

/-- One operation keeps coherence exactly if its reads do not separate a slot from its tag. -/
theorem coherent_goombaStep_iff {t : GoombaCache.Cache} {a : GoombaCache.Action}
    (h : Coherent game s) (hstep : GoombaCache.step game s a=some t) :
    Coherent game t ↔ Kept game s a := by
  cases a with
  | loadcachepage read slot bank =>
    unfold GoombaCache.step at hstep
    dsimp only at hstep
    split at hstep
    next hslot =>
      cases hstep
      exact coherent_loadcachepage_iff h hslot.1
    next => cases hstep
  | getbank banks read kilobyte =>
    unfold GoombaCache.step at hstep
    dsimp only at hstep
    split at hstep
    next =>
      cases hstep
      exact coherent_getbank_iff h
    next => cases hstep
  | updateCache banks reads =>
    unfold GoombaCache.step at hstep
    dsimp only at hstep
    split at hstep
    next =>
      cases hstep
      exact coherent_updateCache_iff h
    next => cases hstep

/-- The slots after the first turns of the loop in `init_cache`. -/
structure Filling (game : Game) (firstRead : Read) (reads : ℕ → Read) (i : ℕ)
    (s : GoombaCache.Cache) : Prop where
  /-- The slots are tagged in order. -/
  tags : ∀ slot,s.prgcache slot=if slot< i then some slot else none
  /-- They have what their reads leave. -/
  contents : ∀ slot,slot< i → s.memory slot=
    loaded game slot (if slot=0 then firstRead else reads slot)
  /-- The first page was read before. -/
  first : s.memory 0=loaded game 0 firstRead

/-- The start of the game fills the slots. -/
theorem filling_initCache (game : Game) (firstRead : Read) (reads : ℕ → Read)
    (s : GoombaCache.Cache) :
    Filling game firstRead reads (initPages game) (initCache game firstRead reads s) := by
  have hfilled : Filling game firstRead reads (initPages game)
      ((List.range (initPages game)).foldl (initSlot game reads)
        (flushcache (loadcachepage game firstRead 0 0 s))) := by
    refine foldl_range_invariant ⟨?_,?_,?_⟩ ?_
    · intro slot
      rw [if_neg (Nat.not_lt_zero slot)]
      rfl
    · intro slot hslot
      exact absurd hslot (Nat.not_lt_zero slot)
    · have hself : Function.update s.memory 0 (loaded game 0 firstRead) 0=
          loaded game 0 firstRead := Function.update_self _ _ _
      exact hself
    · intro i t _ hfilling
      have htags : ∀ slot,(initSlot game reads t i).prgcache slot=
          if slot=i then some i else t.prgcache slot := by
        intro slot
        unfold initSlot
        by_cases hzero : i=0
        · rw [if_pos hzero]
          exact Function.update_apply _ _ _ _
        · rw [if_neg hzero]
          exact Function.update_apply _ _ _ _
      have hmemory : ∀ slot,(initSlot game reads t i).memory slot=
          if slot=i ∧ i≠0 then loaded game i (reads i) else t.memory slot := by
        intro slot
        unfold initSlot
        by_cases hzero : i=0
        · rw [if_pos hzero,if_neg (by tauto)]
          rfl
        · rw [if_neg hzero]
          refine (Function.update_apply _ _ _ _).trans ?_
          exact if_congr ⟨fun heq => ⟨heq,hzero⟩,And.left⟩ rfl rfl
      refine ⟨?_,?_,?_⟩
      · intro slot
        rw [htags,hfilling.tags slot]
        by_cases heq : slot=i
        · rw [if_pos heq,if_pos (by omega),heq]
        · rw [if_neg heq]
          exact if_congr (by omega) rfl rfl
      · intro slot hslot
        rw [hmemory]
        by_cases heq : slot=i
        · by_cases hzero : i=0
          · rw [if_neg (by tauto),heq,hzero,if_pos rfl]
            exact hfilling.first
          · rw [if_pos ⟨heq,hzero⟩,heq,if_neg hzero]
        · rw [if_neg (by tauto)]
          exact hfilling.contents slot (by omega)
      · rw [hmemory,if_neg (by omega)]
        exact hfilling.first
  obtain ⟨hmemory,htags⟩ := regenerateInstantPrg_same game
    ((List.range (initPages game)).foldl (initSlot game reads)
      (flushcache (loadcachepage game firstRead 0 0 s)))
  unfold initCache
  dsimp only
  exact ⟨fun slot => by rw [htags]; exact hfilled.tags slot,
    fun slot hslot => by rw [hmemory]; exact hfilled.contents slot hslot,
    by rw [hmemory]; exact hfilled.first⟩

/-- The cache is coherent at the start exactly if the first reads leave the bytes of the
pages. -/
theorem coherent_initCache_iff (game : Game) (firstRead : Read) (reads : ℕ → Read)
    (s : GoombaCache.Cache) : Coherent game (initCache game firstRead reads s) ↔
      StartKept game firstRead reads := by
  have hfilling := filling_initCache game firstRead reads s
  have hpages : initPages game≤game.cachepages := Nat.min_le_left _ _
  constructor
  · intro hcoherent page hpage i hi
    have htag : (initCache game firstRead reads s).prgcache page=some page := by
      rw [hfilling.tags page,if_pos hpage]
    rw [← hfilling.contents page hpage]
    exact hcoherent page page (by omega) htag i hi
  · intro hstart slot page _ htag i hi
    rw [hfilling.tags slot] at htag
    split at htag
    next hpage =>
      cases htag
      rw [hfilling.contents slot hpage]
      exact hstart slot hpage i hi
    next => cases htag

end Goomba

section Runs

variable {cart : Cart} {banks : PocketnesCache.Banks} {prgReads chrReads : ℕ → Read}
  {s last : PocketnesCache.Cache} {trace : List (PocketnesCache.Cache×PocketnesCoherence.Action)}
  {game : Game} {firstRead : Read} {reads : ℕ → Read} {g glast : GoombaCache.Cache}
  {gtrace : List (GoombaCache.Cache×GoombaCache.Action)}

/-- The slots of the PocketNES cache hold what they are tagged with throughout a run
exactly if every operation leaves what the tags say. -/
theorem pocketnes_coherent_iff
    (run : Run (PocketnesCoherence.step cart) (cacheInit cart banks prgReads chrReads s)
      trace last) :
    Always (PocketnesCoherence.Coherent cart) trace last ↔
      EveryStep (PocketnesCoherence.Kept cart) trace := by
  have hstart := (PocketnesTables.loading_cacheInit cart banks prgReads chrReads s).coherent
  refine run.always_iff_everyStep trivial (fun _ _ _ _ _ => trivial) hstart ?_
  intro t action t' _ hcoherent henabled
  exact PocketnesCoherence.coherent_step_iff hcoherent henabled

/-- The same for Goomba Color, whose first reads matter too. -/
theorem goomba_coherent_iff
    (run : Run (GoombaCache.step game) (initCache game firstRead reads g) gtrace glast) :
    Always (GoombaCache.Coherent game) gtrace glast ↔
      StartKept game firstRead reads ∧ EveryStep (GoombaCache.Kept game) gtrace := by
  have hinit := coherent_initCache_iff game firstRead reads g
  by_cases hstart : StartKept game firstRead reads
  · rw [run.always_iff_everyStep trivial (fun _ _ _ _ _ => trivial) (hinit.mpr hstart)
      (fun t action t' _ hcoherent henabled => coherent_goombaStep_iff hcoherent henabled)]
    exact ⟨fun hall => ⟨hstart,hall⟩,And.right⟩
  · refine iff_of_false (fun hall => hstart ?_) (fun hand => hstart hand.1)
    exact hinit.mp (run.of_always hall)

/-- In both caches no slot is tagged with a page that it does not hold exactly as long as
all reads leave what the tags say. -/
theorem failed_reads_iff
    (run : Run (PocketnesCoherence.step cart) (cacheInit cart banks prgReads chrReads s)
      trace last)
    (grun : Run (GoombaCache.step game) (initCache game firstRead reads g) gtrace glast) :
    (Always (PocketnesCoherence.Coherent cart) trace last ↔
        EveryStep (PocketnesCoherence.Kept cart) trace) ∧
      (Always (GoombaCache.Coherent game) gtrace glast ↔
        StartKept game firstRead reads ∧ EveryStep (GoombaCache.Kept game) gtrace) :=
  ⟨pocketnes_coherent_iff run,goomba_coherent_iff grun⟩

end Runs

section Example

open PocketnesMapping (sixGroups laterBanks sixGroupsStart zeroCache)

/-- A game with four pages and two slots. Every byte is the number of its page. -/
def fourPages : Game where
  rom := fun i => (i/pageBytes).toUInt8
  size := 4*pageBytes
  cachepages := 2
  cachepages_pos := GoombaMapping.threePages.cachepages_pos
  cachepages_le := GoombaMapping.threePages.cachepages_le

/-- Memory before the cache is initialised. -/
def emptyMemory : GoombaCache.Cache where
  memory := fun _ _ => 0
  prgcache := fun _ => none
  cacheAge := fun _ => 0
  cacheClock := 0
  instantPages := fun _ => none

/-- The cache of the game when it starts. -/
def fourPagesStart : GoombaCache.Cache :=
  initCache fourPages none (fun _ => none) emptyMemory

/-- A read that fails and leaves other bytes behind. -/
def failedRead : Read := some fun _ => 0xee

/-- Runs without a read that matters. -/
theorem failed_reads_harmless :
    (Always (PocketnesCoherence.Coherent sixGroups)
        [(sixGroupsStart,PocketnesCoherence.Action.ensurePrg laterBanks failedRead 0)]
        (PocketnesCache.ensurePrg sixGroups laterBanks failedRead 0 sixGroupsStart).2) ∧
      Always (GoombaCache.Coherent fourPages)
        [(fourPagesStart,GoombaCache.Action.getbank ⟨0,1⟩ failedRead 16)]
        (GoombaCache.getbank fourPages ⟨0,1⟩ failedRead 16 fourPagesStart) := by
  have hrun : Run (PocketnesCoherence.step sixGroups) sixGroupsStart
      ([]++[(sixGroupsStart,PocketnesCoherence.Action.ensurePrg laterBanks failedRead 0)])
      (PocketnesCache.ensurePrg sixGroups laterBanks failedRead 0 sixGroupsStart).2 :=
    Run.nil.snoc rfl
  have hbank : 16/16<GoombaCache.maxRomPages := by decide
  have hstep : GoombaCache.step fourPages fourPagesStart (.getbank ⟨0,1⟩ failedRead 16)=
      some (GoombaCache.getbank fourPages ⟨0,1⟩ failedRead 16 fourPagesStart) := by
    unfold GoombaCache.step
    exact if_pos hbank
  have hgrun : Run (GoombaCache.step fourPages) fourPagesStart
      ([]++[(fourPagesStart,GoombaCache.Action.getbank ⟨0,1⟩ failedRead 16)])
      (GoombaCache.getbank fourPages ⟨0,1⟩ failedRead 16 fourPagesStart) :=
    Run.nil.snoc hstep
  obtain ⟨hpocketnes,hgoomba⟩ := failed_reads_iff hrun hgrun
  refine ⟨hpocketnes.mpr ?_,hgoomba.mpr ⟨?_,?_⟩⟩
  · rw [everyStep_snoc]
    refine ⟨everyStep_nil,fun hmiss => ?_⟩
    have hfind : find sixGroupsStart.prgGroup PocketnesCache.prgCacheGroups
        (0%sixGroups.prgPages/PocketnesCache.prgGroupPages)=some 0 := by decide +kernel
    rw [hfind] at hmiss
    cases hmiss
  · intro page _ i hi
    rw [ite_self]
    exact GoombaCache.loaded_success fourPages page hi
  · rw [everyStep_snoc]
    refine ⟨everyStep_nil,fun hmiss => ?_⟩
    have hfind : GoombaCache.cacheSlotForPage fourPages (16/16) fourPagesStart=some 1 := by
      decide +kernel
    rw [hfind] at hmiss
    cases hmiss

/-- A failed read in each cache: the slot keeps the tag of the group that was lost, or gets
the tag of the page that was not read. -/
theorem failed_reads_are_hits :
    (∃ trace last,Run (PocketnesCoherence.step sixGroups) sixGroupsStart trace last ∧
      ¬PocketnesCoherence.Coherent sixGroups last) ∧
    ∃ trace last,Run (GoombaCache.step fourPages) fourPagesStart trace last ∧
      ¬GoombaCache.Coherent fourPages last := by
  constructor
  · have hexec : (exec (PocketnesCoherence.step sixGroups) sixGroupsStart
        [.ensurePrg laterBanks failedRead 16]).map (fun t => (t.prgGroup 0,t.prg 0 0))=
          some (some 0,0xee) := by
      decide +kernel
    obtain ⟨last,hlast,hvalues⟩ := Option.map_eq_some_iff.mp hexec
    obtain ⟨htag,hbyte⟩ := Prod.mk.inj hvalues
    obtain ⟨trace,hrun⟩ := Run.nil.exec hlast
    refine ⟨trace,last,hrun,fun hcoherent => ?_⟩
    have hheld := hcoherent.prg 0 0 (by decide) htag 0 (by decide)
    rw [hbyte] at hheld
    have hzero : PocketnesCoherence.prgGroupAt sixGroups 0 0=0 := by decide +kernel
    rw [hzero] at hheld
    exact absurd hheld (by decide)
  · have hexec : (exec (GoombaCache.step fourPages) fourPagesStart
        [.getbank ⟨0,2⟩ failedRead 32]).map (fun t => (t.prgcache 1,t.memory 1 0))=
          some (some 2,0xee) := by
      decide +kernel
    obtain ⟨last,hlast,hvalues⟩ := Option.map_eq_some_iff.mp hexec
    obtain ⟨htag,hbyte⟩ := Prod.mk.inj hvalues
    obtain ⟨trace,hrun⟩ := Run.nil.exec hlast
    refine ⟨trace,last,hrun,fun hcoherent => ?_⟩
    have hheld := hcoherent 1 2 (by decide) htag 0 (by decide)
    rw [hbyte] at hheld
    have htwo : GoombaCache.pageAt fourPages 2 0=2 := by decide +kernel
    rw [htwo] at hheld
    exact absurd hheld (by decide)

end Example

end ChisLink.CacheFailures
