import ChisLink.LabelledRuns
import ChisLink.PocketnesCache

/-!
# The page cache of Goomba Color

The emulator keeps up to 16 pages of 16 KiB in memory. The first slot lies in video
memory and gets the first page when the game is found. The cache is filled when the
game starts; later a page is loaded when the game maps it.
-/

namespace ChisLink.GoombaCache

open SlotCache PocketnesCache LabelledRuns

/-- Bytes of a page, `page_size_2`. -/
def pageBytes : ℕ := 16*1024

/-- The constant `MAX_CACHE_SIZE`. -/
def maxCacheSize : ℕ := 16

/-- The constant `MAX_ROM_PAGES`: the entries of `INSTANT_PAGES`. -/
def maxRomPages : ℕ := 512

/-- The game: its image file and how many slots the memory has room for. -/
structure Game where
  /-- Bytes of the image. -/
  rom : ℕ → UInt8
  /-- Its size. -/
  size : ℕ
  /-- The variable `cachepages` after `init_cache`. -/
  cachepages : ℕ
  /-- The slot in video memory is always there. -/
  cachepages_pos : 0<cachepages
  /-- `init_cache` limits it. -/
  cachepages_le : cachepages≤ maxCacheSize

/-- The variables of the cache. A tag is missing where the C code has `INVALID_PAGE`. -/
structure Cache where
  /-- The memory at `cache_location`, by slots. -/
  memory : ℕ → ℕ → UInt8
  /-- `prgcache`. -/
  prgcache : ℕ → Option ℕ
  /-- `cache_age`. -/
  cacheAge : ℕ → UInt32
  /-- `cache_clock`. -/
  cacheClock : UInt32
  /-- `INSTANT_PAGES`: the slot that an entry points to. -/
  instantPages : ℕ → Option ℕ

/-- The two mapped pages, `g_banks`. -/
structure Banks where
  /-- The page at `0x0000`. -/
  bank0 : ℕ
  /-- The page at `0x4000`. -/
  bank1 : ℕ

/-- The bytes that `loadcachepage` leaves in a slot: those of the read within the image,
`0xff` behind its end. -/
def loaded (game : Game) (bank : ℕ) (read : Read) (i : ℕ) : UInt8 :=
  let offset := bank*pageBytes
  let take := min (game.size-offset) pageBytes
  if i<take then readBytes read (fun i => game.rom (offset+i)) i else 0xff

/-- The function `loadcachepage`. It ignores whether the read succeeds. -/
def loadcachepage (game : Game) (read : Read) (slot bank : ℕ) (s : Cache) : Cache :=
  { s with memory := Function.update s.memory slot (loaded game bank read) }

/-- The function `cache_slot_for_page`. -/
def cacheSlotForPage (game : Game) (page : ℕ) (s : Cache) : Option ℕ :=
  find s.prgcache game.cachepages page

/-- The slot that `getbank` replaces: an empty one, otherwise the least recently used
among those that are not mapped, if there is one. -/
def victim (game : Game) (banks : Banks) (s : Cache) : ℕ :=
  choose s.prgcache s.cacheAge (fun page => page=banks.bank0 || page=banks.bank1)
    game.cachepages maxCacheSize

/-- A slot was used. -/
def touch (slot : ℕ) (s : Cache) : Cache :=
  { s with
    cacheClock := s.cacheClock+1
    cacheAge := Function.update s.cacheAge slot (s.cacheClock+1) }

/-- The entry of a replaced page is removed, if it points to the slot. -/
def unmap (slot : ℕ) (s : Cache) : Cache :=
  match s.prgcache slot with
  | none => s
  | some page =>
    if s.instantPages page=some slot then
      { s with instantPages := Function.update s.instantPages page none }
    else s

/-- The function `getbank`. -/
def getbank (game : Game) (banks : Banks) (read : Read) (kilobyte : ℕ) (s : Cache) : Cache :=
  let bank := kilobyte/16
  match cacheSlotForPage game bank s with
  | some slot => touch slot s
  | none =>
    let slot := victim game banks s
    if game.cachepages≤ slot then s
    else
      let s := loadcachepage game read slot bank (unmap slot s)
      let s := touch slot { s with prgcache := Function.update s.prgcache slot (some bank) }
      { s with instantPages := Function.update s.instantPages bank (some slot) }

/-- The function `regenerate_instant_prg`. -/
def regenerateInstantPrg (game : Game) (s : Cache) : Cache :=
  (List.range game.cachepages).foldl (fun s slot =>
    match s.prgcache slot with
    | none => s
    | some page =>
      { s with instantPages := Function.update s.instantPages page (some slot) }) s

/-- The function `update_cache`. -/
def updateCache (game : Game) (banks : Banks) (reads : ℕ → Read) (s : Cache) : Cache :=
  let s := getbank game banks (reads 0) (banks.bank0*16) s
  let s := getbank game banks (reads 1) (banks.bank1*16) s
  regenerateInstantPrg game s

/-- The functions `clear_instant_prg` and `flushcache`. -/
def flushcache (s : Cache) : Cache :=
  { s with
    prgcache := fun _ => none
    cacheAge := fun _ => 0
    cacheClock := 0
    instantPages := fun _ => none }

/-- A turn of the loop in `init_cache`. The first page is already there. -/
def initSlot (game : Game) (reads : ℕ → Read) (s : Cache) (i : ℕ) : Cache :=
  let s := if i=0 then s else loadcachepage game (reads i) i i s
  touch i { s with prgcache := Function.update s.prgcache i (some i) }

/-- The number of slots that are filled at the start. -/
def initPages (game : Game) : ℕ :=
  min game.cachepages ((game.size+pageBytes-1)/pageBytes)

/-- The functions `findrom2`, which reads the first page, and `init_cache`. -/
def initCache (game : Game) (firstRead : Read) (reads : ℕ → Read) (s : Cache) : Cache :=
  let s := flushcache (loadcachepage game firstRead 0 0 s)
  regenerateInstantPrg game ((List.range (initPages game)).foldl (initSlot game reads) s)

/-- The operations, with the outcomes of their reads. -/
inductive Action where
  /-- `loadcachepage`, called by itself. -/
  | loadcachepage (read : Read) (slot bank : ℕ)
  /-- `getbank`. -/
  | getbank (banks : Banks) (read : Read) (kilobyte : ℕ)
  /-- `update_cache`. -/
  | updateCache (banks : Banks) (reads : ℕ → Read)

/-- One operation on slots and pages that exist. -/
def step (game : Game) (s : Cache) : Action → Option Cache
  | .loadcachepage read slot bank =>
    if slot<game.cachepages ∧ bank< maxRomPages then some (loadcachepage game read slot bank s)
    else none
  | .getbank banks read kilobyte =>
    if kilobyte/16< maxRomPages then some (getbank game banks read kilobyte s) else none
  | .updateCache banks reads =>
    if banks.bank0< maxRomPages ∧ banks.bank1< maxRomPages then
      some (updateCache game banks reads s)
    else none

/-- The bytes of a page, filled up behind the end of the image. -/
def pageAt (game : Game) (page i : ℕ) : UInt8 :=
  if page*pageBytes+i<game.size then game.rom (page*pageBytes+i) else 0xff

/-- What is tagged is what is held. -/
def Coherent (game : Game) (s : Cache) : Prop :=
  Holds game.cachepages pageBytes s.prgcache s.memory (pageAt game)

/-- `loadcachepage` leaves the contents that the tag of its slot says. -/
def LoadKept (game : Game) (read : Read) (slot bank : ℕ) (s : Cache) : Prop :=
  ∀ page,s.prgcache slot=some page → ∀ i,i<pageBytes →
    loaded game bank read i=pageAt game page i

/-- A page that `getbank` loads is left with its bytes. -/
def BankKept (game : Game) (banks : Banks) (read : Read) (kilobyte : ℕ) (s : Cache) : Prop :=
  cacheSlotForPage game (kilobyte/16) s=none → victim game banks s<game.cachepages →
    ∀ i,i<pageBytes → loaded game (kilobyte/16) read i=pageAt game (kilobyte/16) i

/-- An operation whose reads do not separate a slot from its tag. -/
def Kept (game : Game) (s : Cache) : Action → Prop
  | .loadcachepage read slot bank => LoadKept game read slot bank s
  | .getbank banks read kilobyte => BankKept game banks read kilobyte s
  | .updateCache banks reads =>
    BankKept game banks (reads 0) (banks.bank0*16) s ∧
      BankKept game banks (reads 1) (banks.bank1*16)
        (getbank game banks (reads 0) (banks.bank0*16) s)

/-- The reads before the game starts leave the bytes of the pages. -/
def StartKept (game : Game) (firstRead : Read) (reads : ℕ → Read) : Prop :=
  ∀ page,page< initPages game → ∀ i,i<pageBytes →
    loaded game page (if page=0 then firstRead else reads page) i=pageAt game page i

section Loads

variable {game : Game} {s : Cache} {banks : Banks} {read : Read}

/-- A read that succeeds leaves the bytes of the page. -/
theorem loaded_success (game : Game) (bank : ℕ) {i : ℕ} (hi : i<pageBytes) :
    loaded game bank none i=pageAt game bank i := by
  unfold loaded pageAt readBytes
  dsimp only
  by_cases hin : bank*pageBytes+i<game.size
  · rw [if_pos hin,if_pos (by omega)]
  · rw [if_neg hin,if_neg (by omega)]

/-- `loadcachepage` keeps coherence exactly if it leaves the contents of the tag. -/
theorem coherent_loadcachepage_iff {slot bank : ℕ} (h : Coherent game s)
    (hslot : slot<game.cachepages) :
    Coherent game (loadcachepage game read slot bank s) ↔ LoadKept game read slot bank s := by
  have hself : (loadcachepage game read slot bank s).memory slot=loaded game bank read :=
    Function.update_self _ _ _
  have hkept : Holds game.cachepages pageBytes s.prgcache
      (loadcachepage game read slot bank s).memory (pageAt game) ↔ _ :=
    h.replaced_iff (fun other _ hother i _ => congrFun (Function.update_of_ne hother _ _) i)
  rw [hself] at hkept
  refine hkept.trans ?_
  constructor
  · intro hall page
    exact hall page hslot
  · intro hall page _
    exact hall page

/-- The contents and tags after `getbank` has loaded a page. -/
theorem getbank_loaded {kilobyte : ℕ}
    (hfind : cacheSlotForPage game (kilobyte/16) s=none)
    (hslot : victim game banks s<game.cachepages) :
    (getbank game banks read kilobyte s).memory=
        Function.update s.memory (victim game banks s) (loaded game (kilobyte/16) read) ∧
      (getbank game banks read kilobyte s).prgcache=
        Function.update s.prgcache (victim game banks s) (some (kilobyte/16)) := by
  have hmemory : (unmap (victim game banks s) s).memory=s.memory := by
    unfold unmap
    split
    · rfl
    · split <;> rfl
  have htags : (unmap (victim game banks s) s).prgcache=s.prgcache := by
    unfold unmap
    split
    · rfl
    · split <;> rfl
  unfold getbank
  dsimp only
  rw [hfind]
  dsimp only
  rw [if_neg (Nat.not_le.mpr hslot)]
  unfold touch loadcachepage
  dsimp only
  rw [hmemory,htags]
  exact ⟨rfl,rfl⟩

/-- `getbank` loads no page. -/
theorem getbank_same {kilobyte : ℕ}
    (h : ¬(cacheSlotForPage game (kilobyte/16) s=none ∧ victim game banks s<game.cachepages)) :
    (getbank game banks read kilobyte s).memory=s.memory ∧
      (getbank game banks read kilobyte s).prgcache=s.prgcache := by
  unfold getbank
  dsimp only
  cases hfind : cacheSlotForPage game (kilobyte/16) s with
  | some slot => exact ⟨rfl,rfl⟩
  | none =>
    dsimp only
    have hle : game.cachepages≤ victim game banks s := by
      by_contra hlt
      exact h ⟨hfind,Nat.not_le.mp hlt⟩
    rw [if_pos hle]
    exact ⟨rfl,rfl⟩

/-- `getbank` keeps coherence exactly if a page that it loads is left with its bytes. -/
theorem coherent_getbank_iff {kilobyte : ℕ} (h : Coherent game s) :
    Coherent game (getbank game banks read kilobyte s) ↔
      BankKept game banks read kilobyte s := by
  unfold Coherent BankKept
  by_cases hloads : cacheSlotForPage game (kilobyte/16) s=none ∧
      victim game banks s<game.cachepages
  · obtain ⟨hfind,hslot⟩ := hloads
    obtain ⟨hmemory,htags⟩ := @getbank_loaded game s banks read kilobyte hfind hslot
    rw [hmemory,htags]
    have hfilled := @Holds.filled_iff _ game.cachepages pageBytes (victim game banks s)
      s.prgcache (Function.update s.prgcache (victim game banks s) (some (kilobyte/16)))
      s.memory (Function.update s.memory (victim game banks s) (loaded game (kilobyte/16) read))
      (pageAt game) (kilobyte/16) h hslot (Function.update_self _ _ _)
      (fun other hother => Function.update_of_ne hother _ _)
      (fun other _ hother i _ => congrFun (Function.update_of_ne hother _ _) i)
    rw [Function.update_self] at hfilled
    rw [hfilled]
    constructor
    · intro hall _ _
      exact hall
    · intro hall
      exact hall hfind hslot
  · obtain ⟨hmemory,htags⟩ := @getbank_same game s banks read kilobyte hloads
    rw [hmemory,htags]
    refine iff_of_true h fun hfind hslot => ?_
    exact absurd ⟨hfind,hslot⟩ hloads

/-- `regenerate_instant_prg` touches neither contents nor tags. -/
theorem regenerateInstantPrg_same (game : Game) (s : Cache) :
    (regenerateInstantPrg game s).memory=s.memory ∧
      (regenerateInstantPrg game s).prgcache=s.prgcache := by
  unfold regenerateInstantPrg
  refine @foldl_range_invariant _ (fun _ t => t.memory=s.memory ∧ t.prgcache=s.prgcache)
    _ s game.cachepages ⟨rfl,rfl⟩ ?_
  intro slot t _ hsame
  split
  · exact hsame
  · exact hsame

end Loads

end ChisLink.GoombaCache
