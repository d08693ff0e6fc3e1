import ChisLink.RemoteListing

/-!
# Pages of a remote directory

The entries of a page are records of different lengths, and their number, their lengths and
their terminators come from the other side. The loops over them in `remote_list_dir` and
`remote_list_page` are written twice. Here both are followed with the places of the buffer
that they read, for any bytes that are received.
-/

namespace ChisLink.RemotePages

open DriverPrograms WireProtocol StorageClient StorageBoundary RemoteListing

variable {δ U : Type}

/-- What a loop over a page did. -/
structure Walk where
  /-- The result. -/
  ret : ℤ
  /-- The calls of the callback. -/
  calls : List Call
  /-- The places of the buffer that were read, in order. -/
  reads : List ℕ

/-- The same with the number of entries that the callback accepted. -/
structure PageWalk extends Walk where
  /-- The number. -/
  emitted : UInt32

/-- The entry that is given to the callback. -/
def entryAt (scratch : ℕ → UInt8) (offset : ℕ) (nameLen : UInt8) : DirEntry :=
  { name := bytesAt scratch (offset+clpStorageDirEntryBytes) nameLen.toNat
    size := sizeOfWords (loadLe32 (bytesAt scratch (offset+4) 4))
      (loadLe32 (bytesAt scratch (offset+8) 4))
    type := scratch (offset+1)
    flags := scratch (offset+2) }

/-- The places that are read for it: the length of the name, its terminator, the size, the
type, the flags and, by the callback, the name. -/
def entryReads (offset : ℕ) (nameLen : UInt8) : List ℕ :=
  [offset,offset+clpStorageDirEntryBytes+nameLen.toNat]++
    ((List.range 8).map (offset+4+·)++[offset+1,offset+2]++
      (List.range nameLen.toNat).map (offset+clpStorageDirEntryBytes+·))

section Loops

variable (callback : ListCb δ U) (outLength : UInt32)

/-- The loop over a page in the function `remote_list_dir`. -/
def dirEntries : ℕ → UInt32 → Session δ U → Walk×Session δ U
  | 0, _, s => (⟨0,[],[]⟩,s)
  | left+1, offset, s =>
    if outLength<offset+UInt32.ofNat clpStorageDirEntryBytes then (⟨-3,[],[]⟩,s)
    else
      let nameLen := s.scratch offset.toNat
      if nameLen=0 ∨
          outLength<offset+UInt32.ofNat clpStorageDirEntryBytes+nameLen.toUInt32+1 then
        (⟨-3,[],[offset.toNat]⟩,s)
      else
        let terminator := offset.toNat+clpStorageDirEntryBytes+nameLen.toNat
        if s.scratch terminator≠0 then (⟨-3,[],[offset.toNat,terminator]⟩,s)
        else
          let entry := entryAt s.scratch offset.toNat nameLen
          let reply := callback entry s
          if reply.1<0 then
            (⟨reply.1,[⟨entry,reply.1⟩],entryReads offset.toNat nameLen⟩,reply.2)
          else
            let rest := dirEntries left
              (offset+(UInt32.ofNat clpStorageDirEntryBytes+nameLen.toUInt32+1)) reply.2
            (⟨rest.1.ret,⟨entry,reply.1⟩::rest.1.calls,
              entryReads offset.toNat nameLen++rest.1.reads⟩,rest.2)

/-- The loop over a page in the function `remote_list_page`. -/
def pageEntries : ℕ → UInt32 → UInt32 → Session δ U → PageWalk×Session δ U
  | 0, _, emitted, s => (⟨⟨0,[],[]⟩,emitted⟩,s)
  | left+1, offset, emitted, s =>
    if outLength<offset+UInt32.ofNat clpStorageDirEntryBytes then (⟨⟨-3,[],[]⟩,emitted⟩,s)
    else
      let nameLen := s.scratch offset.toNat
      if nameLen=0 ∨
          outLength<offset+UInt32.ofNat clpStorageDirEntryBytes+nameLen.toUInt32+1 then
        (⟨⟨-3,[],[offset.toNat]⟩,emitted⟩,s)
      else
        let terminator := offset.toNat+clpStorageDirEntryBytes+nameLen.toNat
        if s.scratch terminator≠0 then (⟨⟨-3,[],[offset.toNat,terminator]⟩,emitted⟩,s)
        else
          let entry := entryAt s.scratch offset.toNat nameLen
          let reply := callback entry s
          if reply.1<0 then
            (⟨⟨reply.1,[⟨entry,reply.1⟩],entryReads offset.toNat nameLen⟩,emitted⟩,reply.2)
          else
            let rest := pageEntries left
              (offset+(UInt32.ofNat clpStorageDirEntryBytes+nameLen.toUInt32+1)) (emitted+1)
              reply.2
            (⟨⟨rest.1.ret,⟨entry,reply.1⟩::rest.1.calls,
              entryReads offset.toNat nameLen++rest.1.reads⟩,rest.1.emitted⟩,rest.2)

end Loops

/-- A page that was received and what was done with it. -/
structure PageTrace where
  /-- The index it was asked for with. -/
  startIndex : UInt32
  /-- The page. -/
  result : ListResult
  /-- What the loop did. -/
  walk : Walk

/-- The places that were read of it: the two words of its header, and those of the loop. -/
def PageTrace.reads (page : PageTrace) : List ℕ := List.range 8++page.walk.reads

/-- The function `remote_list_page` with the page that was received, if there was one. -/
def tracedPage (storage : Storage δ) (path : CString) (startIndex maxEntries : UInt32)
    (callback : ListCb δ U) : Prog (Session δ U) (PageReply×Option PageTrace) :=
  if storageScratch storage=false then pure (⟨-1,[],none⟩,none)
  else do
    let reply ← storageList storage path startIndex maxEntries listPageBytes
    match reply with
    | .error code => pure (⟨code,[],none⟩,none)
    | .ok result => do
      let walk ← access (pageEntries callback result.length result.entryCount.toNat 8 0)
      let page := some ⟨startIndex,result,walk.toWalk⟩
      if walk.ret<0 then pure (⟨walk.ret,walk.calls,none⟩,page)
      else pure (⟨0,walk.calls,some (result.nextIndex,walk.emitted)⟩,page)

/-- The loop of `remote_list_dir` with the pages that were received: the result and the pages,
unless it goes on for more pages than the fuel is for. -/
def dirPages (storage : Storage δ) (path : CString) (callback : ListCb δ U) :
    ℕ → UInt32 → UInt32 → Prog (Session δ U) (Option (ℤ×List PageTrace))
  | 0, _, _ => pure none
  | fuel+1, startIndex, guard => do
    let reply ← storageList storage path startIndex listPageEntries listPageBytes
    match reply with
    | .error code => pure (some (code,[]))
    | .ok result => do
      let walk ← access (dirEntries callback result.length result.entryCount.toNat 8)
      let page : PageTrace := ⟨startIndex,result,walk⟩
      if walk.ret<0 then pure (some (walk.ret,[page]))
      else if result.nextIndex=clpStorageListDone then pure (some (0,[page]))
      else if result.nextIndex≤ startIndex ∨ UInt32.ofNat listGuard<guard+1 then
        pure (some (-3,[page]))
      else do
        let rest ← dirPages storage path callback fuel result.nextIndex (guard+1)
        pure (rest.map fun rest => (rest.1,page::rest.2))

/-- The function `remote_list_dir` with the pages that were received. -/
def tracedDir (storage : Storage δ) (path : CString) (callback : ListCb δ U) (fuel : ℕ) :
    Prog (Session δ U) (Option (ℤ×List PageTrace)) :=
  if storageScratch storage=false then pure (some (-1,[]))
  else dirPages storage path callback fuel 0 0

section Bounds

variable {callback : ListCb δ U} {outLength offset : UInt32} {left : ℕ}

/-- A round of the loop of `remote_list_dir`: it takes an entry or fails, and reads nothing
behind the page. -/
theorem dirEntries_succ (callback : ListCb δ U) (left : ℕ) (hoffset : offset≤outLength) (hlength : outLength≤listPageBytes)
    (s : Session δ U) :
    match takeEntry s.scratch offset.toNat outLength.toNat with
    | none => ∃ reads,(∀ place∈reads,place<outLength.toNat) ∧
      dirEntries callback outLength (left+1) offset s=(⟨-3,[],reads⟩,s)
    | some (entry,next) => ∃ reads behind,(∀ place∈reads,place<outLength.toNat) ∧
      behind≤outLength ∧ behind.toNat=next ∧
      dirEntries callback outLength (left+1) offset s=
        if (callback entry s).1<0 then
          (⟨(callback entry s).1,[⟨entry,(callback entry s).1⟩],reads⟩,(callback entry s).2)
        else
          (⟨(dirEntries callback outLength left behind (callback entry s).2).1.ret,
            ⟨entry,(callback entry s).1⟩::
              (dirEntries callback outLength left behind (callback entry s).2).1.calls,
            reads++(dirEntries callback outLength left behind (callback entry s).2).1.reads⟩,
            (dirEntries callback outLength left behind (callback entry s).2).2) := by
  have hcapacity : listPageBytes.toNat=512 := rfl
  have htwelve : (UInt32.ofNat clpStorageDirEntryBytes).toNat=12 := rfl
  have hbytes : clpStorageDirEntryBytes=12 := rfl
  have hone : (1 : UInt32).toNat=1 := rfl
  have hname := (s.scratch offset.toNat).toNat_lt
  rw [UInt32.le_iff_toNat_le] at hoffset hlength
  have hfirst : (offset+UInt32.ofNat clpStorageDirEntryBytes).toNat=offset.toNat+12 := by
    rw [UInt32.toNat_add,htwelve]
    omega
  have hsecond : (offset+UInt32.ofNat clpStorageDirEntryBytes+
      (s.scratch offset.toNat).toUInt32+1).toNat=
      offset.toNat+12+(s.scratch offset.toNat).toNat+1 := by
    rw [UInt32.toNat_add,UInt32.toNat_add,hfirst,UInt8.toNat_toUInt32,hone]
    omega
  have hbehind : (offset+(UInt32.ofNat clpStorageDirEntryBytes+
      (s.scratch offset.toNat).toUInt32+1)).toNat=
      offset.toNat+12+(s.scratch offset.toNat).toNat+1 := by
    rw [UInt32.toNat_add,UInt32.toNat_add,UInt32.toNat_add,htwelve,UInt8.toNat_toUInt32,hone]
    omega
  have hzero : s.scratch offset.toNat=0 ↔ (s.scratch offset.toNat).toNat=0 := by
    rw [← UInt8.toNat_inj]
    rfl
  unfold takeEntry
  dsimp only
  by_cases hshort : outLength.toNat<offset.toNat+clpStorageDirEntryBytes
  · rw [if_pos hshort]
    refine ⟨[],fun place hplace => absurd hplace List.not_mem_nil,?_⟩
    unfold dirEntries
    rw [if_pos (by rw [UInt32.lt_iff_toNat_lt,hfirst]; omega)]
  rw [if_neg hshort]
  have hgo : ¬outLength<offset+UInt32.ofNat clpStorageDirEntryBytes := by
    rw [UInt32.lt_iff_toNat_lt,hfirst]
    omega
  have hcheck : (s.scratch offset.toNat=0 ∨ outLength<offset+
      UInt32.ofNat clpStorageDirEntryBytes+(s.scratch offset.toNat).toUInt32+1) ↔
      (s.scratch offset.toNat).toNat=0 ∨ outLength.toNat<offset.toNat+
        clpStorageDirEntryBytes+(s.scratch offset.toNat).toNat+1 := by
    rw [hzero,UInt32.lt_iff_toNat_lt,hsecond,hbytes]
  by_cases hname : (s.scratch offset.toNat).toNat=0 ∨ outLength.toNat<offset.toNat+
      clpStorageDirEntryBytes+(s.scratch offset.toNat).toNat+1
  · rw [if_pos hname]
    refine ⟨[offset.toNat],fun place hplace => ?_,?_⟩
    · obtain rfl := List.mem_singleton.mp hplace
      omega
    · unfold dirEntries
      rw [if_neg hgo]
      dsimp only
      rw [if_pos (hcheck.mpr hname)]
  rw [if_neg hname]
  obtain ⟨hnonempty,hinside⟩ := not_or.mp hname
  by_cases hend : s.scratch (offset.toNat+clpStorageDirEntryBytes+
      (s.scratch offset.toNat).toNat)≠0
  · rw [if_pos hend]
    refine ⟨[offset.toNat,offset.toNat+clpStorageDirEntryBytes+
      (s.scratch offset.toNat).toNat],fun place hplace => ?_,?_⟩
    · rcases List.mem_cons.mp hplace with rfl | hplace
      · omega
      · obtain rfl := List.mem_singleton.mp hplace
        omega
    · unfold dirEntries
      rw [if_neg hgo]
      dsimp only
      rw [if_neg (mt hcheck.mp hname),if_pos hend]
  rw [if_neg hend]
  refine ⟨entryReads offset.toNat (s.scratch offset.toNat),
    offset+(UInt32.ofNat clpStorageDirEntryBytes+(s.scratch offset.toNat).toUInt32+1),
    ?_,?_,?_,?_⟩
  · intro place hplace
    unfold entryReads at hplace
    simp only [List.mem_append,List.mem_cons,List.mem_map,List.mem_range,List.not_mem_nil,
      or_false] at hplace
    omega
  · rw [UInt32.le_iff_toNat_le,hbehind]
    omega
  · rw [hbehind,hbytes]
  · conv_lhs => unfold dirEntries
    rw [if_neg hgo]
    dsimp only
    rw [if_neg (mt hcheck.mp hname),if_neg hend]
    rfl

/-- The loop of `remote_list_dir` reads nothing behind the page. -/
theorem dirEntries_inside (hoffset : offset≤outLength) (hlength : outLength≤listPageBytes)
    (s : Session δ U) :
    ∀ place∈(dirEntries callback outLength left offset s).1.reads,place<outLength.toNat := by
  induction left generalizing offset s with
  | zero => exact fun place hplace => absurd hplace List.not_mem_nil
  | succ left ih =>
    have hround := dirEntries_succ callback left hoffset hlength s
    cases htake : takeEntry s.scratch offset.toNat outLength.toNat with
    | none =>
      rw [htake] at hround
      obtain ⟨reads,hreads,hrun⟩ := hround
      rw [hrun]
      exact hreads
    | some taken =>
      rw [htake] at hround
      obtain ⟨reads,behind,hreads,hbehind,-,hrun⟩ := hround
      rw [hrun]
      split
      · exact hreads
      · intro place hplace
        rcases List.mem_append.mp hplace with hplace | hplace
        · exact hreads place hplace
        · exact ih hbehind _ place hplace

/-- Its result and its calls are those of the entries that are taken one by one. -/
theorem dirEntries_eq (callback : ListCb δ U) (left : ℕ) (hoffset : offset≤outLength)
    (hlength : outLength≤listPageBytes)
    (s : Session δ U) :
    takeEntries callback outLength.toNat left offset.toNat s=
      (((dirEntries callback outLength left offset s).1.ret,
        (dirEntries callback outLength left offset s).1.calls),
        (dirEntries callback outLength left offset s).2) := by
  induction left generalizing offset s with
  | zero => rfl
  | succ left ih =>
    have hround := dirEntries_succ callback left hoffset hlength s
    cases htake : takeEntry s.scratch offset.toNat outLength.toNat with
    | none =>
      rw [htake] at hround
      obtain ⟨reads,-,hrun⟩ := hround
      rw [takeEntries_none htake,hrun]
    | some taken =>
      rw [htake] at hround
      obtain ⟨reads,behind,-,hbehind,hnext,hrun⟩ := hround
      rw [takeEntries_some htake,hrun,← hnext,ih hbehind]
      split <;> rfl

/-- The two loops do the same, and the other one counts the entries. -/
theorem pageEntries_eq (callback : ListCb δ U) (outLength : UInt32) (left : ℕ)
    (offset emitted : UInt32) (s : Session δ U) :
    (pageEntries callback outLength left offset emitted s).1.toWalk=
      (dirEntries callback outLength left offset s).1 ∧
    (pageEntries callback outLength left offset emitted s).2=
      (dirEntries callback outLength left offset s).2 ∧
    (0≤(dirEntries callback outLength left offset s).1.ret →
      (pageEntries callback outLength left offset emitted s).1.emitted=
        emitted+UInt32.ofNat left) := by
  have hfailed : ¬(0 : ℤ)≤-3 := by decide
  induction left generalizing offset emitted s with
  | zero => exact ⟨rfl,rfl,fun _ => (UInt32.add_zero emitted).symm⟩
  | succ left ih =>
    unfold pageEntries dirEntries
    dsimp only
    split
    · exact ⟨rfl,rfl,fun h => absurd h hfailed⟩
    · split
      · exact ⟨rfl,rfl,fun h => absurd h hfailed⟩
      · split
        · exact ⟨rfl,rfl,fun h => absurd h hfailed⟩
        · split
          next hneg => exact ⟨rfl,rfl,fun h => absurd hneg (not_lt.mpr h)⟩
          next =>
            obtain ⟨hwalk,hlast,hcount⟩ := ih
              (offset+(UInt32.ofNat clpStorageDirEntryBytes+
                (s.scratch offset.toNat).toUInt32+1)) (emitted+1)
              (callback (entryAt s.scratch offset.toNat (s.scratch offset.toNat)) s).2
            refine ⟨?_,hlast,fun h => ?_⟩
            · rw [hwalk]
            · rw [hcount h,UInt32.add_assoc,UInt32.ofNat_add,UInt32.add_comm 1]
              rfl

end Bounds

section Received

variable {storage : Storage δ} {path : CString}

/-- A page that was received: all its bytes are there, they are not more than there is room
for, and its header is in them. -/
structure Received (result : ListResult) : Prop where
  /-- It has a header. -/
  header : 8≤ result.length.toNat
  /-- It fits the buffer. -/
  fits : result.length≤listPageBytes
  /-- All its bytes were received. -/
  whole : result.payload.length=result.length.toNat
  /-- The index of the next page. -/
  nextIndex : result.nextIndex=loadLe32 result.payload
  /-- The number of entries that it claims to have. -/
  entryCount : result.entryCount=loadLe32 (result.payload.drop 4)

/-- What is received word by word has the length that was announced. -/
theorem length_payloadBytes {words : List UInt32} {length : UInt32}
    (hlength : length≤listPageBytes) (hwords : words.length=(clpAlignedLength length).toNat/4) :
    (payloadBytes words length).length=length.toNat := by
  have hcapacity : listPageBytes.toNat=512 := rfl
  have hfour : ∀ words : List UInt32,
      (words.flatMap fun word => storeLe32 word 4).length=4*words.length := by
    intro words
    induction words with
    | nil => rfl
    | cons word words ih =>
      have hword : (storeLe32 word 4).length=4 := rfl
      rw [List.flatMap_cons,List.length_append,hword,ih,List.length_cons]
      omega
  rw [clpAlignedLength_words] at hwords
  rw [UInt32.le_iff_toNat_le] at hlength
  unfold payloadBytes
  rw [List.length_take,hfour]
  omega

theorem received_clStorageList (startIndex maxEntries : UInt32) (s : Link δ) :
    wp (clStorageList storage path startIndex maxEntries listPageBytes)
      (fun reply _ => ∀ result,reply=.ok result → Received result) (fun _ => True) s := by
  have hrefused : ∀ (code : ℤ) (s : Link δ),wp (refuse code)
      (fun reply _ => ∀ result,reply=.ok result → Received result) (fun _ => True) s := by
    intro code s result hresult
    cases hresult
  unfold clStorageList
  split
  · exact hrefused _ _
  · unfold requireCap
    rw [wp_bind,wp_inspect]
    split
    · exact hrefused _ _
    · split
      · exact hrefused _ _
      · split
        · unfold withResponse
          rw [wp_bind]
          refine wp_mono (wp_any _ s) (fun answer t _ => ?_) fun _ _ => trivial
          cases answer with
          | error code => exact hrefused code t
          | ok response =>
            dsimp only
            split
            · exact hrefused _ _
            next haccept =>
              obtain ⟨-,hheader,hfits⟩ := not_or.mp haccept |>.imp_right not_or.mp
              rw [wp_bind]
              refine wp_mono (emits_readPayloadWords storage.transport response.length t) ?_
                fun _ _ => trivial
              rintro payload u ⟨events,-,pairs,-,rfl,hpairs⟩ result hresult
              cases hresult
              exact
                { header := UInt32.le_iff_toNat_le.mp (UInt32.not_lt.mp hheader)
                  fits := UInt32.not_lt.mp hfits
                  whole := length_payloadBytes (UInt32.not_lt.mp hfits)
                    (by rw [List.length_map]; exact hpairs)
                  nextIndex := rfl
                  entryCount := rfl }
        · exact hrefused _ _

/-- A page is received as a whole and is at the front of the buffer then. -/
theorem received_storageList (storage : Storage δ) (path : CString) (startIndex maxEntries : UInt32) (s : Session δ U) :
    wp (storageList storage path startIndex maxEntries listPageBytes)
      (fun reply t => ∀ result,reply=.ok result →
        Received result ∧ Agree t.scratch 0 result.payload) (fun _ => False) s := by
  have hlisted : ∀ s : Session δ U,wp
      (onLink (clStorageList storage path startIndex maxEntries listPageBytes))
      (fun reply _ => ∀ result,reply=.ok result → Received result) (fun _ => False) s := by
    intro s
    apply wp_onLink
    refine wp_mono (wp_and (received_clStorageList startIndex maxEntries s.link)
      (emits_clStorageList storage path startIndex maxEntries listPageBytes s.link)) ?_
      fun _ h => h.2
    exact fun reply t h => h.1
  have hover : ∀ request,wp (overScratch request
      (clStorageList storage path startIndex maxEntries listPageBytes))
      (fun reply _ => ∀ result,reply=.ok result → Received result) (fun _ => False) s := by
    intro request
    cases request with
    | none => exact hlisted s
    | some bytes =>
      unfold overScratch stage
      dsimp only
      rw [wp_bind,wp_update]
      exact hlisted _
  unfold storageList
  rw [wp_bind,wp_inspect]
  dsimp only
  refine wp_seq (hover _) (fun reply t hreceived => ?_)
  cases reply with
  | error code =>
    intro result hresult
    cases hresult
  | ok result =>
    dsimp only
    unfold stage
    rw [wp_bind,wp_update,wp_pure]
    intro other hother
    cases hother
    refine ⟨hreceived result rfl,fun i hi => ?_⟩
    dsimp only
    rw [Nat.zero_add,List.getD_eq_getElem _ _ hi,List.getD_eq_getElem _ _ hi]

end Received

section Longest

/-- Entries that some bytes begin with, at most so many. -/
def Held (entries : List SentEntry) (count : ℕ) (bytes : List UInt8) : Prop :=
  entries.length≤ count ∧ entries.flatMap SentEntry.bytes<+:bytes

/-- The most of them. -/
structure Longest (entries : List SentEntry) (count : ℕ) (bytes : List UInt8) : Prop where
  /-- The bytes begin with them. -/
  held : Held entries count bytes
  /-- All others are the first of them. -/
  longest : ∀ others,Held others count bytes → others<+:entries

variable {bytes : List UInt8} {scratch : ℕ → UInt8} {payload : List UInt8}
  {place stop next count : ℕ} {e : SentEntry} {entries : List SentEntry}

/-- An entry that is in the page is in the buffer. -/
theorem holdsAt_of_prefix (hheld : Agree scratch 0 payload)
    (h : e.bytes<+:payload.drop place) : Agree scratch place e.bytes := by
  obtain ⟨rest,hrest⟩ := h
  intro i hi
  have hlength := congrArg List.length hrest
  rw [List.length_append,List.length_drop] at hlength
  have hget := congrArg (fun l => l.getD i 0) hrest
  rw [List.getD_append _ _ _ _ hi] at hget
  rw [hget,← Nat.zero_add (place+i),hheld (place+i) (by omega)]
  simp only [List.getD_eq_getElem?_getD,List.getElem?_drop]

/-- It is taken from there. -/
theorem takeEntry_of_prefix (hheld : Agree scratch 0 payload) (hplace : place≤payload.length)
    (h : e.bytes<+:payload.drop place) :
    takeEntry scratch place payload.length=some (e.toDirEntry,place+e.bytes.length) := by
  have hlength := h.length_le
  rw [List.length_drop] at hlength
  have hend : place+e.bytes.length≤ payload.length := by omega
  obtain ⟨next,hnext⟩ := (takeEntry_iff hend).mpr fun i hi _ =>
    holdsAt_of_prefix hheld h i hi
  rw [hnext,takeEntry_next hnext]

/-- What is taken from there is an entry of the page. -/
theorem exists_sent (hheld : Agree scratch 0 payload) {entry : DirEntry}
    (h : takeEntry scratch place payload.length=some (entry,next)) :
    ∃ e : SentEntry,e.toDirEntry=entry ∧ e.bytes<+:payload.drop place ∧
      next=place+e.bytes.length := by
  have htaken := h
  unfold takeEntry at h
  dsimp only at h
  split at h
  · cases h
  · split at h
    · cases h
    next hname =>
      split at h
      · cases h
      · obtain ⟨hnonempty,hinside⟩ := not_or.mp hname
        obtain ⟨hentry,-⟩ := Prod.mk.inj (Option.some.inj h)
        have hbyte := (scratch place).toNat_lt
        have hlen : entry.name.length=(scratch place).toNat := by
          rw [← hentry]
          unfold bytesAt
          rw [List.length_map,List.length_range]
        obtain ⟨e,he,hreserved⟩ : ∃ e : SentEntry,e.toDirEntry=entry ∧
            e.reserved=scratch (place+3) :=
          ⟨⟨entry,scratch (place+3),
            fun hnil => hnonempty (by rw [← hlen,hnil,List.length_nil]),by omega⟩,rfl,rfl⟩
        subst he
        have hsize := e.length_bytes
        have hend : place+e.bytes.length≤payload.length := by omega
        have hholds := (takeEntry_iff hend).mp ⟨next,htaken⟩
        refine ⟨e,rfl,?_,takeEntry_next htaken⟩
        have hthird : e.bytes.getD 3 0=e.reserved := rfl
        have hagree : bytesAt scratch place e.bytes.length=e.bytes := by
          apply agree_iff.mp
          intro i hi
          by_cases hthree : i=3
          · rw [hthree,hthird,hreserved]
          · exact hholds i hi hthree
        have hfront : (payload.drop place).take e.bytes.length=e.bytes := by
          rw [← hagree]
          unfold bytesAt
          apply List.ext_getElem
          · rw [List.length_take,List.length_drop,List.length_map,List.length_range]
            omega
          · intro i hi hi'
            rw [List.length_map,List.length_range] at hi'
            have hgot := hheld (place+i) (by omega)
            rw [Nat.zero_add,List.getD_eq_getElem _ _ (by omega)] at hgot
            rw [List.getElem_take,List.getElem_drop,List.getElem_map,List.getElem_range,hgot]
        rw [← hfront]
        exact List.take_prefix _ _

/-- Some bytes begin with one entry at most. -/
theorem sent_unique {other : SentEntry} (h : e.bytes<+:bytes) (hother : other.bytes<+:bytes) :
    e=other := by
  have hheld : Agree (fun i => bytes.getD i 0) 0 bytes := by
    intro i _
    dsimp only
    rw [Nat.zero_add]
  have hfirst := takeEntry_of_prefix hheld (Nat.zero_le _) h
  have hsecond := takeEntry_of_prefix hheld (Nat.zero_le _) hother
  rw [hfirst] at hsecond
  obtain ⟨hentry,-⟩ := Prod.mk.inj (Option.some.inj hsecond)
  have hthird : ∀ e : SentEntry,e.bytes<+:bytes → e.reserved=bytes.getD 3 0 := by
    rintro e ⟨rest,rfl⟩
    rfl
  have hreserved := (hthird e h).trans (hthird other hother).symm
  cases e
  cases other
  dsimp only at hentry hreserved
  subst hentry hreserved
  rfl

theorem longest_zero : Longest [] 0 bytes where
  held := ⟨Nat.le_refl _,List.nil_prefix⟩
  longest others h := by
    obtain rfl := List.length_eq_zero_iff.mp (Nat.le_zero.mp h.1)
    exact List.nil_prefix

/-- Bytes that do not begin with an entry. -/
theorem longest_none (h : ∀ e : SentEntry,¬e.bytes<+:bytes) : Longest [] count bytes where
  held := ⟨Nat.zero_le _,List.nil_prefix⟩
  longest others hothers := by
    cases others with
    | nil => exact List.nil_prefix
    | cons e others =>
      rw [Held,List.flatMap_cons] at hothers
      exact absurd ((List.prefix_append _ _).trans hothers.2) (h e)

/-- Bytes that do. -/
theorem longest_cons (he : e.bytes<+:bytes)
    (h : Longest entries count (bytes.drop e.bytes.length)) :
    Longest (e::entries) (count+1) bytes := by
  obtain ⟨rest,rfl⟩ := he
  rw [List.drop_left] at h
  constructor
  · refine ⟨Nat.succ_le_succ h.held.1,?_⟩
    rw [List.flatMap_cons]
    exact (List.prefix_append_right_inj _).mpr h.held.2
  · intro others hothers
    cases others with
    | nil => exact List.nil_prefix
    | cons other others =>
      rw [Held,List.flatMap_cons] at hothers
      obtain rfl : other=e := sent_unique ((List.prefix_append _ _).trans hothers.2)
        (List.prefix_append _ _)
      exact List.cons_prefix_cons.mpr ⟨rfl,h.longest others
        ⟨Nat.le_of_succ_le_succ hothers.1,(List.prefix_append_right_inj _).mp hothers.2⟩⟩

end Longest

section Delivered

variable {callback : ListCb δ U} {outLength offset : UInt32} {left count : ℕ} {walk : Walk}
  {entries : List SentEntry} {e : SentEntry} {payload : List UInt8}

/-- A callback that leaves the buffer of the client alone. -/
def LeavesBuffer (callback : ListCb δ U) : Prop :=
  ∀ entry s,(callback entry s).2.scratch=s.scratch

/-- The entries were delivered in order, and the loop failed if they are not as many as the
page claims to have. Only the callback ends it before. -/
structure Delivered (walk : Walk) (entries : List SentEntry) (count : ℕ) : Prop extends
    Exact walk.calls entries where
  /-- The result if the callback always went on. -/
  ended : (∀ call∈walk.calls,0≤ call.ret) →
    walk.ret=if entries.length=count then 0 else -3
  /-- The result if it did not. No other call was made then. -/
  broken : ∀ call∈walk.calls,call.ret<0 →
    walk.ret=call.ret ∧ walk.calls.getLast?=some call

theorem delivered_nil {reads : List ℕ} {ret : ℤ} (h : ret=if 0=count then 0 else -3) :
    Delivered ⟨ret,[],reads⟩ [] count where
  toExact := exact_nil.mpr rfl
  ended _ := h
  broken call hcall := absurd hcall List.not_mem_nil

theorem delivered_broken {reads : List ℕ} {ret : ℤ} (hret : ret<0) :
    Delivered ⟨ret,[⟨e.toDirEntry,ret⟩],reads⟩ (e::entries) count where
  toExact := exact_broken hret
  ended h := absurd (h _ (List.mem_singleton_self _)) (not_le.mpr hret)
  broken call hcall _ := by
    obtain rfl := List.mem_singleton.mp hcall
    exact ⟨rfl,rfl⟩

theorem delivered_cons {reads : List ℕ} {ret : ℤ} (hret : 0≤ ret)
    (h : Delivered walk entries count) :
    Delivered ⟨walk.ret,⟨e.toDirEntry,ret⟩::walk.calls,reads⟩ (e::entries) (count+1) where
  toExact := (exact_cons hret).mpr h.toExact
  ended hcalls := by
    rw [List.length_cons,h.ended (List.forall_mem_cons.mp hcalls).2]
    simp only [Nat.add_right_cancel_iff]
  broken call hcall hneg := by
    rcases List.mem_cons.mp hcall with rfl | hcall
    · exact absurd hret (not_le.mpr hneg)
    · obtain ⟨hwalk,hlast⟩ := h.broken call hcall hneg
      refine ⟨hwalk,?_⟩
      rw [List.getLast?_cons,hlast]
      rfl

/-- The loop delivers the longest list of entries that the page begins with. -/
theorem dirEntries_delivered (hkeeps : LeavesBuffer callback) (hoffset : offset≤outLength)
    (hlength : outLength≤listPageBytes) (hpayload : payload.length=outLength.toNat)
    {s : Session δ U} (hheld : Agree s.scratch 0 payload) :
    ∃ entries,Longest entries left (payload.drop offset.toNat) ∧
      Delivered (dirEntries callback outLength left offset s).1 entries left := by
  induction left generalizing offset s with
  | zero => exact ⟨[],longest_zero,delivered_nil rfl⟩
  | succ left ih =>
    have hround := dirEntries_succ callback left hoffset hlength s
    have hinside := UInt32.le_iff_toNat_le.mp hoffset
    cases htake : takeEntry s.scratch offset.toNat outLength.toNat with
    | none =>
      rw [htake] at hround
      obtain ⟨reads,-,hrun⟩ := hround
      rw [hrun]
      refine ⟨[],longest_none fun e he => ?_,delivered_nil rfl⟩
      have htaken := takeEntry_of_prefix hheld (by omega) he
      rw [hpayload,htake] at htaken
      cases htaken
    | some taken =>
      obtain ⟨entry,next⟩ := taken
      rw [htake] at hround
      obtain ⟨reads,behind,-,hbehind,hnext,hrun⟩ := hround
      rw [← hpayload] at htake
      obtain ⟨e,rfl,hentry,rfl⟩ := exists_sent hheld htake
      have hagree : Agree (callback e.toDirEntry s).2.scratch 0 payload := by
        rw [hkeeps]
        exact hheld
      obtain ⟨entries,hlongest,hdelivered⟩ := ih hbehind hagree
      have hdrop : payload.drop behind.toNat=
          (payload.drop offset.toNat).drop e.bytes.length := by
        rw [hnext,List.drop_drop]
      rw [hdrop] at hlongest
      rw [hrun]
      refine ⟨e::entries,longest_cons hentry hlongest,?_⟩
      split
      next hneg => exact delivered_broken hneg
      next hgo => exact delivered_cons (not_lt.mp hgo) hdelivered

end Delivered

section Pages

variable {storage : Storage δ} {path : CString} {callback : ListCb δ U}

/-- What is right about a page that was received, for this callback: nothing at or behind its
length was read, and unless the callback changes the buffer the longest list of entries that
it begins with was delivered. -/
structure PageTrace.Right (callback : ListCb δ U) (page : PageTrace) : Prop where
  /-- The page. -/
  received : Received page.result
  /-- The places that were read. -/
  inside : ∀ place∈page.reads,place<page.result.length.toNat
  /-- What was delivered. -/
  delivered : LeavesBuffer callback → ∃ entries,
    Longest entries page.result.entryCount.toNat (page.result.payload.drop 8) ∧
    Delivered page.walk entries page.result.entryCount.toNat

/-- The loop of `remote_list_dir` over a page that was received. -/
theorem right_of_received (callback : ListCb δ U) {result : ListResult} (startIndex : UInt32) {s : Session δ U}
    (hreceived : Received result) (hheld : Agree s.scratch 0 result.payload) :
    PageTrace.Right callback ⟨startIndex,result,
      (dirEntries callback result.length result.entryCount.toNat 8 s).1⟩ := by
  have height : (8 : UInt32).toNat=8 := rfl
  have hheader := hreceived.header
  have hoffset : (8 : UInt32)≤ result.length := by
    rw [UInt32.le_iff_toNat_le,height]
    exact hheader
  refine ⟨hreceived,fun place hplace => ?_,fun hkeeps => ?_⟩
  · rcases List.mem_append.mp hplace with hplace | hplace
    · have hlow := List.mem_range.mp hplace
      dsimp only
      omega
    · exact dirEntries_inside hoffset hreceived.fits s place hplace
  · exact dirEntries_delivered hkeeps hoffset hreceived.fits hreceived.whole hheld

/-- The result of the loop is not positive. -/
theorem dirEntries_ret (callback : ListCb δ U) (outLength : UInt32) (left : ℕ)
    (offset : UInt32) (s : Session δ U) :
    (dirEntries callback outLength left offset s).1.ret≤0 := by
  induction left generalizing offset s with
  | zero => exact Int.le_refl _
  | succ left ih =>
    unfold dirEntries
    dsimp only
    split
    · exact Int.neg_ofNat_le_ofNat 3 0
    · split
      · exact Int.neg_ofNat_le_ofNat 3 0
      · split
        · exact Int.neg_ofNat_le_ofNat 3 0
        · split
          next hneg => exact Int.le_of_lt hneg
          next => exact ih _ _

/-- What `remote_list_page` does with the page that it receives. -/
def PageEnd (callback : ListCb δ U) (run : PageReply×Option PageTrace) : Prop :=
  ∀ page,run.2=some page → page.Right callback ∧ run.1.ret=page.walk.ret ∧
    run.1.calls=page.walk.calls

theorem wp_tracedPage (storage : Storage δ) (path : CString) (callback : ListCb δ U)
    (startIndex maxEntries : UInt32) (s : Session δ U) :
    wp (tracedPage storage path startIndex maxEntries callback)
      (fun run _ => PageEnd callback run) (fun _ => False) s := by
  unfold tracedPage
  split
  · intro page hpage
    cases hpage
  · refine wp_seq (received_storageList _ _ startIndex maxEntries s) (fun reply t h => ?_)
    cases reply with
    | error code =>
      intro page hpage
      cases hpage
    | ok result =>
      obtain ⟨hreceived,hheld⟩ := h result rfl
      obtain ⟨hwalk,-,-⟩ :=
        pageEntries_eq callback result.length result.entryCount.toNat 8 0 t
      have hright := right_of_received callback startIndex hreceived hheld
      have hret := dirEntries_ret callback result.length result.entryCount.toNat 8 t
      dsimp only
      rw [wp_bind,wp_access,hwalk]
      split
      · intro page hpage
        cases hpage
        exact ⟨hright,rfl,rfl⟩
      next hgo =>
        intro page hpage
        cases hpage
        exact ⟨hright,(Int.le_antisymm hret (not_lt.mp hgo)).symm,rfl⟩

/-- The pages of a listing: all of them are right, the indices go up, and a loop that fails
ends the listing with its result. -/
structure DirEnd (callback : ListCb δ U) (ret : ℤ) (pages : List PageTrace) : Prop where
  /-- The pages. -/
  right : ∀ page∈pages,page.Right callback
  /-- Their indices. -/
  ascending : pages.Pairwise fun first second => first.startIndex<second.startIndex
  /-- A loop that fails. -/
  failed : ∀ page∈pages,page.walk.ret<0 → ret=page.walk.ret ∧ pages.getLast?=some page

theorem dirEnd_nil (ret : ℤ) : DirEnd callback ret [] where
  right page hpage := absurd hpage List.not_mem_nil
  ascending := List.Pairwise.nil
  failed page hpage := absurd hpage List.not_mem_nil

theorem dirEnd_last {page : PageTrace} {ret : ℤ} (hright : page.Right callback)
    (h : page.walk.ret<0 → ret=page.walk.ret) : DirEnd callback ret [page] where
  right other hother := by
    obtain rfl := List.mem_singleton.mp hother
    exact hright
  ascending := List.pairwise_singleton _ _
  failed other hother hneg := by
    obtain rfl := List.mem_singleton.mp hother
    exact ⟨h hneg,rfl⟩

theorem DirEnd.cons {page : PageTrace} {ret : ℤ} {pages : List PageTrace}
    (h : DirEnd callback ret pages) (hright : page.Right callback)
    (hbefore : ∀ other∈pages,page.startIndex<other.startIndex) (hgo : ¬page.walk.ret<0) :
    DirEnd callback ret (page::pages) where
  right := List.forall_mem_cons.mpr ⟨hright,h.right⟩
  ascending := List.pairwise_cons.mpr ⟨hbefore,h.ascending⟩
  failed other hother hneg := by
    rcases List.mem_cons.mp hother with rfl | hother
    · exact absurd hneg hgo
    · obtain ⟨hret,hlast⟩ := h.failed other hother hneg
      refine ⟨hret,?_⟩
      rw [List.getLast?_cons,hlast]
      rfl

/-- With enough fuel the loop of `remote_list_dir` ends. -/
theorem wp_dirPages (storage : Storage δ) (path : CString) (callback : ListCb δ U)
    (fuel : ℕ) (startIndex guard : UInt32) (hguard : guard.toNat≤listGuard)
    (s : Session δ U) :
    wp (dirPages storage path callback fuel startIndex guard)
      (fun run _ => (listGuard<guard.toNat+fuel → run.isSome) ∧
        ∀ ret pages,run=some (ret,pages) → DirEnd callback ret pages ∧
          pages.length+guard.toNat≤listGuard+1 ∧
          ∀ page∈pages,startIndex≤page.startIndex) (fun _ => False) s := by
  have hmost : listGuard=4096 := rfl
  have hone : (1 : UInt32).toNat=1 := rfl
  have hlimit : (UInt32.ofNat listGuard).toNat=listGuard := rfl
  induction fuel generalizing startIndex guard s with
  | zero =>
    refine ⟨fun h => by omega,fun ret pages hrun => ?_⟩
    cases hrun
  | succ fuel ih =>
    unfold dirPages
    refine wp_seq (received_storageList _ _ startIndex listPageEntries s) (fun reply t h => ?_)
    have hsingle : ∀ (page : PageTrace) (code : ℤ) (u : Session δ U),page.Right callback →
        page.startIndex=startIndex → (page.walk.ret<0 → code=page.walk.ret) →
        wp (pure (some (code,[page])) : Prog (Session δ U) (Option (ℤ×List PageTrace)))
          (fun run _ => (listGuard<guard.toNat+(fuel+1) → run.isSome) ∧
            ∀ ret pages,run=some (ret,pages) → DirEnd callback ret pages ∧
              pages.length+guard.toNat≤listGuard+1 ∧
              ∀ page∈pages,startIndex≤page.startIndex) (fun _ => False) u := by
      intro page code u hright hstart hcode
      refine ⟨fun _ => rfl,fun ret pages hrun => ?_⟩
      cases hrun
      refine ⟨dirEnd_last hright hcode,?_,fun other hother => ?_⟩
      · rw [List.length_singleton]
        omega
      · obtain rfl := List.mem_singleton.mp hother
        rw [hstart]
        exact UInt32.le_refl _
    cases reply with
    | error code =>
      refine ⟨fun _ => rfl,fun ret pages hrun => ?_⟩
      cases hrun
      refine ⟨dirEnd_nil _,?_,fun page hpage => absurd hpage List.not_mem_nil⟩
      rw [List.length_nil]
      omega
    | ok result =>
      obtain ⟨hreceived,hheld⟩ := h result rfl
      have hright := right_of_received callback startIndex hreceived hheld
      dsimp only
      rw [wp_bind,wp_access]
      split
      · exact hsingle _ _ _ hright rfl fun _ => rfl
      next hgo =>
        split
        · exact hsingle _ _ _ hright rfl fun hneg => absurd hneg hgo
        · split
          · exact hsingle _ _ _ hright rfl fun hneg => absurd hneg hgo
          next hmore =>
            obtain ⟨hnext,hleft⟩ := not_or.mp hmore
            have hsucc : (guard+1).toNat=guard.toNat+1 := by
              rw [UInt32.toNat_add,hone]
              omega
            rw [UInt32.not_lt,UInt32.le_iff_toNat_le,hsucc,hlimit] at hleft
            rw [UInt32.not_le] at hnext
            refine wp_seq (ih result.nextIndex (guard+1) (by rw [hsucc]; exact hleft) _)
              ?_
            rintro rest u ⟨hends,hpages⟩
            rw [hsucc] at hends hpages
            refine ⟨fun hfuel => ?_,fun ret pages hrun => ?_⟩
            · rw [Option.isSome_map]
              exact hends (by omega)
            · obtain ⟨other,hother,hmap⟩ := Option.map_eq_some_iff.mp hrun
              cases hmap
              obtain ⟨hend,hcount,hstarts⟩ := hpages _ _ hother
              have hbefore : ∀ page∈other.2,startIndex<page.startIndex := fun page hpage =>
                UInt32.lt_of_lt_of_le hnext (hstarts page hpage)
              refine ⟨hend.cons hright hbefore hgo,?_,?_⟩
              · rw [List.length_cons]
                omega
              · exact List.forall_mem_cons.mpr ⟨UInt32.le_refl _,fun page hpage =>
                  UInt32.le_of_lt (hbefore page hpage)⟩

end Pages

section Agreement

variable {storage : Storage δ} {path : CString} {callback : ListCb δ U}

/-- The function `remote_list_page`, without the page that was received. -/
theorem remoteListPage_eq (startIndex maxEntries : UInt32) (s : Session δ U) :
    remoteListPage storage path startIndex maxEntries callback s=
      (tracedPage storage path startIndex maxEntries callback >>= fun run => pure run.1) s := by
  unfold remoteListPage tracedPage
  split
  · rfl
  · rw [bind_bind]
    refine bind_congr_run (received_storageList _ _ startIndex maxEntries s) fun reply t h => ?_
    cases reply with
    | error code => rfl
    | ok result =>
      obtain ⟨hreceived,-⟩ := h result rfl
      have height : (8 : UInt32).toNat=8 := rfl
      have hoffset : (8 : UInt32)≤ result.length := by
        rw [UInt32.le_iff_toNat_le,height]
        exact hreceived.header
      obtain ⟨hwalk,hlast,hcount⟩ :=
        pageEntries_eq callback result.length result.entryCount.toNat 8 0 t
      have hcalls := takeEntries_calls callback result.length.toNat result.entryCount.toNat
        (8 : UInt32).toNat t
      have heq := dirEntries_eq callback result.entryCount.toNat hoffset hreceived.fits t
      rw [heq] at hcalls
      dsimp only at hcalls ⊢
      have hfirst : access (takeEntries callback result.length.toNat
          result.entryCount.toNat 8) t=(some _,_) := access_run heq
      have hsecond : access (pageEntries callback result.length
          result.entryCount.toNat 8 0) t=(some _,_) := access_run rfl
      rw [bind_bind,bind_run hfirst,bind_run hsecond,hwalk,hlast]
      dsimp only
      split
      · rfl
      next hgo =>
        have hret := not_lt.mp hgo
        rw [(hcalls.2 hret).1,hcount hret,UInt32.zero_add]
        rfl

/-- On every page `remote_list_dir` does what `remote_list_page` does for the same index and
eight entries: the same calls and reads, and it fails where that function fails. -/
def PageByPage (storage : Storage δ) (path : CString) (callback : ListCb δ U) : Prop :=
  ∀ fuel startIndex guard,dirPages storage path callback (fuel+1) startIndex guard=(do
    let run ← tracedPage storage path startIndex listPageEntries callback
    match run.1.out with
    | none => pure (some (run.1.ret,run.2.toList))
    | some (nextIndex,_) =>
      if nextIndex=clpStorageListDone then pure (some (0,run.2.toList))
      else if nextIndex≤ startIndex ∨ UInt32.ofNat listGuard<guard+1 then
        pure (some (-3,run.2.toList))
      else do
        let rest ← dirPages storage path callback fuel nextIndex (guard+1)
        pure (rest.map fun rest => (rest.1,run.2.toList++rest.2)))

theorem pageByPage (hroom : storageScratch storage=true) :
    PageByPage storage path callback := by
  intro fuel startIndex guard
  have hgo : ¬storageScratch storage=false := by
    rw [hroom]
    exact Bool.noConfusion
  funext s
  conv_lhs => unfold dirPages
  unfold tracedPage
  rw [if_neg hgo,bind_bind]
  refine bind_congr_run (received_storageList _ _ startIndex listPageEntries s)
    fun reply t _ => ?_
  cases reply with
  | error code => rfl
  | ok result =>
    obtain ⟨hwalk,hlast,-⟩ :=
      pageEntries_eq callback result.length result.entryCount.toNat 8 0 t
    have hfirst : access (dirEntries callback result.length
        result.entryCount.toNat 8) t=(some _,_) := access_run rfl
    have hsecond : access (pageEntries callback result.length
        result.entryCount.toNat 8 0) t=(some _,_) := access_run rfl
    dsimp only
    rw [bind_bind,bind_run hfirst,bind_run hsecond,hwalk,hlast]
    by_cases hneg : (dirEntries callback result.length result.entryCount.toNat 8 t).1.ret<0
    · rw [if_pos hneg,if_pos hneg]
      rfl
    · rw [if_neg hneg,if_neg hneg]
      rfl

/-- The calls of a listing. -/
def dirReply (run : Option (ℤ×List PageTrace)) : Option (ℤ×List Call) :=
  run.map fun run => (run.1,run.2.flatMap fun page => page.walk.calls)

theorem dirReply_cons (page : PageTrace) (run : Option (ℤ×List PageTrace)) :
    dirReply (run.map fun run => (run.1,page::run.2))=
      (dirReply run).map fun reply => (reply.1,page.walk.calls++reply.2) := by
  cases run <;> rfl

/-- Both loops over the pages go on in the same way. -/
def PagesAgree (storage : Storage δ) (path : CString) (callback : ListCb δ U) (left : ℕ)
    (startIndex guard : UInt32) (s : Session δ U) : Prop :=
  (listPages storage path callback left startIndex >>= fun reply => pure (some reply)) s=
    (dirPages storage path callback (left+1) startIndex guard >>= fun run =>
      pure (dirReply run)) s

theorem pagesAgree_round (left : ℕ) (startIndex guard : UInt32)
    (hguard : left+guard.toNat=listGuard)
    (hmore : ∀ n,left=n+1 → ∀ nextIndex (s : Session δ U),
      PagesAgree storage path callback n nextIndex (guard+1) s) (s : Session δ U) :
    PagesAgree storage path callback left startIndex guard s := by
  have hmost : listGuard=4096 := rfl
  have hone : (1 : UInt32).toNat=1 := rfl
  have hlimit : (UInt32.ofNat listGuard).toNat=listGuard := rfl
  have hsucc : (guard+1).toNat=guard.toNat+1 := by
    rw [UInt32.toNat_add,hone]
    omega
  unfold PagesAgree
  rw [listPages_eq]
  conv_rhs => unfold dirPages
  rw [bind_bind,bind_bind]
  refine bind_congr_run (received_storageList _ _ startIndex listPageEntries s)
    fun reply t h => ?_
  cases reply with
  | error code => rfl
  | ok result =>
    obtain ⟨hreceived,-⟩ := h result rfl
    have height : (8 : UInt32).toNat=8 := rfl
    have hoffset : (8 : UInt32)≤ result.length := by
      rw [UInt32.le_iff_toNat_le,height]
      exact hreceived.header
    have heq := dirEntries_eq callback result.entryCount.toNat hoffset hreceived.fits t
    obtain ⟨⟨walk,u⟩,hwalk⟩ : ∃ ended,
        dirEntries callback result.length result.entryCount.toNat 8 t=ended := ⟨_,rfl⟩
    rw [hwalk] at heq
    have hfirst : access (takeEntries callback result.length.toNat
        result.entryCount.toNat 8) t=(some (walk.ret,walk.calls),u) := access_run heq
    have hsecond : access (dirEntries callback result.length
        result.entryCount.toNat 8) t=(some walk,u) := access_run hwalk
    have hall : walk.calls++[]=walk.calls := List.append_nil _
    dsimp only
    rw [bind_bind,bind_bind,bind_run hfirst,bind_run hsecond]
    dsimp only
    by_cases hneg : walk.ret<0
    · rw [if_pos hneg,if_pos hneg,pure_bind,pure_bind]
      unfold dirReply
      simp only [Option.map_some,List.flatMap_cons,List.flatMap_nil,hall]
    rw [if_neg hneg,if_neg hneg]
    by_cases hdone : result.nextIndex=clpStorageListDone
    · rw [if_pos hdone,if_pos hdone,pure_bind,pure_bind]
      unfold dirReply
      simp only [Option.map_some,List.flatMap_cons,List.flatMap_nil,hall]
    rw [if_neg hdone,if_neg hdone]
    by_cases hle : result.nextIndex≤ startIndex
    · rw [if_pos hle,if_pos (Or.inl hle),pure_bind,pure_bind]
      unfold dirReply
      simp only [Option.map_some,List.flatMap_cons,List.flatMap_nil,hall]
    rw [if_neg hle]
    have hover : UInt32.ofNat listGuard<guard+1 ↔ left=0 := by
      rw [UInt32.lt_iff_toNat_lt,hsucc,hlimit]
      omega
    cases left with
    | zero =>
      rw [if_pos (Or.inr (hover.mpr rfl)),pure_bind,pure_bind]
      unfold dirReply
      simp only [Option.map_some,List.flatMap_cons,List.flatMap_nil,hall]
    | succ left =>
      rw [if_neg (not_or_intro hle fun h => absurd (hover.mp h) (Nat.succ_ne_zero _))]
      have hrest := hmore left rfl result.nextIndex u
      unfold PagesAgree at hrest
      have hgoes := bind_eq (fun reply : Option (ℤ×List Call) =>
        pure (reply.map fun reply => (reply.1,walk.calls++reply.2))) hrest
      rw [bind_bind,bind_bind] at hgoes
      simp only [pure_bind] at hgoes
      rw [bind_bind,bind_bind]
      simp only [pure_bind,dirReply_cons]
      exact hgoes

theorem pagesAgree (left : ℕ) (startIndex guard : UInt32)
    (hguard : left+guard.toNat=listGuard) (s : Session δ U) :
    PagesAgree storage path callback left startIndex guard s := by
  have hmost : listGuard=4096 := rfl
  have hone : (1 : UInt32).toNat=1 := rfl
  induction left generalizing startIndex guard s with
  | zero =>
    exact pagesAgree_round 0 startIndex guard hguard
      (fun n hn => absurd hn.symm (Nat.succ_ne_zero n)) s
  | succ left ih =>
    refine pagesAgree_round (left+1) startIndex guard hguard (fun n hn nextIndex s => ?_) s
    obtain rfl : left=n := Nat.succ.inj hn
    apply ih
    rw [UInt32.toNat_add,hone]
    omega

/-- The function `remote_list_dir`, without the pages that were received. -/
theorem remoteListDir_eq (storage : Storage δ) (path : CString) (callback : ListCb δ U)
    (s : Session δ U) :
    (remoteListDir storage path callback >>= fun reply => pure (some reply)) s=
      (tracedDir storage path callback (listGuard+1) >>= fun run => pure (dirReply run)) s := by
  unfold remoteListDir tracedDir
  split
  · rfl
  · exact pagesAgree listGuard 0 0 rfl s

/-- More fuel changes nothing once the loop ends. -/
theorem dirPages_fuel (fuel : ℕ) (startIndex guard : UInt32) {s t : Session δ U}
    {run : ℤ×List PageTrace}
    (h : dirPages storage path callback fuel startIndex guard s=(some (some run),t)) :
    dirPages storage path callback (fuel+1) startIndex guard s=(some (some run),t) := by
  induction fuel generalizing startIndex guard s t run with
  | zero => cases h
  | succ fuel ih =>
    obtain ⟨reply,u,hreply,-⟩ :=
      wp_total (received_storageList storage path startIndex listPageEntries s)
    unfold dirPages at h ⊢
    rw [bind_run hreply] at h ⊢
    cases reply with
    | error code => exact h
    | ok result =>
      have hwalk : access (dirEntries callback result.length
          result.entryCount.toNat 8) u=(some _,_) := access_run rfl
      dsimp only at h ⊢
      rw [bind_run hwalk] at h ⊢
      split at h
      next hneg =>
        rw [if_pos hneg]
        exact h
      next hneg =>
        rw [if_neg hneg]
        split at h
        next hdone =>
          rw [if_pos hdone]
          exact h
        next hdone =>
          rw [if_neg hdone]
          split at h
          next hend =>
            rw [if_pos hend]
            exact h
          next hend =>
            rw [if_neg hend]
            rcases hrest : dirPages storage path callback fuel result.nextIndex (guard+1)
              (dirEntries callback result.length result.entryCount.toNat 8 u).2 with
              ⟨_ | rest,v⟩
            · rw [bind_stuck hrest] at h
              cases h
            · rw [bind_run hrest] at h
              cases rest with
              | none => cases h
              | some rest =>
                rw [bind_run (ih _ _ hrest)]
                exact h

/-- For all bytes that are received as the pages of a directory and all numbers of entries
that they claim to have, `remote_list_page` and `remote_list_dir` read nothing at or behind
the length of a page, and deliver the longest list of entries that it begins with and fail
with -3 if there should be more, unless the callback breaks the listing off. On every page
both do the same, and `remote_list_dir` ends after at most 4097 pages, whatever is received
for them and however often the loop could go on. -/
theorem pages_delivered (storage : Storage δ) (path : CString) (callback : ListCb δ U)
    (s : Session δ U) :
    (∀ startIndex maxEntries,∃ run t,
      tracedPage storage path startIndex maxEntries callback s=(some run,t) ∧
      remoteListPage storage path startIndex maxEntries callback s=(some run.1,t) ∧
      PageEnd callback run) ∧
    (∃ ret pages t,
      (∀ fuel,listGuard<fuel →
        tracedDir storage path callback fuel s=(some (some (ret,pages)),t)) ∧
      remoteListDir storage path callback s=
        (some (ret,pages.flatMap fun page => page.walk.calls),t) ∧
      DirEnd callback ret pages ∧ pages.length≤listGuard+1) ∧
    (storageScratch storage=true → PageByPage storage path callback) := by
  refine ⟨fun startIndex maxEntries => ?_,?_,pageByPage⟩
  · obtain ⟨run,t,hrun,hend⟩ := wp_total
      (wp_tracedPage storage path callback startIndex maxEntries s)
    refine ⟨run,t,hrun,?_,hend⟩
    rw [remoteListPage_eq,bind_run hrun]
    rfl
  · obtain ⟨ret,pages,t,hdir,hend,hcount⟩ : ∃ ret pages t,
        tracedDir storage path callback (listGuard+1) s=(some (some (ret,pages)),t) ∧
        DirEnd callback ret pages ∧ pages.length≤listGuard+1 := by
      unfold tracedDir
      split
      · exact ⟨-1,[],s,rfl,dirEnd_nil _,Nat.zero_le _⟩
      · obtain ⟨run,t,hrun,hsome,hpages⟩ := wp_total
          (wp_dirPages storage path callback (listGuard+1) 0 0 (Nat.zero_le _) s)
        have hzero : (0 : UInt32).toNat=0 := rfl
        obtain ⟨⟨ret,pages⟩,rfl⟩ := Option.isSome_iff_exists.mp (hsome (by omega))
        obtain ⟨hend,hcount,-⟩ := hpages ret pages rfl
        exact ⟨ret,pages,t,hrun,hend,by omega⟩
    have hmore : ∀ more,tracedDir storage path callback (listGuard+1+more) s=
        (some (some (ret,pages)),t) := by
      intro more
      unfold tracedDir at hdir ⊢
      split at hdir
      next hroom =>
        rw [if_pos hroom]
        exact hdir
      next hroom =>
        rw [if_neg hroom]
        induction more with
        | zero => exact hdir
        | succ more ih => exact dirPages_fuel _ _ _ ih
    refine ⟨ret,pages,t,fun fuel hfuel => ?_,?_,hend,hcount⟩
    · obtain ⟨more,rfl⟩ := Nat.exists_eq_add_of_le (Nat.succ_le_of_lt hfuel)
      exact hmore more
    · have heq := remoteListDir_eq storage path callback s
      rw [bind_run hdir] at heq
      rcases hreply : remoteListDir storage path callback s with ⟨_ | reply,u⟩
      · rw [bind_stuck hreply] at heq
        cases heq
      · rw [bind_run hreply] at heq
        cases heq
        rfl

end Agreement

end ChisLink.RemotePages
