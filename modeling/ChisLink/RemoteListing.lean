import ChisLink.AnsweringDevice

/-!
# Listings of a remote directory

A page of a remote directory is received into the scratch buffer of the storage client
and its entries are taken from there, one before each call of the callback. The requests
of the path operations are built in the same buffer. A callback may use the client, so it
is a function on the link, the buffer and whatever else it has.
-/

namespace ChisLink.RemoteListing

open DriverPrograms WireProtocol StorageClient StorageBoundary AnsweringDevice
open StreamServer (length_payloadWords)

/-- Index behind the last page. -/
def clpStorageListDone : UInt32 := 0xffffffff

/-- Bytes of an entry before its name. -/
def clpStorageDirEntryBytes : ℕ := 12

/-- Bytes of the buffer for a page. -/
def listPageBytes : UInt32 := 512

/-- Entries that are asked for by a listing. -/
def listPageEntries : UInt32 := 8

/-- Pages after the first that a listing asks for at most. -/
def listGuard : ℕ := 4096

/-- A storage client in use. -/
structure Session (δ U : Type) where
  /-- The link. -/
  link : Link δ
  /-- The bytes of the scratch buffer. Those behind its size are not used. -/
  scratch : ℕ → UInt8
  /-- What the callback has besides. -/
  user : U

/-- An entry as it is taken from the buffer. The name is not longer than its length says,
and its terminator is behind it. -/
structure DirEntry where
  /-- Name. -/
  name : List UInt8
  /-- Size in bytes. -/
  size : UInt64
  /-- Type. -/
  type : UInt8
  /-- Flags. -/
  flags : UInt8
deriving DecidableEq

/-- A callback of a listing. A negative result breaks the listing off. -/
abbrev ListCb (δ U : Type) : Type := DirEntry → Session δ U → ℤ×Session δ U

/-- A call of the callback: the entry it was given, and its result. -/
structure Call where
  /-- The entry. -/
  entry : DirEntry
  /-- The result. -/
  ret : ℤ
deriving DecidableEq

variable {δ U α : Type}

section Operations

/-- Put bytes in front of the scratch buffer. -/
def stage (bytes : List UInt8) : Prog (Session δ U) Unit :=
  update fun s => {s with scratch := fun i => bytes.getD i (s.scratch i)}

/-- Do something on the link. -/
def onLink (run : Prog (Link δ) α) : Prog (Session δ U) α := fun s =>
  ((run s.link).1,{s with link := (run s.link).2})

/-- The request for a path behind some fixed bytes, if it is made. -/
def pathRequest (storage : Storage δ) (fixed : List UInt8) (path : CString) :
    Option (List UInt8) :=
  (storagePathLength path).bind fun pathLen =>
    if storageRequestScratch storage (fixed.length+pathLen) then some (fixed++path.wire)
    else none

/-- Build a request in the scratch buffer and go on with it. -/
def overScratch (request : Option (List UInt8)) (run : Prog (Link δ) α) :
    Prog (Session δ U) α :=
  match request with
  | none => onLink run
  | some bytes => do
    stage bytes
    onLink run

/-- The function `cl_storage_stat`, with the scratch buffer. -/
def storageStat (storage : Storage δ) (path : CString) :
    Prog (Session δ U) (Except ℤ FileStat) :=
  overScratch (pathRequest storage [] path) (clStorageStat storage path)

/-- The function `cl_storage_open`, with the scratch buffer. -/
def storageOpen (storage : Storage δ) (path : CString) (flags : UInt32) :
    Prog (Session δ U) (Except ℤ UInt16) :=
  overScratch (pathRequest storage (storeLe32 flags 4) path) (clStorageOpen storage path flags)

/-- Bytes of a list request before the path. -/
def listFixed (startIndex maxEntries capacity : UInt32) : List UInt8 :=
  storeLe32 startIndex 4++storeLe32 maxEntries 4++storeLe32 capacity 4

/-- The function `cl_storage_list` into the scratch buffer. -/
def storageList (storage : Storage δ) (path : CString)
    (startIndex maxEntries capacity : UInt32) : Prog (Session δ U) (Except ℤ ListResult) := do
  let caps ← inspect fun s => s.link.client.caps
  let request := if capacity<clpStorageListResponseHeaderBytes ∨ caps &&& clpCapDirList=0
    then none else pathRequest storage (listFixed startIndex maxEntries capacity) path
  let reply ← overScratch request (clStorageList storage path startIndex maxEntries capacity)
  match reply with
  | .error code => pure (.error code)
  | .ok result => do
    stage result.payload
    pure (.ok result)

end Operations

/-- Bytes of the buffer from a place on. -/
def bytesAt (scratch : ℕ → UInt8) (place count : ℕ) : List UInt8 :=
  (List.range count).map fun i => scratch (place+i)

/-- A size from its two words. -/
def sizeOfWords (low high : UInt32) : UInt64 := low.toUInt64 ||| (high.toUInt64 <<< 32)

/-- One round of the loops over a page: the entry at a place of the buffer and the place
behind it, unless it is malformed. -/
def takeEntry (scratch : ℕ → UInt8) (place stop : ℕ) : Option (DirEntry×ℕ) :=
  if stop<place+clpStorageDirEntryBytes then none
  else
    let nameLen := (scratch place).toNat
    if nameLen=0 ∨ stop<place+clpStorageDirEntryBytes+nameLen+1 then none
    else if scratch (place+clpStorageDirEntryBytes+nameLen)≠0 then none
    else some
      ({ name := bytesAt scratch (place+clpStorageDirEntryBytes) nameLen
         size := sizeOfWords (loadLe32 (bytesAt scratch (place+4) 4))
           (loadLe32 (bytesAt scratch (place+8) 4))
         type := scratch (place+1)
         flags := scratch (place+2) },
        place+clpStorageDirEntryBytes+nameLen+1)

/-- The loops over a page: the result and the calls that were made. -/
def takeEntries (callback : ListCb δ U) (stop : ℕ) :
    ℕ → ℕ → Session δ U → (ℤ×List Call)×Session δ U
  | 0, _, s => ((0,[]),s)
  | count+1, place, s =>
    match takeEntry s.scratch place stop with
    | none => ((-3,[]),s)
    | some (entry,next) =>
      let reply := callback entry s
      if reply.1<0 then ((reply.1,[⟨entry,reply.1⟩]),reply.2)
      else
        let rest := takeEntries callback stop count next reply.2
        ((rest.1.1,⟨entry,reply.1⟩::rest.1.2),rest.2)

/-- The function `storage_scratch` with the bytes for a page. -/
def storageScratch (storage : Storage δ) : Bool :=
  storage.scratchSize.any fun size => listPageBytes.toNat≤ size

/-- What `remote_list_page` gives: the result, the calls that were made, and the index and
the count that are stored on success. -/
structure PageReply where
  /-- The result. -/
  ret : ℤ
  /-- The calls. -/
  calls : List Call
  /-- The values in `out_next_index` and `out_entry_count`. -/
  out : Option (UInt32×UInt32)

/-- The function `remote_list_page`. -/
def remoteListPage (storage : Storage δ) (path : CString) (startIndex maxEntries : UInt32)
    (callback : ListCb δ U) : Prog (Session δ U) PageReply :=
  if storageScratch storage=false then pure ⟨-1,[],none⟩
  else do
    let reply ← storageList storage path startIndex maxEntries listPageBytes
    match reply with
    | .error code => pure ⟨code,[],none⟩
    | .ok result => do
      let ended ← access (takeEntries callback result.length.toNat result.entryCount.toNat 8)
      if ended.1<0 then pure ⟨ended.1,ended.2,none⟩
      else pure ⟨0,ended.2,some (result.nextIndex,UInt32.ofNat ended.2.length)⟩

/-- The loop of `remote_list_dir` over the pages: the result and the calls that were made. -/
def listPages (storage : Storage δ) (path : CString) (callback : ListCb δ U) :
    ℕ → UInt32 → Prog (Session δ U) (ℤ×List Call)
  | left, startIndex => do
    let reply ← storageList storage path startIndex listPageEntries listPageBytes
    match reply with
    | .error code => pure (code,[])
    | .ok result => do
      let ended ← access (takeEntries callback result.length.toNat result.entryCount.toNat 8)
      if ended.1<0 then pure ended
      else if result.nextIndex=clpStorageListDone then pure (0,ended.2)
      else if result.nextIndex≤ startIndex then pure (-3,ended.2)
      else match left with
        | 0 => pure (-3,ended.2)
        | left+1 => do
          let rest ← listPages storage path callback left result.nextIndex
          pure (rest.1,ended.2++rest.2)

/-- The function `remote_list_dir`. -/
def remoteListDir (storage : Storage δ) (path : CString) (callback : ListCb δ U) :
    Prog (Session δ U) (ℤ×List Call) :=
  if storageScratch storage=false then pure (-1,[])
  else listPages storage path callback listGuard 0

section Sent

/-- An entry as the server sends it. -/
structure SentEntry extends DirEntry where
  /-- The byte that is not used. -/
  reserved : UInt8
  /-- It has a name. -/
  name_ne : name≠[]
  /-- The length of the name fits a byte. -/
  name_le : name.length≤255

/-- Its bytes. -/
def SentEntry.bytes (e : SentEntry) : List UInt8 :=
  [UInt8.ofNat e.name.length,e.type,e.flags,e.reserved]++
    (storeLe32 e.size.toUInt32 4++(storeLe32 (e.size >>> 32).toUInt32 4++(e.name++[0])))

/-- A page of a directory, of no more bytes than there is room for. -/
structure Page where
  /-- The entries. -/
  entries : List SentEntry
  /-- Index of the next page. -/
  nextIndex : UInt32
  /-- They fit the buffer. -/
  fits : 8+(entries.flatMap SentEntry.bytes).length≤listPageBytes.toNat

/-- The bytes of a page. -/
def Page.bytes (page : Page) : List UInt8 :=
  storeLe32 page.nextIndex 4++(storeLe32 (UInt32.ofNat page.entries.length) 4++
    page.entries.flatMap SentEntry.bytes)

/-- The buffer holds an entry at a place, as it was sent. The byte that is not used does
not count. -/
def HoldsAt (scratch : ℕ → UInt8) (place : ℕ) (e : SentEntry) : Prop :=
  ∀ i<e.bytes.length,i≠3 → scratch (place+i)=e.bytes.getD i 0

/-- The buffer holds these bytes at a place. -/
def Agree (scratch : ℕ → UInt8) (place : ℕ) (bytes : List UInt8) : Prop :=
  ∀ i<bytes.length,scratch (place+i)=bytes.getD i 0

theorem agree_cons {scratch : ℕ → UInt8} {place : ℕ} {byte : UInt8} {bytes : List UInt8} :
    Agree scratch place (byte::bytes) ↔ scratch place=byte ∧ Agree scratch (place+1) bytes := by
  constructor
  · intro h
    refine ⟨h 0 (by simp),fun i hi => ?_⟩
    have hsucc := h (i+1) (by simpa using hi)
    rw [Nat.add_right_comm,Nat.add_assoc place i 1]
    exact hsucc
  · rintro ⟨hbyte,hbytes⟩ i hi
    cases i with
    | zero => exact hbyte
    | succ i =>
      have hi := hbytes i (by simpa using hi)
      rw [Nat.add_right_comm,Nat.add_assoc place i 1] at hi
      exact hi

theorem agree_append {scratch : ℕ → UInt8} {place : ℕ} {first second : List UInt8} :
    Agree scratch place (first++second) ↔
      Agree scratch place first ∧ Agree scratch (place+first.length) second := by
  induction first generalizing place with
  | nil => exact ⟨fun h => ⟨fun i hi => absurd hi (Nat.not_lt_zero i),h⟩,fun h => h.2⟩
  | cons byte first ih =>
    have hplace : place+1+first.length=place+(first.length+1) := by omega
    rw [List.cons_append,agree_cons,agree_cons,ih,hplace,List.length_cons,and_assoc]

/-- The bytes that are read are those that are held. -/
theorem agree_iff {scratch : ℕ → UInt8} {place : ℕ} {bytes : List UInt8} :
    Agree scratch place bytes ↔ bytesAt scratch place bytes.length=bytes := by
  unfold Agree bytesAt
  constructor
  · intro h
    apply List.ext_getElem (by simp)
    intro i hi hi'
    rw [List.getElem_map,List.getElem_range,h i hi',List.getD_eq_getElem _ _ hi']
  · intro h i hi
    have hget := congrArg (fun l => l.getD i 0) h
    rw [← hget,List.getD_eq_getElem _ _ (by simpa using hi),List.getElem_map,
      List.getElem_range]

theorem SentEntry.length_bytes (e : SentEntry) :
    e.bytes.length=clpStorageDirEntryBytes+e.name.length+1 := by
  have hfour : ∀ word,(storeLe32 word 4).length=4 := fun _ => rfl
  unfold SentEntry.bytes clpStorageDirEntryBytes
  simp only [List.length_append,hfour,List.length_cons,List.length_nil]
  omega

/-- An entry is held where its parts are held. -/
theorem holdsAt_iff {scratch : ℕ → UInt8} {place : ℕ} {e : SentEntry} :
    HoldsAt scratch place e ↔
      Agree scratch place [UInt8.ofNat e.name.length,e.type,e.flags] ∧
      Agree scratch (place+4) (storeLe32 e.size.toUInt32 4++
        (storeLe32 (e.size >>> 32).toUInt32 4++(e.name++[0]))) := by
  obtain ⟨tail,htail⟩ : ∃ tail,tail=storeLe32 e.size.toUInt32 4++
      (storeLe32 (e.size >>> 32).toUInt32 4++(e.name++[0])) := ⟨_,rfl⟩
  have hbytes : e.bytes=UInt8.ofNat e.name.length::e.type::e.flags::e.reserved::tail := by
    rw [htail]
    rfl
  rw [← htail]
  unfold HoldsAt Agree
  rw [hbytes]
  constructor
  · intro h
    refine ⟨fun i hi => ?_,fun i hi => ?_⟩
    · have hi' : i<3 := hi
      have hheld := h i (by simp only [List.length_cons]; omega) (by omega)
      rw [hheld]
      interval_cases i <;> rfl
    · have hheld := h (i+4) (by simpa using hi) (by omega)
      rw [Nat.add_right_comm,Nat.add_assoc]
      exact hheld
  · rintro ⟨hhead,hrest⟩ i hi hne
    by_cases hlow : i<3
    · rw [hhead i hlow]
      interval_cases i <;> rfl
    · obtain ⟨k,rfl⟩ : ∃ k,i=k+4 := ⟨i-4,by omega⟩
      have hheld := hrest k (by simpa using hi)
      rw [Nat.add_right_comm,Nat.add_assoc] at hheld
      exact hheld

/-- The words of a size. -/
theorem sizeOfWords_low (low high : UInt32) : (sizeOfWords low high).toUInt32=low := by
  unfold sizeOfWords
  apply UInt32.toBitVec_inj.mp
  ext i hi
  interval_cases i <;> simp

theorem sizeOfWords_high (low high : UInt32) :
    (sizeOfWords low high >>> 32).toUInt32=high := by
  unfold sizeOfWords
  apply UInt32.toBitVec_inj.mp
  ext i hi
  interval_cases i <;> simp

theorem sizeOfWords_words (size : UInt64) :
    sizeOfWords size.toUInt32 (size >>> 32).toUInt32=size := by
  unfold sizeOfWords
  apply UInt64.toBitVec_inj.mp
  ext i hi
  simp [-UInt64.toUInt64_toUInt32]
  interval_cases i <;> simp

/-- Four bytes that are loaded are those of the word. -/
theorem loadLe32_bytesAt {scratch : ℕ → UInt8} {place : ℕ} {word : UInt32} :
    loadLe32 (bytesAt scratch place 4)=word ↔ bytesAt scratch place 4=storeLe32 word 4 := by
  have hfour : bytesAt scratch place 4=
      [scratch place,scratch (place+1),scratch (place+2),scratch (place+3)] := rfl
  constructor
  · intro h
    rw [← h,hfour,storeLe32_loadLe32_four]
  · intro h
    rw [h,loadLe32_storeLe32]

theorem holdsAt_parts {scratch : ℕ → UInt8} {place : ℕ} {e : SentEntry} :
    HoldsAt scratch place e ↔ scratch place=UInt8.ofNat e.name.length ∧
      scratch (place+1)=e.type ∧ scratch (place+2)=e.flags ∧
      bytesAt scratch (place+4) 4=storeLe32 e.size.toUInt32 4 ∧
      bytesAt scratch (place+8) 4=storeLe32 (e.size >>> 32).toUInt32 4 ∧
      bytesAt scratch (place+12) e.name.length=e.name ∧
      scratch (place+12+e.name.length)=0 := by
  have hfour : ∀ word,(storeLe32 word 4).length=4 := fun _ => rfl
  have hnil : ∀ place,Agree scratch place [] ↔ True := fun place =>
    iff_true_intro fun i hi => absurd hi (Nat.not_lt_zero i)
  rw [holdsAt_iff,agree_append,agree_append,agree_append,agree_cons,agree_cons,agree_cons,
    agree_cons,hnil,hnil,hfour,hfour,agree_iff,agree_iff,agree_iff,hfour,hfour]
  have hplaces : place+1+1=place+2 ∧ place+4+4=place+8 ∧ place+8+4=place+12 :=
    ⟨rfl,rfl,rfl⟩
  rw [hplaces.1,hplaces.2.1,hplaces.2.2]
  simp only [and_true,and_assoc]

/-- An entry is taken as it was sent exactly where the buffer holds it. -/
theorem takeEntry_iff {scratch : ℕ → UInt8} {place stop : ℕ} {e : SentEntry}
    (hstop : place+e.bytes.length≤ stop) :
    (∃ next,takeEntry scratch place stop=some (e.toDirEntry,next)) ↔
      HoldsAt scratch place e := by
  have hlength := e.length_bytes
  have hle := e.name_le
  have hne := List.length_pos_iff.mpr e.name_ne
  have hsize : (UInt8.ofNat e.name.length).toNat=e.name.length :=
    UInt8.toNat_ofNat_of_lt' (by unfold UInt8.size; omega)
  unfold clpStorageDirEntryBytes at hlength
  rw [holdsAt_parts]
  unfold takeEntry clpStorageDirEntryBytes
  dsimp only
  constructor
  · rintro ⟨next,h⟩
    rw [if_neg (by omega)] at h
    split at h
    · cases h
    · split at h
      · cases h
      next hend =>
        obtain ⟨hentry,-⟩ := Prod.mk.inj (Option.some.inj h)
        have hname := congrArg DirEntry.name hentry
        have hsizes := congrArg DirEntry.size hentry
        dsimp only at hname hsizes
        have hlen := congrArg List.length hname
        unfold bytesAt at hlen
        rw [List.length_map,List.length_range] at hlen
        rw [hlen] at hname hend
        have hlow := sizeOfWords_low (loadLe32 (bytesAt scratch (place+4) 4))
          (loadLe32 (bytesAt scratch (place+8) 4))
        have hhigh := sizeOfWords_high (loadLe32 (bytesAt scratch (place+4) 4))
          (loadLe32 (bytesAt scratch (place+8) 4))
        rw [hsizes] at hlow hhigh
        refine ⟨?_,congrArg DirEntry.type hentry,congrArg DirEntry.flags hentry,
          loadLe32_bytesAt.mp hlow.symm,loadLe32_bytesAt.mp hhigh.symm,hname,
          not_not.mp hend⟩
        rw [← hlen,UInt8.ofNat_toNat]
  · rintro ⟨hlen,htype,hflags,hlow,hhigh,hname,hend⟩
    rw [hlen,hsize,if_neg (by omega),if_neg (by omega),if_neg (not_not.mpr hend),htype,hflags,
      hname,loadLe32_bytesAt.mpr hlow,loadLe32_bytesAt.mpr hhigh,sizeOfWords_words]
    exact ⟨_,rfl⟩

/-- The place behind an entry that was taken. -/
theorem takeEntry_next {scratch : ℕ → UInt8} {place stop next : ℕ} {e : SentEntry}
    (h : takeEntry scratch place stop=some (e.toDirEntry,next)) :
    next=place+e.bytes.length := by
  have hlength := e.length_bytes
  unfold takeEntry at h
  dsimp only at h
  split at h
  · cases h
  · split at h
    · cases h
    · split at h
      · cases h
      · obtain ⟨hentry,rfl⟩ := Prod.mk.inj (Option.some.inj h)
        have hlen := congrArg (fun entry => entry.name.length) hentry
        dsimp only at hlen
        unfold bytesAt at hlen
        rw [List.length_map,List.length_range] at hlen
        omega

end Sent

section Delivery

variable (callback : ListCb δ U)

/-- The entries that were delivered are those that were sent, in order, up to where the
callback broke the listing off. -/
structure Exact (calls : List Call) (sent : List SentEntry) : Prop where
  /-- They are the first ones. -/
  isFirst : calls.map Call.entry<+:sent.map SentEntry.toDirEntry
  /-- They are all if the callback always went on. -/
  all : (∀ call∈calls,0≤ call.ret) → calls.map Call.entry=sent.map SentEntry.toDirEntry

/-- Whenever the callback goes on with the listing, the buffer holds the next entry of the
page at its place, as it was sent. -/
def Spares : List SentEntry → ℕ → Session δ U → Prop
  | [], _, _ => True
  | e::entries, place, s => HoldsAt s.scratch place e ∧
    (0≤(callback e.toDirEntry s).1 →
      Spares entries (place+e.bytes.length) (callback e.toDirEntry s).2)

/-- The session after the callback was given some entries, unless it breaks off. -/
def fed : List SentEntry → Session δ U → Option (Session δ U)
  | [], s => some s
  | e::entries, s =>
    if (callback e.toDirEntry s).1<0 then none else fed entries (callback e.toDirEntry s).2

variable {callback} {calls : List Call} {sent : List SentEntry} {stop : ℕ}

theorem exact_nil : Exact [] sent ↔ sent=[] := by
  constructor
  · intro h
    have hall := h.all fun call hcall => absurd hcall List.not_mem_nil
    exact List.map_eq_nil_iff.mp hall.symm
  · rintro rfl
    exact ⟨List.prefix_rfl,fun _ => rfl⟩

theorem exact_cons {e : SentEntry} {ret : ℤ} (hret : 0≤ ret) :
    Exact (⟨e.toDirEntry,ret⟩::calls) (e::sent) ↔ Exact calls sent := by
  constructor
  · rintro ⟨hstart,hall⟩
    rw [List.map_cons,List.map_cons] at hstart hall
    refine ⟨(List.cons_prefix_cons.mp hstart).2,fun h => ?_⟩
    exact (List.cons.inj (hall (List.forall_mem_cons.mpr ⟨hret,h⟩))).2
  · rintro ⟨hstart,hall⟩
    refine ⟨?_,fun h => ?_⟩
    · rw [List.map_cons,List.map_cons]
      exact List.cons_prefix_cons.mpr ⟨rfl,hstart⟩
    · rw [List.map_cons,List.map_cons,hall (List.forall_mem_cons.mp h).2]

/-- A listing that is broken off at once. -/
theorem exact_broken {e : SentEntry} {ret : ℤ} (hret : ret<0) :
    Exact [⟨e.toDirEntry,ret⟩] (e::sent) := by
  refine ⟨?_,fun h => ?_⟩
  · rw [List.map_cons,List.map_cons,List.map_nil]
    exact List.cons_prefix_cons.mpr ⟨rfl,List.nil_prefix⟩
  · have hnonneg := h ⟨e.toDirEntry,ret⟩ (List.mem_cons_self ..)
    dsimp only at hnonneg
    omega

/-- Another entry is not the one that was sent. -/
theorem not_exact_cons {call : Call} {e : SentEntry} (hne : call.entry≠e.toDirEntry) :
    ¬Exact (call::calls) (e::sent) := by
  intro h
  have hstart := h.isFirst
  rw [List.map_cons,List.map_cons] at hstart
  exact hne (List.cons_prefix_cons.mp hstart).1

theorem spares_cons {e : SentEntry} {place : ℕ} {s : Session δ U} :
    Spares callback (e::sent) place s ↔ HoldsAt s.scratch place e ∧
      (0≤(callback e.toDirEntry s).1 →
        Spares callback sent (place+e.bytes.length) (callback e.toDirEntry s).2) := Iff.rfl

theorem fed_cons {e : SentEntry} {s : Session δ U} :
    fed callback (e::sent) s=if (callback e.toDirEntry s).1<0 then none
      else fed callback sent (callback e.toDirEntry s).2 := rfl

theorem takeEntries_none {count place : ℕ} {s : Session δ U}
    (h : takeEntry s.scratch place stop=none) :
    takeEntries callback stop (count+1) place s=((-3,[]),s) := by
  unfold takeEntries
  rw [h]

theorem takeEntries_some {count place next : ℕ} {s : Session δ U} {entry : DirEntry}
    (h : takeEntry s.scratch place stop=some (entry,next)) :
    takeEntries callback stop (count+1) place s=
      if (callback entry s).1<0 then
        (((callback entry s).1,[⟨entry,(callback entry s).1⟩]),(callback entry s).2)
      else (((takeEntries callback stop count next (callback entry s).2).1.1,
        ⟨entry,(callback entry s).1⟩::
          (takeEntries callback stop count next (callback entry s).2).1.2),
        (takeEntries callback stop count next (callback entry s).2).2) := by
  conv_lhs => unfold takeEntries
  rw [h]

/-- The loop over a page delivers what was sent exactly if the page stays in the buffer. -/
theorem takeEntries_exact_iff {place : ℕ} {s : Session δ U}
    (hstop : place+(sent.flatMap SentEntry.bytes).length≤ stop) :
    Exact (takeEntries callback stop sent.length place s).1.2 sent ↔
      Spares callback sent place s := by
  induction sent generalizing place s with
  | nil => exact ⟨fun _ => trivial,fun _ => exact_nil.mpr rfl⟩
  | cons e sent ih =>
    rw [List.flatMap_cons,List.length_append] at hstop
    have hinside : place+e.bytes.length≤ stop := by omega
    have hbehind : place+e.bytes.length+(sent.flatMap SentEntry.bytes).length≤ stop := by omega
    rw [List.length_cons,spares_cons]
    cases htake : takeEntry s.scratch place stop with
    | none =>
      rw [takeEntries_none htake,exact_nil]
      refine ⟨fun h => absurd h (List.cons_ne_nil _ _),fun h => ?_⟩
      obtain ⟨next,hnext⟩ := (takeEntry_iff hinside).mpr h.1
      rw [htake] at hnext
      cases hnext
    | some taken =>
      obtain ⟨entry,next⟩ := taken
      rw [takeEntries_some htake]
      by_cases hentry : entry=e.toDirEntry
      · subst hentry
        have hholds : HoldsAt s.scratch place e :=
          (takeEntry_iff hinside).mp ⟨next,htake⟩
        have hnext := takeEntry_next htake
        subst hnext
        by_cases hneg : (callback e.toDirEntry s).1<0
        · rw [if_pos hneg]
          exact iff_of_true (exact_broken hneg) ⟨hholds,fun h => absurd hneg (by omega)⟩
        · rw [if_neg hneg,exact_cons (by omega),ih hbehind]
          exact ⟨fun h => ⟨hholds,fun _ => h⟩,fun h => h.2 (by omega)⟩
      · have hnot : ¬HoldsAt s.scratch place e := by
          intro hholds
          obtain ⟨next,hnext⟩ := (takeEntry_iff hinside).mpr hholds
          rw [htake] at hnext
          exact hentry (Prod.mk.inj (Option.some.inj hnext)).1
        refine iff_of_false ?_ fun h => hnot h.1
        split <;> exact not_exact_cons hentry

/-- How the loop ends on a page that stays in the buffer. -/
theorem takeEntries_of_spares {place : ℕ} {s : Session δ U}
    (hstop : place+(sent.flatMap SentEntry.bytes).length≤ stop)
    (h : Spares callback sent place s) :
    match fed callback sent s with
    | some t => (∀ call∈(takeEntries callback stop sent.length place s).1.2,0≤ call.ret) ∧
      (takeEntries callback stop sent.length place s).1.1=0 ∧
      (takeEntries callback stop sent.length place s).2=t
    | none => (takeEntries callback stop sent.length place s).1.1<0 ∧
      ∃ call∈(takeEntries callback stop sent.length place s).1.2,call.ret<0 := by
  induction sent generalizing place s with
  | nil => exact ⟨fun call hcall => absurd hcall List.not_mem_nil,rfl,rfl⟩
  | cons e sent ih =>
    rw [List.flatMap_cons,List.length_append] at hstop
    have hinside : place+e.bytes.length≤ stop := by omega
    have hbehind : place+e.bytes.length+(sent.flatMap SentEntry.bytes).length≤ stop := by omega
    obtain ⟨hholds,hrest⟩ := spares_cons.mp h
    obtain ⟨next,htake⟩ := (takeEntry_iff hinside).mpr hholds
    have hnext := takeEntry_next htake
    subst hnext
    rw [List.length_cons,takeEntries_some htake,fed_cons]
    by_cases hneg : (callback e.toDirEntry s).1<0
    · rw [if_pos hneg,if_pos hneg]
      exact ⟨hneg,_,List.mem_cons_self ..,hneg⟩
    · rw [if_neg hneg,if_neg hneg]
      have hspares := hrest (by omega)
      have hend := ih hbehind hspares
      cases hfed : fed callback sent (callback e.toDirEntry s).2 with
      | none =>
        rw [hfed] at hend
        obtain ⟨hret,call,hcall,hbroken⟩ := hend
        exact ⟨hret,call,List.mem_cons_of_mem _ hcall,hbroken⟩
      | some t =>
        rw [hfed] at hend
        obtain ⟨hcalls,hret,hlast⟩ := hend
        exact ⟨List.forall_mem_cons.mpr ⟨by dsimp only; omega,hcalls⟩,hret,hlast⟩

end Delivery

section Fetching

variable {storage : Storage δ} {path : CString} {directory : UInt32 → UInt32 → Page}
  {I : δ → Prop}

/-- The server answers every list command for a path with a page of the directory, and the
client can send it. -/
structure Served (storage : Storage δ) (path : CString) (directory : UInt32 → UInt32 → Page)
    (I : δ → Prop) : Prop where
  /-- The request fits the scratch buffer. -/
  request : ∃ pathLen,storagePathLength path=some pathLen ∧
    storageRequestScratch storage (12+pathLen)=true
  /-- So does a page. -/
  scratch : storageScratch storage=true
  /-- The answers. -/
  answers : ∀ d,I d → ∀ startIndex maxEntries,Answers storage.transport clpChStorage
    clpStorageList (listFixed startIndex maxEntries listPageBytes++path.wire)
    (fun reply d' => reply.status=clpStatusOk ∧
      reply.payload=(directory startIndex maxEntries).bytes ∧ I d') d

/-- The server is ready for another command, and the client knows that it has listings. -/
def Ready (I : δ → Prop) (s : Session δ U) : Prop :=
  I s.link.device ∧ s.link.client.caps &&& clpCapDirList≠0

theorem Page.length_bytes (page : Page) :
    page.bytes.length=8+(page.entries.flatMap SentEntry.bytes).length := by
  have hfour : ∀ word,(storeLe32 word 4).length=4 := fun _ => rfl
  unfold Page.bytes
  rw [List.length_append,List.length_append,hfour,hfour]
  omega

theorem length_le_flatMap (entries : List SentEntry) :
    entries.length≤(entries.flatMap SentEntry.bytes).length := by
  induction entries with
  | nil => exact Nat.le_refl _
  | cons e entries ih =>
    have hlength := e.length_bytes
    rw [List.flatMap_cons,List.length_append,List.length_cons]
    omega

theorem wp_onLink {run : Prog (Link δ) α} {Q : α → Session δ U → Prop}
    {D : Session δ U → Prop} {s : Session δ U}
    (h : wp run (fun a link => Q a {s with link := link}) (fun link => D {s with link := link})
      s.link) : wp (onLink run) Q D s := by
  unfold wp at h ⊢
  unfold onLink
  rcases hrun : run s.link with ⟨_ | a,t⟩ <;> rw [hrun] at h <;> exact h

/-- The page that is listed. -/
theorem wp_clStorageList (h : Served storage path directory I) {s : Link δ}
    (hdevice : I s.device) (hcaps : s.client.caps &&& clpCapDirList≠0)
    (startIndex maxEntries : UInt32) {Q : Except ℤ ListResult → Link δ → Prop}
    (hQ : ∀ t,I t.device → t.client.caps=s.client.caps →
      Q (.ok ⟨UInt32.ofNat (directory startIndex maxEntries).bytes.length,
        (directory startIndex maxEntries).nextIndex,
        UInt32.ofNat (directory startIndex maxEntries).entries.length,
        (directory startIndex maxEntries).bytes⟩) t) {D : Link δ → Prop} :
    wp (clStorageList storage path startIndex maxEntries listPageBytes) Q D s := by
  obtain ⟨pathLen,hpath,hroom⟩ := h.request
  obtain ⟨page,hpage⟩ : ∃ page,page=directory startIndex maxEntries := ⟨_,rfl⟩
  have hfits := page.fits
  have hlength := page.length_bytes
  have hcapacity : listPageBytes.toNat=512 := rfl
  have hheader : clpStorageListResponseHeaderBytes.toNat=8 := rfl
  have hmax : clpFrameMaxPayloadBytes=32768 := rfl
  have hwire : path.wire.length=pathLen := by
    unfold storagePathLength at hpath
    split at hpath
    · cases hpath
    · cases hpath
      unfold CString.wire
      rw [List.length_append,List.length_singleton]
  have hframe : (listFixed startIndex maxEntries listPageBytes++path.wire).length≤
      clpFrameMaxPayloadBytes := by
    unfold storageRequestScratch at hroom
    rw [Bool.and_eq_true,decide_eq_true_eq] at hroom
    have hfixed : (listFixed startIndex maxEntries listPageBytes).length=12 := rfl
    rw [List.length_append,hfixed,hwire]
    exact hroom.1
  have hword : (UInt32.ofNat page.bytes.length).toNat=page.bytes.length :=
    UInt32.toNat_ofNat_of_lt' (by unfold UInt32.size; omega)
  unfold clStorageList
  rw [if_neg (by decide)]
  unfold requireCap
  rw [wp_bind,wp_inspect,if_neg hcaps,hpath]
  dsimp only
  rw [if_pos hroom]
  unfold withResponse
  rw [wp_bind]
  refine wp_sendCommand hframe (h.answers _ hdevice startIndex maxEntries) ?_
  rintro seq reply t d hanswered - hdeliver ⟨hstatus,hpayload,hd⟩
  rw [← hpage] at hpayload hQ
  rw [hpayload] at hdeliver
  cases reply with
  | ack status =>
    have hnil : page.bytes=[] := hpayload.symm
    rw [hnil,List.length_nil] at hlength
    omega
  | response status flags crc32 payload =>
    obtain rfl : payload=page.bytes := hpayload
    have hok : status=clpStatusOk := hstatus
    dsimp only [Reply.header]
    have haccept : ¬(status≠clpStatusOk ∨
        UInt32.ofNat page.bytes.length<clpStorageListResponseHeaderBytes ∨
        listPageBytes<UInt32.ofNat page.bytes.length) := by
      rw [UInt32.lt_iff_toNat_lt,UInt32.lt_iff_toNat_lt,hword,hcapacity,hheader]
      rintro (hbad | hshort | hlong)
      · exact hbad hok
      · omega
      · omega
    rw [if_neg haccept,wp_bind]
    refine wp_readPayloadWords (by omega) hdeliver fun pairs hpairs => ?_
    rw [wp_pure]
    have hnext : loadLe32 page.bytes=page.nextIndex := loadLe32_stored _ _
    have hcount : loadLe32 (page.bytes.drop 4)=UInt32.ofNat page.entries.length :=
      loadLe32_stored _ _
    rw [hnext,hcount]
    exact hQ _ hd hanswered.caps

/-- A page is received into the scratch buffer. -/
theorem wp_storageList (h : Served storage path directory I) {s : Session δ U}
    (hready : Ready I s) (startIndex maxEntries : UInt32)
    {Q : Except ℤ ListResult → Session δ U → Prop}
    (hQ : ∀ t,Ready I t → Agree t.scratch 0 (directory startIndex maxEntries).bytes →
      t.user=s.user →
      Q (.ok ⟨UInt32.ofNat (directory startIndex maxEntries).bytes.length,
        (directory startIndex maxEntries).nextIndex,
        UInt32.ofNat (directory startIndex maxEntries).entries.length,
        (directory startIndex maxEntries).bytes⟩) t) {D : Session δ U → Prop} :
    wp (storageList storage path startIndex maxEntries listPageBytes) Q D s := by
  have hcaps := hready.2
  unfold storageList
  rw [wp_bind,wp_inspect]
  dsimp only
  rw [wp_bind]
  have hover : ∀ request,wp (overScratch request
      (clStorageList storage path startIndex maxEntries listPageBytes))
      (fun reply t => wp (match reply with
        | .error code => pure (.error code)
        | .ok result => do
          stage result.payload
          pure (.ok result) : Prog (Session δ U) (Except ℤ ListResult)) Q D t) D s := by
    intro request
    have hlisted : ∀ scratch : ℕ → UInt8,wp (onLink
        (clStorageList storage path startIndex maxEntries listPageBytes))
        (fun reply t => wp (match reply with
          | .error code => pure (.error code)
          | .ok result => do
            stage result.payload
            pure (.ok result) : Prog (Session δ U) (Except ℤ ListResult)) Q D t) D
        {s with scratch := scratch} := by
      intro scratch
      apply wp_onLink
      refine wp_clStorageList h hready.1 hcaps startIndex maxEntries fun t hdevice hkept => ?_
      dsimp only
      rw [wp_bind]
      unfold stage
      rw [wp_update,wp_pure]
      refine hQ _ ⟨hdevice,?_⟩ (fun i hi => ?_) rfl
      · dsimp only
        rw [hkept]
        exact hcaps
      · dsimp only
        rw [Nat.zero_add,List.getD_eq_getElem _ _ hi,List.getD_eq_getElem _ _ hi]
    unfold overScratch
    cases request with
    | none => exact hlisted s.scratch
    | some bytes =>
      dsimp only
      rw [wp_bind]
      exact hlisted _
  exact hover _

end Fetching

section Listing

variable (storage : Storage δ) (path : CString) (directory : UInt32 → UInt32 → Page)
  (callback : ListCb δ U)

/-- The entries that a listing is sent from an index on, with so many other pages at
most. -/
def sentFrom : ℕ → UInt32 → List SentEntry
  | left, startIndex =>
    let page := directory startIndex listPageEntries
    if page.nextIndex=clpStorageListDone ∨ page.nextIndex≤ startIndex then page.entries
    else match left with
      | 0 => page.entries
      | left+1 => page.entries++sentFrom left page.nextIndex

/-- The callback spares the entries of a page. -/
def SparesPage (startIndex maxEntries : UInt32) (s : Session δ U) : Prop :=
  Spares callback (directory startIndex maxEntries).entries 8
    (storageList storage path startIndex maxEntries listPageBytes s).2

/-- It spares the entries of all the pages of a listing. -/
def SparesPages : ℕ → UInt32 → Session δ U → Prop
  | left, startIndex, s =>
    let page := directory startIndex listPageEntries
    let t := (storageList storage path startIndex listPageEntries listPageBytes s).2
    Spares callback page.entries 8 t ∧ ∀ u,fed callback page.entries t=some u →
      page.nextIndex≠clpStorageListDone → startIndex<page.nextIndex →
      match left with
      | 0 => True
      | left+1 => SparesPages left page.nextIndex u

variable {callback} {directory} {storage} {path} {I : δ → Prop}
  {calls more : List Call} {sent rest : List SentEntry} {stop : ℕ}

/-- There is a call for each entry unless the loop fails. -/
theorem takeEntries_calls (callback : ListCb δ U) (stop count place : ℕ) (s : Session δ U) :
    (takeEntries callback stop count place s).1.2.length≤ count ∧
    (0≤(takeEntries callback stop count place s).1.1 →
      (takeEntries callback stop count place s).1.2.length=count ∧
      ∀ call∈(takeEntries callback stop count place s).1.2,0≤ call.ret) := by
  induction count generalizing place s with
  | zero => exact ⟨Nat.le_refl _,fun _ => ⟨rfl,fun call hcall => absurd hcall List.not_mem_nil⟩⟩
  | succ count ih =>
    have hfailed : ¬(0 : ℤ)≤-3 := by decide
    cases htake : takeEntry s.scratch place stop with
    | none =>
      rw [takeEntries_none htake]
      exact ⟨Nat.zero_le _,fun h => absurd h hfailed⟩
    | some taken =>
      obtain ⟨hle,hall⟩ := ih taken.2 (callback taken.1 s).2
      rw [takeEntries_some htake]
      by_cases hneg : (callback taken.1 s).1<0
      · rw [if_pos hneg]
        exact ⟨Nat.succ_le_succ (Nat.zero_le _),fun h => absurd hneg (not_lt.mpr h)⟩
      · rw [if_neg hneg]
        refine ⟨Nat.succ_le_succ hle,fun h => ?_⟩
        obtain ⟨hlength,hcalls⟩ := hall h
        exact ⟨congrArg Nat.succ hlength,
          List.forall_mem_cons.mpr ⟨by dsimp only; omega,hcalls⟩⟩

theorem ready_takeEntries (hkeeps : ∀ entry s,Ready I s → Ready I (callback entry s).2)
    (count place : ℕ) {s : Session δ U} (hs : Ready I s) :
    Ready I (takeEntries callback stop count place s).2 := by
  induction count generalizing place s with
  | zero => exact hs
  | succ count ih =>
    cases htake : takeEntry s.scratch place stop with
    | none =>
      rw [takeEntries_none htake]
      exact hs
    | some taken =>
      rw [takeEntries_some htake]
      by_cases hneg : (callback taken.1 s).1<0
      · rw [if_pos hneg]
        exact hkeeps _ _ hs
      · rw [if_neg hneg]
        exact ih _ (hkeeps _ _ hs)

/-- A page that was delivered as a whole may be left out. -/
theorem exact_append (hcalls : ∀ call∈calls,0≤ call.ret)
    (h : calls.map Call.entry=sent.map SentEntry.toDirEntry) :
    Exact (calls++more) (sent++rest) ↔ Exact more rest := by
  constructor
  · rintro ⟨hstart,hall⟩
    rw [List.map_append,List.map_append,h] at hstart hall
    refine ⟨(List.prefix_append_right_inj _).mp hstart,fun hmore => ?_⟩
    exact List.append_cancel_left
      (hall (List.forall_mem_append.mpr ⟨hcalls,hmore⟩))
  · rintro ⟨hstart,hall⟩
    refine ⟨?_,fun hmore => ?_⟩
    · rw [List.map_append,List.map_append,h]
      exact (List.prefix_append_right_inj _).mpr hstart
    · rw [List.map_append,List.map_append,h,hall (List.forall_mem_append.mp hmore).2]

/-- A listing that is broken off on a page. -/
theorem Exact.broken (h : Exact calls sent) (hbroken : ∃ call∈calls,call.ret<0) :
    Exact calls (sent++rest) := by
  refine ⟨?_,fun hcalls => ?_⟩
  · rw [List.map_append]
    exact h.isFirst.trans (List.prefix_append _ _)
  · obtain ⟨call,hcall,hneg⟩ := hbroken
    have hret := hcalls call hcall
    omega

/-- Nothing that is delivered afterwards makes up for a page that was not. -/
theorem not_exact_append (h : ¬Exact calls sent) (hlength : calls.length≤ sent.length)
    (hmore : more≠[] → calls.length=sent.length ∧ ∀ call∈calls,0≤ call.ret) :
    ¬Exact (calls++more) (sent++rest) := by
  rintro ⟨hstart,hall⟩
  rw [List.map_append,List.map_append] at hstart
  have hfirst : calls.map Call.entry<+:sent.map SentEntry.toDirEntry :=
    List.prefix_of_prefix_length_le ((List.prefix_append _ _).trans hstart)
      (List.prefix_append _ _) (by rw [List.length_map,List.length_map]; exact hlength)
  apply h
  refine ⟨hfirst,fun hcalls => ?_⟩
  by_cases hnil : more=[]
  · subst hnil
    rw [List.append_nil] at hall
    have heq := hall hcalls
    have hcount := congrArg List.length heq
    rw [List.length_map,List.length_map,List.length_append] at hcount
    exact hfirst.eq_of_length (by rw [List.length_map,List.length_map]; omega)
  · exact hfirst.eq_of_length (by rw [List.length_map,List.length_map,(hmore hnil).1])

/-- No page comes after this one. -/
def IsLast (page : Page) (startIndex : UInt32) : Prop :=
  page.nextIndex=clpStorageListDone ∨ page.nextIndex≤ startIndex

theorem sentFrom_last (left : ℕ) {startIndex : UInt32}
    (h : IsLast (directory startIndex listPageEntries) startIndex) :
    sentFrom directory left startIndex=(directory startIndex listPageEntries).entries := by
  unfold sentFrom
  exact if_pos h

theorem sentFrom_zero (startIndex : UInt32) :
    sentFrom directory 0 startIndex=(directory startIndex listPageEntries).entries := by
  unfold sentFrom
  exact ite_self _

theorem sentFrom_succ {left : ℕ} {startIndex : UInt32}
    (h : ¬IsLast (directory startIndex listPageEntries) startIndex) :
    sentFrom directory (left+1) startIndex=
      (directory startIndex listPageEntries).entries++
        sentFrom directory left (directory startIndex listPageEntries).nextIndex := by
  conv_lhs => unfold sentFrom
  exact if_neg h

theorem sentFrom_eq (directory : UInt32 → UInt32 → Page) (left : ℕ) (startIndex : UInt32) :
    ∃ rest,sentFrom directory left startIndex=
      (directory startIndex listPageEntries).entries++rest := by
  by_cases hlast : IsLast (directory startIndex listPageEntries) startIndex
  · exact ⟨[],by rw [sentFrom_last left hlast,List.append_nil]⟩
  · cases left with
    | zero => exact ⟨[],by rw [sentFrom_zero,List.append_nil]⟩
    | succ left => exact ⟨_,sentFrom_succ hlast⟩

section Spared

variable {startIndex : UInt32} {s t : Session δ U}
  (ht : (storageList storage path startIndex listPageEntries listPageBytes s).2=t)

include ht

theorem sparesPages_spares {left : ℕ}
    (h : SparesPages storage path directory callback left startIndex s) :
    Spares callback (directory startIndex listPageEntries).entries 8 t := by
  subst ht
  unfold SparesPages at h
  exact h.1

/-- The callback broke the listing off, or there is no other page. -/
theorem sparesPages_end (left : ℕ)
    (h : fed callback (directory startIndex listPageEntries).entries t=none ∨
      IsLast (directory startIndex listPageEntries) startIndex ∨ left=0) :
    SparesPages storage path directory callback left startIndex s ↔
      Spares callback (directory startIndex listPageEntries).entries 8 t := by
  refine ⟨sparesPages_spares ht,fun hspares => ?_⟩
  subst ht
  unfold SparesPages
  refine ⟨hspares,fun u hu hdone hlt => ?_⟩
  rcases h with hnone | (hend | hle) | rfl
  · rw [hnone] at hu
    cases hu
  · exact absurd hend hdone
  · exact absurd hlt (UInt32.not_lt.mpr hle)
  · trivial

theorem sparesPages_succ {left : ℕ} {u : Session δ U}
    (hspares : Spares callback (directory startIndex listPageEntries).entries 8 t)
    (hu : fed callback (directory startIndex listPageEntries).entries t=some u)
    (hlast : ¬IsLast (directory startIndex listPageEntries) startIndex) :
    SparesPages storage path directory callback (left+1) startIndex s ↔
      SparesPages storage path directory callback left
        (directory startIndex listPageEntries).nextIndex u := by
  obtain ⟨hdone,hle⟩ := not_or.mp hlast
  subst ht
  conv_lhs => unfold SparesPages
  refine ⟨fun h => h.2 u hu hdone (UInt32.not_le.mp hle),fun h => ⟨hspares,?_⟩⟩
  intro v hv _ _
  rw [hu] at hv
  obtain rfl := Option.some.inj hv
  exact h

end Spared

theorem listPages_eq (left : ℕ) (startIndex : UInt32) :
    listPages storage path callback left startIndex=(do
      let reply ← storageList storage path startIndex listPageEntries listPageBytes
      match reply with
      | .error code => pure (code,[])
      | .ok result => do
        let ended ← access
          (takeEntries callback result.length.toNat result.entryCount.toNat 8)
        if ended.1<0 then pure ended
        else if result.nextIndex=clpStorageListDone then pure (0,ended.2)
        else if result.nextIndex≤ startIndex then pure (-3,ended.2)
        else match left with
          | 0 => pure (-3,ended.2)
          | left+1 => do
            let rest ← listPages storage path callback left result.nextIndex
            pure (rest.1,ended.2++rest.2)) := by
  conv_lhs => unfold listPages

/-- What a page comes to: it is in the buffer, and the loop over it ends as told. -/
structure Taken (storage : Storage δ) (path : CString) (directory : UInt32 → UInt32 → Page)
    (I : δ → Prop) (startIndex maxEntries : UInt32) (s : Session δ U) (result : ListResult)
    (t : Session δ U) : Prop where
  /-- The page was received. -/
  run : storageList storage path startIndex maxEntries listPageBytes s=(some (.ok result),t)
  /-- The client is still ready. -/
  ready : Ready I t
  /-- The index of the next page. -/
  nextIndex : result.nextIndex=(directory startIndex maxEntries).nextIndex
  /-- As many entries as were sent. -/
  count : result.entryCount.toNat=(directory startIndex maxEntries).entries.length
  /-- They are in what was received. -/
  stop : 8+((directory startIndex maxEntries).entries.flatMap SentEntry.bytes).length≤
    result.length.toNat
  /-- They are in the buffer. -/
  held : Agree t.scratch 0 (directory startIndex maxEntries).bytes

theorem exists_taken (h : Served storage path directory I) (startIndex maxEntries : UInt32)
    {s : Session δ U} (hs : Ready I s) :
    ∃ result t,Taken storage path directory I startIndex maxEntries s result t := by
  obtain ⟨page,hpage⟩ : ∃ page,page=directory startIndex maxEntries := ⟨_,rfl⟩
  have hfits := page.fits
  have hlength := page.length_bytes
  have hcapacity : listPageBytes.toNat=512 := rfl
  have hentries := length_le_flatMap page.entries
  have hword : ∀ n,n≤512 → (UInt32.ofNat n).toNat=n := fun n hn =>
    UInt32.toNat_ofNat_of_lt' (by unfold UInt32.size; omega)
  have htotal := wp_total (wp_storageList h hs startIndex maxEntries
    (Q:=fun reply t => ∃ result,reply=.ok result ∧ Ready I t ∧
      result.nextIndex=page.nextIndex ∧ result.entryCount.toNat=page.entries.length ∧
      8+(page.entries.flatMap SentEntry.bytes).length≤ result.length.toNat ∧
      Agree t.scratch 0 page.bytes)
    (fun t hready hheld _ => by
      rw [← hpage] at hheld ⊢
      refine ⟨_,rfl,hready,rfl,hword _ (by omega),?_,hheld⟩
      dsimp only
      rw [hword _ (by omega)]
      omega))
  obtain ⟨reply,t,hrun,result,rfl,hready,hnext,hcount,hstop,hheld⟩ := htotal
  rw [hpage] at hnext hcount hstop hheld
  exact ⟨result,t,hrun,hready,hnext,hcount,hstop,hheld⟩

/-- One round of a listing. -/
theorem wp_listPages_round (h : Served storage path directory I)
    (hkeeps : ∀ entry s,Ready I s → Ready I (callback entry s).2) (left : ℕ)
    (hmore : ∀ n,left=n+1 → ∀ startIndex (s : Session δ U),Ready I s →
      wp (listPages storage path callback n startIndex)
        (fun reply _ => Exact reply.2 (sentFrom directory n startIndex) ↔
          SparesPages storage path directory callback n startIndex s) (fun _ => False) s)
    (startIndex : UInt32) {s : Session δ U} (hs : Ready I s) :
    wp (listPages storage path callback left startIndex)
      (fun reply _ => Exact reply.2 (sentFrom directory left startIndex) ↔
        SparesPages storage path directory callback left startIndex s)
      (fun _ => False) s := by
  obtain ⟨result,t,htaken⟩ := exists_taken h startIndex listPageEntries hs
  obtain ⟨page,hpage⟩ : ∃ page,page=directory startIndex listPageEntries := ⟨_,rfl⟩
  have hnext := htaken.nextIndex
  have hstop := htaken.stop
  rw [← hpage] at hnext hstop
  rw [listPages_eq,wp_bind_run htaken.run]
  dsimp only
  rw [htaken.count,← hpage,wp_bind,wp_access]
  obtain ⟨ended,hended⟩ : ∃ ended,
      ended=takeEntries callback result.length.toNat page.entries.length 8 t := ⟨_,rfl⟩
  have hexact : Exact ended.1.2 page.entries ↔ Spares callback page.entries 8 t := by
    rw [hended]
    exact takeEntries_exact_iff hstop
  obtain ⟨hlength,hall⟩ := takeEntries_calls callback result.length.toNat
    page.entries.length 8 t
  have hreadyEnded : Ready I ended.2 := by
    rw [hended]
    exact ready_takeEntries hkeeps _ _ htaken.ready
  rw [← hended] at hlength hall ⊢
  rw [hnext]
  have ht : (storageList storage path startIndex listPageEntries listPageBytes s).2=t := by
    rw [htaken.run]
  have hlastIff : IsLast page startIndex ↔
      page.nextIndex=clpStorageListDone ∨ page.nextIndex≤ startIndex := Iff.rfl
  by_cases hspares : Spares callback page.entries 8 t
  · have hend := takeEntries_of_spares hstop hspares
    rw [← hended] at hend
    have hgood := hexact.mpr hspares
    obtain ⟨rest,hrest⟩ := sentFrom_eq directory left startIndex
    rw [← hpage] at hrest
    cases hfed : fed callback page.entries t with
    | none =>
      rw [hfed] at hend
      rw [if_pos hend.1,wp_pure,hrest]
      rw [hpage] at hfed hspares
      exact iff_of_true (hgood.broken hend.2)
        ((sparesPages_end ht left (Or.inl hfed)).mpr hspares)
    | some u =>
      rw [hfed] at hend
      obtain ⟨hcalls,hret,hu⟩ := hend
      have hgo : ¬ended.1.1<0 := by omega
      have hall := hgood.all hcalls
      rw [if_neg hgo]
      by_cases hlast : IsLast page startIndex
      · have hiff : Exact ended.1.2 (sentFrom directory left startIndex) ↔
            SparesPages storage path directory callback left startIndex s := by
          rw [hpage] at hlast hspares hgood
          rw [sentFrom_last left hlast]
          exact iff_of_true hgood ((sparesPages_end ht left (Or.inr (Or.inl hlast))).mpr hspares)
        by_cases hdone : page.nextIndex=clpStorageListDone
        · rw [if_pos hdone]
          exact hiff
        · rw [if_neg hdone,if_pos (hlast.resolve_left hdone)]
          exact hiff
      · obtain ⟨hdone,hle⟩ := not_or.mp hlast
        rw [if_neg hdone,if_neg hle]
        rw [hpage] at hlast hspares hfed hgood hall
        cases left with
        | zero =>
          rw [wp_pure,sentFrom_zero]
          exact iff_of_true hgood
            ((sparesPages_end ht 0 (Or.inr (Or.inr rfl))).mpr hspares)
        | succ left =>
          rw [wp_bind,hu]
          refine wp_post (hmore left rfl page.nextIndex u (hu▸hreadyEnded)) ?_
          intro reply _ hiff
          rw [wp_pure,sentFrom_succ hlast,exact_append hcalls hall,
            sparesPages_succ ht hspares hfed hlast,← hpage]
          exact hiff
  · have hbad : ¬SparesPages storage path directory callback left startIndex s := by
      intro hpages
      rw [hpage] at hspares
      exact hspares (sparesPages_spares ht hpages)
    have hlost : ∀ more,(more≠[] → 0≤ended.1.1) →
        ¬Exact (ended.1.2++more) (sentFrom directory left startIndex) := by
      intro more hgoes
      obtain ⟨rest,hrest⟩ := sentFrom_eq directory left startIndex
      rw [hrest,← hpage]
      exact not_exact_append (mt hexact.mp hspares) hlength fun hne => hall (hgoes hne)
    have hstops : ¬Exact ended.1.2 (sentFrom directory left startIndex) := by
      have hnothing := hlost [] fun hne => absurd rfl hne
      rw [List.append_nil] at hnothing
      exact hnothing
    have hiff := iff_of_false hstops hbad
    by_cases hneg : ended.1.1<0
    · rw [if_pos hneg]
      exact hiff
    · rw [if_neg hneg]
      by_cases hdone : page.nextIndex=clpStorageListDone
      · rw [if_pos hdone]
        exact hiff
      · rw [if_neg hdone]
        by_cases hle : page.nextIndex≤ startIndex
        · rw [if_pos hle]
          exact hiff
        · rw [if_neg hle]
          cases left with
          | zero => exact hiff
          | succ left =>
            refine wp_seq (hmore left rfl page.nextIndex ended.2 hreadyEnded) ?_
            intro reply _ _
            rw [wp_pure]
            exact iff_of_false (hlost _ fun _ => by omega) hbad

/-- The pages of a listing are delivered as they were sent exactly if the callback spares
them. -/
theorem wp_listPages (h : Served storage path directory I)
    (hkeeps : ∀ entry s,Ready I s → Ready I (callback entry s).2) (left : ℕ)
    (startIndex : UInt32) {s : Session δ U} (hs : Ready I s) :
    wp (listPages storage path callback left startIndex)
      (fun reply _ => Exact reply.2 (sentFrom directory left startIndex) ↔
        SparesPages storage path directory callback left startIndex s)
      (fun _ => False) s := by
  induction left generalizing startIndex s with
  | zero => exact wp_listPages_round h hkeeps 0 (fun n hn => by omega) startIndex hs
  | succ left ih =>
    refine wp_listPages_round h hkeeps (left+1) (fun n hn => ?_) startIndex hs
    obtain rfl : left=n := Nat.succ.inj hn
    exact fun startIndex s => ih startIndex

/-- A page is delivered as it was sent exactly if the callback spares it. -/
theorem wp_remoteListPage (h : Served storage path directory I)
    (startIndex maxEntries : UInt32) {s : Session δ U} (hs : Ready I s) :
    wp (remoteListPage storage path startIndex maxEntries callback)
      (fun reply _ => Exact reply.calls (directory startIndex maxEntries).entries ↔
        SparesPage storage path directory callback startIndex maxEntries s)
      (fun _ => False) s := by
  obtain ⟨result,t,htaken⟩ := exists_taken h startIndex maxEntries hs
  have hroom : ¬storageScratch storage=false := by
    rw [h.scratch]
    exact Bool.noConfusion
  have hiff : Exact (takeEntries callback _ _ 8 t).1.2 _ ↔ _ :=
    takeEntries_exact_iff htaken.stop
  unfold remoteListPage SparesPage
  rw [if_neg hroom,wp_bind_run htaken.run,htaken.run]
  dsimp only
  rw [htaken.count,wp_bind,wp_access]
  split
  · exact hiff
  · exact hiff

/-- What is sent of a directory is delivered, in order and up to where the callback breaks
the listing off, exactly if the callback spares it in the buffer: when it goes on with the
listing, the buffer holds the next entry of the page as it was sent. -/
theorem listing_exact_iff (h : Served storage path directory I)
    (hkeeps : ∀ entry s,Ready I s → Ready I (callback entry s).2) {s : Session δ U}
    (hs : Ready I s) :
    (∃ reply t,remoteListDir storage path callback s=(some reply,t) ∧
      (Exact reply.2 (sentFrom directory listGuard 0) ↔
        SparesPages storage path directory callback listGuard 0 s)) ∧
    ∀ startIndex maxEntries,∃ reply t,
      remoteListPage storage path startIndex maxEntries callback s=(some reply,t) ∧
      (Exact reply.calls (directory startIndex maxEntries).entries ↔
        SparesPage storage path directory callback startIndex maxEntries s) := by
  have hroom : ¬storageScratch storage=false := by
    rw [h.scratch]
    exact Bool.noConfusion
  refine ⟨?_,fun startIndex maxEntries =>
    wp_total (wp_remoteListPage h startIndex maxEntries hs)⟩
  unfold remoteListDir
  rw [if_neg hroom]
  exact wp_total (wp_listPages h hkeeps listGuard 0 hs)

end Listing

section Short

variable {callback : ListCb δ U} {sent : List SentEntry}

/-- A callback that leaves the buffer as it is from a place behind the first entry on spares
the page. -/
theorem spares_of_kept {n place : ℕ} {s : Session δ U}
    (hkept : ∀ entry s i,n≤ i → (callback entry s).2.scratch i=s.scratch i)
    (hplace : n≤place+14) (h : Agree s.scratch place (sent.flatMap SentEntry.bytes)) :
    Spares callback sent place s := by
  induction sent generalizing place s with
  | nil => trivial
  | cons e sent ih =>
    have hlength := e.length_bytes
    have hname := List.length_pos_iff.mpr e.name_ne
    unfold clpStorageDirEntryBytes at hlength
    rw [List.flatMap_cons,agree_append] at h
    refine ⟨fun i hi _ => h.1 i hi,fun _ => ih (by omega) fun i hi => ?_⟩
    rw [hkept _ _ _ (by omega)]
    exact h.2 i hi

/-- An operation changes the buffer where its request is. -/
theorem overScratch_kept {request : Option (List UInt8)} {run : Prog (Link δ) α}
    {s : Session δ U} {i : ℕ} (h : ∀ bytes,request=some bytes → bytes.length≤ i) :
    (overScratch request run s).2.scratch i=s.scratch i := by
  unfold overScratch
  cases request with
  | none => rfl
  | some bytes =>
    have hstage : (stage bytes : Prog (Session δ U) Unit) s=
        (some (),{s with scratch := fun i => bytes.getD i (s.scratch i)}) := rfl
    dsimp only
    rw [bind_run hstage]
    exact List.getD_eq_default _ _ (h bytes rfl)

/-- The metadata of a path are asked for in the bytes of the path. -/
theorem storageStat_kept (storage : Storage δ) (path : CString) {s : Session δ U} {i : ℕ}
    (h : path.wire.length≤ i) : (storageStat storage path s).2.scratch i=s.scratch i := by
  apply overScratch_kept
  intro bytes hbytes
  obtain ⟨pathLen,-,hrequest⟩ := Option.bind_eq_some_iff.mp hbytes
  split at hrequest
  · rw [List.nil_append] at hrequest
    obtain rfl := Option.some.inj hrequest
    exact h
  · cases hrequest

/-- A callback that asks for the metadata of short paths only spares every page. -/
theorem sparesPage_stat {storage : Storage δ} {path : CString}
    {directory : UInt32 → UInt32 → Page} {I : δ → Prop}
    (h : Served storage path directory I) (paths : DirEntry → CString)
    (hshort : ∀ entry,(paths entry).wire.length≤22) (startIndex maxEntries : UInt32)
    {s : Session δ U} (hs : Ready I s) :
    SparesPage storage path directory
      (fun entry s => (0,(storageStat storage (paths entry) s).2)) startIndex maxEntries s := by
  obtain ⟨result,t,htaken⟩ := exists_taken h startIndex maxEntries hs
  have hheld := htaken.held
  unfold Page.bytes at hheld
  rw [agree_append,agree_append] at hheld
  unfold SparesPage
  rw [htaken.run]
  refine spares_of_kept (n:=22) (fun entry s i hi => ?_) (by decide) hheld.2.2
  exact storageStat_kept storage _ ((hshort entry).trans hi)

end Short

section Sample

/-- An entry of one letter. -/
def letterEntry (letter : UInt8) : SentEntry :=
  ⟨⟨[letter],0,1,0⟩,0,List.cons_ne_nil _ _,Nat.succ_le_succ (Nat.zero_le _)⟩

/-- A directory of two files. -/
def twoFiles : Page := ⟨[letterEntry 97,letterEntry 98],clpStorageListDone,by decide⟩

/-- A server that lists them, and has no metadata. -/
def serveTwo (header : ClpHeader) (_ : List UInt8) (store : Unit) : Reply×Unit :=
  (if header.opcode=clpStorageList then .response clpStatusOk 0 0 twoFiles.bytes
    else .ack clpStatusNotFound,store)

/-- A client of it. -/
def twoStorage : Storage (Responder Unit) := ⟨respond serveTwo,some 2048⟩

/-- Its beginning. -/
def twoSession : Session (Responder Unit) Unit :=
  ⟨⟨⟨[],[],()⟩,⟨.idle,0,clpStatusOk,clpCapDirList⟩,[]⟩,fun _ => 0,()⟩

/-- A callback that asks for the metadata of a path and goes on. -/
def statCb (path : CString) : ListCb (Responder Unit) Unit := fun _ s =>
  (0,(storageStat twoStorage path s).2)

/-- The directory `/d`. -/
def dirPath : CString := ⟨[47,100],by decide⟩

/-- A path of 24 letters. -/
def longPath : CString := ⟨List.replicate 24 97,by decide⟩

/-- The server is at rest. -/
def AtRest (d : Responder Unit) : Prop := d=⟨[],[],()⟩

theorem twoFiles_served : Served twoStorage dirPath (fun _ _ => twoFiles) AtRest := by
  refine ⟨⟨3,by decide,by decide⟩,by decide,?_⟩
  rintro d rfl startIndex maxEntries
  have hlength : (listFixed startIndex maxEntries listPageBytes++dirPath.wire).length≤
      clpFrameMaxPayloadBytes := by
    have hfixed : (listFixed startIndex maxEntries listPageBytes).length=12 := rfl
    rw [List.length_append,hfixed]
    decide
  have hpage : twoFiles.bytes.length≤ clpFrameMaxPayloadBytes := by decide
  exact respond_answers serveTwo hlength fun seq => ⟨hpage,rfl,rfl,rfl⟩

/-- The path of the directory is short. -/
theorem dirPath_spared :
    SparesPage twoStorage dirPath (fun _ _ => twoFiles) (statCb dirPath) 0 2 twoSession :=
  sparesPage_stat twoFiles_served (fun _ => dirPath) (fun _ => by decide) 0 2 ⟨rfl,by decide⟩

/-- The server is at rest after metadata were asked for. -/
theorem statCb_keeps (path : CString) (entry : DirEntry)
    (s : Session (Responder Unit) Unit) (hs : Ready AtRest s) :
    Ready AtRest (statCb path entry s).2 := by
  obtain ⟨hrest,hcaps⟩ := hs
  have hlink : ∀ (scratch : ℕ → UInt8),wp (onLink (clStorageStat twoStorage path))
      (fun _ t => Ready AtRest t) (fun t => Ready AtRest t) {s with scratch := scratch} := by
    intro scratch
    apply wp_onLink
    unfold clStorageStat
    cases hpath : storagePathLength path with
    | none => exact ⟨hrest,hcaps⟩
    | some pathLen =>
      dsimp only
      by_cases hroom : storageRequestScratch twoStorage pathLen=true
      · have hlength : path.wire.length≤ clpFrameMaxPayloadBytes := by
          unfold storagePathLength at hpath
          split at hpath
          · cases hpath
          next hshort =>
            have hmax : clpStoragePathMaxBytes=1024 := rfl
            unfold CString.wire clpFrameMaxPayloadBytes
            rw [List.length_append,List.length_singleton]
            omega
        rw [if_pos hroom]
        unfold withResponse
        rw [wp_bind]
        have hanswers : Answers twoStorage.transport clpChStorage clpStorageStat path.wire
            (fun reply d => reply=.ack clpStatusNotFound ∧ AtRest d) s.link.device := by
          rw [hrest]
          exact respond_answers serveTwo hlength fun seq => ⟨Nat.zero_le _,rfl,rfl⟩
        refine wp_sendCommand hlength hanswers ?_
        rintro seq reply t d hanswered - hdeliver ⟨rfl,hd⟩
        have hdevice : d=t.device := (delivers_nil _).mp hdeliver
        have hmissing : clpStatusNotFound≠clpStatusOk := by decide
        dsimp only [Reply.header]
        rw [if_pos hmissing,wp_bind]
        refine ⟨hdevice▸hd,?_⟩
        dsimp only
        rw [hanswered.caps]
        exact hcaps
      · rw [if_neg hroom]
        exact ⟨hrest,hcaps⟩
  have hstat : wp (storageStat twoStorage path) (fun _ t => Ready AtRest t)
      (fun t => Ready AtRest t) s := by
    unfold storageStat overScratch
    cases pathRequest twoStorage [] path with
    | none => exact hlink s.scratch
    | some bytes =>
      dsimp only
      rw [wp_bind]
      exact hlink _
  exact wp_iff.mp hstat

theorem twoSession_ready : Ready AtRest twoSession := ⟨rfl,by decide⟩

theorem listing_exact_iff_two :
    (∃ reply t,remoteListDir twoStorage dirPath (statCb dirPath) twoSession=(some reply,t) ∧
      (Exact reply.2 (sentFrom (fun _ _ => twoFiles) listGuard 0) ↔
        SparesPages twoStorage dirPath (fun _ _ => twoFiles) (statCb dirPath) listGuard 0
          twoSession)) ∧
    ∀ startIndex maxEntries,∃ reply t,
      remoteListPage twoStorage dirPath startIndex maxEntries (statCb dirPath) twoSession=
        (some reply,t) ∧
      (Exact reply.calls twoFiles.entries ↔
        SparesPage twoStorage dirPath (fun _ _ => twoFiles) (statCb dirPath) startIndex
          maxEntries twoSession) :=
  listing_exact_iff twoFiles_served (statCb_keeps dirPath) twoSession_ready

/-- A callback that asks for the metadata of a long path gets the first entry only. -/
theorem listing_loses_entries :
    ∃ reply t,remoteListDir twoStorage dirPath (statCb longPath) twoSession=(some reply,t) ∧
      ¬Exact reply.2 (sentFrom (fun _ _ => twoFiles) listGuard 0) := by
  have hrun : ((remoteListDir twoStorage dirPath (statCb longPath) twoSession).1.map
      fun reply => reply.2.map Call.ret)=some [0] := by decide +kernel
  obtain ⟨reply,hreply,hcalls⟩ := Option.map_eq_some_iff.mp hrun
  refine ⟨reply,_,Prod.ext hreply rfl,fun hexact => ?_⟩
  have hnonneg : ∀ call∈reply.2,0≤ call.ret := by
    intro call hcall
    have hret := List.mem_map_of_mem (f:=Call.ret) hcall
    rw [hcalls,List.mem_singleton] at hret
    rw [hret]
  have hall := congrArg List.length (hexact.all hnonneg)
  have hone := congrArg List.length hcalls
  have hsent : (sentFrom (fun _ _ => twoFiles) listGuard 0).length=2 := by decide
  rw [List.length_map] at hone
  rw [List.length_map,List.length_map,hsent,hone] at hall
  cases hall

end Sample

end ChisLink.RemoteListing
