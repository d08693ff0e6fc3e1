import ChisLink.FileOperations

/-!
# Directory listings

A backend delivers the entries of a directory to a callback, all of them or a page from
an index on. Where it has no pages, the file layer makes them: it lists the whole
directory, skips what is before the index and breaks off behind the page. The
indexes have 32 bits, and the count of the entries that were seen wraps.
-/

namespace ChisLink.DirectoryListing

open FileLayer FileOperations StorageClient

/-- An index behind the last page. -/
def clpStorageListDone : UInt32 := 0xffffffff

/-- Result with which the pages of the file layer break off a listing. -/
def clFileListPageDone : ℤ := -1000

/-- The struct `cl_file_dir_entry_t`. -/
structure ClFileDirEntry where
  /-- Name. -/
  name : CString
  /-- Size in bytes. -/
  size : UInt64
  /-- Type. -/
  type : UInt8
  /-- Flags. -/
  flags : UInt8

variable {W U : Type}

/-- A callback of a listing. A negative result breaks the listing off. -/
abbrev ClFileListCb (U : Type) : Type := ClFileDirEntry → U → ℤ×U

/-- What a page comes to. -/
structure PageReply (U : Type) where
  /-- The result. -/
  ret : ℤ
  /-- What the callback has left. -/
  user : U
  /-- The index in `out_next_index`. -/
  nextIndex : UInt32
  /-- The count in `out_entry_count`. -/
  entryCount : UInt32

/-- The operations of a backend on directories. -/
structure ListOps (W : Type) : Type 1 where
  /-- List a directory. -/
  listDir : Option ((U : Type) → CString → ClFileListCb U → U → W → (ℤ×U)×W)
  /-- List a page, from an index, of so many entries at most. -/
  listPage : Option ((U : Type) → CString → UInt32 → UInt32 → ClFileListCb U → U → W →
    PageReply U×W)

/-- The struct `list_page_fallback_ctx_t`. -/
structure FallbackCtx (U : Type) where
  /-- First index of the page. -/
  startIndex : UInt32
  /-- Largest number of entries, zero for any. -/
  maxEntries : UInt32
  /-- Entries seen so far. -/
  seen : UInt32
  /-- Entries emitted so far. -/
  emitted : UInt32
  /-- Index of the next page. -/
  nextIndex : UInt32
  /-- The state of the callback. -/
  user : U

/-- The function `list_page_fallback_cb`. -/
def listPageFallbackCb (callback : ClFileListCb U) (entry : ClFileDirEntry)
    (ctx : FallbackCtx U) : ℤ×FallbackCtx U :=
  let current := ctx.seen
  let ctx := {ctx with seen := ctx.seen+1}
  if current<ctx.startIndex then (0,ctx)
  else if ctx.maxEntries≠0 ∧ ctx.maxEntries≤ ctx.emitted then
    (clFileListPageDone,{ctx with nextIndex := current})
  else
    let reply := callback entry ctx.user
    if reply.1<0 then (reply.1,{ctx with user := reply.2})
    else (0,{ctx with user := reply.2,emitted := ctx.emitted+1})

section Calls

variable (backends : List (Backend W)) (lists : Backend W → ListOps W)

/-- The function `cl_file_list_dir`. -/
def clFileListDir (path : CString) (callback : ClFileListCb U) (user : U) (s : Files W) :
    (ℤ×U)×Files W :=
  match findBackend backends path with
  | none => ((-2,user),s)
  | some backend =>
    match (lists backend).listDir with
    | none => ((-2,user),s)
    | some listDir =>
      let reply := listDir U path callback user s.world
      (reply.1,{s with world := reply.2})

/-- The page that the file layer makes of a whole listing. -/
def fallbackReply (ret : ℤ) (ctx : FallbackCtx U) : PageReply U :=
  if ret<0 ∧ ret≠clFileListPageDone then ⟨ret,ctx.user,clpStorageListDone,0⟩
  else ⟨0,ctx.user,if ret≠clFileListPageDone then clpStorageListDone else ctx.nextIndex,
    ctx.emitted⟩

/-- The function `cl_file_list_dir_page`. -/
def clFileListDirPage (path : CString) (startIndex maxEntries : UInt32)
    (callback : ClFileListCb U) (user : U) (s : Files W) : PageReply U×Files W :=
  match findBackend backends path with
  | none => (⟨-2,user,clpStorageListDone,0⟩,s)
  | some backend =>
    match (lists backend).listPage,(lists backend).listDir with
    | some listPage,_ =>
      let reply := listPage U path startIndex maxEntries callback user s.world
      (reply.1,{s with world := reply.2})
    | none,none => (⟨-2,user,clpStorageListDone,0⟩,s)
    | none,some listDir =>
      let reply := listDir (FallbackCtx U) path (listPageFallbackCb callback)
        ⟨startIndex,maxEntries,0,0,clpStorageListDone,user⟩ s.world
      (fallbackReply reply.1.1 reply.1.2,{s with world := reply.2})

end Calls

/-- Deliver some entries to a callback, until one breaks off. -/
def deliver (callback : ClFileListCb U) : List ClFileDirEntry → U → ℤ×U
  | [], user => (0,user)
  | entry::entries, user =>
    let reply := callback entry user
    if reply.1<0 then reply else deliver callback entries reply.2

section Delivery

variable {callback : ClFileListCb U}

theorem deliver_nil (user : U) : deliver callback [] user=(0,user) := rfl

theorem deliver_cons (entry : ClFileDirEntry) (entries : List ClFileDirEntry) (user : U) :
    deliver callback (entry::entries) user=
      if (callback entry user).1<0 then callback entry user
      else deliver callback entries (callback entry user).2 := rfl

theorem deliver_append (first second : List ClFileDirEntry) (user : U) :
    deliver callback (first++second) user=
      if (deliver callback first user).1<0 then deliver callback first user
      else deliver callback second (deliver callback first user).2 := by
  induction first generalizing user with
  | nil => rfl
  | cons entry first ih =>
    rw [List.cons_append,deliver_cons,deliver_cons]
    by_cases hneg : (callback entry user).1<0
    · rw [if_pos hneg,if_pos hneg,if_pos hneg]
    · rw [if_neg hneg,if_neg hneg]
      exact ih _

/-- A delivery that is not broken off succeeds. -/
theorem deliver_ret (callback : ClFileListCb U) (entries : List ClFileDirEntry) (user : U) :
    (deliver callback entries user).1<0 ∨ (deliver callback entries user).1=0 := by
  induction entries generalizing user with
  | nil => exact Or.inr rfl
  | cons entry entries ih =>
    rw [deliver_cons]
    split
    next hneg => exact Or.inl hneg
    next => exact ih _

end Delivery

section Fallback

variable {callback : ClFileListCb U}

/-- The context after skipping some entries. -/
def FallbackCtx.skipped (ctx : FallbackCtx U) (n : ℕ) : FallbackCtx U :=
  {ctx with seen := ctx.seen+UInt32.ofNat n}

/-- The context after emitting some entries. -/
def FallbackCtx.passed (ctx : FallbackCtx U) (n : ℕ) (user : U) : FallbackCtx U :=
  {ctx with seen := ctx.seen+UInt32.ofNat n,emitted := ctx.emitted+UInt32.ofNat n,user := user}

theorem toNat_add_one {x : UInt32} (h : x.toNat+1<2^32) : (x+1).toNat=x.toNat+1 := by
  have hone : (1 : UInt32).toNat=1 := rfl
  rw [UInt32.toNat_add,hone]
  omega

theorem add_ofNat_succ (x : UInt32) (n : ℕ) :
    x+1+UInt32.ofNat n=x+UInt32.ofNat (n+1) := by
  rw [UInt32.ofNat_add,UInt32.add_assoc,UInt32.add_comm (UInt32.ofNat n)]
  rfl

/-- Entries before the first index are skipped. -/
theorem deliver_skips (callback : ClFileListCb U) (entries : List ClFileDirEntry) (ctx : FallbackCtx U)
    (h : ctx.seen.toNat+entries.length≤ ctx.startIndex.toNat) :
    deliver (listPageFallbackCb callback) entries ctx=(0,ctx.skipped entries.length) := by
  induction entries generalizing ctx with
  | nil =>
    have hzero : ctx.seen+UInt32.ofNat 0=ctx.seen := UInt32.add_zero _
    change (0,ctx)=(0,{ctx with seen := ctx.seen+UInt32.ofNat 0})
    rw [hzero]
  | cons entry entries ih =>
    rw [List.length_cons] at h
    have hlt := ctx.startIndex.toNat_lt
    have hbefore : ctx.seen<ctx.startIndex := UInt32.lt_iff_toNat_lt.mpr (by omega)
    have hone := toNat_add_one (x:=ctx.seen) (by omega)
    have hcall : listPageFallbackCb callback entry ctx=
        (0,{ctx with seen := ctx.seen+1}) := if_pos hbefore
    have hrest := ih {ctx with seen := ctx.seen+1} (by dsimp only; omega)
    have hzero : ¬(0 : ℤ)<0 := by decide
    rw [deliver_cons,hcall,if_neg hzero,hrest]
    unfold FallbackCtx.skipped
    dsimp only
    rw [add_ofNat_succ,List.length_cons]

/-- Entries of the page are passed on. -/
theorem deliver_passes (callback : ClFileListCb U) (entries : List ClFileDirEntry) (ctx : FallbackCtx U)
    (hstart : ctx.startIndex.toNat≤ ctx.seen.toNat)
    (hseen : ctx.seen.toNat+entries.length≤2^32)
    (hroom : ctx.emitted.toNat+entries.length≤ ctx.maxEntries.toNat) :
    ((deliver callback entries ctx.user).1<0 →
      (deliver (listPageFallbackCb callback) entries ctx).1=(deliver callback entries ctx.user).1 ∧
      (deliver (listPageFallbackCb callback) entries ctx).2.user=
        (deliver callback entries ctx.user).2) ∧
    ((deliver callback entries ctx.user).1=0 →
      deliver (listPageFallbackCb callback) entries ctx=
        (0,ctx.passed entries.length (deliver callback entries ctx.user).2)) := by
  induction entries generalizing ctx with
  | nil =>
    have hret : (deliver callback [] ctx.user).1=0 := rfl
    refine ⟨fun h => by omega,fun _ => ?_⟩
    have hzero : ctx.seen+UInt32.ofNat 0=ctx.seen := UInt32.add_zero _
    have hnone : ctx.emitted+UInt32.ofNat 0=ctx.emitted := UInt32.add_zero _
    change (0,ctx)=(0,{ctx with
      seen := ctx.seen+UInt32.ofNat 0,emitted := ctx.emitted+UInt32.ofNat 0,user := ctx.user})
    rw [hzero,hnone]
  | cons entry entries ih =>
    rw [List.length_cons] at hseen hroom
    have hmax := ctx.maxEntries.toNat_lt
    have hreached : ¬ctx.seen<ctx.startIndex :=
      UInt32.not_lt.mpr (UInt32.le_iff_toNat_le.mpr hstart)
    have hopen : ¬(ctx.maxEntries≠0 ∧ ctx.maxEntries≤ ctx.emitted) := by
      rintro ⟨-,hfull⟩
      have hle := UInt32.le_iff_toNat_le.mp hfull
      omega
    have hcall : listPageFallbackCb callback entry ctx=
        if (callback entry ctx.user).1<0 then
          ((callback entry ctx.user).1,
            {ctx with seen := ctx.seen+1,user := (callback entry ctx.user).2})
        else (0,{ctx with
          seen := ctx.seen+1,user := (callback entry ctx.user).2,emitted := ctx.emitted+1}) := by
      unfold listPageFallbackCb
      dsimp only
      rw [if_neg hreached,if_neg hopen]
    rw [deliver_cons,deliver_cons,hcall]
    by_cases hneg : (callback entry ctx.user).1<0
    · rw [if_pos hneg,if_pos hneg,if_pos hneg]
      exact ⟨fun _ => ⟨rfl,rfl⟩,fun h => absurd hneg (by omega)⟩
    · have hzero : ¬(0 : ℤ)<0 := by decide
      rw [if_neg hneg,if_neg hneg,if_neg hzero]
      cases entries with
      | nil =>
        have hret : (deliver callback [] (callback entry ctx.user).2).1=0 := rfl
        exact ⟨fun h => by omega,fun _ => rfl⟩
      | cons next entries =>
        rw [List.length_cons] at hseen hroom
        have hone := toNat_add_one (x:=ctx.seen) (by omega)
        have hmore := toNat_add_one (x:=ctx.emitted) (by omega)
        have hrest := ih {ctx with
          seen := ctx.seen+1,user := (callback entry ctx.user).2,emitted := ctx.emitted+1}
          (by dsimp only; omega) (by dsimp only; rw [List.length_cons]; omega)
          (by dsimp only; rw [List.length_cons]; omega)
        refine ⟨hrest.1,fun hdone => ?_⟩
        rw [hrest.2 hdone]
        unfold FallbackCtx.passed
        dsimp only
        rw [add_ofNat_succ,add_ofNat_succ]
        rfl

/-- Behind a full page the listing is broken off. -/
theorem deliver_stops (entry : ClFileDirEntry) (entries : List ClFileDirEntry)
    (ctx : FallbackCtx U) (hstart : ctx.startIndex.toNat≤ ctx.seen.toNat)
    (hmax : ctx.maxEntries≠0) (hfull : ctx.maxEntries.toNat≤ ctx.emitted.toNat) :
    deliver (listPageFallbackCb callback) (entry::entries) ctx=
      (clFileListPageDone,{ctx with seen := ctx.seen+1,nextIndex := ctx.seen}) := by
  have hreached : ¬ctx.seen<ctx.startIndex :=
    UInt32.not_lt.mpr (UInt32.le_iff_toNat_le.mpr hstart)
  have hcall : listPageFallbackCb callback entry ctx=
      (clFileListPageDone,{ctx with seen := ctx.seen+1,nextIndex := ctx.seen}) := by
    unfold listPageFallbackCb
    dsimp only
    rw [if_neg hreached,if_pos ⟨hmax,UInt32.le_iff_toNat_le.mpr hfull⟩]
  have hneg : clFileListPageDone<0 := by decide
  rw [deliver_cons,hcall,if_pos hneg]

/-- A page of eight entries that the file layer makes, and the index of the next. Behind
2^32 entries the count wraps and the listing goes on until it comes to the index of
the page again. -/
def fallbackPage (entries : List ClFileDirEntry) (start : UInt32) :
    List ClFileDirEntry×UInt32 :=
  ((entries.drop start.toNat).take 8,
    if entries.length≤ start.toNat+8 then clpStorageListDone
    else if start.toNat+8<2^32 then start+8
    else if entries.length≤ start.toNat+8+start.toNat then clpStorageListDone
    else start)

end Fallback

/-- How the directories are seen, in the states in which they are so. -/
structure DirectoryView (W : Type) where
  /-- The states. -/
  holds : W → Prop
  /-- The entries of a directory that can be listed. -/
  entries : CString → Option (List ClFileDirEntry)
  /-- Number of entries of a page of the backend, from an index, of so many at most, and the
  index of the next page. -/
  paging : CString → UInt32 → UInt32 → ℕ×UInt32

section Contract

variable (backends : List (Backend W)) (lists : Backend W → ListOps W) (view : DirectoryView W)

/-- A page of eight entries of a directory, and the index of the next. -/
def pageAt (path : CString) (entries : List ClFileDirEntry) (start : UInt32) :
    List ClFileDirEntry×UInt32 :=
  match findBackend backends path with
  | none => ([],clpStorageListDone)
  | some backend =>
    if (lists backend).listPage.isSome then
      ((entries.drop start.toNat).take (view.paging path start 8).1,
        (view.paging path start 8).2)
    else fallbackPage entries start

end Contract

section Listing

variable {backends : List (Backend W)} {lists : Backend W → ListOps W}
  {view : DirectoryView W} {path : CString} {entries : List ClFileDirEntry} {s : Files W}

/-- The directory that a path stands for, if it can be listed. -/
def listed (backends : List (Backend W)) (view : DirectoryView W) (path : CString) :
    Option (List ClFileDirEntry) :=
  (findBackend backends path).bind fun _ => view.entries path

/-- The pages of a path are made by the file layer. -/
def HasNoPages (backends : List (Backend W)) (lists : Backend W → ListOps W)
    (path : CString) : Prop :=
  ∀ backend,findBackend backends path=some backend → (lists backend).listPage=none

end Listing

end ChisLink.DirectoryListing
