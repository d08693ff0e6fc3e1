import ChisLink.DirectoryStream

/-!
# Pages of a backend without pages

For a backend that only lists whole directories the file layer cuts the pages out of the
listing. A caller who goes on at the index that a page gives, until there is none, gets the
entries that the listing gives. The indexes have 32 bits and the largest of them stands for
the end, so the entry with this index cannot begin a page.
-/

namespace ChisLink.FallbackPages

open DirectoryListing FileLayer StorageClient
open DirectoryStream (a_ne_zero dirBackend dirLists lettered shortNames rootPath)

variable {W U : Type}

/-- A callback that also notes what it was called with. -/
def recording (callback : ClFileListCb U) : ClFileListCb (U×List ClFileDirEntry) :=
  fun entry user =>
    let reply := callback entry user.1
    (reply.1,(reply.2,user.2++[entry]))

section Callers

variable (backends : List (Backend W)) (lists : Backend W → ListOps W) (path : CString)

/-- The pages of a directory, each at the index that the one before gave, until the last: for
each its count and its entries, and what the callback has left. -/
def listPages (maxEntries : UInt32) (callback : ClFileListCb U) :
    ℕ → UInt32 → U → Files W → Option (List (UInt32×List ClFileDirEntry)×U)
  | 0, _, _, _ => none
  | fuel+1, start, user, s =>
    let reply := clFileListDirPage backends lists path start maxEntries (recording callback)
      (user,[]) s
    if reply.1.ret≠0 then none
    else if reply.1.nextIndex=clpStorageListDone then
      some ([(reply.1.entryCount,reply.1.user.2)],reply.1.user.1)
    else
      match listPages maxEntries callback fuel reply.1.nextIndex reply.1.user.1 reply.2 with
      | none => none
      | some rest => some ((reply.1.entryCount,reply.1.user.2)::rest.1,rest.2)

/-- The backend of a path has a listing and no pages. -/
structure OnlyLists
    (listDir : (U : Type) → CString → ClFileListCb U → U → W → (ℤ×U)×W) : Prop where
  /-- There is a backend with these operations. -/
  backend : ∃ backend,findBackend backends path=some backend ∧
    (lists backend).listDir=some listDir ∧ (lists backend).listPage=none

/-- A listing calls back for every entry, and ends with what the callback returns where this
is negative. -/
structure ListsWhole (listDir : (U : Type) → CString → ClFileListCb U → U → W → (ℤ×U)×W)
    (holds : W → Prop) (entries : List ClFileDirEntry) (last : ℤ) : Prop where
  /-- The directory can be listed. -/
  success : 0≤last
  /-- Listing leaves it as it is. -/
  keeps : ∀ (U : Type) (callback : ClFileListCb U) user w,holds w →
    holds (listDir U path callback user w).2
  /-- What a listing comes to. -/
  delivers : ∀ (U : Type) (callback : ClFileListCb U) user w,holds w →
    (listDir U path callback user w).1=
      if (deliver callback entries user).1<0 then deliver callback entries user
      else (last,(deliver callback entries user).2)

end Callers

section Pages

variable {backends : List (Backend W)} {lists : Backend W → ListOps W} {path : CString}
  {listDir : (U : Type) → CString → ClFileListCb U → U → W → (ℤ×U)×W} {holds : W → Prop}
  {entries : List ClFileDirEntry} {last : ℤ} {s : Files W} {maxEntries : UInt32}
  {callback : ClFileListCb U}

/-- A callback that goes on notes all entries. -/
theorem deliver_recording (hcallback : ∀ entry user,0≤(callback entry user).1)
    (entries noted : List ClFileDirEntry) (user : U) :
    deliver (recording callback) entries (user,noted)=
      (0,((deliver callback entries user).2,noted++entries)) := by
  induction entries generalizing user noted with
  | nil => rw [deliver_nil,deliver_nil,List.append_nil]
  | cons entry entries ih =>
    have hgoes := Int.not_lt.mpr (hcallback entry user)
    rw [deliver_cons,deliver_cons,if_neg hgoes]
    have hcall : recording callback entry (user,noted)=
        ((callback entry user).1,((callback entry user).2,noted++[entry])) := rfl
    rw [hcall,if_neg hgoes,ih,List.append_assoc,List.singleton_append]

/-- The whole listing with a callback that goes on. -/
theorem clFileListDir_recording (hbackend : OnlyLists backends lists path listDir)
    (hlists : ListsWhole path listDir holds entries last) (hholds : holds s.world)
    (hcallback : ∀ entry user,0≤(callback entry user).1) (user : U) :
    (clFileListDir backends lists path (recording callback) (user,[]) s).1=
      (last,((deliver callback entries user).2,entries)) := by
  obtain ⟨backend,hfind,hlist,-⟩ := hbackend.backend
  have hdelivers := hlists.delivers _ (recording callback) (user,[]) s.world hholds
  rw [deliver_recording hcallback,if_neg (Int.lt_irrefl 0),List.nil_append] at hdelivers
  unfold clFileListDir
  rw [hfind]
  dsimp only
  rw [hlist]
  exact hdelivers

/-- The entries with an index that can begin a page. -/
def reachable (entries : List ClFileDirEntry) : List ClFileDirEntry := entries.take (2^32-1)

/-- A page that begins at an index. -/
def page (entries : List ClFileDirEntry) (maxEntries start : UInt32) : List ClFileDirEntry :=
  ((reachable entries).drop start.toNat).take maxEntries.toNat

/-- A page lies within the indexes. -/
def Fits (entries : List ClFileDirEntry) (maxEntries start : UInt32) : Prop :=
  start.toNat+maxEntries.toNat≤2^32-1 ∨ entries.length<2^32

theorem length_reachable (entries : List ClFileDirEntry) :
    (reachable entries).length=min (2^32-1) entries.length := List.length_take

theorem page_eq {start : UInt32} (h : Fits entries maxEntries start) :
    page entries maxEntries start=(entries.drop start.toNat).take maxEntries.toNat := by
  unfold page reachable
  rcases h with hfits | hshort
  · rw [List.drop_take,List.take_take]
    congr 1
    omega
  · have hall : entries.take (2^32-1)=entries := List.take_of_length_le (by omega)
    rw [hall]

theorem length_page (entries : List ClFileDirEntry) (maxEntries start : UInt32) :
    (page entries maxEntries start).length=
      min maxEntries.toNat ((reachable entries).length-start.toNat) := by
  unfold page
  rw [List.length_take,List.length_drop]

/-- The index behind a page. -/
def nextIndex (entries : List ClFileDirEntry) (maxEntries start : UInt32) : UInt32 :=
  if (reachable entries).length≤ start.toNat+maxEntries.toNat then clpStorageListDone
  else UInt32.ofNat (start.toNat+maxEntries.toNat)

/-- What the listing comes to that makes a page. -/
theorem deliver_fallback (hmax : maxEntries≠0) {start : UInt32}
    (hfits : Fits entries maxEntries start) (hstart : start.toNat≤(reachable entries).length)
    (hcallback : ∀ entry user,0≤(callback entry user).1) (user : U) :
    ∃ ret ctx,deliver (listPageFallbackCb (recording callback)) entries
        ⟨start,maxEntries,0,0,clpStorageListDone,(user,[])⟩=(ret,ctx) ∧
      ctx.user=((deliver callback (page entries maxEntries start) user).2,
        page entries maxEntries start) ∧
      ctx.emitted=UInt32.ofNat (page entries maxEntries start).length ∧
      (ret=0 ∧ nextIndex entries maxEntries start=clpStorageListDone ∨
        ret=clFileListPageDone ∧ ctx.nextIndex=nextIndex entries maxEntries start) := by
  have hwhole := length_reachable entries
  have hpageLength := length_page entries maxEntries start
  obtain ⟨rest,hrest⟩ : ∃ rest,rest=entries.drop (start.toNat+maxEntries.toNat) := ⟨_,rfl⟩
  have hrestLength : rest.length=entries.length-(start.toNat+maxEntries.toNat) := by
    rw [hrest,List.length_drop]
  have hmaxPos : 0< maxEntries.toNat :=
    Nat.pos_of_ne_zero fun h => hmax (UInt32.toNat_inj.mp h)
  obtain ⟨first,hfirst⟩ : ∃ first,first=page entries maxEntries start := ⟨_,rfl⟩
  have hsplit : entries=entries.take start.toNat++(first++rest) := by
    rw [hfirst,page_eq hfits,hrest,← List.drop_drop,List.take_append_drop,
      List.take_append_drop]
  rw [← hfirst] at hpageLength ⊢
  have hskipped : (entries.take start.toNat).length=start.toNat := by
    rw [List.length_take]
    omega
  have hskips := deliver_skips (recording callback) (entries.take start.toNat)
    ⟨start,maxEntries,0,0,clpStorageListDone,(user,[])⟩
    (by rw [hskipped]; exact le_of_eq (Nat.zero_add _))
  unfold FallbackCtx.skipped at hskips
  dsimp only at hskips
  rw [hskipped,UInt32.zero_add,UInt32.ofNat_toNat] at hskips
  have hnone : (0 : UInt32).toNat=0 := rfl
  have hpasses := (deliver_passes (recording callback) first
    ⟨start,maxEntries,start,0,clpStorageListDone,(user,[])⟩ (le_refl _)
    (by dsimp only; omega) (by dsimp only; omega)).2
  dsimp only at hpasses
  rw [deliver_recording hcallback] at hpasses
  have hpassed := hpasses rfl
  unfold FallbackCtx.passed at hpassed
  dsimp only at hpassed
  rw [UInt32.zero_add,List.nil_append] at hpassed
  have hdelivered : deliver (listPageFallbackCb (recording callback)) entries
      ⟨start,maxEntries,0,0,clpStorageListDone,(user,[])⟩=
        deliver (listPageFallbackCb (recording callback)) rest
          ⟨start,maxEntries,start+UInt32.ofNat first.length,UInt32.ofNat first.length,
            clpStorageListDone,((deliver callback first user).2,first)⟩ := by
    conv_lhs => rw [hsplit]
    rw [deliver_append,hskips,if_neg (Int.lt_irrefl 0),deliver_append,hpassed,
      if_neg (Int.lt_irrefl 0)]
  rw [hdelivered]
  cases rest with
  | nil =>
    rw [List.length_nil] at hrestLength
    refine ⟨_,_,deliver_nil _,rfl,rfl,Or.inl ⟨rfl,?_⟩⟩
    exact if_pos (by omega)
  | cons entry rest =>
    rw [List.length_cons] at hrestLength
    have hfull : first.length=maxEntries.toNat := by
      rcases hfits with hfits | hshort <;> omega
    have hbound : start.toNat+maxEntries.toNat≤2^32-1 := by
      rcases hfits with hfits | hshort <;> omega
    have hseen : start+UInt32.ofNat first.length=
        UInt32.ofNat (start.toNat+maxEntries.toNat) := by
      rw [hfull,UInt32.ofNat_add,UInt32.ofNat_toNat,UInt32.ofNat_toNat]
    have hseenValue : (UInt32.ofNat (start.toNat+maxEntries.toNat)).toNat=
        start.toNat+maxEntries.toNat := UInt32.toNat_ofNat_of_lt' (by
          have hsize : UInt32.size=2^32 := rfl
          omega)
    have hemitted : UInt32.ofNat first.length=maxEntries := by
      rw [hfull,UInt32.ofNat_toNat]
    rw [hseen]
    refine ⟨_,_,deliver_stops entry rest _ ?_ hmax ?_,rfl,rfl,Or.inr ⟨rfl,?_⟩⟩
    · dsimp only
      rw [hseenValue]
      omega
    · dsimp only
      rw [hemitted]
    · -- a full page that is not the last ends at the largest index or before it
      dsimp only
      unfold nextIndex
      split
      · rename_i hlast
        have hend : start.toNat+maxEntries.toNat=2^32-1 := by omega
        rw [hend]
        rfl
      · rfl

/-- What a page of the file layer comes to. -/
theorem clFileListDirPage_recording (hbackend : OnlyLists backends lists path listDir)
    (hlists : ListsWhole path listDir holds entries last) (hholds : holds s.world)
    (hmax : maxEntries≠0) {start : UInt32} (hfits : Fits entries maxEntries start)
    (hstart : start.toNat≤(reachable entries).length)
    (hcallback : ∀ entry user,0≤(callback entry user).1) (user : U) :
    holds (clFileListDirPage backends lists path start maxEntries (recording callback)
      (user,[]) s).2.world ∧
    (clFileListDirPage backends lists path start maxEntries (recording callback)
      (user,[]) s).1=
      ⟨0,((deliver callback (page entries maxEntries start) user).2,
        page entries maxEntries start),nextIndex entries maxEntries start,
        UInt32.ofNat (page entries maxEntries start).length⟩ := by
  obtain ⟨backend,hfind,hlist,hpage⟩ := hbackend.backend
  obtain ⟨ret,ctx,hdeliver,huser,hemitted,hend⟩ :=
    deliver_fallback hmax hfits hstart hcallback user
  have hdelivers := hlists.delivers _ (listPageFallbackCb (recording callback))
    ⟨start,maxEntries,0,0,clpStorageListDone,(user,[])⟩ s.world hholds
  have hkeeps := hlists.keeps _ (listPageFallbackCb (recording callback))
    ⟨start,maxEntries,0,0,clpStorageListDone,(user,[])⟩ s.world hholds
  unfold clFileListDirPage
  rw [hfind]
  dsimp only
  rw [hpage,hlist]
  dsimp only
  refine ⟨hkeeps,?_⟩
  rw [hdelivers,hdeliver,← huser,← hemitted]
  have hnotDone : last≠clFileListPageDone := by
    have hsuccess := hlists.success
    have hvalue : clFileListPageDone=-1000 := rfl
    omega
  rcases hend with ⟨rfl,hnext⟩ | ⟨rfl,hnext⟩
  · rw [if_neg (Int.lt_irrefl 0)]
    unfold fallbackReply
    rw [if_neg fun h => Int.not_lt.mpr hlists.success h.1,if_pos hnotDone,hnext]
  · rw [if_pos (by decide : clFileListPageDone<0)]
    unfold fallbackReply
    rw [if_neg fun h => h.2 rfl,if_neg fun h => h rfl,hnext]

/-- A callback that goes on is called for all entries. -/
theorem deliver_goes (hcallback : ∀ entry user,0≤(callback entry user).1)
    (entries : List ClFileDirEntry) (user : U) : (deliver callback entries user).1=0 := by
  induction entries generalizing user with
  | nil => rfl
  | cons entry entries ih =>
    rw [deliver_cons,if_neg (Int.not_lt.mpr (hcallback entry user))]
    exact ih _

/-- The rest of a directory behind a page. -/
theorem drop_page (entries : List ClFileDirEntry) (maxEntries start : UInt32) :
    page entries maxEntries start++
        (reachable entries).drop (start.toNat+maxEntries.toNat)=
      (reachable entries).drop start.toNat := by
  unfold page
  rw [← List.drop_drop,List.take_append_drop]

/-- Every page fits, because the directory ends before the largest index or the pages meet
it. -/
theorem fits_of_multiple
    (hmeets : entries.length<2^32 ∨ maxEntries.toNat ∣ 2^32-1) {start : UInt32}
    (hmultiple : maxEntries.toNat ∣ start.toNat) (hlt : start.toNat<2^32-1) :
    Fits entries maxEntries start := by
  rcases hmeets with hshort | ⟨pages,hpages⟩
  · exact Or.inr hshort
  · obtain ⟨before,hbefore⟩ := hmultiple
    left
    have hless : before<pages := by
      rw [hpages,hbefore] at hlt
      exact Nat.lt_of_mul_lt_mul_left hlt
    have hnext := Nat.mul_le_mul_left maxEntries.toNat (Nat.succ_le_of_lt hless)
    rw [Nat.mul_succ] at hnext
    omega

/-- The pages from an index on give the entries from it on. -/
theorem listPages_from (hbackend : OnlyLists backends lists path listDir)
    (hlists : ListsWhole path listDir holds entries last) (hmax : maxEntries≠0)
    (hcallback : ∀ entry user,0≤(callback entry user).1)
    (hmeets : entries.length<2^32 ∨ maxEntries.toNat ∣ 2^32-1) (fuel : ℕ) :
    ∀ (start : UInt32) user (s : Files W),holds s.world → maxEntries.toNat ∣ start.toNat →
      (start=0 ∨ start.toNat<(reachable entries).length) →
      (reachable entries).length-start.toNat≤fuel*maxEntries.toNat → 0<fuel →
      ∃ pages,listPages backends lists path maxEntries callback fuel start user s=
          some (pages,(deliver callback ((reachable entries).drop start.toNat) user).2) ∧
        (pages.map fun page => page.2).flatten=(reachable entries).drop start.toNat ∧
        (pages.length=1 ∨
          (pages.length-1)*maxEntries.toNat<(reachable entries).length-start.toNat) ∧
        ∀ page∈pages,page.1.toNat=page.2.length ∧ page.2.length≤ maxEntries.toNat ∧
          (page.2=[] → entries=[]) := by
  have hwhole := length_reachable entries
  have hpos : 0< maxEntries.toNat :=
    Nat.pos_of_ne_zero fun h => hmax (UInt32.toNat_inj.mp h)
  have hmaxLt := maxEntries.toNat_lt
  induction fuel with
  | zero => exact fun start user s _ _ _ _ hfuel => absurd hfuel (Nat.lt_irrefl 0)
  | succ fuel ih =>
    intro start user s hholds hmultiple hwithin hfuel _
    have hzero : start=0 → start.toNat=0 := fun h => by rw [h]; rfl
    have hle : start.toNat≤(reachable entries).length := by
      rcases hwithin with h | h
      · rw [hzero h]
        exact Nat.zero_le _
      · exact Nat.le_of_lt h
    have hfits : Fits entries maxEntries start := by
      refine fits_of_multiple hmeets hmultiple ?_
      rcases hwithin with h | h
      · rw [hzero h]
        decide
      · omega
    obtain ⟨hkeeps,hreply⟩ := clFileListDirPage_recording hbackend hlists hholds hmax hfits hle
      hcallback user
    have hlength := length_page entries maxEntries start
    have hcount : (UInt32.ofNat (page entries maxEntries start).length).toNat=
        (page entries maxEntries start).length := UInt32.toNat_ofNat_of_lt' (by
          have hsize : UInt32.size=2^32 := rfl
          omega)
    have hempty : page entries maxEntries start=[] → entries=[] := by
      intro hnil
      rw [hnil,List.length_nil] at hlength
      refine List.eq_nil_of_length_eq_zero ?_
      rcases hwithin with h | h
      · rw [hzero h] at hlength
        omega
      · omega
    have hrest := drop_page entries maxEntries start
    rw [listPages,hreply]
    dsimp only
    rw [if_neg fun h => h rfl]
    by_cases hlast : (reachable entries).length≤ start.toNat+maxEntries.toNat
    · have hnext : nextIndex entries maxEntries start=clpStorageListDone := if_pos hlast
      rw [List.drop_of_length_le hlast,List.append_nil] at hrest
      rw [if_pos hnext,← hrest]
      refine ⟨_,rfl,List.append_nil _,Or.inl rfl,fun page' hpage' => ?_⟩
      rw [List.mem_singleton.mp hpage']
      exact ⟨hcount,by dsimp only; omega,hempty⟩
    · have hnext : nextIndex entries maxEntries start=
          UInt32.ofNat (start.toNat+maxEntries.toNat) := if_neg hlast
      have hnextValue : (UInt32.ofNat (start.toNat+maxEntries.toNat)).toNat=
          start.toNat+maxEntries.toNat := UInt32.toNat_ofNat_of_lt' (by
            have hsize : UInt32.size=2^32 := rfl
            omega)
      have hnotDone : UInt32.ofNat (start.toNat+maxEntries.toNat)≠clpStorageListDone := by
        intro hdone
        have hvalue : clpStorageListDone.toNat=2^32-1 := rfl
        rw [hdone] at hnextValue
        omega
      have hmore : 0<fuel := by
        refine Nat.pos_of_ne_zero fun hnone => ?_
        rw [hnone] at hfuel
        omega
      rw [Nat.succ_mul] at hfuel
      obtain ⟨pages,hpages,hflatten,hnumber,hall⟩ := ih
        (UInt32.ofNat (start.toNat+maxEntries.toNat))
        (deliver callback (page entries maxEntries start) user).2 _ hkeeps
        (by rw [hnextValue]; exact Nat.dvd_add hmultiple (Nat.dvd_refl _))
        (Or.inr (by rw [hnextValue]; omega)) (by rw [hnextValue]; omega) hmore
      rw [hnextValue] at hpages hflatten hnumber
      rw [hnext,if_neg hnotDone,hpages]
      dsimp only
      rw [← hrest]
      refine ⟨(UInt32.ofNat (page entries maxEntries start).length,
        page entries maxEntries start)::pages,?_,?_,Or.inr ?_,fun page' hpage' => ?_⟩
      · rw [deliver_append,deliver_goes hcallback,if_neg (Int.lt_irrefl 0)]
      · rw [List.map_cons,List.flatten_cons,hflatten]
      · rw [List.length_cons,Nat.add_sub_cancel]
        rcases hnumber with hone | hfull
        · rw [hone]
          omega
        · obtain ⟨n,hn⟩ : ∃ n,pages.length=n := ⟨_,rfl⟩
          rw [hn] at hfull ⊢
          cases n with
          | zero => omega
          | succ n =>
            rw [Nat.add_sub_cancel] at hfull
            rw [Nat.succ_mul]
            omega
      · rcases List.mem_cons.mp hpage' with rfl | htail
        · exact ⟨hcount,by dsimp only; omega,hempty⟩
        · exact hall page' htail

/-- The pages that the file layer cuts out of a listing give its entries. -/
theorem pages_concat (hbackend : OnlyLists backends lists path listDir)
    (hlists : ListsWhole path listDir holds entries last) (hholds : holds s.world)
    (hmax : maxEntries≠0) (hcallback : ∀ entry user,0≤(callback entry user).1)
    (hindexed : entries.length<2^32) (user : U) :
    ∃ pages,
      listPages backends lists path maxEntries callback (entries.length+1) 0 user s=
        some (pages,(clFileListDir backends lists path (recording callback) (user,[]) s).1.2.1) ∧
      (pages.map fun page => page.2).flatten=
        (clFileListDir backends lists path (recording callback) (user,[]) s).1.2.2 ∧
      (clFileListDir backends lists path (recording callback) (user,[]) s).1.2.2=entries ∧
      (pages.length=1 ∨ (pages.length-1)*maxEntries.toNat<entries.length) ∧
      ∀ page∈pages,page.1.toNat=page.2.length ∧ page.2.length≤ maxEntries.toNat ∧
        (page.2=[] → entries=[]) := by
  have hall : reachable entries=entries := List.take_of_length_le (by omega)
  have hzero : (0 : UInt32).toNat=0 := rfl
  have hpos : 0< maxEntries.toNat :=
    Nat.pos_of_ne_zero fun h => hmax (UInt32.toNat_inj.mp h)
  have hfuel : (reachable entries).length-(0 : UInt32).toNat≤
      (entries.length+1)*maxEntries.toNat := by
    rw [hall]
    calc entries.length-(0 : UInt32).toNat
        ≤ entries.length+1 := by omega
      _ ≤ (entries.length+1)*maxEntries.toNat := Nat.le_mul_of_pos_right _ hpos
  obtain ⟨pages,hpages,hflatten,hnumber,hpage⟩ := listPages_from hbackend hlists hmax hcallback
    (Or.inl hindexed) (entries.length+1) 0 user s hholds (Nat.dvd_zero _) (Or.inl rfl) hfuel
    (Nat.succ_pos _)
  rw [hall,hzero,List.drop_zero] at hpages hflatten
  rw [hall,hzero,Nat.sub_zero] at hnumber
  rw [clFileListDir_recording hbackend hlists hholds hcallback]
  exact ⟨pages,hpages,hflatten,rfl,hnumber,hpage⟩

end Pages

section Directories

theorem dirLists_only (entries : List ClFileDirEntry) :
    OnlyLists [dirBackend] (dirLists entries) rootPath
      fun _ _ callback user w => (deliver callback entries user,w) :=
  ⟨dirBackend,rfl,rfl,rfl⟩

theorem dirLists_whole (entries : List ClFileDirEntry) :
    ListsWhole rootPath (fun _ _ callback user w => (deliver callback entries user,w))
      (fun _ : Unit => True) entries 0 := by
  refine ⟨le_refl 0,fun _ _ _ _ _ => trivial,fun U callback user w _ => ?_⟩
  rcases deliver_ret callback entries user with hneg | hzero
  · rw [if_pos hneg]
  · rw [if_neg (by omega),← hzero]

/-- Counting goes on. -/
def counting (_ : ClFileDirEntry) (count : ℕ) : ℤ×ℕ := (0,count+1)

/-- The pages of a directory with two entries, one entry in each. -/
theorem pages_concat_short :
    ∃ pages,listPages [dirBackend] (dirLists shortNames) rootPath 1 counting
        (shortNames.length+1) 0 0 (fresh ())=
          some (pages,(clFileListDir [dirBackend] (dirLists shortNames) rootPath
            (recording counting) (0,[]) (fresh ())).1.2.1) ∧
      (pages.map fun page => page.2).flatten=(clFileListDir [dirBackend] (dirLists shortNames)
        rootPath (recording counting) (0,[]) (fresh ())).1.2.2 ∧
      (clFileListDir [dirBackend] (dirLists shortNames) rootPath (recording counting) (0,[])
        (fresh ())).1.2.2=shortNames ∧
      (pages.length=1 ∨ (pages.length-1)*(1 : UInt32).toNat<shortNames.length) ∧
      ∀ page∈pages,page.1.toNat=page.2.length ∧ page.2.length≤(1 : UInt32).toNat ∧
        (page.2=[] → shortNames=[]) :=
  pages_concat (dirLists_only shortNames) (dirLists_whole shortNames) trivial (by decide)
    (fun _ _ => le_refl 0) (by decide) 0

/-- A directory with one entry more than there are indexes of pages. -/
def hugeDirectory : List ClFileDirEntry := List.replicate (2^32) (lettered 1 97 a_ne_zero)

theorem length_hugeDirectory : hugeDirectory.length=2^32 := List.length_replicate

/-- The index of the last entry of this directory stands for the end: pages of one entry do
not reach it. -/
theorem last_entry_lost :
    ∃ fuel pages count,listPages [dirBackend] (dirLists hugeDirectory) rootPath 1 counting fuel
        0 0 (fresh ())=some (pages,count) ∧
      (pages.map fun page => page.2).flatten≠(clFileListDir [dirBackend]
        (dirLists hugeDirectory) rootPath (recording counting) (0,[]) (fresh ())).1.2.2 := by
  have hgoes : ∀ entry user,0≤(counting entry user).1 := fun _ _ => le_refl 0
  obtain ⟨directory,hdirectory⟩ : ∃ directory,directory=hugeDirectory := ⟨_,rfl⟩
  have hlength : directory.length=2^32 := hdirectory ▸ length_hugeDirectory
  have hone : (1 : UInt32).toNat=1 := rfl
  have hzero : (0 : UInt32).toNat=0 := rfl
  have hreachable := length_reachable directory
  obtain ⟨pages,hpages,hflatten,-⟩ := listPages_from (dirLists_only directory)
    (dirLists_whole directory) (by decide : (1 : UInt32)≠0) hgoes
    (Or.inr (hone ▸ Nat.one_dvd _)) (reachable directory).length 0 0 (fresh ()) trivial
    (Nat.dvd_zero _) (Or.inl rfl) (by rw [hone,Nat.mul_one]; exact Nat.sub_le _ _) (by omega)
  rw [← hdirectory]
  refine ⟨_,pages,_,hpages,fun heq => ?_⟩
  rw [clFileListDir_recording (dirLists_only directory) (dirLists_whole directory) trivial
    hgoes,hflatten,hzero,List.drop_zero] at heq
  rw [heq,hlength] at hreachable
  omega

end Directories

end ChisLink.FallbackPages
