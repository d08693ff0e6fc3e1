import ChisLink.WritableFiles

/-!
# A store in memory

A backend that keeps files in memory, for two open handles. It moves at most three bytes
at a time. It serves its files for reading, and is an ordinary store of them.
-/

namespace ChisLink.MemoryStore

open CopyStream FileLayer FileOperations StorageClient WritableFiles
open ReadableFiles hiding Leaves

instance : DecidableEq CString := fun a b => decidable_of_iff (a.1=b.1) Subtype.ext_iff.symm

/-- The state of the store. -/
structure Memory where
  /-- The files. -/
  files : CString → Option (List UInt8)
  /-- The file and the position of each handle. -/
  handles : Fin 2 → Option (CString×ℕ)

/-- A handle that is free. -/
def Memory.free (w : Memory) : Option (Fin 2) :=
  (List.finRange 2).find? fun i => (w.handles i).isNone

/-- The place of a local handle. -/
def place (l : UInt16) : Option (Fin 2) :=
  if h : l.toNat<2 then some ⟨l.toNat,h⟩ else none

/-- What a local handle has open. -/
def Memory.entry (w : Memory) (l : UInt16) : Option (CString×ℕ) := (place l).bind w.handles

/-- Change what a local handle has open. -/
def Memory.set (w : Memory) (l : UInt16) (now : Option (CString×ℕ)) : Memory :=
  match place l with
  | none => w
  | some i => {w with handles := Function.update w.handles i now}

/-- Change the content of a file. -/
def Memory.put (w : Memory) (path : CString) (content : List UInt8) : Memory :=
  {w with files := Function.update w.files path (some content)}

/-- Write over the bytes of a file from a position on. -/
def overwrite (content : List UInt8) (position : ℕ) (data : List UInt8) : List UInt8 :=
  content.takeD position 0++data++content.drop (position+data.length)

/-- The content of a file that is opened. -/
def opened (flags : UInt32) (content : Option (List UInt8)) : Option (List UInt8) :=
  let content := if flags &&& clpOpenCreate≠0 then some (content.getD []) else content
  if flags &&& clpOpenTruncate≠0 then content.map fun _ => [] else content

/-- Open a file. -/
def openFile (path : CString) (flags : UInt32) (w : Memory) : (ℤ×UInt16)×Memory :=
  match w.free,opened flags (w.files path) with
  | some i,some content => ((0,UInt16.ofNat i),
      ⟨Function.update w.files path (some content),
        Function.update w.handles i (some (path,0))⟩)
  | _,_ => ((-2,0),w)

/-- Read from a file. -/
def readFile (l : UInt16) (want : UInt32) (w : Memory) : Transfer×Memory :=
  match w.entry l with
  | none => (⟨-1,[],0⟩,w)
  | some (path,position) =>
    let data := (((w.files path).getD []).drop position).take (min want.toNat 3)
    (⟨0,data,UInt32.ofNat data.length⟩,w.set l (some (path,position+data.length)))

/-- Write to a file. -/
def writeFile (l : UInt16) (src : List UInt8) (w : Memory) : Transfer×Memory :=
  match w.entry l with
  | none => (⟨-1,[],0⟩,w)
  | some (path,position) =>
    let data := src.take 3
    (⟨0,[],UInt32.ofNat data.length⟩,
      (w.put path (overwrite ((w.files path).getD []) position data)).set l
        (some (path,position+data.length)))

/-- The operations that move a position. -/
def memoryOps : BackendOps Memory where
  openPath := openFile
  close := some fun l w => (0,w.set l none)
  read := some readFile
  write := some writeFile
  directRead := none
  seek := some fun l offset w => match w.entry l with
    | none => (-1,w)
    | some (path,_) => (0,w.set l (some (path,offset.toNat)))

/-- Metadata of a file, if 64 bits can tell its size. -/
def statFile (path : CString) (w : Memory) : (ℤ×FileStat)×Memory :=
  match w.files path with
  | none => ((-2,noStat),w)
  | some content =>
    if content.length<2^64 then ((0,⟨UInt64.ofNat content.length,0,0,0,1,0⟩),w)
    else ((-3,noStat),w)

/-- Set the size of a file. -/
def truncateFile (l : UInt16) (size : UInt64) (w : Memory) : ℤ×Memory :=
  match w.entry l with
  | none => (-1,w)
  | some (path,_) => (0,w.put path (((w.files path).getD []).takeD size.toNat 0))

/-- The other operations, with or without one to set the size. -/
def memoryOthers (resizable : Bool) : Others Memory where
  ops backend :=
    { stat := some statFile
      fstat := none
      truncate := if resizable then some truncateFile else none
      flush := none
      directRead := match backend.ops.directRead with
        | none => none
        | some directRead => some fun l length w =>
          let reply := directRead l length w
          ((reply.1.1,.null reply.1.2),reply.2)
      releaseDirect := none
      directWrite := none }
  directRead_eq backend := by
    cases h : backend.ops.directRead <;> rfl

/-- The backend under the root. -/
def memoryBackend : Backend Memory := ⟨⟨[47],slash_noNul⟩,1,memoryOps⟩

open Classical in
/-- How the store is seen. Sizes have 64 bits. -/
noncomputable def memoryView : FileView Memory where
  handle key w := if key.1=memoryOps then w.entry key.2 else none
  content path w := (w.files path).filter fun content => content.length<2^64
  room w := ((List.finRange 2).filter fun i => (w.handles i).isNone).length

section Store

variable {w : Memory} {l : UInt16} {path : CString} {position : ℕ}

theorem entry_set (hentry : (w.entry l).isSome) (now : Option (CString×ℕ)) :
    (w.set l now).entry l=now := by
  unfold Memory.entry at hentry ⊢
  unfold Memory.set
  cases h : place l with
  | none =>
    rw [h] at hentry
    exact absurd hentry Bool.false_ne_true
  | some i =>
    change Function.update w.handles i now i=now
    exact Function.update_self i now w.handles

theorem place_injective {l m : UInt16} {i : Fin 2} (hl : place l=some i) (hm : place m=some i) :
    l=m := by
  unfold place at hl hm
  split at hl
  · split at hm
    · have hval : l.toNat=m.toNat :=
        (congrArg Fin.val (Option.some.inj hl)).trans
          (congrArg Fin.val (Option.some.inj hm)).symm
      exact UInt16.toNat_inj.mp hval
    · cases hm
  · cases hl

theorem entry_set_of_ne {m : UInt16} (hne : m≠l) (w : Memory) (now : Option (CString×ℕ)) :
    (w.set l now).entry m=w.entry m := by
  unfold Memory.entry Memory.set
  cases hl : place l with
  | none => rfl
  | some i =>
    cases hm : place m with
    | none => rfl
    | some j =>
      have hdifferent : j≠i := by
        rintro rfl
        exact hne (place_injective hm hl)
      change Function.update w.handles i now j=w.handles j
      exact Function.update_of_ne hdifferent now w.handles

theorem files_set (w : Memory) (l : UInt16) (now : Option (CString×ℕ)) :
    (w.set l now).files=w.files := by
  unfold Memory.set
  cases place l <;> rfl

/-- Number of free handles among two. -/
theorem room_eq (w : Memory) : memoryView.room w=
    (if (w.handles 0).isNone then 1 else 0)+if (w.handles 1).isNone then 1 else 0 := by
  change ((List.finRange 2).filter fun i => (w.handles i).isNone).length=_
  have hlist : List.finRange 2=[0,1] := rfl
  rw [hlist]
  by_cases hzero : (w.handles 0).isNone=true
  · by_cases hone : (w.handles 1).isNone=true <;> simp [hzero,hone]
  · by_cases hone : (w.handles 1).isNone=true <;> simp [hzero,hone]

/-- A handle that stays open leaves the room. -/
theorem room_set_some (hentry : (w.entry l).isSome) (now : CString×ℕ) :
    memoryView.room (w.set l (some now))=memoryView.room w := by
  rw [room_eq,room_eq]
  unfold Memory.entry at hentry
  unfold Memory.set
  cases h : place l with
  | none => rfl
  | some i =>
    rw [h] at hentry
    have hused : (w.handles i).isNone=false := by
      rw [← Option.not_isSome,Bool.not_eq_false']
      exact hentry
    have hi : i=0 ∨ i=1 := by omega
    rcases hi with rfl | rfl <;> simp [hused]

/-- A handle that is closed gives room. -/
theorem room_set_none (hentry : (w.entry l).isSome) :
    memoryView.room (w.set l none)=memoryView.room w+1 := by
  rw [room_eq,room_eq]
  unfold Memory.entry at hentry
  unfold Memory.set
  cases h : place l with
  | none =>
    rw [h] at hentry
    exact absurd hentry Bool.false_ne_true
  | some i =>
    rw [h] at hentry
    have hused : (w.handles i).isNone=false := by
      rw [← Option.not_isSome,Bool.not_eq_false']
      exact hentry
    have hi : i=0 ∨ i=1 := by omega
    rcases hi with rfl | rfl
    · simp [hused]
      omega
    · simp [hused]

theorem handle_eq (w : Memory) (l : UInt16) : memoryView.handle (memoryOps,l) w=w.entry l :=
  if_pos rfl

theorem handle_of_ne {ops : BackendOps Memory} (h : ops≠memoryOps) (w : Memory) (l : UInt16) :
    memoryView.handle (ops,l) w=none := if_neg h

/-- A change of one handle. -/
theorem moves_set (hentry : (w.entry l).isSome) (now : Option (CString×ℕ)) :
    memoryView.Moves (memoryOps,l) now w (w.set l now) := by
  refine ⟨⟨fun path => ?_⟩,?_,?_⟩
  · change ((w.set l now).files path).filter _=_
    rw [files_set]
    rfl
  · rw [handle_eq]
    exact entry_set hentry now
  · rintro ⟨ops,m⟩ hne
    by_cases hops : ops=memoryOps
    · rw [hops,handle_eq,handle_eq,entry_set_of_ne (fun hm => hne (by rw [hops,hm])) w now]
    · rw [handle_of_ne hops,handle_of_ne hops]

/-- The content of a file that is there. -/
theorem files_of_content {content : List UInt8} (h : memoryView.content path w=some content) :
    w.files path=some content ∧ content.length<2^64 := by
  obtain ⟨hsome,hlength⟩ := Option.filter_eq_some_iff.mp h
  exact ⟨hsome,of_decide_eq_true hlength⟩

theorem place_ofNat (i : Fin 2) : place (UInt16.ofNat i)=some i := by
  have hlt := i.isLt
  have hnat : (UInt16.ofNat i).toNat=i :=
    UInt16.toNat_ofNat_of_lt' (by unfold UInt16.size; omega)
  unfold place
  rw [dif_pos (by rw [hnat]; exact hlt)]
  exact congrArg some (Fin.ext hnat)

theorem exists_free (h : 0< memoryView.room w) :
    ∃ i,w.free=some i ∧ w.handles i=none := by
  obtain ⟨i,hi⟩ := List.exists_mem_of_length_pos h
  have hnone := (List.mem_filter.mp hi).2
  cases hfree : w.free with
  | none =>
    unfold Memory.free at hfree
    have hused := List.find?_eq_none.mp hfree i (List.mem_finRange i)
    exact absurd hnone hused
  | some j =>
    unfold Memory.free at hfree
    exact ⟨j,rfl,Option.isNone_iff_eq_none.mp
      (List.find?_some (p:=fun i => (w.handles i).isNone) hfree)⟩

end Store

/-- The store serves its files. -/
theorem memory_serves (backends : List (Backend Memory)) (resizable : Bool) :
    Serves backends (memoryOthers resizable) memoryView memoryBackend where
  stat := by
    refine ⟨statFile,rfl,fun path content w _ hcontent => ?_⟩
    obtain ⟨hfile,hlength⟩ := files_of_content hcontent
    unfold statFile
    rw [hfile]
    dsimp only
    rw [if_pos hlength]
    exact ⟨le_refl _,UInt64.toNat_ofNat_of_lt' (by unfold UInt64.size; omega),
      ⟨⟨fun _ => rfl⟩,fun _ => rfl,rfl⟩⟩
  openPath := by
    intro path content w _ hcontent hroom
    obtain ⟨hfile,-⟩ := files_of_content hcontent
    obtain ⟨i,hfree,hnone⟩ := exists_free hroom
    have hplace := place_ofNat i
    have hflags : opened clpOpenRead (some content)=some content := rfl
    have hopen : memoryBackend.ops.openPath path clpOpenRead w=((0,UInt16.ofNat i),
        ⟨Function.update w.files path (some content),
          Function.update w.handles i (some (path,0))⟩) := by
      change openFile path clpOpenRead w=_
      unfold openFile
      rw [hfree,hfile,hflags]
    have hfiles : Function.update w.files path (some content)=w.files := by
      rw [← hfile]
      exact Function.update_eq_self path w.files
    rw [hopen,hfiles]
    refine ⟨le_refl _,?_,⟨⟨fun _ => rfl⟩,?_,?_⟩,?_⟩
    · change memoryView.handle (memoryOps,UInt16.ofNat i) w=none
      rw [handle_eq]
      unfold Memory.entry
      rw [hplace]
      exact hnone
    · change memoryView.handle (memoryOps,UInt16.ofNat i) _=_
      rw [handle_eq]
      unfold Memory.entry
      rw [hplace]
      exact Function.update_self i _ w.handles
    · rintro ⟨ops,m⟩ hne
      by_cases hops : ops=memoryOps
      · rw [hops,handle_eq,handle_eq]
        unfold Memory.entry
        cases hm : place m with
        | none => rfl
        | some j =>
          have hdifferent : j≠i := by
            rintro rfl
            have hsame := place_injective hm hplace
            exact hne (by rw [hops,hsame]; rfl)
          exact Function.update_of_ne hdifferent _ w.handles
      · rw [handle_of_ne hops,handle_of_ne hops]
    · rw [room_eq,room_eq]
      have hi : i=0 ∨ i=1 := by omega
      rcases hi with rfl | rfl
      · simp [hnone]
        omega
      · simp [hnone]
  read := by
    refine ⟨readFile,rfl,fun l path content position want w hhandle hcontent hwant hlt => ?_⟩
    obtain ⟨hfile,-⟩ := files_of_content hcontent
    have hentry : w.entry l=some (path,position) := by
      rw [← handle_eq]
      exact hhandle
    have hsome : (w.entry l).isSome := by rw [hentry]; rfl
    have hread : readFile l want w=
        (⟨0,(content.drop position).take (min want.toNat 3),
          UInt32.ofNat ((content.drop position).take (min want.toNat 3)).length⟩,
          w.set l (some (path,
            position+((content.drop position).take (min want.toNat 3)).length))) := by
      unfold readFile
      rw [hentry]
      dsimp only
      rw [hfile]
      rfl
    have hlength : ((content.drop position).take (min want.toNat 3)).length=
        min (min want.toNat 3) (content.length-position) := by
      rw [List.length_take,List.length_drop]
    rw [hread]
    refine ⟨⟨le_refl _,?_,?_,?_,?_⟩,moves_set hsome _,room_set_some hsome _⟩
    · exact List.ne_nil_of_length_pos (by rw [hlength]; omega)
    · dsimp only
      omega
    · exact UInt32.toNat_ofNat_of_lt' (by unfold UInt32.size; omega)
    · dsimp only
      rw [List.length_take,← List.take_eq_take_min]
  seek := by
    refine ⟨_,rfl,fun l path content position offset w hhandle hcontent hle => ?_⟩
    have hentry : w.entry l=some (path,position) := by
      rw [← handle_eq]
      exact hhandle
    have hsome : (w.entry l).isSome := by rw [hentry]; rfl
    rw [hentry]
    exact ⟨le_refl _,moves_set hsome _,room_set_some hsome _⟩
  close := by
    rintro close h l path position w hhandle
    cases h
    have hentry : w.entry l=some (path,position) := by
      rw [← handle_eq]
      exact hhandle
    have hsome : (w.entry l).isSome := by rw [hentry]; rfl
    exact ⟨rfl,moves_set hsome none,room_set_none hsome⟩

/-- How the store is seen with files of any size. -/
noncomputable def wholeView : FileView Memory where
  handle := memoryView.handle
  content path w := w.files path
  room := memoryView.room

/-- The file of a handle changes, and its position. -/
theorem changes_put {w : Memory} {l : UInt16} {path : CString} (hentry : (w.entry l).isSome)
    (content : List UInt8) (position : ℕ) :
    Changes wholeView (memoryOps,l) path (path,position) (some content) w
      ((w.put path content).set l (some (path,position))) := by
  have hmoves := moves_set (w:=w.put path content) hentry (some (path,position))
  refine ⟨hmoves.handle,hmoves.others,?_,fun other hne => ?_⟩
  · change ((w.put path content).set l (some (path,position))).files path=_
    rw [files_set]
    exact Function.update_self path _ w.files
  · change ((w.put path content).set l (some (path,position))).files other=_
    rw [files_set]
    exact Function.update_of_ne hne _ w.files

/-- The position of a handle changes. -/
theorem whole_moves {w : Memory} {l : UInt16} (hentry : (w.entry l).isSome)
    (now : Option (CString×ℕ)) :
    wholeView.Moves (memoryOps,l) now w (w.set l now) := by
  have hmoves := moves_set hentry now
  refine ⟨⟨fun path => ?_⟩,hmoves.handle,hmoves.others⟩
  change (w.set l now).files path=w.files path
  rw [files_set]

/-- The store is an ordinary one. -/
theorem memory_stores (resizable : Bool) :
    Stores (memoryOthers resizable) wholeView memoryBackend where
  stat := by
    rintro stat h path w
    obtain rfl := Option.some.inj h
    have hsame : (statFile path w).2=w := by
      unfold statFile
      split
      · rfl
      · split <;> rfl
    rw [hsame]
    refine ⟨⟨⟨fun _ => rfl⟩,fun _ => rfl⟩,fun content hcontent hret => ?_⟩
    have hfile : w.files path=some content := hcontent
    unfold statFile at hret ⊢
    rw [hfile] at hret ⊢
    dsimp only at hret ⊢
    by_cases hlength : content.length<2^64
    · rw [if_pos hlength]
      exact UInt64.toNat_ofNat_of_lt' (by unfold UInt64.size; omega)
    · rw [if_neg hlength] at hret
      have hneg : ¬(0 : ℤ)≤-3 := by decide
      exact absurd hret hneg
  fstat := fun fstat h => by cases h
  openPath := by
    intro path flags w
    change 0≤(openFile path flags w).1.1 →
      wholeView.handle (memoryOps,(openFile path flags w).1.2) w=none ∧
        Changes wholeView (memoryOps,(openFile path flags w).1.2) path (path,0)
          (afterOpen flags (w.files path)) w (openFile path flags w).2
    have hneg : ¬(0 : ℤ)≤-2 := by decide
    unfold openFile
    cases hfree : w.free with
    | none => exact fun hret => absurd hret hneg
    | some i =>
      cases hopened : opened flags (w.files path) with
      | none => exact fun hret => absurd hret hneg
      | some content =>
        intro _
        dsimp only
        have hplace := place_ofNat i
        have hnone : w.handles i=none := by
          unfold Memory.free at hfree
          exact Option.isNone_iff_eq_none.mp
            (List.find?_some (p:=fun i => (w.handles i).isNone) hfree)
        refine ⟨?_,?_,?_,?_,?_⟩
        · change memoryView.handle (memoryOps,UInt16.ofNat i) w=none
          rw [handle_eq]
          unfold Memory.entry
          rw [hplace]
          exact hnone
        · change memoryView.handle (memoryOps,UInt16.ofNat i) _=_
          rw [handle_eq]
          unfold Memory.entry
          rw [hplace]
          exact Function.update_self i _ w.handles
        · rintro ⟨ops,m⟩ hne
          change memoryView.handle (ops,m) _=memoryView.handle (ops,m) w
          by_cases hops : ops=memoryOps
          · rw [hops,handle_eq,handle_eq]
            unfold Memory.entry
            cases hm : place m with
            | none => rfl
            | some j =>
              have hdifferent : j≠i := by
                rintro rfl
                exact hne (by rw [hops,place_injective hm hplace])
              exact Function.update_of_ne hdifferent _ w.handles
          · rw [handle_of_ne hops,handle_of_ne hops]
        · exact (Function.update_self path _ w.files).trans hopened.symm
        · exact fun other hne => Function.update_of_ne hne _ w.files
  read := by
    intro read h l path content position want w hhandle hcontent hle
    obtain rfl := Option.some.inj h
    have hentry : w.entry l=some (path,position) := (handle_eq w l).symm.trans hhandle
    have hsome : (w.entry l).isSome := by rw [hentry]; rfl
    have hfile : w.files path=some content := hcontent
    have hread : readFile l want w=
        (⟨0,(content.drop position).take (min want.toNat 3),
          UInt32.ofNat ((content.drop position).take (min want.toNat 3)).length⟩,
          w.set l (some (path,
            position+((content.drop position).take (min want.toNat 3)).length))) := by
      unfold readFile
      rw [hentry]
      dsimp only
      rw [hfile]
      rfl
    have hlength : ((content.drop position).take (min want.toNat 3)).length=
        min (min want.toNat 3) (content.length-position) := by
      rw [List.length_take,List.length_drop]
    rw [hread]
    refine ⟨⟨_,?_,whole_moves hsome _,fun _ => rfl⟩,fun _ => ?_,fun _ => ?_,
      fun _ hnil hwant => ?_⟩
    · omega
    · dsimp only
      omega
    · dsimp only
      rw [List.length_take,← List.take_eq_take_min]
    · have hzero := congrArg List.length hnil
      dsimp only at hzero
      rw [hlength,List.length_nil] at hzero
      omega
  directRead := fun directRead h => by cases h
  releaseDirect := fun release h => by cases h
  write := by
    intro write h l path content position data w hhandle hcontent hle
    obtain rfl := Option.some.inj h
    have hentry : w.entry l=some (path,position) := (handle_eq w l).symm.trans hhandle
    have hsome : (w.entry l).isSome := by rw [hentry]; rfl
    have hfile : w.files path=some content := hcontent
    have hlength : (data.take 3).length=min 3 data.length := List.length_take
    have hwrite : writeFile l data w=
        (⟨0,[],UInt32.ofNat (data.take 3).length⟩,
          (w.put path (written content position (data.take 3))).set l
            (some (path,position+(data.take 3).length))) := by
      unfold writeFile
      rw [hentry]
      dsimp only
      rw [hfile]
      unfold overwrite written
      rw [Option.getD_some,List.takeD_eq_take 0 hle]
    rw [hwrite]
    refine ⟨(data.take 3).length,by omega,fun _ => ?_,?_⟩
    · exact UInt32.toNat_ofNat_of_lt' (by unfold UInt32.size; omega)
    · have htake : data.take (data.take 3).length=data.take 3 := by
        rw [List.length_take,← List.take_eq_take_min]
      rw [htake]
      exact changes_put hsome _ _
  directWrite := fun directWrite h => by cases h
  flush := fun flush h => by cases h
  truncate := by
    intro truncate h l path content position size w hhandle hcontent _
    have hentry : w.entry l=some (path,position) := (handle_eq w l).symm.trans hhandle
    have hfile : w.files path=some content := hcontent
    cases resizable with
    | false => cases h
    | true =>
      obtain rfl := Option.some.inj h
      unfold truncateFile
      rw [hentry]
      dsimp only
      rw [hfile]
      refine ⟨hhandle,fun _ _ => rfl,Function.update_self path _ w.files,
        fun other hne => Function.update_of_ne hne _ w.files⟩
  close := by
    intro close h l path position w hhandle _
    obtain rfl := Option.some.inj h
    have hentry : w.entry l=some (path,position) := (handle_eq w l).symm.trans hhandle
    exact whole_moves (by rw [hentry]; rfl) none

/-- Nothing is open in a store with these files. -/
def closed (files : CString → Option (List UInt8)) : Memory := ⟨files,fun _ => none⟩

/-- Every file of the store can be read. -/
theorem readable_memory (resizable : Bool) {files : CString → Option (List UInt8)}
    {path : CString} {content : List UInt8} (hfile : files path=some content)
    (hlength : content.length<2^64)
    (hroot : findBackend [memoryBackend] path=some memoryBackend) :
    Readable [memoryBackend] (memoryOthers resizable) memoryView path content
      (closed files) :=
  ⟨Option.filter_eq_some_iff.mpr ⟨hfile,decide_eq_true hlength⟩,
    memoryBackend,hroot,memory_serves _ resizable⟩

/-- With no open handle there are sixteen free slots. -/
theorem freeSlots_fresh {W : Type} (w : W) {n : ℕ} (h : n≤ clFileMaxHandles) :
    FreeSlots (fresh w) n := by
  refine ⟨List.finRange clFileMaxHandles,List.nodup_finRange _,?_,fun _ _ => rfl⟩
  rw [List.length_finRange]
  exact h

/-- A path. -/
def pathA : CString := ⟨[47,97],by decide⟩

/-- Another path. -/
def pathB : CString := ⟨[47,98],by decide⟩

/-- A store with two files. -/
def twoFiles (contentA contentB : List UInt8) : Memory :=
  closed fun path => if path=pathA then some contentA
    else if path=pathB then some contentB else none

end ChisLink.MemoryStore
