import ChisLink.HandleTable

/-!
# Runs of the handle table

Backends are registered, files are opened, used and closed, and helpers run, in any order
and with any results. The books stay balanced over every run, and every step does to
the slots what it should.
-/

namespace ChisLink.HandleRuns

open Crc32Chunks DriverPrograms FileCrc32 FileOperations GameDatabaseFile HandleTable
open LabelledRuns StorageClient
open FileLayer hiding Leaves Action step

variable {W : Type}

/-- Number of backends that can be registered. -/
def clFileMaxBackends : ℕ := 8

/-- The registered backends and the open files. -/
structure System (W : Type) where
  /-- The backends, in the order in which they were registered. -/
  backends : List (Backend W)
  /-- The open files. -/
  files : Files W

/-- The function `cl_file_register_backend`. -/
def clFileRegisterBackend (backend : Backend W) (s : System W) : ℤ×System W :=
  if s.backends.length<clFileMaxBackends then
    (0,{s with backends := s.backends++[backend]})
  else (-2,s)

/-- A call or a helper. -/
inductive Action (W : Type) where
  /-- Register a backend. -/
  | register (backend : Backend W)
  /-- Open a path. -/
  | openPath (path : CString) (flags : UInt32)
  /-- Close a handle. -/
  | close (file : ℕ)
  /-- Read. -/
  | read (file : ℕ) (length : UInt32) (counted : Bool)
  /-- Write. -/
  | write (file : ℕ) (src : List UInt8) (counted : Bool)
  /-- Seek. -/
  | seek (file : ℕ) (offset : UInt64)
  /-- Copy a file, with so many blocks at most. -/
  | copy (srcPath dstPath : CString) (flags bufferSize : UInt32) (progress : Progress W)
    (fuel : ℕ)
  /-- Calculate a manifest. -/
  | calculate (path : CString) (length : UInt64) (chunks : ClCrc32Chunks)
    (bufferSize : UInt32) (progress : Progress W)
  /-- Verify a range of a file. -/
  | verifyRange (sourcePath targetPath : CString) (length : UInt64)
    (options : FileCrc32Options W)
  /-- Verify a complete file. -/
  | verify (sourcePath targetPath : CString) (options : FileCrc32Options W)
    (result : FileCrc32Result)
  /-- Verify a file against a manifest. -/
  | verifyChunks (targetPath : CString) (chunks : ClCrc32Chunks) (bufferSize : UInt32)
    (progress : Progress W)
  /-- Configure the save from a database. -/
  | configureSave (hardware : CartHardware W) (path : CString)

/-- The state after a helper that returns. -/
def returned {ρ : Type} (p : Prog (Files W) ρ) (s : System W) : Option (System W) :=
  match p s.files with
  | (some _,t) => some {s with files := t}
  | (none,_) => none

/-- The state after a call. -/
def called {ρ : Type} (f : Files W → ρ×Files W) (s : System W) : Option (System W) :=
  some {s with files := (f s.files).2}

/-- The state after a step. -/
def step (others : Others W) (s : System W) : Action W → Option (System W)
  | .register backend => some (clFileRegisterBackend backend s).2
  | .openPath path flags => called (clFileOpen s.backends path flags) s
  | .close file => called (clFileClose file) s
  | .read file length counted => called (clFileRead file length counted) s
  | .write file src counted => called (clFileWrite file src counted) s
  | .seek file offset => called (clFileSeek file offset) s
  | .copy srcPath dstPath flags bufferSize progress fuel =>
    returned (clFileCopyBufferedProgress s.backends others srcPath dstPath flags bufferSize
      progress fuel) s
  | .calculate path length chunks bufferSize progress =>
    returned (clFileCalculateCrc32Chunks s.backends others path length chunks bufferSize
      progress) s
  | .verifyRange sourcePath targetPath length options =>
    returned (clFileVerifyCrc32Range s.backends others sourcePath targetPath length options) s
  | .verify sourcePath targetPath options result =>
    returned (clFileVerifyCrc32 s.backends others sourcePath targetPath options result) s
  | .verifyChunks targetPath chunks bufferSize progress =>
    returned (clFileVerifyCrc32Chunks s.backends others targetPath chunks bufferSize progress) s
  | .configureSave hardware path =>
    returned (clCartGbaConfigureSaveFromGamedb s.backends others hardware path) s

section Choice

/-- A backend has a prefix of the path. -/
def Suits (path : CString) (backend : Backend W) : Prop :=
  cstrStartsWith path backend.pathPrefix backend.length=true

/-- The choice of a backend: the longest prefix, and among the longest the one that was
registered last. -/
def Best (backends : List (Backend W)) (path : CString) : Option (Backend W) → Prop
  | none => ∀ backend∈backends,¬Suits path backend
  | some backend => ∃ before after,backends=before++backend::after ∧ Suits path backend ∧
    (∀ other∈before,Suits path other → other.length≤backend.length) ∧
    ∀ other∈after,Suits path other → other.length<backend.length

/-- The choice is the best. -/
theorem findBackend_best (backends : List (Backend W)) (path : CString) :
    Best backends path (findBackend backends path) := by
  induction backends using List.reverseRecOn with
  | nil => exact fun backend hmem => by cases hmem
  | append_singleton backends last ih =>
    have hfold : findBackend (backends++[last]) path=
        betterBackend path (findBackend backends path) last := by
      unfold findBackend
      rw [List.foldl_append]
      rfl
    rw [hfold]
    unfold betterBackend
    cases hfind : findBackend backends path with
    | none =>
      rw [hfind] at ih
      dsimp only
      by_cases hsuits : cstrStartsWith path last.pathPrefix last.length=true
      · rw [if_pos ⟨Nat.zero_le _,hsuits⟩]
        refine ⟨backends,[],rfl,hsuits,fun other hmem hother => ?_,fun other hmem => ?_⟩
        · exact absurd hother (ih other hmem)
        · cases hmem
      · rw [if_neg (fun h => hsuits h.2)]
        intro backend hmem
        rcases List.mem_append.mp hmem with hmem | hmem
        · exact ih backend hmem
        · rw [List.mem_singleton.mp hmem]
          exact hsuits
    | some best =>
      rw [hfind] at ih
      obtain ⟨before,after,rfl,hbest,hbefore,hafter⟩ := ih
      dsimp only
      by_cases hbetter : best.length≤last.length ∧
          cstrStartsWith path last.pathPrefix last.length=true
      · rw [if_pos hbetter]
        refine ⟨before++best::after,[],rfl,hbetter.2,fun other hmem hother => ?_,
          fun other hmem => by cases hmem⟩
        rcases List.mem_append.mp hmem with hmem | hmem
        · exact Nat.le_trans (hbefore other hmem hother) hbetter.1
        · rcases List.mem_cons.mp hmem with rfl | hmem
          · exact hbetter.1
          · exact Nat.le_trans (Nat.le_of_lt (hafter other hmem hother)) hbetter.1
      · rw [if_neg hbetter]
        refine ⟨before,after++[last],by rw [List.append_assoc,List.cons_append],hbest,hbefore,
          fun other hmem hother => ?_⟩
        rcases List.mem_append.mp hmem with hmem | hmem
        · exact hafter other hmem hother
        · rw [List.mem_singleton.mp hmem] at hother ⊢
          by_contra hlong
          exact hbetter ⟨by omega,hother⟩

end Choice

section Books

variable {ledger : Ledger W} {s t : Files W} {key : BackendOps W×UInt16}

/-- What a slot stands for, by its owner. -/
def ownerKey (owner : Backend W×UInt16) : BackendOps W×UInt16 := (owner.1.ops,owner.2)

open Classical in
theorem slotCount_eq (s : Files W) (key : BackendOps W×UInt16) :
    slotCount s key=∑ i,if (owners s i).map ownerKey=some key then 1 else 0 := by
  unfold slotCount
  apply Finset.sum_congr rfl
  intro i _
  have hkey : (s.slots i).map FileSlot.key=(owners s i).map ownerKey := by
    unfold owners
    rw [Option.map_map]
    rfl
  rw [hkey]

/-- The slots that stand for a local handle depend on the owners alone. -/
theorem slotCount_congr (h : owners t=owners s) (key : BackendOps W×UInt16) :
    slotCount t key=slotCount s key := by
  rw [slotCount_eq,slotCount_eq,h]

open Classical in
/-- Changing one slot. -/
theorem slotCount_update {i : Fin clFileMaxHandles} {now : Option (Backend W×UInt16)}
    (h : owners t=Function.update (owners s) i now) (key : BackendOps W×UInt16) :
    slotCount t key+(if (owners s i).map ownerKey=some key then 1 else 0)=
      slotCount s key+if now.map ownerKey=some key then 1 else 0 := by
  rw [slotCount_eq,slotCount_eq,h]
  have hbefore := Finset.add_sum_erase Finset.univ
    (fun j => if (owners s j).map ownerKey=some key then 1 else 0) (Finset.mem_univ i)
  have hafter := Finset.add_sum_erase Finset.univ
    (fun j => if (Function.update (owners s) i now j).map ownerKey=some key then 1 else 0)
    (Finset.mem_univ i)
  have hothers : ∑ j∈Finset.univ.erase i,
      (if (Function.update (owners s) i now j).map ownerKey=some key then 1 else 0)=
      ∑ j∈Finset.univ.erase i,if (owners s j).map ownerKey=some key then 1 else 0 := by
    apply Finset.sum_congr rfl
    intro j hj
    rw [Function.update_of_ne (Finset.ne_of_mem_erase hj)]
  rw [hothers,Function.update_self] at hafter
  omega

theorem restored_balanced (h : Restored ledger s t) (hs : Balanced ledger s) :
    Balanced ledger t := by
  intro key hkey
  have hbefore := hs key hkey
  have hbalance := h.balance key hkey
  rw [slotCount_congr h.owners]
  omega

theorem holding_balanced {backend : Backend W} {file : ℕ}
    (h : Holding ledger backend s t file) (hs : Balanced ledger s) : Balanced ledger t := by
  obtain ⟨i,l,-,hfree,howners,hopened⟩ := h.slot
  intro key hkey
  have hbefore := hs key hkey
  have hclosed := congrFun h.closed key
  have hcount := slotCount_update howners key
  have hnone : (owners s i).map ownerKey=none := by
    unfold owners
    rw [hfree]
    rfl
  rw [hnone,if_neg (by simp)] at hcount
  by_cases hsame : key=(backend.ops,l)
  · have hself := hopened.self
    rw [← hsame] at hself
    have hnow : (some (backend,l)).map ownerKey=some key := by
      rw [hsame]
      rfl
    rw [if_pos hnow] at hcount
    omega
  · have hother := hopened.others key hsame
    have hnow : ¬(some (backend,l)).map ownerKey=some key := by
      intro heq
      exact hsame (Option.some.inj heq).symm
    rw [if_neg hnow] at hcount
    omega

theorem released_balanced {file : ℕ} (h : Released ledger s t file)
    (hs : Balanced ledger s) : Balanced ledger t := by
  obtain ⟨i,slot,-,hslot,howners,hone,hnot⟩ := h.slot
  intro key hkey
  have hbefore := hs key hkey
  have hopened := congrFun h.opened key
  have hcount := slotCount_update howners key
  have howner : (owners s i).map ownerKey=some slot.key := by
    unfold owners
    rw [hslot]
    rfl
  have hempty : ¬(none : Option (BackendOps W×UInt16))=some key := fun heq => by cases heq
  rw [howner,Option.map_none,if_neg hempty] at hcount
  by_cases hsame : key=slot.key
  · have hsome : slot.backend.ops.close.isSome := by
      rw [hsame] at hkey
      exact hkey
    have hself := (hone hsome).self
    rw [← hsame] at hself
    have hnow : some slot.key=some key := congrArg some hsame.symm
    rw [if_pos hnow] at hcount
    omega
  · rw [if_neg (fun heq => hsame (Option.some.inj heq).symm)] at hcount
    have hclosed : ledger.closed t.world key=ledger.closed s.world key := by
      by_cases hsome : slot.backend.ops.close.isSome
      · exact (hone hsome).others key hsame
      · exact congrFun (hnot (Option.not_isSome_iff_eq_none.mp hsome)) key
    omega

end Books

/-- The callbacks and the backends of an action are counted. -/
def Admissible (ledger : Ledger W) : Action W → Prop
  | .register backend => Counted ledger backend.ops
  | .copy _ _ _ _ progress _ => ProgressQuiet ledger progress
  | .calculate _ _ _ _ progress => ProgressQuiet ledger progress
  | .verifyRange _ _ _ options =>
    TransformQuiet ledger options.sourceTransform ∧ ProgressQuiet ledger options.progress
  | .verify _ _ options _ =>
    TransformQuiet ledger options.sourceTransform ∧ ProgressQuiet ledger options.progress
  | .verifyChunks _ _ _ progress => ProgressQuiet ledger progress
  | .configureSave hardware _ => HardwareQuiet ledger hardware
  | _ => True

/-- The live handles are the numbers of the used slots, one for each, and the books are
balanced: each used slot stands for one local handle that was opened and not closed. -/
structure Accounted (ledger : Ledger W) (s : System W) : Prop where
  /-- Every used slot has its handle. -/
  handle : ∀ i : Fin clFileMaxHandles,
    slotFromHandle s.files (i.val+1)=(s.files.slots i).map fun slot => (i,slot)
  /-- Every live handle has its slot. -/
  slot : ∀ file i slot,slotFromHandle s.files file=some (i,slot) →
    file=i.val+1 ∧ s.files.slots i=some slot
  /-- The books. -/
  balanced : Balanced ledger s.files
  /-- The backends have their places. -/
  registered : s.backends.length≤ clFileMaxBackends

/-- What a step does to the slots and the books. A failed open changes neither; a successful
one takes a free slot for the best backend of the path. A close frees the slot and
calls the close of the backend once. A helper leaves the slots as they were, and closes once
whatever it has opened. -/
def StepBooks (ledger : Ledger W) (others : Others W) (s : System W) (action : Action W) :
    Prop :=
  ∀ t,step others s action=some t → match action with
    | .register backend => t.files=s.files ∧
      t.backends=if s.backends.length<clFileMaxBackends then s.backends++[backend]
        else s.backends
    | .openPath path flags => t.backends=s.backends ∧
      match (clFileOpen s.backends path flags s.files).1 with
      | .error _ => t.files.slots=s.files.slots ∧
        ledger.Quiet s.files.world t.files.world
      | .ok file => ∃ backend,Best s.backends path (some backend) ∧
        Holding ledger backend s.files t.files file
    | .close file => t.backends=s.backends ∧
      (Same ledger s.files t.files ∧ slotFromHandle s.files file=none ∨
        Released ledger s.files t.files file)
    | .read .. => t.backends=s.backends ∧ Same ledger s.files t.files
    | .write .. => t.backends=s.backends ∧ Same ledger s.files t.files
    | .seek .. => t.backends=s.backends ∧ Same ledger s.files t.files
    | _ => t.backends=s.backends ∧ Restored ledger s.files t.files

/-- The invariant of the runs. -/
structure Sound (ledger : Ledger W) (s : System W) : Prop extends Accounted ledger s where
  /-- The registered backends are counted. -/
  counted : ∀ backend∈s.backends,Counted ledger backend.ops
  /-- So are those of the slots. -/
  tidy : Tidy ledger s.files

section Steps

variable {ledger : Ledger W} {others : Others W} {s t : System W}

/-- Balanced books and counted backends are all that there is to show. -/
theorem sound_of (hs : Sound ledger s) {files : Files W} (hbalanced : Balanced ledger files)
    (htidy : Tidy ledger files) : Sound ledger {s with files := files} :=
  ⟨⟨slotFromHandle_succ files,fun _ _ _ h => slot_of_slotFromHandle h,hbalanced,
    hs.registered⟩,hs.counted,htidy⟩

/-- A helper that returns has restored the books. -/
theorem restored_of_returned {ρ : Type} {p : Prog (Files W) ρ} (hs : Sound ledger s)
    (hp : Restores ledger p) (h : returned p s=some t) :
    t.backends=s.backends ∧ Restored ledger s.files t.files := by
  have hrun := hp s.files hs.tidy
  unfold wp at hrun
  unfold returned at h
  rcases hresult : p s.files with ⟨_ | r,files⟩
  · rw [hresult] at h
    cases h
  · rw [hresult] at hrun h
    obtain rfl := Option.some.inj h
    exact ⟨rfl,hrun⟩

/-- What a step does. -/
theorem step_books (hothers : OthersQuiet ledger others) (hs : Sound ledger s)
    (action : Action W) (hadmissible : Admissible ledger action) :
    StepBooks ledger others s action := by
  intro t h
  cases action with
  | register backend =>
    obtain rfl := Option.some.inj h
    by_cases hroom : s.backends.length<clFileMaxBackends
    · have hregister : clFileRegisterBackend backend s=
          (0,{s with backends := s.backends++[backend]}) := if_pos hroom
      rw [hregister]
      exact ⟨rfl,(if_pos hroom).symm⟩
    · have hregister : clFileRegisterBackend backend s=(-2,s) := if_neg hroom
      rw [hregister]
      exact ⟨rfl,(if_neg hroom).symm⟩
  | openPath path flags =>
    obtain rfl := Option.some.inj h
    refine ⟨rfl,?_⟩
    dsimp only
    rcases clFileOpen_books hs.counted path flags s.files with
      ⟨ret,u,hopen,-,hslots,hsame⟩ | ⟨file,u,backend,hopen,hfind,hholding⟩
    · rw [hopen]
      exact ⟨hslots,hsame.toQuiet⟩
    · rw [hopen]
      have hbest := findBackend_best s.backends path
      rw [hfind] at hbest
      exact ⟨backend,hbest,hholding⟩
  | close file =>
    obtain rfl := Option.some.inj h
    exact ⟨rfl,clFileClose_books hs.tidy file⟩
  | read file length counted =>
    obtain rfl := Option.some.inj h
    exact ⟨rfl,clFileRead_same hs.tidy _ _ _⟩
  | write file src counted =>
    obtain rfl := Option.some.inj h
    exact ⟨rfl,clFileWrite_same hs.tidy _ _ _⟩
  | seek file offset =>
    obtain rfl := Option.some.inj h
    exact ⟨rfl,clFileSeek_same hs.tidy _ _⟩
  | copy srcPath dstPath flags bufferSize progress fuel =>
    exact restored_of_returned hs (clFileCopyBufferedProgress_restores hs.counted hothers
      hadmissible _ _ _ _ _) h
  | calculate path length chunks bufferSize progress =>
    exact restored_of_returned hs (clFileCalculateCrc32Chunks_restores hs.counted hothers
      hadmissible _ _ _ _) h
  | verifyRange sourcePath targetPath length options =>
    exact restored_of_returned hs (clFileVerifyCrc32Range_restores hs.counted hothers
      hadmissible.1 hadmissible.2 _ _ _) h
  | verify sourcePath targetPath options result =>
    exact restored_of_returned hs (clFileVerifyCrc32_restores hs.counted hothers
      hadmissible.1 hadmissible.2 _ _ _) h
  | verifyChunks targetPath chunks bufferSize progress =>
    exact restored_of_returned hs (clFileVerifyCrc32Chunks_restores hs.counted hothers
      hadmissible _ _ _) h
  | configureSave hardware path =>
    exact restored_of_returned hs (clCartGbaConfigureSaveFromGamedb_restores hs.counted hothers
      hadmissible _) h

/-- A step keeps the invariant. -/
theorem step_sound (hothers : OthersQuiet ledger others) (hs : Sound ledger s)
    (action : Action W) (hadmissible : Admissible ledger action)
    (h : step others s action=some t) : Sound ledger t := by
  have hbooks := step_books hothers hs action hadmissible t h
  have hsame : ∀ {t : System W},t.backends=s.backends ∧ Restored ledger s.files t.files →
      Sound ledger t := by
    rintro ⟨backends,files⟩ ⟨rfl,hrestored⟩
    exact sound_of hs (restored_balanced hrestored hs.balanced)
      (tidy_of_owners hrestored.owners hs.tidy)
  cases action with
  | register backend =>
    obtain ⟨hfiles,hbackends⟩ := hbooks
    obtain ⟨backends,files⟩ := t
    dsimp only at hfiles hbackends
    rw [hfiles,hbackends]
    by_cases hroom : s.backends.length<clFileMaxBackends
    · rw [if_pos hroom]
      refine ⟨⟨hs.handle,hs.slot,hs.balanced,?_⟩,fun other hmem => ?_,hs.tidy⟩
      · dsimp only
        rw [List.length_append,List.length_singleton]
        omega
      · rcases List.mem_append.mp hmem with hmem | hmem
        · exact hs.counted other hmem
        · rw [List.mem_singleton.mp hmem]
          exact hadmissible
    · rw [if_neg hroom]
      exact hs
  | openPath path flags =>
    obtain rfl := Option.some.inj h
    rcases clFileOpen_books hs.counted path flags s.files with
      ⟨ret,u,hopen,-,-,hquiet⟩ | ⟨file,u,backend,hopen,hfind,hholding⟩
    · rw [hopen]
      exact hsame ⟨rfl,hquiet.restored⟩
    · rw [hopen]
      exact sound_of hs (holding_balanced hholding hs.balanced)
        (hholding.tidy hs.tidy (hs.counted backend (findBackend_mem hfind)))
  | close file =>
    obtain ⟨hbackends,hfiles⟩ := hbooks
    rcases hfiles with hmissing | hreleased
    · exact hsame ⟨hbackends,hmissing.1.restored⟩
    · obtain ⟨backends,files⟩ := t
      dsimp only at hbackends hreleased
      rw [hbackends]
      refine sound_of hs (released_balanced hreleased hs.balanced) ?_
      obtain ⟨i,slot,-,-,howners,-,-⟩ := hreleased.slot
      intro j slot' hslot'
      have howner : owners files j=some (slot'.backend,slot'.localHandle) := by
        unfold owners
        rw [hslot']
        rfl
      rw [howners] at howner
      by_cases hj : j=i
      · rw [hj,Function.update_self] at howner
        cases howner
      · rw [Function.update_of_ne hj] at howner
        obtain ⟨old,hold,hbackend,-⟩ := owners_eq_some howner
        rw [← hbackend]
        exact hs.tidy j old hold
  | read file length counted => exact hsame ⟨hbooks.1,hbooks.2.restored⟩
  | write file src counted => exact hsame ⟨hbooks.1,hbooks.2.restored⟩
  | seek file offset => exact hsame ⟨hbooks.1,hbooks.2.restored⟩
  | copy => exact hsame hbooks
  | calculate => exact hsame hbooks
  | verifyRange => exact hsame hbooks
  | verify => exact hsame hbooks
  | verifyChunks => exact hsame hbooks
  | configureSave => exact hsame hbooks

end Steps

/-- No backend is registered and no file is open. -/
def empty (w : W) : System W := ⟨[],fresh w⟩

theorem sound_empty {ledger : Ledger W} {w : W} (hstart : ledger.opened w=ledger.closed w) :
    Sound ledger (empty w) := by
  refine ⟨⟨slotFromHandle_succ _,fun _ _ _ h => slot_of_slotFromHandle h,fun key _ => ?_,
    Nat.zero_le _⟩,fun backend hmem => (by cases hmem),fun i slot h => (by cases h)⟩
  have hnone : slotCount (fresh w) key=0 := by
    rw [slotCount_eq]
    apply Finset.sum_eq_zero
    intro i _
    exact if_neg (by simp [owners,fresh])
  change ledger.opened w key=ledger.closed w key+slotCount (fresh w) key
  rw [hstart,hnone,Nat.add_zero]

/-- In every run from no backends and no open files, the live handles always are those of
the used slots, which stand for the local handles that are open, and every step does to
the slots and the books what it should. The choice of a backend always is the best. -/
theorem handles_accounted (ledger : Ledger W) (others : Others W)
    (hothers : OthersQuiet ledger others) (w : W)
    (hstart : ledger.opened w=ledger.closed w) (trace : List (System W×Action W))
    (last : System W) (run : Run (step others) (empty w) trace last)
    (hadmissible : EveryStep (fun _ action => Admissible ledger action) trace) :
    Always (Accounted ledger) trace last ∧ EveryStep (StepBooks ledger others) trace ∧
      ∀ (backends : List (Backend W)) (path : CString),
        Best backends path (findBackend backends path) := by
  have hsound : Always (Sound ledger) trace last :=
    run.always_of_everyStep (I:=fun _ => True) trivial (fun _ _ _ _ _ => trivial)
      (sound_empty hstart) (fun s action t _ hs hadm h => step_sound hothers hs action hadm h)
      hadmissible
  refine ⟨⟨fun entry hmem => (hsound.1 entry hmem).toAccounted,hsound.2.toAccounted⟩,
    fun entry hmem => ?_,findBackend_best⟩
  exact step_books hothers (hsound.1 entry hmem) entry.2 (hadmissible entry hmem)

/-- A backend whose state tells which local handles it has opened and closed. It has two
of them, and opens the second when the first was opened before. -/
def tallyOps : BackendOps (List UInt16×List UInt16) where
  openPath _ _ w :=
    let l : UInt16 := if 0∈w.1 then 1 else 0
    ((0,l),(l::w.1,w.2))
  close := some fun l w => (0,(w.1,l::w.2))
  read := none
  write := none
  directRead := none
  seek := none

open Classical in
/-- Its ledger. -/
noncomputable def tally : Ledger (List UInt16×List UInt16) where
  opened w key := if key.1=tallyOps then w.1.count key.2 else 0
  closed w key := if key.1=tallyOps then w.2.count key.2 else 0

/-- One more in a list. -/
theorem oneMore_cons (l : UInt16) (before after : BackendOps (List UInt16×List UInt16)×UInt16 → ℕ)
    (list : List UInt16) (hbefore : ∀ m,before (tallyOps,m)=list.count m)
    (hafter : ∀ m,after (tallyOps,m)=(l::list).count m)
    (hothers : ∀ key,key.1≠tallyOps → after key=before key) :
    OneMore (tallyOps,l) before after := by
  refine ⟨?_,?_⟩
  · rw [hbefore,hafter,List.count_cons_self]
  · rintro ⟨ops,m⟩ hne
    by_cases hops : ops=tallyOps
    · have hm : l≠m := fun h => hne (by rw [hops,h])
      rw [hops,hbefore,hafter,List.count_cons_of_ne hm]
    · exact hothers _ hops

/-- The calls of the backend are counted. -/
theorem tally_counted : Counted tally tallyOps := by
  refine ⟨fun path flags w h => absurd h (by decide : ¬(0 : ℤ)<0),fun path flags w _ => ?_,
    ?_,fun read h => (by cases h),fun write h => (by cases h),fun seek h => (by cases h),
    fun directRead h => (by cases h)⟩
  · refine ⟨oneMore_cons _ _ _ w.1 (fun m => if_pos rfl) (fun m => if_pos rfl)
      fun key hkey => ?_,rfl⟩
    exact (if_neg hkey).trans (if_neg hkey).symm
  · rintro close h l w
    cases h
    refine ⟨oneMore_cons _ _ _ w.2 (fun m => if_pos rfl) (fun m => if_pos rfl)
      fun key hkey => ?_,rfl⟩
    exact (if_neg hkey).trans (if_neg hkey).symm

/-- The backend under the root. -/
def tallyBackend : Backend (List UInt16×List UInt16) := ⟨⟨[47],slash_noNul⟩,1,tallyOps⟩

/-- It has no other operations. -/
def tallyOthers : Others (List UInt16×List UInt16) where
  ops backend :=
    { stat := none
      fstat := none
      truncate := none
      flush := none
      directRead := match backend.ops.directRead with
        | none => none
        | some directRead => some fun l length w =>
          let reply := directRead l length w
          ((reply.1.1,.null reply.1.2),reply.2)
      releaseDirect := none
      directWrite := none }
  directRead_eq backend := by
    cases h : backend.ops.directRead <;> rfl

/-- Nothing else of a counted backend is called. -/
theorem tally_others : OthersQuiet tally tallyOthers :=
  ⟨fun _ _ _ h => (by cases h),fun _ _ _ h => (by cases h),fun _ _ _ h => (by cases h),
    fun _ _ _ h => (by cases h),fun _ _ _ h => (by cases h),fun _ _ _ h => (by cases h)⟩

/-- The path of the root. -/
def root : CString := ⟨[47],slash_noNul⟩

/-- The backend is registered. -/
def tallyRegistered : System (List UInt16×List UInt16) :=
  (clFileRegisterBackend tallyBackend (empty ([],[]))).2

/-- The root is opened. -/
def tallyOpened : System (List UInt16×List UInt16) :=
  {tallyRegistered with files := (clFileOpen [tallyBackend] root 1 tallyRegistered.files).2}

/-- It is opened once more. -/
def tallyTwice : System (List UInt16×List UInt16) :=
  {tallyOpened with files := (clFileOpen [tallyBackend] root 1 tallyOpened.files).2}

/-- The first handle is closed. -/
def tallyClosed : System (List UInt16×List UInt16) :=
  {tallyTwice with files := (clFileClose 1 tallyTwice.files).2}

/-- The run. -/
def tallyTrace : List (System (List UInt16×List UInt16)×Action (List UInt16×List UInt16)) :=
  [(empty ([],[]),.register tallyBackend),(tallyRegistered,.openPath root 1),
    (tallyOpened,.openPath root 1),(tallyTwice,.close 1)]

theorem tally_run : Run (step tallyOthers) (empty ([],[])) tallyTrace tallyClosed :=
  (((Run.nil.snoc rfl).snoc rfl).snoc rfl).snoc rfl

/-- The theorem for the run. -/
theorem handles_accounted_small :
    Always (Accounted tally) tallyTrace tallyClosed ∧
      EveryStep (StepBooks tally tallyOthers) tallyTrace ∧
      ∀ (backends : List (Backend (List UInt16×List UInt16))) (path : CString),
        Best backends path (findBackend backends path) := by
  refine handles_accounted tally tallyOthers tally_others ([],[]) ?_ tallyTrace tallyClosed
    tally_run ?_
  · funext key
    rfl
  · intro entry hmem
    rcases List.mem_cons.mp hmem with rfl | hmem
    · exact tally_counted
    · rcases List.mem_cons.mp hmem with rfl | hmem
      · trivial
      · rcases List.mem_cons.mp hmem with rfl | hmem
        · trivial
        · rw [List.mem_singleton.mp hmem]
          trivial

end ChisLink.HandleRuns
