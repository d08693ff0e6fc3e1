import ChisLink.RestrictedCopy

/-!
# Windows of a copy

A copy holds one direct window at a time and gives it back before it takes the next one or
returns, whatever the source and the sink do. The source is watched: the windows that it
hands out and that are given back are noted in their order. The copy counts the bytes of a
block that the sink has accepted in 32 bits, and the count wraps if a sink reports more than
it was offered.
-/

namespace ChisLink.CopyWindows

open CopyStream DriverPrograms RestrictedCopy WireProtocol

variable {σ : Type}

section Program

/-- The inner loop of the copy, for so many rounds. The result is negative if the copy is
over. -/
def writeCounted (source : CopySource σ) (sink : CopySink σ)
    (write : List UInt8 → σ → (ℤ×ℕ)×σ) (blockSize : ℕ) (block : Block) :
    ℕ → UInt32 → Prog σ ℤ
  | 0, _ => fun s => (none,s)
  | rounds+1, total =>
    if total.toNat<block.got then do
      let reply ← offer sink write blockSize total.toNat block
      if reply.1<0 then do
        let _ ← releaseBlock source block
        pure reply.1
      else if UInt32.ofNat reply.2=0 then do
        let _ ← releaseBlock source block
        pure (-3)
      else writeCounted source sink write blockSize block rounds (total+UInt32.ofNat reply.2)
    else pure 0

/-- Copy one block. The result is negative if the copy is over. -/
def copyCounted (source : CopySource σ) (sink : CopySink σ) (options : CopyOptions σ)
    (write : List UInt8 → σ → (ℤ×ℕ)×σ) (blockSize rounds : ℕ) (block : Block)
    (done : UInt64) : Prog σ ℤ := do
  let ret ← writeCounted source sink write blockSize block rounds 0
  if ret<0 then pure ret
  else do
    let ret ← releaseBlock source block
    if ret<0 then pure ret
    else reportProgress options (done+UInt64.ofNat block.got) source.size

/-- The outer loop of the copy. -/
def copyAll (source : CopySource σ) (sink : CopySink σ) (options : CopyOptions σ)
    (write : List UInt8 → σ → (ℤ×ℕ)×σ) (blockSize rounds : ℕ) : ℕ → UInt64 → Prog σ ℤ
  | 0, _ => fun s => (none,s)
  | fuel+1, done =>
    if source.size=0 ∨ done<source.size then
      takeBlock source (wantedBytes source.size done blockSize) >>= fun
        | .error ret => pure ret
        | .ok none => finishCopy source sink options done
        | .ok (some block) =>
          copyCounted source sink options write blockSize rounds block done >>= fun ret =>
            if ret<0 then pure ret
            else copyAll source sink options write blockSize rounds fuel
              (done+UInt64.ofNat block.got)
    else finishCopy source sink options done

/-- The function `cl_copy_stream`, for so many rounds of its loops. -/
def clCopyStreamCounted (source : CopySource σ) (sink : CopySink σ) (options : CopyOptions σ)
    (rounds fuel : ℕ) : Prog σ ℤ :=
  match sink.write with
  | none => pure (-1)
  | some write =>
    if (source.read.isNone ∧ source.directRead.isNone) ∨ options.buffer=false ∨
        options.bufferSize<4 then pure (-1)
    else if chooseBlockSize source sink options<4 then pure (-2)
    else copyAll source sink options write (chooseBlockSize source sink options).toNat
      rounds fuel 0

end Program

section Watching

/-- What happens to a window. -/
inductive WindowEvent where
  /-- The source has handed it out. -/
  | acquired
  /-- It was given back. -/
  | released
deriving DecidableEq

/-- A reply hands out a window that is not empty. -/
def handsOut (reply : ℤ×WindowReply) : Bool :=
  match reply.2 with
  | .null _ => false
  | .window window => decide (0≤ reply.1 ∧ window.length≠0)

/-- A call that leaves the notes alone. -/
def unnoted {α : Type} (f : σ → α×σ) (s : σ×List WindowEvent) : α×σ×List WindowEvent :=
  ((f s.1).1,((f s.1).2,s.2))

/-- A call that is noted. -/
def noted {α : Type} (note : α → List WindowEvent) (f : σ → α×σ) (s : σ×List WindowEvent) :
    α×σ×List WindowEvent :=
  ((f s.1).1,((f s.1).2,s.2++note (f s.1).1))

/-- A source that is watched. -/
def watchSource (source : CopySource σ) : CopySource (σ×List WindowEvent) where
  read := source.read.map fun read want => unnoted (read want)
  directRead := source.directRead.map fun directRead want =>
    noted (fun reply => if handsOut reply then [.acquired] else []) (directRead want)
  releaseDirect := source.releaseDirect.map fun release => noted (fun _ => [.released]) release
  size := source.size
  preferredBlockSize := source.preferredBlockSize
  maxBlockSize := source.maxBlockSize

/-- A sink beside the notes. -/
def watchSink (sink : CopySink σ) : CopySink (σ×List WindowEvent) where
  write := sink.write.map fun write data => unnoted (write data)
  directWrite := sink.directWrite.map fun directWrite window offset length =>
    unnoted (directWrite window offset length)
  flush := sink.flush.map unnoted
  preferredBlockSize := sink.preferredBlockSize
  maxBlockSize := sink.maxBlockSize

/-- Options beside the notes. -/
def watchOptions (options : CopyOptions σ) : CopyOptions (σ×List WindowEvent) where
  buffer := options.buffer
  bufferSize := options.bufferSize
  blockSize := options.blockSize
  progress := options.progress.map fun progress done size => unnoted (progress done size)
  flushOnFinish := options.flushOnFinish

/-- Every window was given back once before the next one was taken. -/
inductive Balanced : List WindowEvent → Prop where
  /-- Nothing was taken. -/
  | nil : Balanced []
  /-- One more was taken and given back. -/
  | pair {notes : List WindowEvent} (h : Balanced notes) :
    Balanced (notes++[.acquired,.released])

/-- So it was, and one window more is held. -/
def Holding (notes : List WindowEvent) : Prop :=
  ∃ before,Balanced before ∧ notes=before++[.acquired]

theorem Balanced.acquire {notes : List WindowEvent} (h : Balanced notes) :
    Holding (notes++[.acquired]) := ⟨notes,h,rfl⟩

theorem Holding.release {notes : List WindowEvent} (h : Holding notes) :
    Balanced (notes++[.released]) := by
  obtain ⟨before,hbefore,rfl⟩ := h
  rw [List.append_assoc]
  exact hbefore.pair

/-- The notes while a block is copied. -/
def Standing (block : Block) (notes : List WindowEvent) : Prop :=
  match block with
  | .window _ => Holding notes
  | .buffered _ => Balanced notes

/-- The notes at any moment of a copy. -/
def Underway (notes : List WindowEvent) : Prop := Balanced notes ∨ Holding notes

theorem Standing.underway {block : Block} {notes : List WindowEvent}
    (h : Standing block notes) : Underway notes := by
  cases block with
  | window _ => exact Or.inr h
  | buffered _ => exact Or.inl h

end Watching

section Rules

variable {source : CopySource σ} {sink : CopySink σ} {options : CopyOptions σ}
  {write : List UInt8 → σ → (ℤ×ℕ)×σ} {s : σ×List WindowEvent}

/-- A callback that is not noted. -/
theorem wp_callOptional_unnoted (callback : Option (σ → ℤ×σ)) {P : List WindowEvent → Prop}
    (h : P s.2) :
    wp (callOptional (callback.map unnoted)) (fun _ t => P t.2) (fun _ => False) s := by
  cases callback with
  | none => exact h
  | some f => exact h

/-- A block is given back if it is a window. -/
theorem wp_releaseBlock (hrelease : source.releaseDirect.isSome) {block : Block}
    (h : Standing block s.2) :
    wp (releaseBlock (watchSource source) block) (fun _ t => Balanced t.2) (fun _ => False) s := by
  cases block with
  | buffered data => exact h
  | window direct =>
    obtain ⟨release,hsome⟩ := Option.isSome_iff_exists.mp hrelease
    unfold releaseBlock watchSource callOptional
    dsimp only
    rw [hsome]
    exact h.release

/-- What is offered to the sink is not noted. -/
theorem wp_offer (blockSize total : ℕ) (block : Block) {P : List WindowEvent → Prop}
    (h : P s.2) :
    wp (offer (watchSink sink) (fun data => unnoted (write data)) blockSize total block)
      (fun _ t => P t.2) (fun _ => False) s := by
  cases block with
  | buffered data => exact h
  | window direct =>
    unfold offer watchSink
    dsimp only
    cases sink.directWrite with
    | some directWrite => exact h
    | none => exact h

/-- The inner loop keeps the window, and gives it back where it ends the copy. -/
theorem wp_writeCounted (hrelease : source.releaseDirect.isSome) (blockSize : ℕ)
    (block : Block) (rounds : ℕ) :
    ∀ (total : UInt32) (s : σ×List WindowEvent),Standing block s.2 →
      wp (writeCounted (watchSource source) (watchSink sink)
          (fun data => unnoted (write data)) blockSize block rounds total)
        (fun ret t => if ret<0 then Balanced t.2 else Standing block t.2)
        (fun t => Underway t.2) s := by
  induction rounds with
  | zero => exact fun total s h => h.underway
  | succ rounds ih =>
    intro total s h
    unfold writeCounted
    have hfalse : ∀ t : σ×List WindowEvent,False → Underway t.2 := fun _ => False.elim
    by_cases hmore : total.toNat<block.got
    · rw [if_pos hmore,wp_bind]
      refine wp_mono (wp_offer blockSize total.toNat block h) ?_ hfalse
      intro reply t ht
      by_cases hneg : reply.1<0
      · rw [if_pos hneg,wp_bind]
        refine wp_mono (wp_releaseBlock hrelease ht) ?_ hfalse
        intro _ u hu
        rw [wp_pure,if_pos hneg]
        exact hu
      rw [if_neg hneg]
      by_cases hzero : UInt32.ofNat reply.2=0
      · rw [if_pos hzero,wp_bind]
        refine wp_mono (wp_releaseBlock hrelease ht) ?_ hfalse
        intro _ u hu
        rw [wp_pure,if_pos (by decide)]
        exact hu
      · rw [if_neg hzero]
        exact ih _ t ht
    · rw [if_neg hmore,wp_pure,if_neg (Int.lt_irrefl 0)]
      exact h

/-- Of the blocks that are taken the windows are held. -/
theorem wp_takeBlock (hrelease : source.releaseDirect.isSome) (want : ℕ)
    (h : Balanced s.2) :
    wp (takeBlock (watchSource source) want) (fun taken t => match taken with
      | .ok (some block) => Standing block t.2
      | _ => Balanced t.2) (fun _ => False) s := by
  have hbuffered : ∀ t : σ×List WindowEvent,Balanced t.2 →
      wp (takeBuffered (watchSource source) want) (fun taken t => match taken with
        | .ok (some block) => Standing block t.2
        | _ => Balanced t.2) (fun _ => False) t := by
    intro t ht
    unfold takeBuffered watchSource
    dsimp only
    cases source.read with
    | none => exact ht
    | some read =>
      rw [Option.map_some]
      dsimp only
      rw [wp_bind,wp_access]
      by_cases hneg : (unnoted (read want) t).1.1<0
      · rw [if_pos hneg]
        exact ht
      · rw [if_neg hneg,wp_pure]
        by_cases hnil : (unnoted (read want) t).1.2=[]
        · rw [if_pos hnil]
          exact ht
        · rw [if_neg hnil]
          exact ht
  unfold takeBlock
  rw [wp_bind]
  have hwindow : wp (takeWindow (watchSource source) want) (fun taken t => match taken with
      | .ok (some block) => Standing block t.2
      | _ => Balanced t.2) (fun _ => False) s := by
    unfold takeWindow
    dsimp only [watchSource]
    cases source.directRead with
    | none => exact h
    | some directRead =>
      rw [Option.map_some]
      dsimp only
      obtain ⟨⟨ret,window⟩,t,hcall⟩ : ∃ reply t,directRead want s.1=(reply,t) := ⟨_,_,rfl⟩
      have hnoted : noted (fun reply => if handsOut reply then [.acquired] else [])
          (directRead want) s=((ret,window),(t,s.2++
            if handsOut (ret,window) then [.acquired] else [])) := by
        unfold noted
        rw [hcall]
      rw [wp_bind,wp_access,hnoted]
      dsimp only
      by_cases hneg : ret<0
      · have hnone : handsOut (ret,window)=false := by
          cases window with
          | null length => rfl
          | window window => exact decide_eq_false fun hboth => by omega
        rw [if_pos hneg,hnone,if_neg Bool.false_ne_true,List.append_nil]
        exact h
      rw [if_neg hneg]
      cases window with
      | null length =>
        have hnone : handsOut (ret,.null length)=false := rfl
        dsimp only
        rw [hnone,if_neg Bool.false_ne_true,List.append_nil,wp_pure]
        by_cases hlength : length≠0
        · rw [if_pos hlength]
          exact h
        · rw [if_neg hlength]
          exact h
      | window window =>
        dsimp only
        by_cases hempty : window.length=0
        · have hnone : handsOut (ret,.window window)=false :=
            decide_eq_false fun hboth => hboth.2 hempty
          have hzero : window.length.toNat=0 := by rw [hempty]; rfl
          rw [hnone,if_neg Bool.false_ne_true,List.append_nil,if_neg (by omega),wp_pure,
            if_pos hempty]
          exact h
        · have hout : handsOut (ret,.window window)=true :=
            decide_eq_true ⟨Int.not_lt.mp hneg,hempty⟩
          rw [hout,if_pos rfl]
          by_cases hlarge : want<window.length.toNat
          · rw [if_pos hlarge,wp_bind]
            have hheld : Standing (.window window) (s.2++[.acquired]) := h.acquire
            have hback := wp_releaseBlock (s := (t,s.2++[.acquired])) hrelease hheld
            exact wp_post hback (fun _ u hu => hu)
          · rw [if_neg hlarge,wp_pure,if_neg hempty]
            exact h.acquire
  refine wp_post hwindow ?_
  rintro (ret | _ | block) t ht
  · exact ht
  · exact hbuffered t ht
  · exact ht

theorem wp_finishCopy (done : UInt64) (h : Balanced s.2) :
    wp (finishCopy (watchSource source) (watchSink sink) (watchOptions options) done)
      (fun _ t => Balanced t.2) (fun _ => False) s := by
  unfold finishCopy
  split
  · exact h
  split
  · exact wp_callOptional_unnoted sink.flush h
  · exact h

/-- A block is given back when it is copied. -/
theorem wp_copyCounted (hrelease : source.releaseDirect.isSome) (blockSize rounds : ℕ)
    (block : Block) (done : UInt64) (h : Standing block s.2) :
    wp (copyCounted (watchSource source) (watchSink sink) (watchOptions options)
        (fun data => unnoted (write data)) blockSize rounds block done)
      (fun _ t => Balanced t.2) (fun t => Underway t.2) s := by
  have hfalse : ∀ t : σ×List WindowEvent,False → Underway t.2 := fun _ => False.elim
  unfold copyCounted
  refine wp_seq (wp_writeCounted hrelease blockSize block rounds 0 s h) ?_
  intro ret t ht
  by_cases hneg : ret<0
  · rw [if_pos hneg] at ht ⊢
    exact ht
  rw [if_neg hneg] at ht ⊢
  rw [wp_bind]
  refine wp_mono (wp_releaseBlock hrelease ht) ?_ hfalse
  intro ret u hu
  split
  · exact hu
  unfold reportProgress watchOptions
  dsimp only
  cases options.progress with
  | none => exact hu
  | some progress => exact hu

/-- So is every block of a copy. -/
theorem wp_copyAll (hrelease : source.releaseDirect.isSome) (blockSize rounds fuel : ℕ) :
    ∀ (done : UInt64) (s : σ×List WindowEvent),Balanced s.2 →
      wp (copyAll (watchSource source) (watchSink sink) (watchOptions options)
          (fun data => unnoted (write data)) blockSize rounds fuel done)
        (fun _ t => Balanced t.2) (fun t => Underway t.2) s := by
  have hfalse : ∀ t : σ×List WindowEvent,False → Underway t.2 := fun _ => False.elim
  induction fuel with
  | zero => exact fun done s h => Or.inl h
  | succ fuel ih =>
    intro done s h
    unfold copyAll
    split
    · rw [wp_bind]
      refine wp_mono (wp_takeBlock hrelease _ h) ?_ hfalse
      rintro (ret | _ | block) t ht
      · exact ht
      · exact wp_mono (wp_finishCopy done ht) (fun _ _ hu => hu) hfalse
      · dsimp only at ht ⊢
        refine wp_seq (wp_copyCounted hrelease blockSize rounds block done ht) ?_
        intro ret u hu
        split
        · exact hu
        · exact ih _ u hu
    · exact wp_mono (wp_finishCopy done h) (fun _ _ hu => hu) hfalse

/-- A copy gives every window back once, before it takes the next one or returns. -/
theorem wp_clCopyStreamCounted (hrelease : source.releaseDirect.isSome) (rounds fuel : ℕ)
    (h : Balanced s.2) :
    wp (clCopyStreamCounted (watchSource source) (watchSink sink) (watchOptions options) rounds
      fuel) (fun _ t => Balanced t.2) (fun t => Underway t.2) s := by
  unfold clCopyStreamCounted
  have hwrite : (watchSink sink).write=sink.write.map fun write data => unnoted (write data) :=
    rfl
  rw [hwrite]
  cases sink.write with
  | none => exact h
  | some write =>
    rw [Option.map_some]
    dsimp only
    split
    · exact h
    split
    · exact h
    · exact wp_copyAll hrelease _ rounds fuel 0 s h

end Rules

section Unwatched

variable {source : CopySource σ} {sink : CopySink σ} {options : CopyOptions σ}
  {write : List UInt8 → σ → (ℤ×ℕ)×σ}

theorem unnoted_follows {α : Type} (f : σ → α×σ) : CallFollows Prod.fst (unnoted f) f :=
  fun _ => rfl

theorem noted_follows {α : Type} (note : α → List WindowEvent) (f : σ → α×σ) :
    CallFollows Prod.fst (noted note f) f := fun _ => rfl

theorem watchSource_follows (source : CopySource σ) :
    SourceFollows Prod.fst (watchSource source) source := by
  unfold watchSource
  refine ⟨?_,?_,?_,rfl,rfl,rfl⟩ <;> dsimp only
  · cases source.read with
    | none => exact .none
    | some read => exact .some fun want _ => unnoted_follows (read want)
  · cases source.directRead with
    | none => exact .none
    | some directRead => exact .some fun want _ => noted_follows _ (directRead want)
  · cases source.releaseDirect with
    | none => exact .none
    | some release => exact .some (noted_follows _ release)

theorem watchSink_follows (sink : CopySink σ) :
    SinkFollows Prod.fst (watchSink sink) sink := by
  unfold watchSink
  refine ⟨?_,?_,?_,rfl,rfl⟩ <;> dsimp only
  · cases sink.write with
    | none => exact .none
    | some write => exact .some fun data => unnoted_follows (write data)
  · cases sink.directWrite with
    | none => exact .none
    | some write => exact .some fun window offset length => unnoted_follows _
  · cases sink.flush with
    | none => exact .none
    | some flush => exact .some (unnoted_follows flush)

theorem watchOptions_follows (options : CopyOptions σ) :
    OptionsFollow Prod.fst (watchOptions options) options := by
  unfold watchOptions
  refine ⟨rfl,rfl,rfl,?_,rfl⟩
  dsimp only
  cases options.progress with
  | none => exact .none
  | some progress => exact .some fun done size => unnoted_follows (progress done size)

theorem writeCounted_follows (blockSize : ℕ) (block : Block) (rounds : ℕ) (total : UInt32) :
    Follows Prod.fst (writeCounted (watchSource source) (watchSink sink)
      (fun data => unnoted (write data)) blockSize block rounds total)
      (writeCounted source sink write blockSize block rounds total) := by
  have hback := releaseBlock_follows (watchSource_follows source) block
  induction rounds generalizing total with
  | zero => exact fun _ => rfl
  | succ rounds ih =>
    unfold writeCounted
    split
    · refine (offer_follows (watchSink_follows sink) (fun data => unnoted_follows (write data))
        blockSize total.toNat block).bind fun reply => ?_
      split
      · exact hback.bind fun _ => follows_pure _
      split
      · exact hback.bind fun _ => follows_pure _
      · exact ih _
    · exact follows_pure 0

theorem copyAll_follows {blockSize : ℕ} (hblock : blockSize<2^32) (rounds fuel : ℕ)
    (done : UInt64) :
    Follows Prod.fst (copyAll (watchSource source) (watchSink sink) (watchOptions options)
      (fun data => unnoted (write data)) blockSize rounds fuel done)
      (copyAll source sink options write blockSize rounds fuel done) := by
  have hsource := watchSource_follows source
  have hfinish := finishCopy_follows hsource (watchSink_follows sink)
    (watchOptions_follows options) done
  induction fuel generalizing done with
  | zero => exact fun _ => rfl
  | succ fuel ih =>
    unfold copyAll
    rw [hsource.size_eq]
    split
    · have hwant := wantedBytes_le source.size done blockSize
      rw [hsource.size_eq] at hwant
      refine (takeBlock_follows hsource (lt_of_le_of_lt hwant hblock)).bind fun taken => ?_
      rcases taken with ret | _ | block
      · exact follows_pure _
      · exact hfinish
      · have hcopy : Follows Prod.fst (copyCounted (watchSource source) (watchSink sink)
            (watchOptions options) (fun data => unnoted (write data)) blockSize rounds block done)
            (copyCounted source sink options write blockSize rounds block done) := by
          refine (writeCounted_follows blockSize block rounds 0).bind fun ret => ?_
          split
          · exact follows_pure _
          refine (releaseBlock_follows hsource block).bind fun ret => ?_
          split
          · exact follows_pure _
          · exact reportProgress_follows (watchOptions_follows options) _ _
        refine hcopy.bind fun ret => ?_
        split
        · exact follows_pure _
        · exact ih _ (finishCopy_follows hsource (watchSink_follows sink)
            (watchOptions_follows options) _)
    · exact hfinish

/-- Watching does not change a copy. -/
theorem clCopyStreamCounted_follows (source : CopySource σ) (sink : CopySink σ)
    (options : CopyOptions σ) (rounds fuel : ℕ) :
    Follows Prod.fst (clCopyStreamCounted (watchSource source) (watchSink sink)
      (watchOptions options) rounds fuel)
      (clCopyStreamCounted source sink options rounds fuel) := by
  unfold clCopyStreamCounted
  have hreads : (watchSource source).read.isNone=source.read.isNone := Option.isNone_map
  have hwindows : (watchSource source).directRead.isNone=source.directRead.isNone :=
    Option.isNone_map
  have hwrite : (watchSink sink).write=sink.write.map fun write data => unnoted (write data) :=
    rfl
  have hblock : chooseBlockSize (watchSource source) (watchSink sink) (watchOptions options)=
      chooseBlockSize source sink options := rfl
  have hbuffer : (watchOptions options).buffer=options.buffer ∧
      (watchOptions options).bufferSize=options.bufferSize := ⟨rfl,rfl⟩
  rw [hreads,hwindows,hwrite,hblock,hbuffer.1,hbuffer.2]
  cases sink.write with
  | none => exact follows_pure _
  | some write =>
    rw [Option.map_some]
    dsimp only
    split
    · exact follows_pure _
    split
    · exact follows_pure _
    · exact copyAll_follows (UInt32.toNat_lt _) rounds fuel 0

end Unwatched

section Counts

variable {source : CopySource σ} {sink : CopySink σ} {options : CopyOptions σ}
  {write : List UInt8 → σ → (ℤ×ℕ)×σ}

/-- No more is reported than was offered or asked for. -/
structure Moderate (source : CopySource σ) (sink : CopySink σ) : Prop where
  /-- Reads. -/
  read : ∀ read,source.read=some read → ∀ want s,(read want s).1.2.length≤want
  /-- Writes. -/
  write : ∀ write,sink.write=some write → ∀ data s,0≤(write data s).1.1 →
    (write data s).1.2≤data.length
  /-- Writes from a window. -/
  directWrite : ∀ directWrite,sink.directWrite=some directWrite → ∀ window offset length s,
    0≤(directWrite window offset length s).1.1 →
      (directWrite window offset length s).1.2≤length

/-- The reports on the offers of a block. -/
theorem wp_offer_le (h : Moderate source sink) (hwrite : sink.write=some write)
    (blockSize total : ℕ) (block : Block) (s : σ) :
    wp (offer sink write blockSize total block)
      (fun reply _ => 0≤ reply.1 → reply.2≤block.got-total) (fun _ => False) s := by
  cases block with
  | buffered data =>
    have hle := h.write write hwrite (data.drop total) s
    rw [List.length_drop] at hle
    exact hle
  | window direct =>
    unfold offer
    cases hdirect : sink.directWrite with
    | some directWrite => exact h.directWrite directWrite hdirect _ _ _ s
    | none =>
      dsimp only
      unfold writeCopied
      rw [wp_bind,wp_access,wp_pure]
      split
      · exact fun hneg => absurd hneg (by decide : ¬(0 : ℤ)≤-3)
      · rename_i hcount
        intro hret
        have hall := not_not.mp fun hne => hcount ⟨hret,hne⟩
        exact le_of_eq_of_le hall (Nat.min_le_left _ _)

/-- Without such reports the count does not wrap. -/
theorem writeCounted_eq (h : Moderate source sink) (hwrite : sink.write=some write)
    (blockSize : ℕ) {block : Block} (hgot : block.got<2^32) (rounds : ℕ) :
    ∀ (more total : ℕ) (s : σ),total≤block.got → block.got≤total+rounds →
      block.got<total+more →
        writeCounted source sink write blockSize block more (UInt32.ofNat total) s=
          writeBlock source sink write blockSize block rounds total s := by
  have hvalue : ∀ n,n≤block.got → (UInt32.ofNat n).toNat=n := fun n hn =>
    UInt32.toNat_ofNat_of_lt' (by
      have hsize : UInt32.size=2^32 := rfl
      omega)
  induction rounds with
  | zero =>
    intro more total s htotal hall hmore
    cases more with
    | zero => omega
    | succ more =>
      unfold writeCounted writeBlock
      rw [hvalue total htotal,if_neg (by omega)]
  | succ rounds ih =>
    intro more total s htotal hall hmore
    cases more with
    | zero => omega
    | succ more =>
      unfold writeCounted writeBlock
      rw [hvalue total htotal]
      by_cases hless : total<block.got
      · rw [if_pos hless,if_pos hless]
        refine bind_congr_run (wp_offer_le h hwrite blockSize total block s) ?_
        intro reply t hreply
        by_cases hneg : reply.1<0
        · rw [if_pos hneg,if_pos hneg]
        rw [if_neg hneg,if_neg hneg]
        have hle := hreply (Int.not_lt.mp hneg)
        have hzero : UInt32.ofNat reply.2=0 ↔ reply.2=0 := by
          rw [← UInt32.toNat_inj,hvalue reply.2 (by omega)]
          rfl
        by_cases hnone : reply.2=0
        · rw [if_pos (hzero.mpr hnone),if_pos hnone]
        · rw [if_neg (fun h => hnone (hzero.mp h)),if_neg hnone,← UInt32.ofNat_add]
          exact ih more (total+reply.2) t (by omega) (by omega) (by omega)
      · rw [if_neg hless,if_neg hless]

/-- Of moderate sources the blocks have 32-bit sizes. -/
theorem wp_takeBlock_got (h : Moderate source sink) {want : ℕ} (hwant : want<2^32) (s : σ) :
    wp (takeBlock source want) (fun taken _ => ∀ block,taken=.ok (some block) →
      block.got<2^32) (fun _ => False) s := by
  have hbuffered : ∀ t,wp (takeBuffered source want) (fun taken _ => ∀ block,
      taken=.ok (some block) → block.got<2^32) (fun _ => False) t := by
    intro t
    unfold takeBuffered
    cases hread : source.read with
    | none => exact fun block hblock => by cases hblock
    | some read =>
      have hle := h.read read hread want t
      dsimp only
      rw [wp_bind,wp_access]
      split
      · exact fun block hblock => by cases hblock
      · intro block hblock
        split at hblock
        · cases hblock
        · cases hblock
          exact lt_of_le_of_lt hle hwant
  unfold takeBlock
  rw [wp_bind]
  have hwindow : wp (takeWindow source want) (fun taken _ => ∀ block,
      taken=.ok (some block) → block.got<2^32) (fun _ => False) s := by
    unfold takeWindow
    cases source.directRead with
    | none => exact fun block hblock => by cases hblock
    | some directRead =>
      dsimp only
      rw [wp_bind,wp_access]
      split
      · exact fun block hblock => by cases hblock
      split
      · rw [wp_pure]
        intro block hblock
        split at hblock <;> cases hblock
      · rename_i window _
        split
        · rw [wp_bind]
          have hback : wp (callOptional source.releaseDirect) (fun _ _ => True) (fun _ => False)
              (directRead want s).2 := by
            cases source.releaseDirect <;> trivial
          refine wp_post hback ?_
          exact fun _ _ _ block hblock => by cases hblock
        · rw [wp_pure]
          intro block hblock
          split at hblock
          · cases hblock
          · cases hblock
            exact UInt32.toNat_lt _
  refine wp_post hwindow ?_
  rintro (ret | _ | block) t ht
  · exact fun block hblock => by cases hblock
  · exact hbuffered t
  · exact ht

/-- If no more is reported than was offered, the copy is the one whose count is a number. -/
theorem clCopyStreamCounted_eq (h : Moderate source sink) {rounds : ℕ} (hrounds : 2^32≤ rounds)
    (fuel : ℕ) (s : σ) :
    clCopyStreamCounted source sink options rounds fuel s=
      clCopyStream source sink options fuel s := by
  unfold clCopyStreamCounted clCopyStream
  cases hwrite : sink.write with
  | none => rfl
  | some write =>
    dsimp only
    split
    · rfl
    split
    · rfl
    generalize (0 : UInt64)=done
    have hblock := (chooseBlockSize source sink options).toNat_lt
    induction fuel generalizing done s with
    | zero => rfl
    | succ fuel ih =>
      unfold copyAll copyBlocks
      split
      · have hwant := lt_of_le_of_lt (wantedBytes_le source.size done
          (chooseBlockSize source sink options).toNat) hblock
        refine bind_congr_run (wp_takeBlock_got h hwant s) ?_
        rintro (ret | _ | block) t ht
        · rfl
        · rfl
        · have hgot := ht block rfl
          have hcopy : copyCounted source sink options write
              (chooseBlockSize source sink options).toNat rounds block done t=
                copyBlock source sink options write
                  (chooseBlockSize source sink options).toNat block done t :=
            bind_eq _ (writeCounted_eq h hwrite _ hgot block.got rounds 0 t (Nat.zero_le _)
              (by omega) (by omega))
          dsimp only
          rcases hrun : copyBlock source sink options write
              (chooseBlockSize source sink options).toNat block done t with ⟨_ | ret,u⟩
          · rw [bind_stuck (hcopy.trans hrun),bind_stuck hrun]
          · rw [bind_run (hcopy.trans hrun),bind_run hrun]
            split
            · rfl
            · exact ih u _
      · rfl

/-- Writes of one byte. -/
theorem small_counted :
    clCopyStreamCounted smallSource smallSink smallOptions (2^32) 4 (0,[])=
      clCopyStream smallSource smallSink smallOptions 4 (0,[]) := by
  refine clCopyStreamCounted_eq ⟨fun _ h => (by cases h),fun _ h _ _ _ => ?_,
    fun _ h => (by cases h)⟩ (Nat.le_refl _) 4 _
  cases h
  exact Nat.min_le_right _ _

end Counts

end ChisLink.CopyWindows
