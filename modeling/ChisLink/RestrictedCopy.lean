import ChisLink.CopyStream

/-!
# Copies that keep a property

The callbacks of a copy may obey their interfaces only in states with some property,
which they keep. The copy is then one on these states: what holds of a copy between a
source and a sink that obey in every state holds of it too, and it keeps the
property.
-/

namespace ChisLink.RestrictedCopy

open CopyStream DriverPrograms

variable {σ τ : Type}

/-- Along a map of the states one source does what the other does, for as many bytes as a
copy can ask for. -/
structure SourceFollows (g : τ → σ) (source : CopySource τ) (source' : CopySource σ) : Prop where
  /-- Buffered reads. -/
  read : Option.Rel (fun r r' => ∀ want<2^32,CallFollows g (r want) (r' want)) source.read
    source'.read
  /-- Direct windows. -/
  directRead : Option.Rel (fun r r' => ∀ want<2^32,CallFollows g (r want) (r' want))
    source.directRead source'.directRead
  /-- Giving a window back. -/
  releaseDirect : Option.Rel (CallFollows g) source.releaseDirect source'.releaseDirect
  /-- The announced size. -/
  size_eq : source'.size=source.size
  /-- The preferred block size. -/
  preferredBlockSize_eq : source'.preferredBlockSize=source.preferredBlockSize
  /-- The largest block size. -/
  maxBlockSize_eq : source'.maxBlockSize=source.maxBlockSize

/-- So for two sinks. -/
structure SinkFollows (g : τ → σ) (sink : CopySink τ) (sink' : CopySink σ) : Prop where
  /-- Buffered writes. -/
  write : Option.Rel (fun r r' => ∀ data,CallFollows g (r data) (r' data)) sink.write sink'.write
  /-- Direct writes. -/
  directWrite : Option.Rel (fun r r' => ∀ window offset length,
    CallFollows g (r window offset length) (r' window offset length)) sink.directWrite
    sink'.directWrite
  /-- Flushing. -/
  flush : Option.Rel (CallFollows g) sink.flush sink'.flush
  /-- The preferred block size. -/
  preferredBlockSize_eq : sink'.preferredBlockSize=sink.preferredBlockSize
  /-- The largest block size. -/
  maxBlockSize_eq : sink'.maxBlockSize=sink.maxBlockSize

/-- So for two sets of options. -/
structure OptionsFollow (g : τ → σ) (options : CopyOptions τ) (options' : CopyOptions σ) :
    Prop where
  /-- The buffer. -/
  buffer_eq : options'.buffer=options.buffer
  /-- Its size. -/
  bufferSize_eq : options'.bufferSize=options.bufferSize
  /-- The preferred block size. -/
  blockSize_eq : options'.blockSize=options.blockSize
  /-- The progress callback. -/
  progress : Option.Rel (fun r r' => ∀ done size,CallFollows g (r done size) (r' done size))
    options.progress options'.progress
  /-- Flushing at the end. -/
  flushOnFinish_eq : options'.flushOnFinish=options.flushOnFinish

section Following

variable {g : τ → σ} {source : CopySource τ} {source' : CopySource σ} {sink : CopySink τ}
  {sink' : CopySink σ} {options : CopyOptions τ} {options' : CopyOptions σ}
  {write : List UInt8 → τ → (ℤ×ℕ)×τ} {write' : List UInt8 → σ → (ℤ×ℕ)×σ}

theorem isNone_eq {γ δ : Type} {r : γ → δ → Prop} {x : Option γ} {y : Option δ}
    (h : Option.Rel r x y) : y.isNone=x.isNone := by
  cases h <;> rfl

theorem callOptional_follows {callback : Option (τ → ℤ×τ)} {callback' : Option (σ → ℤ×σ)}
    (h : Option.Rel (CallFollows g) callback callback') :
    Follows g (callOptional callback) (callOptional callback') := by
  cases h with
  | some h => exact follows_access h
  | none => exact follows_pure 0

theorem releaseBlock_follows (h : SourceFollows g source source') (block : Block) :
    Follows g (releaseBlock source block) (releaseBlock source' block) := by
  cases block with
  | window direct => exact callOptional_follows h.releaseDirect
  | buffered data => exact follows_pure 0

theorem offer_follows (h : SinkFollows g sink sink')
    (hwrite : ∀ data,CallFollows g (write data) (write' data)) (blockSize total : ℕ)
    (block : Block) :
    Follows g (offer sink write blockSize total block) (offer sink' write' blockSize total block) := by
  cases block with
  | buffered data => exact follows_access (hwrite _)
  | window direct =>
    unfold offer
    have hdirect := h.directWrite
    generalize sink.directWrite=left at hdirect ⊢
    generalize sink'.directWrite=right at hdirect ⊢
    cases hdirect with
    | some hcalls => exact follows_access (hcalls _ _ _)
    | none => exact (follows_access (hwrite _)).bind fun reply => follows_pure _

theorem writeBlock_follows (hsource : SourceFollows g source source')
    (hsink : SinkFollows g sink sink')
    (hwrite : ∀ data,CallFollows g (write data) (write' data)) (blockSize : ℕ) (block : Block)
    (rounds total : ℕ) :
    Follows g (writeBlock source sink write blockSize block rounds total)
      (writeBlock source' sink' write' blockSize block rounds total) := by
  induction rounds generalizing total with
  | zero => exact follows_pure 0
  | succ rounds ih =>
    unfold writeBlock
    split
    · refine (offer_follows hsink hwrite blockSize total block).bind fun reply => ?_
      split
      · exact (releaseBlock_follows hsource block).bind fun _ => follows_pure _
      · split
        · exact (releaseBlock_follows hsource block).bind fun _ => follows_pure _
        · exact ih _
    · exact follows_pure 0

theorem takeWindow_follows (h : SourceFollows g source source') {want : ℕ}
    (hwant : want<2^32) :
    Follows g (takeWindow source want) (takeWindow source' want) := by
  unfold takeWindow
  have hdirect := h.directRead
  generalize source.directRead=left at hdirect ⊢
  generalize source'.directRead=right at hdirect ⊢
  cases hdirect with
  | none => exact follows_pure _
  | some hcalls =>
    refine (follows_access (hcalls want hwant)).bind fun reply => ?_
    split
    · exact follows_pure _
    · split
      · exact follows_pure _
      · split
        · exact (callOptional_follows h.releaseDirect).bind fun _ => follows_pure _
        · exact follows_pure _

theorem takeBuffered_follows (h : SourceFollows g source source') {want : ℕ}
    (hwant : want<2^32) :
    Follows g (takeBuffered source want) (takeBuffered source' want) := by
  unfold takeBuffered
  have hread := h.read
  generalize source.read=left at hread ⊢
  generalize source'.read=right at hread ⊢
  cases hread with
  | none => exact follows_pure _
  | some hcalls =>
    refine (follows_access (hcalls want hwant)).bind fun reply => ?_
    split <;> exact follows_pure _

theorem takeBlock_follows (h : SourceFollows g source source') {want : ℕ}
    (hwant : want<2^32) :
    Follows g (takeBlock source want) (takeBlock source' want) := by
  refine (takeWindow_follows h hwant).bind fun taken => ?_
  rcases taken with ret | (_ | block)
  · exact follows_pure _
  · exact takeBuffered_follows h hwant
  · exact follows_pure _

theorem reportProgress_follows (h : OptionsFollow g options options') (done size : UInt64) :
    Follows g (reportProgress options done size) (reportProgress options' done size) := by
  unfold reportProgress
  have hprogress := h.progress
  generalize options.progress=left at hprogress ⊢
  generalize options'.progress=right at hprogress ⊢
  cases hprogress with
  | none => exact follows_pure 0
  | some hcalls => exact follows_access (hcalls done size)

theorem copyBlock_follows (hsource : SourceFollows g source source')
    (hsink : SinkFollows g sink sink') (hoptions : OptionsFollow g options options')
    (hwrite : ∀ data,CallFollows g (write data) (write' data)) (blockSize : ℕ) (block : Block)
    (done : UInt64) :
    Follows g (copyBlock source sink options write blockSize block done)
      (copyBlock source' sink' options' write' blockSize block done) := by
  refine (writeBlock_follows hsource hsink hwrite blockSize block _ 0).bind fun ret => ?_
  split
  · exact follows_pure _
  · refine (releaseBlock_follows hsource block).bind fun ret => ?_
    split
    · exact follows_pure _
    · rw [hsource.size_eq]
      exact reportProgress_follows hoptions _ _

theorem finishCopy_follows (hsource : SourceFollows g source source')
    (hsink : SinkFollows g sink sink') (hoptions : OptionsFollow g options options')
    (done : UInt64) :
    Follows g (finishCopy source sink options done) (finishCopy source' sink' options' done) := by
  unfold finishCopy
  rw [hsource.size_eq,hoptions.flushOnFinish_eq]
  split
  · exact follows_pure _
  · split
    · exact callOptional_follows hsink.flush
    · exact follows_pure _

/-- No more than a block is asked for. -/
theorem wantedBytes_le (size done : UInt64) (blockSize : ℕ) :
    wantedBytes size done blockSize≤blockSize := by
  unfold wantedBytes
  split
  · exact Nat.min_le_right _ _
  · exact le_refl _

theorem copyBlocks_follows (hsource : SourceFollows g source source')
    (hsink : SinkFollows g sink sink') (hoptions : OptionsFollow g options options')
    (hwrite : ∀ data,CallFollows g (write data) (write' data)) {blockSize : ℕ}
    (hblock : blockSize<2^32) (fuel : ℕ) (done : UInt64) :
    Follows g (copyBlocks source sink options write blockSize fuel done)
      (copyBlocks source' sink' options' write' blockSize fuel done) := by
  induction fuel generalizing done with
  | zero => exact fun _ => rfl
  | succ fuel ih =>
    unfold copyBlocks
    rw [hsource.size_eq]
    split
    · have hwant := wantedBytes_le source.size done blockSize
      refine (takeBlock_follows hsource (lt_of_le_of_lt hwant hblock)).bind fun taken => ?_
      rcases taken with ret | (_ | block)
      · exact follows_pure _
      · exact finishCopy_follows hsource hsink hoptions done
      · refine (copyBlock_follows hsource hsink hoptions hwrite blockSize block done).bind
          fun ret => ?_
        split
        · exact follows_pure _
        · exact ih _
    · exact finishCopy_follows hsource hsink hoptions done

/-- Along a map of the states a copy does what the other does. -/
theorem clCopyStream_follows (hsource : SourceFollows g source source')
    (hsink : SinkFollows g sink sink') (hoptions : OptionsFollow g options options')
    (fuel : ℕ) :
    Follows g (clCopyStream source sink options fuel)
      (clCopyStream source' sink' options' fuel) := by
  have hblock : chooseBlockSize source' sink' options'=chooseBlockSize source sink options := by
    unfold chooseBlockSize
    rw [hsource.preferredBlockSize_eq,hsource.maxBlockSize_eq,hsink.preferredBlockSize_eq,
      hsink.maxBlockSize_eq,hoptions.blockSize_eq,hoptions.bufferSize_eq]
  have hreads := isNone_eq hsource.read
  have hwindows := isNone_eq hsource.directRead
  unfold clCopyStream
  have hwrite := hsink.write
  generalize sink.write=left at hwrite ⊢
  generalize sink'.write=right at hwrite ⊢
  cases hwrite with
  | none => exact follows_pure _
  | some hcalls =>
    dsimp only
    rw [hblock,hreads,hwindows,hoptions.buffer_eq,hoptions.bufferSize_eq]
    split
    · exact follows_pure _
    · split
      · exact follows_pure _
      · exact copyBlocks_follows hsource hsink hoptions hcalls (UInt32.toNat_lt _) fuel 0

end Following

section Restriction

variable {P : σ → Prop} {source : CopySource σ} {sink : CopySink σ} {options : CopyOptions σ}

/-- The calls of a source keep a property. -/
structure SourceKeeps (P : σ → Prop) (source : CopySource σ) : Prop where
  /-- Buffered reads. -/
  read : ∀ read,source.read=some read → ∀ want s,P s → P (read want s).2
  /-- Direct windows. -/
  directRead : ∀ directRead,source.directRead=some directRead → ∀ want s,P s →
    P (directRead want s).2
  /-- Giving a window back. -/
  releaseDirect : ∀ release,source.releaseDirect=some release → ∀ s,P s → P (release s).2

/-- So for a sink. -/
structure SinkKeeps (P : σ → Prop) (sink : CopySink σ) : Prop where
  /-- Buffered writes. -/
  write : ∀ write,sink.write=some write → ∀ data s,P s → P (write data s).2
  /-- Direct writes. -/
  directWrite : ∀ directWrite,sink.directWrite=some directWrite →
    ∀ window offset length s,P s → P (directWrite window offset length s).2
  /-- Flushing. -/
  flush : ∀ flush,sink.flush=some flush → ∀ s,P s → P (flush s).2

/-- So for the progress callback. -/
def OptionsKeep (P : σ → Prop) (options : CopyOptions σ) : Prop :=
  ∀ progress,options.progress=some progress → ∀ done size s,P s → P (progress done size s).2

/-- A source on the states with a property. It is never asked for more bytes than a copy can
ask for. -/
def restrictSource (source : CopySource σ) (h : SourceKeeps P source) :
    CopySource {s // P s} where
  read := source.read.pmap (fun read hread want =>
    restrict P (read (min want (2^32-1))) (hread _)) h.read
  directRead := source.directRead.pmap (fun directRead hdirect want =>
    restrict P (directRead (min want (2^32-1))) (hdirect _)) h.directRead
  releaseDirect := source.releaseDirect.pmap
    (fun release hrelease => restrict P release hrelease) h.releaseDirect
  size := source.size
  preferredBlockSize := source.preferredBlockSize
  maxBlockSize := source.maxBlockSize

/-- A sink on them. -/
def restrictSink (sink : CopySink σ) (h : SinkKeeps P sink) : CopySink {s // P s} where
  write := sink.write.pmap (fun write hwrite data => restrict P (write data) (hwrite data)) h.write
  directWrite := sink.directWrite.pmap (fun directWrite hdirect window offset length =>
    restrict P (directWrite window offset length) (hdirect window offset length)) h.directWrite
  flush := sink.flush.pmap (fun flush hflush => restrict P flush hflush) h.flush
  preferredBlockSize := sink.preferredBlockSize
  maxBlockSize := sink.maxBlockSize

/-- Options on them. -/
def restrictOptions (options : CopyOptions σ) (h : OptionsKeep P options) :
    CopyOptions {s // P s} where
  buffer := options.buffer
  bufferSize := options.bufferSize
  blockSize := options.blockSize
  progress := options.progress.pmap (fun progress hprogress done size =>
    restrict P (progress done size) (hprogress done size)) h
  flushOnFinish := options.flushOnFinish

theorem restrictSource_follows (source : CopySource σ) (h : SourceKeeps P source) :
    SourceFollows Subtype.val (restrictSource source h) source := by
  have hcap : ∀ want<2^32,min want (2^32-1)=want := fun want hwant => by omega
  cases source with
  | mk read directRead releaseDirect size preferred largest =>
    refine ⟨?_,?_,?_,rfl,rfl,rfl⟩
    · cases read with
      | none => exact .none
      | some read =>
        refine .some fun want hwant x => ?_
        change read want x.1=read (min want (2^32-1)) x.1
        rw [hcap want hwant]
    · cases directRead with
      | none => exact .none
      | some directRead =>
        refine .some fun want hwant x => ?_
        change directRead want x.1=directRead (min want (2^32-1)) x.1
        rw [hcap want hwant]
    · cases releaseDirect with
      | none => exact .none
      | some release => exact .some (restrict_follows P _ _)

theorem restrictSink_follows (sink : CopySink σ) (h : SinkKeeps P sink) :
    SinkFollows Subtype.val (restrictSink sink h) sink := by
  cases sink with
  | mk write directWrite flush preferred largest =>
    refine ⟨?_,?_,?_,rfl,rfl⟩
    · cases write with
      | none => exact .none
      | some write => exact .some fun data => restrict_follows P _ _
    · cases directWrite with
      | none => exact .none
      | some directWrite => exact .some fun window offset length => restrict_follows P _ _
    · cases flush with
      | none => exact .none
      | some flush => exact .some (restrict_follows P _ _)

theorem restrictOptions_follow (options : CopyOptions σ) (h : OptionsKeep P options) :
    OptionsFollow Subtype.val (restrictOptions options h) options := by
  cases options with
  | mk buffer bufferSize blockSize progress flushOnFinish =>
    refine ⟨rfl,rfl,rfl,?_,rfl⟩
    cases progress with
    | none => exact .none
    | some progress => exact .some fun done size => restrict_follows P _ _

/-- The restricted copy is the copy. -/
theorem restricted_follows (hsource : SourceKeeps P source) (hsink : SinkKeeps P sink)
    (hoptions : OptionsKeep P options) (fuel : ℕ) :
    Follows Subtype.val (clCopyStream (restrictSource source hsource) (restrictSink sink hsink)
      (restrictOptions options hoptions) fuel) (clCopyStream source sink options fuel) :=
  clCopyStream_follows (restrictSource_follows source hsource)
    (restrictSink_follows sink hsink) (restrictOptions_follow options hoptions) fuel

/-- A copy keeps what its callbacks keep. -/
theorem clCopyStream_keeps (hsource : SourceKeeps P source) (hsink : SinkKeeps P sink)
    (hoptions : OptionsKeep P options) (fuel : ℕ) {s : σ} (hs : P s) :
    P (clCopyStream source sink options fuel s).2 := by
  have hrun := restricted_follows hsource hsink hoptions fuel ⟨s,hs⟩
  change clCopyStream source sink options fuel s=_ at hrun
  rw [hrun]
  exact Subtype.property _

end Restriction

end ChisLink.RestrictedCopy
