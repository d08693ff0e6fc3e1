import ChisLink.CopyStream

/-!
# Direct and buffered copies

The same content is copied to the same sink with direct windows or with
buffered reads, and with direct or with plain writes. The content is cut into
the same blocks. What each way does is to feed the blocks to the sink, and the
only difference is that a window that goes through the buffer of the caller is
offered once: a sink that takes a part of it gets no second chance. So all ways
agree exactly if, at the first block that is taken in part, the sink refuses
the rest. For a sink whose answer does not depend on how the content is cut, the
same holds of copies with different windows, reads and buffers.
-/

namespace ChisLink.CopyAgreement

open DriverPrograms WireProtocol CopyStream

variable {τ : Type}

/-- A sink: what it answers to the bytes it is offered, and how many it takes. -/
structure Acceptor (τ : Type) where
  /-- Result, bytes taken and next state. -/
  accept : List UInt8 → τ → (ℤ×ℕ)×τ
  /-- It takes no more than it is offered. -/
  accept_le : ∀ data t,(accept data t).1.2≤data.length

/-- How a source cuts its content: the bytes in a window or read, from a position and the
number of bytes asked for. -/
structure Cutting where
  /-- Bytes of the next piece. -/
  size : ℕ → ℕ → ℕ
  /-- At most as many as were asked for. -/
  size_le : ∀ position want,size position want≤want
  /-- Some, if some were asked for. -/
  size_pos : ∀ position want,0<want → 0<size position want
  /-- The length of a window has thirty-two bits. -/
  size_lt : ∀ position want,size position want<2^32

/-- State of a copy: position of the source, state of the sink, bytes it has taken. -/
structure Copying (τ : Type) where
  /-- Position of the source. -/
  position : ℕ
  /-- State of the sink. -/
  sink : τ
  /-- Bytes it has taken. -/
  stored : List UInt8

/-- How the source offers its content. -/
inductive SourceMode where
  /-- Buffered reads only. -/
  | buffered
  /-- Direct windows at some positions, buffered reads elsewhere. -/
  | windows (offered : ℕ → Bool)
  /-- Direct windows only. -/
  | windowsOnly

/-- What is the same for all ways to copy. -/
structure Setting (τ : Type) where
  /-- The content. -/
  content : List UInt8
  /-- How it is cut. -/
  cutting : Cutting
  /-- The sink. -/
  acceptor : Acceptor τ
  /-- Announced size. -/
  size : UInt64
  /-- Preferred block size of the source. -/
  sourcePreferred : UInt32
  /-- Largest block size of the source. -/
  sourceMax : UInt32
  /-- Preferred block size of the sink. -/
  sinkPreferred : UInt32
  /-- Largest block size of the sink. -/
  sinkMax : UInt32
  /-- Flush of the sink. -/
  flush : Option (τ → ℤ×τ)
  /-- Whether a buffer is given. -/
  buffer : Bool
  /-- Its size. -/
  bufferSize : UInt32
  /-- Block size of the options. -/
  blockSize : UInt32
  /-- Progress callback. -/
  progress : Option (UInt64 → UInt64 → τ → ℤ×τ)
  /-- Whether the sink is flushed. -/
  flushOnFinish : Bool

/-- A callback on the state of the sink. -/
def onSink (f : τ → ℤ×τ) (s : Copying τ) : ℤ×Copying τ :=
  ((f s.sink).1,{s with sink := (f s.sink).2})

/-- The sink is offered bytes. -/
def Acceptor.take (acceptor : Acceptor τ) (data : List UInt8) (s : Copying τ) :
    (ℤ×ℕ)×Copying τ :=
  let reply := acceptor.accept data s.sink
  (reply.1,{s with sink := reply.2,stored := s.stored++data.take reply.1.2})

namespace Setting

variable (setting : Setting τ)

/-- The piece at a position. -/
def piece (position want : ℕ) : List UInt8 :=
  (setting.content.drop position).take (setting.cutting.size position want)

theorem length_piece_lt (position want : ℕ) : (setting.piece position want).length<2^32 := by
  have hlt := setting.cutting.size_lt position want
  unfold piece
  rw [List.length_take]
  omega

/-- The piece as a window. -/
def window (position want : ℕ) : DirectWindow where
  data := setting.piece position want
  length := UInt32.ofNat (setting.piece position want).length
  data_length := (UInt32.toNat_ofNat_of_lt' (setting.length_piece_lt position want)).symm
  access := .bytes

/-- Deliver the piece at the position. -/
def readPiece (want : ℕ) (s : Copying τ) : (ℤ×List UInt8)×Copying τ :=
  let data := setting.piece s.position want
  ((0,data),{s with position := s.position+data.length})

/-- Deliver the piece at the position as a window, if windows are offered there. -/
def readWindow (offered : ℕ → Bool) (want : ℕ) (s : Copying τ) :
    (ℤ×WindowReply)×Copying τ :=
  if offered s.position then
    ((0,.window (setting.window s.position want)),
      {s with position := s.position+(setting.piece s.position want).length})
  else ((0,.null 0),s)

/-- The source in one of its modes. -/
def source (mode : SourceMode) : CopySource (Copying τ) where
  read := match mode with
    | .buffered => some setting.readPiece
    | .windows _ => some setting.readPiece
    | .windowsOnly => none
  directRead := match mode with
    | .buffered => none
    | .windows offered => some (setting.readWindow offered)
    | .windowsOnly => some (setting.readWindow fun _ => true)
  releaseDirect := some fun s => (0,s)
  size := setting.size
  preferredBlockSize := setting.sourcePreferred
  maxBlockSize := setting.sourceMax

/-- The sink with direct writes or without. -/
def sink (direct : Bool) : CopySink (Copying τ) where
  write := some setting.acceptor.take
  directWrite := if direct then some fun window offset length =>
      setting.acceptor.take ((window.data.drop offset).take length)
    else none
  flush := setting.flush.map onSink
  preferredBlockSize := setting.sinkPreferred
  maxBlockSize := setting.sinkMax

/-- The options. -/
def options : CopyOptions (Copying τ) where
  buffer := setting.buffer
  bufferSize := setting.bufferSize
  blockSize := setting.blockSize
  progress := setting.progress.map fun progress done size => onSink (progress done size)
  flushOnFinish := setting.flushOnFinish

/-- Code and bytes in the sink after a copy to an empty sink in some state. -/
def copied (mode : SourceMode) (direct : Bool) (fuel : ℕ) (t : τ) : Option ℤ×List UInt8 :=
  let run := clCopyStream (setting.source mode) (setting.sink direct) setting.options fuel
    ⟨0,t,[]⟩
  (run.1,run.2.stored)

/-- The block size of all the copies. -/
def block : UInt32 :=
  chooseBlockSize (setting.source .buffered) (setting.sink false) setting.options

/-- The copy is not refused at once. -/
def Started : Prop := setting.buffer=true ∧ 4≤ setting.bufferSize ∧ 4≤ setting.block

/-- The blocks into which the content is cut from a position on. -/
def blocksFrom : ℕ → ℕ → List (List UInt8)
  | 0, _ => []
  | rounds+1, n =>
    if setting.size=0 ∨ UInt64.ofNat n<setting.size then
      let data := setting.piece n
        (wantedBytes setting.size (UInt64.ofNat n) setting.block.toNat)
      if data=[] then [] else data::blocksFrom rounds (n+data.length)
    else []

/-- The blocks of a copy. Each has a byte. -/
def blocks : List (List UInt8) := setting.blocksFrom setting.content.length 0

/-- The progress callback after a block. -/
def report (n : ℕ) (t : τ) : ℤ×τ :=
  match setting.progress with
  | some progress => progress (UInt64.ofNat n) setting.size t
  | none => (0,t)

/-- The end of a copy. -/
def finish (n : ℕ) (t : τ) : ℤ :=
  if setting.size≠0 ∧ UInt64.ofNat n≠setting.size then -6
  else if setting.flushOnFinish then
    match setting.flush with
    | some flush => (flush t).1
    | none => 0
  else 0

end Setting

/-- Feed a block to the sink until it has taken all of it, or once. -/
def feedBlock (acceptor : Acceptor τ) (once : Bool) :
    ℕ → List UInt8 → τ → ℤ×List UInt8×τ
  | 0, _, t => (0,[],t)
  | rounds+1, data, t =>
    if data=[] then (0,[],t)
    else
      let reply := acceptor.accept data t
      let taken := data.take reply.1.2
      if reply.1.1<0 then (reply.1.1,taken,reply.2)
      else if once=true ∧ reply.1.2≠data.length then (-3,taken,reply.2)
      else if reply.1.2=0 then (-3,taken,reply.2)
      else
        let rest := feedBlock acceptor once rounds (data.drop reply.1.2) reply.2
        (rest.1,taken++rest.2.1,rest.2.2)

/-- Feed blocks from a position on: code and bytes taken. Blocks at some positions are
offered once. -/
def feed (setting : Setting τ) (once : ℕ → Bool) :
    List (List UInt8) → ℕ → τ → ℤ×List UInt8
  | [], n, t => (setting.finish n t,[])
  | data::blocks, n, t =>
    let reply := feedBlock setting.acceptor (once n) data.length data t
    if reply.1<0 then (reply.1,reply.2.1)
    else
      let reported := setting.report (n+data.length) reply.2.2
      if reported.1<0 then (reported.1,reply.2.1)
      else
        let rest := feed setting once blocks (n+data.length) reported.2
        (rest.1,reply.2.1++rest.2)

/-- The sink takes nothing more of some bytes, and says so as the copy does. -/
def Refused (acceptor : Acceptor τ) (data : List UInt8) (t : τ) : Prop :=
  (acceptor.accept data t).1.2=0 ∧
    (0≤(acceptor.accept data t).1.1 ∨ (acceptor.accept data t).1.1=-3)

/-- At the first block that the sink takes in part it refuses the rest. -/
def Steady (setting : Setting τ) : List (List UInt8) → ℕ → τ → Prop
  | [], _, _ => True
  | data::blocks, n, t =>
    let reply := setting.acceptor.accept data t
    if reply.1.1<0 ∨ reply.1.2=0 then True
    else if reply.1.2=data.length then
      let reported := setting.report (n+data.length) reply.2
      0≤ reported.1 → Steady setting blocks (n+data.length) reported.2
    else Refused setting.acceptor (data.drop reply.1.2) reply.2

section Feeding

variable {acceptor : Acceptor τ} {setting : Setting τ} {data : List UInt8} {t : τ}

@[simp] theorem feedBlock_nil (once : Bool) (rounds : ℕ) (t : τ) :
    feedBlock acceptor once rounds [] t=(0,[],t) := by
  cases rounds with
  | zero => rfl
  | succ rounds => exact if_pos rfl

/-- A block that is taken at the first offer. -/
theorem feedBlock_whole (once : Bool) (hdata : data≠[])
    (hok : 0≤(acceptor.accept data t).1.1)
    (hall : (acceptor.accept data t).1.2=data.length) :
    feedBlock acceptor once data.length data t=(0,data,(acceptor.accept data t).2) := by
  have hpos := List.length_pos_iff.mpr hdata
  obtain ⟨rounds,hrounds⟩ : ∃ rounds,data.length=rounds+1 := ⟨data.length-1,by omega⟩
  have hnegative : ¬(acceptor.accept data t).1.1<0 := by omega
  have hshort : ¬(once=true ∧ (acceptor.accept data t).1.2≠data.length) :=
    fun h => h.2 hall
  have hzero : ¬(acceptor.accept data t).1.2=0 := by omega
  have hstep : feedBlock acceptor once (rounds+1) data t=
      (0,data++[],(acceptor.accept data t).2) := by
    rw [feedBlock,if_neg hdata]
    dsimp only
    rw [if_neg hnegative,if_neg hshort,if_neg hzero,hall,List.drop_length,List.take_length,
      feedBlock_nil]
  rw [hrounds,hstep,List.append_nil]

/-- A block that the sink fails on, or takes nothing of. -/
theorem feedBlock_over (once : Bool) (hdata : data≠[])
    (hover : (acceptor.accept data t).1.1<0 ∨ (acceptor.accept data t).1.2=0) :
    (feedBlock acceptor once data.length data t).1<0 ∧
      feedBlock acceptor once data.length data t=
        feedBlock acceptor false data.length data t := by
  have hpos := List.length_pos_iff.mpr hdata
  obtain ⟨rounds,hrounds⟩ : ∃ rounds,data.length=rounds+1 := ⟨data.length-1,by omega⟩
  have hone : ∀ once',feedBlock acceptor once' (rounds+1) data t=
      if (acceptor.accept data t).1.1<0 then ((acceptor.accept data t).1.1,
        data.take (acceptor.accept data t).1.2,(acceptor.accept data t).2)
      else (-3,data.take (acceptor.accept data t).1.2,(acceptor.accept data t).2) := by
    intro once'
    rw [feedBlock,if_neg hdata]
    dsimp only
    by_cases hnegative : (acceptor.accept data t).1.1<0
    · rw [if_pos hnegative,if_pos hnegative]
    · have hzero := hover.resolve_left hnegative
      rw [if_neg hnegative,if_neg hnegative,if_pos hzero]
      exact ite_self _
  rw [hrounds,hone once,hone false]
  refine ⟨?_,rfl⟩
  split
  · assumption
  · show (-3 : ℤ)<0
    omega

/-- A block of which a part is taken, when it is offered once. -/
theorem feedBlock_once (hok : 0≤(acceptor.accept data t).1.1)
    (hpart : (acceptor.accept data t).1.2≠data.length) :
    feedBlock acceptor true data.length data t=
      (-3,data.take (acceptor.accept data t).1.2,(acceptor.accept data t).2) := by
  have hle := acceptor.accept_le data t
  obtain ⟨rounds,hrounds⟩ : ∃ rounds,data.length=rounds+1 := ⟨data.length-1,by omega⟩
  have hdata : data≠[] := List.ne_nil_of_length_pos (by omega)
  have hnegative : ¬(acceptor.accept data t).1.1<0 := by omega
  rw [hrounds,feedBlock,if_neg hdata]
  dsimp only
  rw [if_neg hnegative,if_pos ⟨rfl,hpart⟩]

/-- A block of which a part is taken, when the rest is offered again. -/
theorem feedBlock_again (hok : 0≤(acceptor.accept data t).1.1)
    (hsome : (acceptor.accept data t).1.2≠0) (rounds : ℕ) (hdata : data≠[]) :
    feedBlock acceptor false (rounds+1) data t=
      let rest := feedBlock acceptor false rounds
        (data.drop (acceptor.accept data t).1.2) (acceptor.accept data t).2
      (rest.1,data.take (acceptor.accept data t).1.2++rest.2.1,rest.2.2) := by
  have hnegative : ¬(acceptor.accept data t).1.1<0 := by omega
  rw [feedBlock,if_neg hdata]
  dsimp only
  rw [if_neg hnegative,if_neg (fun h => Bool.false_ne_true h.1),if_neg hsome]

/-- Fed to a sink that takes nothing more and says so, the rest gives the code of a block
that is offered once, and only then. -/
theorem feedBlock_refused_iff {rounds : ℕ} (hrounds : data.length≤ rounds) (hdata : data≠[]) :
    ((feedBlock acceptor false rounds data t).1=-3 ∧
      (feedBlock acceptor false rounds data t).2.1=[]) ↔ Refused acceptor data t := by
  have hpos := List.length_pos_iff.mpr hdata
  have hle := acceptor.accept_le data t
  have htaken : data.take (acceptor.accept data t).1.2=[] ↔
      (acceptor.accept data t).1.2=0 := by
    rw [← List.length_eq_zero_iff,List.length_take]
    omega
  obtain ⟨rounds,rfl⟩ : ∃ rounds',rounds=rounds'+1 := ⟨rounds-1,by omega⟩
  unfold Refused
  by_cases hnegative : (acceptor.accept data t).1.1<0
  · rw [feedBlock,if_neg hdata]
    dsimp only
    rw [if_pos hnegative]
    dsimp only
    rw [htaken]
    omega
  · by_cases hsome : (acceptor.accept data t).1.2=0
    · rw [feedBlock,if_neg hdata]
      dsimp only
      rw [if_neg hnegative,if_neg (fun h => Bool.false_ne_true h.1),if_pos hsome]
      dsimp only
      rw [htaken]
      omega
    · rw [feedBlock_again (by omega) hsome rounds hdata]
      dsimp only
      rw [List.append_eq_nil_iff,htaken]
      exact ⟨fun h => absurd h.2.1 hsome,fun h => absurd h.1 hsome⟩

/-- Unless the copy is over with it, all of a block is taken. -/
theorem feedBlock_all (once : Bool) {rounds : ℕ} (hrounds : data.length≤ rounds)
    (hok : 0≤(feedBlock acceptor once rounds data t).1) :
    (feedBlock acceptor once rounds data t).2.1=data := by
  induction rounds generalizing data t with
  | zero =>
    have hnil : data=[] := List.length_eq_zero_iff.mp (by omega)
    rw [hnil,feedBlock_nil]
  | succ rounds ih =>
    by_cases hdata : data=[]
    · rw [hdata,feedBlock_nil]
    · rw [feedBlock,if_neg hdata] at hok ⊢
      dsimp only at hok ⊢
      split_ifs at hok ⊢ with hnegative hshort hzero
      · exact absurd hok (by omega)
      · exact absurd hok (by omega)
      · exact absurd hok (by omega)
      · have hlength : (data.drop (acceptor.accept data t).1.2).length≤ rounds := by
          rw [List.length_drop]
          omega
        rw [ih hlength hok,List.take_append_drop]

/-- Feeding on after a block that was taken at the first offer. -/
theorem feed_whole (once : ℕ → Bool) (blocks : List (List UInt8)) (n : ℕ) (hdata : data≠[])
    (hok : 0≤(setting.acceptor.accept data t).1.1)
    (hall : (setting.acceptor.accept data t).1.2=data.length) :
    feed setting once (data::blocks) n t=
      let reported := setting.report (n+data.length) (setting.acceptor.accept data t).2
      if reported.1<0 then (reported.1,data)
      else
        let rest := feed setting once blocks (n+data.length) reported.2
        (rest.1,data++rest.2) := by
  rw [feed,feedBlock_whole (once n) hdata hok hall]
  exact if_neg (Int.lt_irrefl 0)

/-- The copy is over with a block. -/
theorem feed_over (once : ℕ → Bool) (blocks : List (List UInt8)) (n : ℕ)
    (hover : (feedBlock setting.acceptor (once n) data.length data t).1<0) :
    feed setting once (data::blocks) n t=
      ((feedBlock setting.acceptor (once n) data.length data t).1,
        (feedBlock setting.acceptor (once n) data.length data t).2.1) :=
  if_pos hover

/-- Feeding a block that is taken in part and then refused. -/
theorem feed_refused (once : ℕ → Bool) (blocks : List (List UInt8)) (n : ℕ)
    (hok : 0≤(setting.acceptor.accept data t).1.1)
    (hsome : (setting.acceptor.accept data t).1.2≠0)
    (hpart : (setting.acceptor.accept data t).1.2≠data.length) :
    (once n=true → feed setting once (data::blocks) n t=
      (-3,data.take (setting.acceptor.accept data t).1.2)) ∧
    (once n=false →
      (feed setting once (data::blocks) n t=
          (-3,data.take (setting.acceptor.accept data t).1.2) ↔
        Refused setting.acceptor (data.drop (setting.acceptor.accept data t).1.2)
          (setting.acceptor.accept data t).2)) := by
  have hle := setting.acceptor.accept_le data t
  obtain ⟨rounds,hrounds⟩ : ∃ rounds,data.length=rounds+1 := ⟨data.length-1,by omega⟩
  have hdata : data≠[] := List.ne_nil_of_length_pos (by omega)
  have hdrop : data.drop (setting.acceptor.accept data t).1.2≠[] := by
    rw [← List.length_pos_iff,List.length_drop]
    omega
  have hlength : (data.drop (setting.acceptor.accept data t).1.2).length≤ rounds := by
    rw [List.length_drop]
    omega
  have hrefused := @feedBlock_refused_iff τ setting.acceptor
    (data.drop (setting.acceptor.accept data t).1.2)
    (setting.acceptor.accept data t).2 rounds hlength hdrop
  constructor
  · intro honce
    have hblock := feedBlock_once hok hpart
    rw [← honce] at hblock
    have hover : (feedBlock setting.acceptor (once n) data.length data t).1<0 := by
      rw [hblock]
      show (-3 : ℤ)<0
      omega
    rw [feed_over once blocks n hover,hblock]
  · intro honce
    have hblock := feedBlock_again hok hsome rounds hdata
    rw [← hrounds,← honce] at hblock
    constructor
    · -- more bytes or another code tell the copies apart
      intro hfeed
      by_cases hover : (feedBlock setting.acceptor (once n) data.length data t).1<0
      · rw [feed_over once blocks n hover,hblock,Prod.mk.injEq] at hfeed
        rw [← hrefused,← honce]
        exact ⟨hfeed.1,List.append_right_eq_self.mp hfeed.2⟩
      · have hall := feedBlock_all (once n) (le_refl data.length) (not_lt.mp hover)
        have hlong : data.length≤(feed setting once (data::blocks) n t).2.length := by
          rw [feed]
          dsimp only
          rw [if_neg hover,hall]
          split
          · exact le_refl _
          · rw [List.length_append]
            omega
        rw [hfeed,List.length_take] at hlong
        omega
    · intro h
      obtain ⟨hcode,hnone⟩ := hrefused.mpr h
      rw [honce] at hblock
      dsimp only at hblock
      rw [hcode,hnone,List.append_nil] at hblock
      have hover : (feedBlock setting.acceptor (once n) data.length data t).1<0 := by
        rw [honce,hblock]
        show (-3 : ℤ)<0
        omega
      rw [feed_over once blocks n hover,honce,hblock]

/-- If the sink is steady, it makes no difference which blocks are offered once. -/
theorem feed_eq_of_steady {blocks : List (List UInt8)} (hblocks : ∀ data∈blocks,data≠[])
    (once : ℕ → Bool) {n : ℕ} (h : Steady setting blocks n t) :
    feed setting once blocks n t=feed setting (fun _ => false) blocks n t := by
  induction blocks generalizing n t with
  | nil => rfl
  | cons data blocks ih =>
    have hdata := hblocks data List.mem_cons_self
    have hrest : ∀ d∈blocks,d≠[] := fun d hd => hblocks d (List.mem_cons_of_mem _ hd)
    unfold Steady at h
    dsimp only at h
    by_cases hover : (setting.acceptor.accept data t).1.1<0 ∨
        (setting.acceptor.accept data t).1.2=0
    · have hsame := feedBlock_over (once n) hdata hover
      have hfalse := feedBlock_over false hdata hover
      rw [feed_over once blocks n hsame.1,feed_over _ blocks n hfalse.1,hsame.2]
    · rw [if_neg hover] at h
      push Not at hover
      by_cases hall : (setting.acceptor.accept data t).1.2=data.length
      · rw [if_pos hall] at h
        rw [feed_whole once blocks n hdata hover.1 hall,feed_whole _ blocks n hdata hover.1 hall]
        dsimp only
        by_cases hreported : (setting.report (n+data.length)
            (setting.acceptor.accept data t).2).1<0
        · rw [if_pos hreported,if_pos hreported]
        · rw [if_neg hreported,if_neg hreported,ih hrest (h (by omega))]
      · rw [if_neg hall] at h
        have hagain := ((@feed_refused τ setting data t (fun _ => false) blocks n hover.1
          hover.2 hall).2 rfl).mpr h
        obtain ⟨honce,hmore⟩ := @feed_refused τ setting data t once blocks n hover.1 hover.2
          hall
        rw [hagain]
        cases hn : once n with
        | true => exact honce hn
        | false => exact (hmore hn).mpr h

/-- If it makes no difference whether all blocks are offered once, the sink is steady. -/
theorem steady_of_feed_eq {blocks : List (List UInt8)} (hblocks : ∀ data∈blocks,data≠[])
    {n : ℕ} (h : feed setting (fun _ => true) blocks n t=
      feed setting (fun _ => false) blocks n t) : Steady setting blocks n t := by
  induction blocks generalizing n t with
  | nil => trivial
  | cons data blocks ih =>
    have hdata := hblocks data List.mem_cons_self
    have hrest : ∀ d∈blocks,d≠[] := fun d hd => hblocks d (List.mem_cons_of_mem _ hd)
    unfold Steady
    dsimp only
    split
    · trivial
    next hover =>
      push Not at hover
      split
      next hall =>
        intro hreported
        rw [feed_whole _ blocks n hdata hover.1 hall,feed_whole _ blocks n hdata hover.1 hall]
          at h
        dsimp only at h
        rw [if_neg (by omega),if_neg (by omega),Prod.mk.injEq] at h
        refine ih hrest (Prod.ext h.1 ?_)
        exact List.append_cancel_left h.2
      next hall =>
        have honce := (@feed_refused τ setting data t (fun _ => true) blocks n hover.1 hover.2
          hall).1 rfl
        rw [honce] at h
        exact ((@feed_refused τ setting data t (fun _ => false) blocks n hover.1 hover.2
          hall).2 rfl).mp h.symm

end Feeding

section Ways

variable (setting : Setting τ) (mode : SourceMode) (direct : Bool)

/-- Whether a block at a position goes through the buffer as a window. -/
def onceAt (n : ℕ) : Bool :=
  match mode with
  | .buffered => false
  | .windows offered => offered n && !direct
  | .windowsOnly => !direct

/-- Whether a block is a window. -/
def isWindow : Block → Bool
  | .window _ => true
  | .buffered _ => false

/-- The block that the source gives for a piece. -/
def blockAt (n want : ℕ) : Block :=
  match mode with
  | .buffered => .buffered (setting.piece n want)
  | .windows offered =>
    if offered n then .window (setting.window n want) else .buffered (setting.piece n want)
  | .windowsOnly => .window (setting.window n want)

theorem bytes_blockAt (n want : ℕ) :
    (blockAt setting mode n want).bytes=setting.piece n want := by
  cases mode with
  | buffered => rfl
  | windows offered => cases h : offered n <;> simp [blockAt,h,Block.bytes,Setting.window]
  | windowsOnly => rfl

theorem isWindow_blockAt (n want : ℕ) :
    (isWindow (blockAt setting mode n want) && !direct)=onceAt mode direct n := by
  cases mode with
  | buffered => rfl
  | windows offered => cases h : offered n <;> simp [blockAt,h,isWindow,onceAt]
  | windowsOnly => rfl

theorem length_piece_le (n want : ℕ) : (setting.piece n want).length≤want := by
  have hle := setting.cutting.size_le n want
  unfold Setting.piece
  rw [List.length_take]
  omega

/-- The state after a piece was delivered. -/
def Copying.past (s : Copying τ) (data : List UInt8) : Copying τ :=
  {s with position := s.position+data.length}

/-- Taking a window where one is offered. -/
theorem takeWindow_offered {offered : ℕ → Bool} {want : ℕ} {s : Copying τ}
    (hsource : (setting.source mode).directRead=some (setting.readWindow offered))
    (hoffered : offered s.position=true) :
    takeWindow (setting.source mode) want s=
      if setting.piece s.position want=[] then (some (.ok none),s)
      else (some (.ok (some (.window (setting.window s.position want)))),
        s.past (setting.piece s.position want)) := by
  have hle := length_piece_le setting s.position want
  have hlength : (setting.window s.position want).length.toNat=
      (setting.piece s.position want).length := (setting.window s.position want).data_length.symm
  have hread : setting.readWindow offered want s=
      ((0,.window (setting.window s.position want)),
        s.past (setting.piece s.position want)) := if_pos hoffered
  have hzero : (setting.window s.position want).length=0 ↔
      setting.piece s.position want=[] := by
    rw [← UInt32.toNat_inj,hlength,← List.length_eq_zero_iff]
    rfl
  unfold takeWindow
  rw [hsource]
  dsimp only
  rw [bind_run (b := (0,.window (setting.window s.position want)))
    (t := s.past (setting.piece s.position want))]
  · dsimp only
    rw [if_neg (Int.lt_irrefl 0),if_neg (by omega)]
    by_cases hnil : setting.piece s.position want=[]
    · rw [if_pos hnil,if_pos (hzero.mpr hnil),hnil]
      rfl
    · rw [if_neg hnil,if_neg (fun h => hnil (hzero.mp h))]
      rfl
  · show (some (setting.readWindow offered want s).1,(setting.readWindow offered want s).2)=_
    rw [hread]

/-- A buffered read. -/
theorem takeBuffered_run {want : ℕ} {s : Copying τ}
    (hsource : (setting.source mode).read=some setting.readPiece) :
    takeBuffered (setting.source mode) want s=
      if setting.piece s.position want=[] then (some (.ok none),s)
      else (some (.ok (some (.buffered (setting.piece s.position want)))),
        s.past (setting.piece s.position want)) := by
  unfold takeBuffered
  rw [hsource]
  have hrun : ∀ f : ℤ×List UInt8 → Prog (Copying τ) (Except ℤ (Option Block)),
      (access (setting.readPiece want) >>= f) s=
        f (0,setting.piece s.position want) (s.past (setting.piece s.position want)) :=
    fun f => rfl
  dsimp only
  rw [hrun,if_neg (Int.lt_irrefl 0)]
  dsimp only
  by_cases hnil : setting.piece s.position want=[]
  · rw [if_pos hnil,if_pos hnil,hnil]
    rfl
  · rw [if_neg hnil,if_neg hnil]
    rfl

/-- The next block, or none at the end of the content. -/
theorem takeBlock_run (want : ℕ) (s : Copying τ) :
    takeBlock (setting.source mode) want s=
      if setting.piece s.position want=[] then (some (.ok none),s)
      else (some (.ok (some (blockAt setting mode s.position want))),
        s.past (setting.piece s.position want)) := by
  have hnone : takeWindow (setting.source mode) want s=(some (.ok none),s) →
      takeBlock (setting.source mode) want s=takeBuffered (setting.source mode) want s :=
    fun h => bind_run h
  have hsome : ∀ {block t},
      takeWindow (setting.source mode) want s=(some (.ok (some block)),t) →
      takeBlock (setting.source mode) want s=(some (.ok (some block)),t) :=
    fun h => bind_run h
  cases mode with
  | buffered =>
    rw [hnone rfl,takeBuffered_run setting .buffered rfl]
    rfl
  | windows offered =>
    cases hoffered : offered s.position with
    | false =>
      have hwindow : takeWindow (setting.source (.windows offered)) want s=
          (some (.ok none),s) := by
        have hread : setting.readWindow offered want s=((0,.null 0),s) :=
          if_neg (by rw [hoffered]; exact Bool.false_ne_true)
        unfold takeWindow
        refine (bind_run (b := (0,.null 0)) (t := s) ?_).trans rfl
        show (some (setting.readWindow offered want s).1,
          (setting.readWindow offered want s).2)=_
        rw [hread]
      rw [hnone hwindow,takeBuffered_run setting (.windows offered) rfl]
      simp only [blockAt,hoffered,Bool.false_eq_true,if_false]
    | true =>
      have hwindow := @takeWindow_offered τ setting (.windows offered) offered want s rfl
        hoffered
      by_cases hnil : setting.piece s.position want=[]
      · rw [if_pos hnil] at hwindow
        rw [hnone hwindow,takeBuffered_run setting (.windows offered) rfl,if_pos hnil,
          if_pos hnil]
      · rw [if_neg hnil] at hwindow
        rw [hsome hwindow,if_neg hnil]
        simp only [blockAt,hoffered,if_true]
  | windowsOnly =>
    have hwindow := @takeWindow_offered τ setting .windowsOnly (fun _ => true) want s rfl rfl
    by_cases hnil : setting.piece s.position want=[]
    · rw [if_pos hnil] at hwindow
      rw [hnone hwindow,if_pos hnil]
      rfl
    · rw [if_neg hnil] at hwindow
      rw [hsome hwindow,if_neg hnil]
      rfl

/-- The state after the sink was offered a block. -/
def Copying.fed (s : Copying τ) (reply : ℤ×List UInt8×τ) : Copying τ :=
  {s with sink := reply.2.2,stored := s.stored++reply.2.1}

/-- Offering the rest of a block. A window that goes through the buffer is offered once. -/
theorem offer_run {blockSize : ℕ} {block : Block} (hblock : block.got≤blockSize) (total : ℕ)
    (s : Copying τ) :
    offer (setting.sink direct) setting.acceptor.take blockSize total block s=
      let data := block.bytes.drop total
      let reply := setting.acceptor.take data s
      (some (if (isWindow block && !direct)=true ∧ 0≤ reply.1.1 ∧ reply.1.2≠data.length
        then (-3,reply.1.2) else reply.1),reply.2) := by
  cases block with
  | buffered data => rfl
  | window window =>
    have hlength := window.data_length
    have hgot : window.length.toNat=(Block.window window).got := rfl
    have hrest : (window.data.drop total).length=window.length.toNat-total := by
      rw [List.length_drop]
      omega
    have htake : (window.data.drop total).take (window.length.toNat-total)=
        window.data.drop total := List.take_of_length_le (by omega)
    cases direct with
    | true =>
      show (some (setting.acceptor.take
        ((window.data.drop total).take (window.length.toNat-total)) s).1,
        (setting.acceptor.take
          ((window.data.drop total).take (window.length.toNat-total)) s).2)=_
      rw [htake]
      rfl
    | false =>
      have hmin : min (window.length.toNat-total) blockSize=window.length.toNat-total := by
        omega
      show writeCopied setting.acceptor.take window total
        (min (window.length.toNat-total) blockSize) s=_
      rw [hmin]
      unfold writeCopied
      by_cases htotal : total≤window.length.toNat
      · rw [map_clDirectWindowReadByte window (by omega),htake,← hrest]
        simp only [isWindow,Bool.not_false,Bool.and_true,true_and]
        rfl
      · have hnone : window.length.toNat-total=0 := by omega
        have hnil : window.data.drop total=[] := List.drop_eq_nil_of_le (by omega)
        have hbytes : (Block.window window).bytes=window.data := rfl
        simp only [hnone,isWindow,Bool.not_false,Bool.and_true,true_and,hbytes,hnil]
        rfl

/-- The source takes its windows back without a change. -/
theorem releaseBlock_run (block : Block) (s : Copying τ) :
    releaseBlock (setting.source mode) block s=(some 0,s) := by
  cases block with
  | window window => rfl
  | buffered data => rfl

/-- The inner loop feeds the block to the sink. -/
theorem writeBlock_run {blockSize : ℕ} {block : Block} (hblock : block.got≤blockSize)
    (rounds : ℕ) {total : ℕ} (s : Copying τ) :
    writeBlock (setting.source mode) (setting.sink direct) setting.acceptor.take blockSize
        block rounds total s=
      let reply := feedBlock setting.acceptor (isWindow block && !direct) rounds
        (block.bytes.drop total) s.sink
      (some reply.1,s.fed reply) := by
  have hlength := block.length_bytes
  have hkeep : ∀ u : Copying τ,u.fed (0,[],u.sink)=u := by
    intro u
    unfold Copying.fed
    rw [List.append_nil]
  induction rounds generalizing total s with
  | zero =>
    show (some (0 : ℤ),s)=(some 0,s.fed (0,[],s.sink))
    rw [hkeep]
  | succ rounds ih =>
    unfold writeBlock feedBlock
    by_cases hmore : total<block.got
    · have hdata : block.bytes.drop total≠[] := by
        rw [← List.length_pos_iff,List.length_drop]
        omega
      rw [if_pos hmore,if_neg hdata,bind_run (offer_run setting direct hblock total s)]
      have hstop : ∀ (ret : ℤ) (u : Copying τ),
          (releaseBlock (setting.source mode) block >>= fun _ => pure ret) u=(some ret,u) :=
        fun ret u => bind_run (releaseBlock_run setting mode block u)
      rcases hreply : setting.acceptor.accept (block.bytes.drop total) s.sink with
        ⟨⟨ret,count⟩,t⟩
      have htake : setting.acceptor.take (block.bytes.drop total) s=((ret,count),
          {s with sink := t,stored := s.stored++(block.bytes.drop total).take count}) := by
        unfold Acceptor.take
        rw [hreply]
      rw [htake]
      dsimp only
      by_cases hnegative : ret<0
      · have hno : ¬((isWindow block && !direct)=true ∧ 0≤ ret ∧
            count≠(block.bytes.drop total).length) := fun h => by omega
        rw [if_neg hno,if_pos hnegative]
        dsimp only
        rw [if_pos hnegative,hstop]
        rfl
      · rw [if_neg hnegative]
        by_cases hshort : (isWindow block && !direct)=true ∧
            count≠(block.bytes.drop total).length
        · have hyes : (isWindow block && !direct)=true ∧ 0≤ ret ∧
              count≠(block.bytes.drop total).length := ⟨hshort.1,by omega,hshort.2⟩
          have hthree : (-3 : ℤ)<0 := by omega
          rw [if_pos hshort,if_pos hyes]
          dsimp only
          rw [if_pos hthree,hstop]
          rfl
        · have hno : ¬((isWindow block && !direct)=true ∧ 0≤ ret ∧
              count≠(block.bytes.drop total).length) := fun h => hshort ⟨h.1,h.2.2⟩
          rw [if_neg hshort,if_neg hno]
          dsimp only
          rw [if_neg hnegative]
          by_cases hzero : count=0
          · rw [if_pos hzero,if_pos hzero,hstop]
            rfl
          · rw [if_neg hzero,if_neg hzero,ih,List.drop_drop]
            unfold Copying.fed
            dsimp only
            rw [List.append_assoc]
    · have hdata : block.bytes.drop total=[] := List.drop_eq_nil_of_le (by omega)
      rw [if_neg hmore,if_pos hdata]
      show (some (0 : ℤ),s)=(some 0,s.fed (0,[],s.sink))
      rw [hkeep]

/-- One block of a copy. -/
theorem copyBlock_run {blockSize : ℕ} {block : Block} (hblock : block.got≤blockSize) (n : ℕ)
    (s : Copying τ) :
    copyBlock (setting.source mode) (setting.sink direct) setting.options
        setting.acceptor.take blockSize block (UInt64.ofNat n) s=
      let reply := feedBlock setting.acceptor (isWindow block && !direct) block.bytes.length
        block.bytes s.sink
      if reply.1<0 then (some reply.1,s.fed reply)
      else
        let reported := setting.report (n+block.bytes.length) reply.2.2
        (some reported.1,{s.fed reply with sink := reported.2}) := by
  have hwrite := @writeBlock_run τ setting mode direct blockSize block hblock block.got 0 s
  rw [List.drop_zero,← block.length_bytes] at hwrite
  unfold copyBlock
  rw [← block.length_bytes,bind_run hwrite]
  dsimp only
  rcases feedBlock setting.acceptor (isWindow block && !direct) block.bytes.length
    block.bytes s.sink with ⟨ret,taken,t⟩
  dsimp only
  by_cases hnegative : ret<0
  · rw [if_pos hnegative,if_pos hnegative]
    rfl
  · rw [if_neg hnegative,if_neg hnegative,
      bind_run (releaseBlock_run setting mode block _),if_neg (Int.lt_irrefl 0),
      ← UInt64.ofNat_add]
    unfold reportProgress callOptional Setting.report Setting.options
    cases setting.progress with
    | none => rfl
    | some progress => rfl

/-- The end of a copy leaves the bytes in the sink. -/
theorem finishCopy_run (n : ℕ) (s : Copying τ) :
    ∃ t,finishCopy (setting.source mode) (setting.sink direct) setting.options
        (UInt64.ofNat n) s=(some (setting.finish n s.sink),t) ∧ t.stored=s.stored := by
  have hsize : (setting.source mode).size=setting.size := rfl
  unfold finishCopy Setting.finish
  rw [hsize]
  split
  · exact ⟨s,rfl,rfl⟩
  · have hflush : setting.options.flushOnFinish=setting.flushOnFinish := rfl
    rw [hflush]
    split
    · unfold callOptional Setting.sink
      cases setting.flush with
      | none => exact ⟨s,rfl,rfl⟩
      | some flush => exact ⟨_,rfl,rfl⟩
    · exact ⟨s,rfl,rfl⟩

/-- The loop ends where the source has nothing more, or as much as was announced. -/
theorem copyBlocks_over {rounds fuel n : ℕ} (hfuel : rounds<fuel) (s : Copying τ)
    (hs : s.position=n) (hblocks : setting.blocksFrom rounds n=[])
    (hend : setting.size=0 ∨ UInt64.ofNat n<setting.size → setting.piece n
      (wantedBytes setting.size (UInt64.ofNat n) setting.block.toNat)=[]) :
    ∃ t,copyBlocks (setting.source mode) (setting.sink direct) setting.options
        setting.acceptor.take setting.block.toNat fuel (UInt64.ofNat n) s=
        (some (feed setting (onceAt mode direct) (setting.blocksFrom rounds n) n s.sink).1,t) ∧
      t.stored=s.stored++
        (feed setting (onceAt mode direct) (setting.blocksFrom rounds n) n s.sink).2 := by
  obtain ⟨fuel,rfl⟩ : ∃ fuel',fuel=fuel'+1 := ⟨fuel-1,by omega⟩
  have hsize : (setting.source mode).size=setting.size := rfl
  obtain ⟨t,hrun,hstored⟩ := finishCopy_run setting mode direct n s
  refine ⟨t,?_,?_⟩
  · rw [hblocks]
    unfold copyBlocks
    rw [hsize]
    by_cases hmore : setting.size=0 ∨ UInt64.ofNat n<setting.size
    · have htake := takeBlock_run setting mode
        (wantedBytes setting.size (UInt64.ofNat n) setting.block.toNat) s
      rw [hs,if_pos (hend hmore)] at htake
      rw [if_pos hmore,bind_run htake]
      exact hrun
    · rw [if_neg hmore]
      exact hrun
  · rw [hblocks,hstored]
    exact (List.append_nil _).symm

/-- The outer loop feeds the blocks to the sink. -/
theorem copyBlocks_run (rounds : ℕ) {fuel n : ℕ} (hfuel : rounds<fuel)
    (hrounds : setting.content.length≤n+rounds) (s : Copying τ) (hs : s.position=n) :
    ∃ t,copyBlocks (setting.source mode) (setting.sink direct) setting.options
        setting.acceptor.take setting.block.toNat fuel (UInt64.ofNat n) s=
        (some (feed setting (onceAt mode direct) (setting.blocksFrom rounds n) n s.sink).1,t) ∧
      t.stored=s.stored++
        (feed setting (onceAt mode direct) (setting.blocksFrom rounds n) n s.sink).2 := by
  induction rounds generalizing fuel n s with
  | zero =>
    refine copyBlocks_over setting mode direct hfuel s hs rfl fun _ => ?_
    unfold Setting.piece
    rw [List.drop_eq_nil_of_le (by omega),List.take_nil]
  | succ rounds ih =>
    by_cases hmore : setting.size=0 ∨ UInt64.ofNat n<setting.size
    · by_cases hnil : setting.piece n
          (wantedBytes setting.size (UInt64.ofNat n) setting.block.toNat)=[]
      · refine copyBlocks_over setting mode direct hfuel s hs ?_ fun _ => hnil
        rw [Setting.blocksFrom,if_pos hmore]
        exact if_pos hnil
      · obtain ⟨fuel,rfl⟩ : ∃ fuel',fuel=fuel'+1 := ⟨fuel-1,by omega⟩
        have hsize : (setting.source mode).size=setting.size := rfl
        have hwant : wantedBytes setting.size (UInt64.ofNat n) setting.block.toNat≤
            setting.block.toNat := by
          unfold wantedBytes
          split
          · exact Nat.min_le_right _ _
          · exact le_refl _
        have htake := takeBlock_run setting mode
          (wantedBytes setting.size (UInt64.ofNat n) setting.block.toNat) s
        rw [hs,if_neg hnil] at htake
        generalize hdata : setting.piece n
          (wantedBytes setting.size (UInt64.ofNat n) setting.block.toNat)=data
          at hnil htake
        have hblocks : setting.blocksFrom (rounds+1) n=
            data::setting.blocksFrom rounds (n+data.length) := by
          rw [Setting.blocksFrom,if_pos hmore,hdata]
          exact if_neg hnil
        have hbytes := bytes_blockAt setting mode n
          (wantedBytes setting.size (UInt64.ofNat n) setting.block.toNat)
        have honce := isWindow_blockAt setting mode direct n
          (wantedBytes setting.size (UInt64.ofNat n) setting.block.toNat)
        generalize blockAt setting mode n
          (wantedBytes setting.size (UInt64.ofNat n) setting.block.toNat)=block
          at htake hbytes honce
        rw [hdata] at hbytes
        have hgot : block.got=data.length := by rw [← block.length_bytes,hbytes]
        have hle : data.length≤wantedBytes setting.size (UInt64.ofNat n)
            setting.block.toNat := by
          rw [← hdata]
          exact length_piece_le setting n _
        have hpos := List.length_pos_iff.mpr hnil
        have hroom : block.got≤ setting.block.toNat := by omega
        have hcopy := copyBlock_run setting mode direct hroom n (s.past data)
        have hsink : (s.past data).sink=s.sink := rfl
        rw [hbytes,honce,hsink] at hcopy
        rw [hblocks]
        unfold copyBlocks feed
        rw [hsize,if_pos hmore,bind_run htake]
        dsimp only at hcopy ⊢
        generalize feedBlock setting.acceptor (onceAt mode direct n) data.length data s.sink=
          reply at hcopy ⊢
        by_cases hover : reply.1<0
        · rw [if_pos hover] at hcopy
          rw [bind_run hcopy,if_pos hover,if_pos hover]
          exact ⟨_,rfl,rfl⟩
        · rw [if_neg hover] at hcopy
          rw [bind_run hcopy,if_neg hover]
          generalize setting.report (n+data.length) reply.2.2=reported at hcopy ⊢
          by_cases hstop : reported.1<0
          · rw [if_pos hstop,if_pos hstop]
            exact ⟨_,rfl,rfl⟩
          · rw [if_neg hstop,if_neg hstop,hgot,← UInt64.ofNat_add]
            obtain ⟨t,hrun,hstored⟩ := @ih fuel (n+data.length) (by omega) (by omega)
              {(s.past data).fed reply with sink := reported.2} (by rw [← hs]; rfl)
            refine ⟨t,hrun,hstored.trans ?_⟩
            exact List.append_assoc _ _ _
    · refine copyBlocks_over setting mode direct hfuel s hs ?_ fun h => absurd h hmore
      rw [Setting.blocksFrom,if_neg hmore]

end Ways

/-- The source can be read. -/
theorem source_reads (setting : Setting τ) (mode : SourceMode) :
    ¬((setting.source mode).read.isNone=true ∧
      (setting.source mode).directRead.isNone=true) := by
  rintro ⟨hread,hdirect⟩
  cases mode with
  | buffered => exact Bool.false_ne_true hread
  | windows offered => exact Bool.false_ne_true hread
  | windowsOnly => exact Bool.false_ne_true hdirect

/-- Every block has a byte. -/
theorem blocksFrom_ne_nil (setting : Setting τ) (rounds n : ℕ) :
    ∀ data∈setting.blocksFrom rounds n,data≠[] := by
  induction rounds generalizing n with
  | zero => exact fun data hdata => absurd hdata (List.not_mem_nil)
  | succ rounds ih =>
    intro data hdata
    unfold Setting.blocksFrom at hdata
    dsimp only at hdata
    split_ifs at hdata with hmore hnil
    · exact absurd hdata (List.not_mem_nil)
    · rcases List.mem_cons.mp hdata with rfl | hrest
      · exact hnil
      · exact ih _ data hrest
    · exact absurd hdata (List.not_mem_nil)

/-- A copy that is not refused feeds the blocks to the sink. -/
theorem copied_of_started (setting : Setting τ) (hstarted : setting.Started)
    (mode : SourceMode) (direct : Bool) {fuel : ℕ} (hfuel : setting.content.length<fuel)
    (t : τ) :
    setting.copied mode direct fuel t=
      (some (feed setting (onceAt mode direct) setting.blocks 0 t).1,
        (feed setting (onceAt mode direct) setting.blocks 0 t).2) := by
  obtain ⟨hbuffer,hsize,hblock⟩ := hstarted
  obtain ⟨u,hrun,hstored⟩ := @copyBlocks_run τ setting mode direct setting.content.length
    fuel 0 hfuel (by omega) ⟨0,t,[]⟩ rfl
  have hreads := source_reads setting mode
  have hoptions : setting.options.buffer=true ∧ setting.options.bufferSize=setting.bufferSize :=
    ⟨hbuffer,rfl⟩
  have hchosen : chooseBlockSize (setting.source mode) (setting.sink direct) setting.options=
      setting.block := rfl
  have hstart : clCopyStream (setting.source mode) (setting.sink direct) setting.options fuel=
      copyBlocks (setting.source mode) (setting.sink direct) setting.options
        setting.acceptor.take setting.block.toNat fuel 0 := by
    have hwrite : (setting.sink direct).write=some setting.acceptor.take := rfl
    unfold clCopyStream
    rw [hwrite]
    dsimp only
    rw [hoptions.1,hoptions.2,hchosen,if_neg,if_neg (UInt32.not_lt.mpr hblock)]
    rintro (hnone | hno | hsmall)
    · exact hreads hnone
    · exact Bool.false_ne_true hno.symm
    · exact UInt32.not_lt.mpr hsize hsmall
  unfold Setting.copied
  rw [hstart]
  have hzero : (UInt64.ofNat 0)=0 := rfl
  rw [hzero] at hrun
  dsimp only
  rw [hrun]
  exact congrArg (Prod.mk _) hstored

/-- A copy that is refused does not depend on the way. -/
theorem copied_of_not_started (setting : Setting τ) (hrefused : ¬setting.Started)
    (mode : SourceMode) (direct : Bool) (fuel : ℕ) (t : τ) :
    setting.copied mode direct fuel t=setting.copied .buffered false fuel t := by
  have hrun : ∀ mode direct,clCopyStream (setting.source mode) (setting.sink direct)
      setting.options fuel ⟨0,t,[]⟩=
      if setting.buffer=false ∨ setting.bufferSize<4 then (some (-1),⟨0,t,[]⟩)
      else (some (-2),⟨0,t,[]⟩) := by
    intro mode direct
    have hreads := source_reads setting mode
    have hwrite : (setting.sink direct).write=some setting.acceptor.take := rfl
    have hbuffer : setting.options.buffer=setting.buffer := rfl
    have hsize : setting.options.bufferSize=setting.bufferSize := rfl
    have hchosen : chooseBlockSize (setting.source mode) (setting.sink direct)
        setting.options=setting.block := rfl
    unfold clCopyStream
    rw [hwrite]
    dsimp only
    rw [hbuffer,hsize,hchosen]
    by_cases hno : setting.buffer=false ∨ setting.bufferSize<4
    · rw [if_pos hno,if_pos (Or.inr hno)]
      rfl
    · have hblock : setting.block<4 := by
        by_contra hfour
        push Not at hno
        exact hrefused ⟨Bool.eq_true_of_not_eq_false hno.1,UInt32.not_lt.mp hno.2,
          UInt32.not_lt.mp hfour⟩
      rw [if_neg hno,if_neg (fun h => h.elim hreads hno),if_pos hblock]
      rfl
  unfold Setting.copied
  dsimp only
  rw [hrun,hrun]

/-- All ways to copy give the same code and the same bytes exactly if the copy is refused or
the sink is steady. -/
theorem copied_eq_iff (setting : Setting τ) (t : τ) :
    (∀ fuel,setting.content.length<fuel → ∀ mode direct mode' direct',
      setting.copied mode direct fuel t=setting.copied mode' direct' fuel t) ↔
    (setting.Started → Steady setting setting.blocks 0 t) := by
  have hblocks : ∀ data∈setting.blocks,data≠[] :=
    blocksFrom_ne_nil setting setting.content.length 0
  constructor
  · intro hall hstarted
    have hfuel := Nat.lt_succ_self setting.content.length
    have hsame := hall _ hfuel .windowsOnly false .buffered false
    rw [copied_of_started setting hstarted _ _ hfuel,
      copied_of_started setting hstarted _ _ hfuel,Prod.mk.injEq,Option.some.injEq] at hsame
    exact steady_of_feed_eq hblocks (Prod.ext hsame.1 hsame.2)
  · intro hsteady fuel hfuel mode direct mode' direct'
    by_cases hstarted : setting.Started
    · rw [copied_of_started setting hstarted _ _ hfuel,
        copied_of_started setting hstarted _ _ hfuel,
        feed_eq_of_steady hblocks (onceAt mode direct) (hsteady hstarted),
        feed_eq_of_steady hblocks (onceAt mode' direct') (hsteady hstarted)]
    · rw [copied_of_not_started setting hstarted mode direct,
        copied_of_not_started setting hstarted mode' direct']

/-- A sink whose answer to a run of bytes does not depend on how it is cut, as long as the
rest is offered again. -/
def Indifferent (acceptor : Acceptor τ) : Prop :=
  ∀ u v t,u≠[] → v≠[] →
    let first := feedBlock acceptor false u.length u t
    let whole := feedBlock acceptor false (u++v).length (u++v) t
    if first.1<0 then whole.1=first.1 ∧ whole.2.1=first.2.1
    else
      let second := feedBlock acceptor false v.length v first.2.2
      whole.1=second.1 ∧ whole.2.1=first.2.1++second.2.1 ∧
        (0≤ second.1 → whole.2.2=second.2.2)

/-- Feed all bytes at once. -/
def pour (setting : Setting τ) (data : List UInt8) (n : ℕ) (t : τ) : ℤ×List UInt8 :=
  let reply := feedBlock setting.acceptor false data.length data t
  if reply.1<0 then (reply.1,reply.2.1)
  else (setting.finish (n+data.length) reply.2.2,reply.2.1)

/-- Two settings differ only in how the content is cut, and none of them is refused. -/
structure SameCopy (setting setting' : Setting τ) : Prop where
  /-- The content. -/
  content : setting'.content=setting.content
  /-- The sink. -/
  acceptor : setting'.acceptor=setting.acceptor
  /-- The announced size. -/
  size : setting'.size=setting.size
  /-- The flush of the sink. -/
  flush : setting'.flush=setting.flush
  /-- Whether it is flushed. -/
  flushOnFinish : setting'.flushOnFinish=setting.flushOnFinish
  /-- Progress is not reported, since the number of reports depends on the blocks. -/
  progress : setting.progress=none ∧ setting'.progress=none
  /-- Both copies are started. -/
  started : setting.Started ∧ setting'.Started

section Cutting

variable {setting setting' : Setting τ}

/-- A beginning and what is left of a list. -/
theorem take_append_drop_length (data : List UInt8) (k : ℕ) :
    data.take k++data.drop (data.take k).length=data := by
  rcases Nat.le_total k data.length with hle | hle
  · rw [List.length_take_of_le hle,List.take_append_drop]
  · rw [List.take_of_length_le hle,List.drop_length,List.append_nil]

/-- Blocks can be fed at once to an indifferent sink. -/
theorem feed_eq_pour (hprogress : setting.progress=none)
    (hsink : Indifferent setting.acceptor) {blocks : List (List UInt8)}
    (hblocks : ∀ data∈blocks,data≠[]) (n : ℕ) (t : τ) :
    feed setting (fun _ => false) blocks n t=pour setting blocks.flatten n t := by
  have hreport : ∀ n t,setting.report n t=(0,t) := by
    intro n t
    unfold Setting.report
    rw [hprogress]
  induction blocks generalizing n t with
  | nil => rfl
  | cons data blocks ih =>
    have hdata := hblocks data List.mem_cons_self
    have hrest : ∀ d∈blocks,d≠[] := fun d hd => hblocks d (List.mem_cons_of_mem _ hd)
    have hstep := ih hrest (n+data.length)
      (feedBlock setting.acceptor false data.length data t).2.2
    unfold feed
    dsimp only
    rw [hreport,hstep,List.flatten_cons]
    dsimp only
    rw [if_neg (Int.lt_irrefl 0)]
    unfold pour
    dsimp only
    by_cases hnil : blocks.flatten=[]
    · rw [hnil,List.append_nil,feedBlock_nil]
      dsimp only
      rw [if_neg (Int.lt_irrefl 0),List.append_nil]
      rfl
    · have hwhole := hsink data blocks.flatten t hdata hnil
      dsimp only at hwhole
      by_cases hover : (feedBlock setting.acceptor false data.length data t).1<0
      · rw [if_pos hover] at hwhole
        rw [if_pos hover,hwhole.1,hwhole.2,if_pos hover]
      · rw [if_neg hover] at hwhole
        rw [if_neg hover,hwhole.1,hwhole.2.1]
        by_cases hlast : (feedBlock setting.acceptor false blocks.flatten.length
            blocks.flatten (feedBlock setting.acceptor false data.length data t).2.2).1<0
        · rw [if_pos hlast,if_pos hlast]
        · rw [if_neg hlast,if_neg hlast,hwhole.2.2 (by omega),List.length_append,
            Nat.add_assoc]

/-- The blocks together are the content, as much of it as is announced. -/
theorem flatten_blocksFrom (setting : Setting τ) (hblock : 0<setting.block.toNat)
    (rounds : ℕ) {n : ℕ} (hrounds : setting.content.length≤n+rounds)
    (hn : setting.size≠0 → n≤ setting.size.toNat) :
    (setting.blocksFrom rounds n).flatten=
      if setting.size=0 then setting.content.drop n
      else (setting.content.drop n).take (setting.size.toNat-n) := by
  induction rounds generalizing n with
  | zero =>
    rw [List.drop_eq_nil_of_le (by omega),List.take_nil,ite_self]
    rfl
  | succ rounds ih =>
    unfold Setting.blocksFrom
    dsimp only
    by_cases hmore : setting.size=0 ∨ UInt64.ofNat n<setting.size
    · obtain ⟨hwant,hwanted⟩ := wantedBytes_spec hblock hmore hn
      have hsome := setting.cutting.size_pos n _ hwant
      have hle := length_piece_le setting n
        (wantedBytes setting.size (UInt64.ofNat n) setting.block.toNat)
      rw [if_pos hmore]
      by_cases hnil : setting.piece n
          (wantedBytes setting.size (UInt64.ofNat n) setting.block.toNat)=[]
      · have hdrop : setting.content.drop n=[] := by
          unfold Setting.piece at hnil
          rcases List.take_eq_nil_iff.mp hnil with h | h
          · omega
          · exact h
        rw [if_pos hnil,hdrop,List.take_nil,ite_self]
        rfl
      · have hsplit : setting.content.drop n=setting.piece n
            (wantedBytes setting.size (UInt64.ofNat n) setting.block.toNat)++
            setting.content.drop (n+(setting.piece n
              (wantedBytes setting.size (UInt64.ofNat n) setting.block.toNat)).length) := by
          rw [← List.drop_drop]
          exact (take_append_drop_length _ _).symm
        have hpos := List.length_pos_iff.mpr hnil
        rw [if_neg hnil,List.flatten_cons]
        generalize setting.piece n
          (wantedBytes setting.size (UInt64.ofNat n) setting.block.toNat)=data
          at hnil hsplit hle hpos ⊢
        have hroom : setting.size≠0 → n+data.length≤ setting.size.toNat := fun hsize => by
          have hbound := hwanted hsize
          omega
        rw [ih (by omega) hroom]
        by_cases hsize : setting.size=0
        · rw [if_pos hsize,if_pos hsize]
          exact hsplit.symm
        · have hbound := hroom hsize
          have hsum : setting.size.toNat-n=
              data.length+(setting.size.toNat-(n+data.length)) := by omega
          rw [if_neg hsize,if_neg hsize,hsum,hsplit,List.take_length_add_append]
    · have hsize : setting.size≠0 := fun h => hmore (Or.inl h)
      have hdone := toNat_done (hn hsize)
      have hlt : ¬UInt64.ofNat n<setting.size := fun h => hmore (Or.inr h)
      have hnone : setting.size.toNat-n=0 := by
        have hge := UInt64.le_iff_toNat_le.mp (UInt64.not_lt.mp hlt)
        omega
      rw [if_neg hmore,if_neg hsize,hnone,List.take_zero]
      rfl

/-- However the content is cut, an indifferent sink that is offered the rest of each block
again takes the same. -/
theorem feed_eq_feed (hsame : SameCopy setting setting')
    (hsink : Indifferent setting.acceptor) (t : τ) :
    feed setting' (fun _ => false) setting'.blocks 0 t=
      feed setting (fun _ => false) setting.blocks 0 t := by
  have hpositive : ∀ {block : UInt32},4≤block → 0<block.toNat := by
    intro block h
    have hle := UInt32.le_iff_toNat_le.mp h
    have hfour : (4 : UInt32).toNat=4 := rfl
    omega
  have hflat : setting'.blocks.flatten=setting.blocks.flatten := by
    unfold Setting.blocks
    rw [flatten_blocksFrom setting' (hpositive hsame.started.2.2.2) _ (by omega)
        (fun _ => Nat.zero_le _),
      flatten_blocksFrom setting (hpositive hsame.started.1.2.2) _ (by omega)
        (fun _ => Nat.zero_le _),hsame.content,hsame.size]
  have hfinish : ∀ n t,setting'.finish n t=setting.finish n t := by
    intro n t
    unfold Setting.finish
    rw [hsame.size,hsame.flush,hsame.flushOnFinish]
  have hsink' := hsink
  rw [← hsame.acceptor] at hsink'
  have hblocks' : ∀ data∈setting'.blocks,data≠[] := blocksFrom_ne_nil setting' _ 0
  have hblocks : ∀ data∈setting.blocks,data≠[] := blocksFrom_ne_nil setting _ 0
  rw [feed_eq_pour hsame.progress.2 hsink' hblocks',feed_eq_pour hsame.progress.1 hsink hblocks,
    hflat]
  unfold pour
  simp only [hfinish,hsame.acceptor]

end Cutting

/-- Copies of the same content to the same sink. With the same blocks all ways agree exactly
if the copy is refused or the sink is steady. For an indifferent sink the copies with all
windows, reads and buffers agree exactly if the sink is steady for each of them. -/
theorem copies_agree_iff :
    (∀ (setting : Setting τ) (t : τ),
      (∀ fuel,setting.content.length<fuel → ∀ mode direct mode' direct',
        setting.copied mode direct fuel t=setting.copied mode' direct' fuel t) ↔
      (setting.Started → Steady setting setting.blocks 0 t)) ∧
    ∀ (setting : Setting τ) (t : τ),Indifferent setting.acceptor →
      ((∀ setting',SameCopy setting setting' → ∀ fuel,setting.content.length<fuel →
        ∀ mode direct mode' direct',
          setting'.copied mode direct fuel t=setting.copied mode' direct' fuel t) ↔
      ∀ setting',SameCopy setting setting' → Steady setting' setting'.blocks 0 t) := by
  refine ⟨fun setting t => copied_eq_iff setting t,fun setting t hsink => ⟨?_,?_⟩⟩
  · intro hall setting' hsame
    refine (copied_eq_iff setting' t).mp ?_ hsame.started.2
    intro fuel hfuel mode direct mode' direct'
    rw [hsame.content] at hfuel
    exact (hall setting' hsame fuel hfuel mode direct .buffered false).trans
      (hall setting' hsame fuel hfuel mode' direct' .buffered false).symm
  · intro hsteady setting' hsame fuel hfuel mode direct mode' direct'
    have hself : SameCopy setting setting := ⟨rfl,rfl,rfl,rfl,rfl,
      ⟨hsame.progress.1,hsame.progress.1⟩,⟨hsame.started.1,hsame.started.1⟩⟩
    have hblocks' : ∀ data∈setting'.blocks,data≠[] := blocksFrom_ne_nil setting' _ 0
    have hblocks : ∀ data∈setting.blocks,data≠[] := blocksFrom_ne_nil setting _ 0
    have hfuel' := hfuel
    rw [← hsame.content] at hfuel'
    rw [copied_of_started setting' hsame.started.2 mode direct hfuel',
      copied_of_started setting hsame.started.1 mode' direct' hfuel,
      feed_eq_of_steady hblocks' (onceAt mode direct) (hsteady setting' hsame),
      feed_eq_of_steady hblocks (onceAt mode' direct') (hsteady setting hself),
      feed_eq_feed hsame hsink]

/-- A sink that takes two bytes of each offer. -/
def twoByteAcceptor : Acceptor Unit where
  accept data _ := ((0,min 2 data.length),())
  accept_le _ _ := Nat.min_le_right _ _

/-- Four bytes in blocks of four. -/
def smallSetting : Setting Unit where
  content := [1,2,3,4]
  cutting := ⟨fun _ want => min want (2^31),fun _ _ => Nat.min_le_left _ _,
    fun _ _ h => Nat.lt_min.mpr ⟨h,by omega⟩,fun _ _ => by omega⟩
  acceptor := twoByteAcceptor
  size := 4
  sourcePreferred := 0
  sourceMax := 0
  sinkPreferred := 0
  sinkMax := 0
  flush := none
  buffer := true
  bufferSize := 4
  blockSize := 0
  progress := none
  flushOnFinish := false

/-- From direct windows with plain writes, the copy fails after two bytes. -/
theorem copies_disagree :
    smallSetting.copied .windowsOnly false 5 ()=(some (-3),[1,2]) ∧
      smallSetting.copied .buffered false 5 ()=(some 0,[1,2,3,4]) := by
  decide +kernel

/-- Offered the rest again, this sink takes everything. -/
theorem feedBlock_twoByte {rounds : ℕ} {data : List UInt8} (h : data.length≤ rounds) :
    feedBlock twoByteAcceptor false rounds data ()=(0,data,()) := by
  induction rounds generalizing data with
  | zero => rw [List.length_eq_zero_iff.mp (Nat.le_zero.mp h)]; rfl
  | succ rounds ih =>
    by_cases hdata : data=[]
    · rw [hdata,feedBlock_nil]
    · have hpos := List.length_pos_iff.mpr hdata
      have hsome : ¬min 2 data.length=0 := by omega
      have hlength : (data.drop (min 2 data.length)).length≤ rounds := by
        rw [List.length_drop]
        omega
      have hreply : twoByteAcceptor.accept data ()=((0,min 2 data.length),()) := rfl
      rw [feedBlock,if_neg hdata,hreply]
      dsimp only
      rw [if_neg (Int.lt_irrefl 0),if_neg (fun h => Bool.false_ne_true h.1),if_neg hsome,
        ih hlength]
      dsimp only
      rw [List.take_append_drop]

/-- The copies of four bytes to this sink. -/
theorem copies_agree_iff_small :
    SameCopy smallSetting smallSetting ∧
    ((∀ setting',SameCopy smallSetting setting' → ∀ fuel,4<fuel →
      ∀ mode direct mode' direct',
        setting'.copied mode direct fuel ()=smallSetting.copied mode' direct' fuel ()) ↔
    ∀ setting',SameCopy smallSetting setting' → Steady setting' setting'.blocks 0 ()) := by
  refine ⟨⟨rfl,rfl,rfl,rfl,rfl,⟨rfl,rfl⟩,⟨⟨rfl,?_,?_⟩,⟨rfl,?_,?_⟩⟩⟩,?_⟩
  · decide
  · decide
  · decide
  · decide
  · refine copies_agree_iff.2 smallSetting () ?_
    intro u v t hu hv
    have hall : ∀ data : List UInt8,
        feedBlock smallSetting.acceptor false data.length data ()=(0,data,()) :=
      fun data => feedBlock_twoByte (le_refl _)
    dsimp only
    rw [hall,hall,hall]
    exact ⟨rfl,rfl,fun _ => rfl⟩

end ChisLink.CopyAgreement
