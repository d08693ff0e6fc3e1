import ChisLink.WireProtocol

/-!
# The copy engine

A copy takes blocks from a source and offers each to a sink until all of it is
accepted. A block is a direct window of the source or bytes read into the
buffer of the caller. The callbacks act on a common state, of which nothing is
assumed. A source and a sink obey their interfaces if the source delivers a
stream from a position on, in pieces of any size, and the sink accepts the
beginning of what it is offered and tells how much. Then the sink has accepted
the beginning of the stream at every return, and all of it, or as much as was
announced, if the result is zero; a copy of a stream that ends returns.
-/

namespace ChisLink.CopyStream

open DriverPrograms WireProtocol

variable {σ : Type}

/-- Largest block of a copy. -/
def clCopyDefaultBlockSize : UInt32 := 32768

/-- What `direct_read` leaves in the struct of the window. -/
inductive WindowReply where
  /-- A null pointer with a length. -/
  | null (length : UInt32)
  /-- A window. -/
  | window (window : DirectWindow)

/-- The struct `cl_copy_source_t`. -/
structure CopySource (σ : Type) where
  /-- Buffered read of at most so many bytes: result and bytes. -/
  read : Option (ℕ → σ → (ℤ×List UInt8)×σ)
  /-- Take a direct window of at most so many bytes. -/
  directRead : Option (ℕ → σ → (ℤ×WindowReply)×σ)
  /-- Give the direct window back. -/
  releaseDirect : Option (σ → ℤ×σ)
  /-- Announced size, zero if it is not known. -/
  size : UInt64
  /-- Preferred block size, zero for none. -/
  preferredBlockSize : UInt32
  /-- Largest block size, zero for none. -/
  maxBlockSize : UInt32

/-- The struct `cl_copy_sink_t`. Writes give the result and the accepted count. -/
structure CopySink (σ : Type) where
  /-- Buffered write. -/
  write : Option (List UInt8 → σ → (ℤ×ℕ)×σ)
  /-- Write from a direct window, from an offset, so many bytes. -/
  directWrite : Option (DirectWindow → ℕ → ℕ → σ → (ℤ×ℕ)×σ)
  /-- Flush. -/
  flush : Option (σ → ℤ×σ)
  /-- Preferred block size, zero for none. -/
  preferredBlockSize : UInt32
  /-- Largest block size, zero for none. -/
  maxBlockSize : UInt32

/-- The struct `cl_copy_options_t`. -/
structure CopyOptions (σ : Type) where
  /-- A buffer is given. -/
  buffer : Bool
  /-- Its size. -/
  bufferSize : UInt32
  /-- Preferred block size, zero for none. -/
  blockSize : UInt32
  /-- Progress callback: bytes so far and announced size. -/
  progress : Option (UInt64 → UInt64 → σ → ℤ×σ)
  /-- Flush the sink after a copy. -/
  flushOnFinish : Bool

/-- Lower a block size to a limit, if there is one. -/
def limited (block limit : UInt32) : UInt32 := if limit≠0 then min block limit else block

/-- The block size of a copy, a multiple of four. -/
def chooseBlockSize (source : CopySource σ) (sink : CopySink σ) (options : CopyOptions σ) :
    UInt32 :=
  let block := limited clCopyDefaultBlockSize source.preferredBlockSize
  let block := limited block source.maxBlockSize
  let block := limited block sink.preferredBlockSize
  let block := limited block sink.maxBlockSize
  let block := limited block options.blockSize
  let block := limited block options.bufferSize
  block &&& ~~~3

/-- The byte of a window at an offset, zero outside. -/
def clDirectWindowReadByte (window : DirectWindow) (offset : ℕ) : UInt8 :=
  if offset<window.length.toNat then window.data.getD offset 0 else 0

/-- A block that is being copied: a direct window or bytes in the buffer. -/
inductive Block where
  /-- A direct window. -/
  | window (window : DirectWindow)
  /-- Bytes in the buffer. -/
  | buffered (data : List UInt8)

/-- Number of bytes of a block. -/
def Block.got : Block → ℕ
  | .window direct => direct.length.toNat
  | .buffered data => data.length

/-- Call an optional callback that does nothing if it is missing. -/
def callOptional (callback : Option (σ → ℤ×σ)) : Prog σ ℤ :=
  match callback with
  | some f => access f
  | none => pure 0

/-- Give a block back to the source if it is a direct window. -/
def releaseBlock (source : CopySource σ) : Block → Prog σ ℤ
  | .window _ => callOptional source.releaseDirect
  | .buffered _ => pure 0

/-- Offer a part of a window through the buffer; less than all is an error. -/
def writeCopied (write : List UInt8 → σ → (ℤ×ℕ)×σ) (window : DirectWindow)
    (total toCopy : ℕ) : Prog σ (ℤ×ℕ) := do
  let reply ← access (write ((List.range toCopy).map fun i =>
    clDirectWindowReadByte window (total+i)))
  pure (if 0≤ reply.1 ∧ reply.2≠toCopy then (-3,reply.2) else reply)

/-- Offer the rest of a block to the sink. -/
def offer (sink : CopySink σ) (write : List UInt8 → σ → (ℤ×ℕ)×σ) (blockSize : ℕ)
    (total : ℕ) : Block → Prog σ (ℤ×ℕ)
  | .window window =>
    match sink.directWrite with
    | some directWrite => access (directWrite window total (window.length.toNat-total))
    | none => writeCopied write window total (min (window.length.toNat-total) blockSize)
  | .buffered data => access (write (data.drop total))

/-- The inner loop of the copy. Every round but the last one accepts a byte, so that the
size of the block bounds the rounds. The result is negative if the copy is over. -/
def writeBlock (source : CopySource σ) (sink : CopySink σ)
    (write : List UInt8 → σ → (ℤ×ℕ)×σ) (blockSize : ℕ) (block : Block) :
    ℕ → ℕ → Prog σ ℤ
  | 0, _ => pure 0
  | rounds+1, total =>
    if total<block.got then do
      let reply ← offer sink write blockSize total block
      if reply.1<0 then do
        let _ ← releaseBlock source block
        pure reply.1
      else if reply.2=0 then do
        let _ ← releaseBlock source block
        pure (-3)
      else writeBlock source sink write blockSize block rounds (total+reply.2)
    else pure 0

/-- Take a direct window, if the source has one here. -/
def takeWindow (source : CopySource σ) (want : ℕ) : Prog σ (Except ℤ (Option Block)) :=
  match source.directRead with
  | none => pure (.ok none)
  | some directRead => do
    let reply ← access (directRead want)
    if reply.1<0 then pure (.error reply.1)
    else
      match reply.2 with
      | .null length => pure (if length≠0 then .error (-4) else .ok none)
      | .window window =>
        if want<window.length.toNat then do
          let _ ← callOptional source.releaseDirect
          pure (.error (-5))
        else pure (if window.length=0 then .ok none else .ok (some (.window window)))

/-- Read into the buffer. No bytes mean that the source is at its end. -/
def takeBuffered (source : CopySource σ) (want : ℕ) : Prog σ (Except ℤ (Option Block)) :=
  match source.read with
  | none => pure (.ok none)
  | some read => do
    let reply ← access (read want)
    if reply.1<0 then pure (.error reply.1)
    else pure (if reply.2=[] then .ok none else .ok (some (.buffered reply.2)))

/-- The next block, or none at the end of the source. -/
def takeBlock (source : CopySource σ) (want : ℕ) : Prog σ (Except ℤ (Option Block)) := do
  match ← takeWindow source want with
  | .ok none => takeBuffered source want
  | taken => pure taken

/-- Bytes to ask for. -/
def wantedBytes (size done : UInt64) (blockSize : ℕ) : ℕ :=
  if size≠0 then min (size-done).toNat blockSize else blockSize

/-- Report the progress. -/
def reportProgress (options : CopyOptions σ) (done size : UInt64) : Prog σ ℤ :=
  callOptional (options.progress.map fun progress => progress done size)

/-- Copy one block. The result is negative if the copy is over. -/
def copyBlock (source : CopySource σ) (sink : CopySink σ) (options : CopyOptions σ)
    (write : List UInt8 → σ → (ℤ×ℕ)×σ) (blockSize : ℕ) (block : Block) (done : UInt64) :
    Prog σ ℤ := do
  let ret ← writeBlock source sink write blockSize block block.got 0
  if ret<0 then pure ret
  else do
    let ret ← releaseBlock source block
    if ret<0 then pure ret
    else reportProgress options (done+UInt64.ofNat block.got) source.size

/-- After the loop. -/
def finishCopy (source : CopySource σ) (sink : CopySink σ) (options : CopyOptions σ)
    (done : UInt64) : Prog σ ℤ :=
  if source.size≠0 ∧ done≠source.size then pure (-6)
  else if options.flushOnFinish then callOptional sink.flush
  else pure 0

/-- The outer loop of the copy. -/
def copyBlocks (source : CopySource σ) (sink : CopySink σ) (options : CopyOptions σ)
    (write : List UInt8 → σ → (ℤ×ℕ)×σ) (blockSize : ℕ) : ℕ → UInt64 → Prog σ ℤ
  | 0, _ => fun s => (none,s)
  | fuel+1, done =>
    if source.size=0 ∨ done<source.size then
      takeBlock source (wantedBytes source.size done blockSize) >>= fun
        | .error ret => pure ret
        | .ok none => finishCopy source sink options done
        | .ok (some block) =>
          copyBlock source sink options write blockSize block done >>= fun ret =>
            if ret<0 then pure ret
            else copyBlocks source sink options write blockSize fuel
              (done+UInt64.ofNat block.got)
    else finishCopy source sink options done

/-- The function `cl_copy_stream`. -/
def clCopyStream (source : CopySource σ) (sink : CopySink σ) (options : CopyOptions σ)
    (fuel : ℕ) : Prog σ ℤ :=
  match sink.write with
  | none => pure (-1)
  | some write =>
    if (source.read.isNone ∧ source.directRead.isNone) ∨ options.buffer=false ∨
        options.bufferSize<4 then pure (-1)
    else if chooseBlockSize source sink options<4 then pure (-2)
    else copyBlocks source sink options write (chooseBlockSize source sink options).toNat
      fuel 0

/-- Some bytes of a stream from a position on. -/
def slice (content : ℕ → UInt8) (start count : ℕ) : List UInt8 :=
  (List.range count).map fun i => content (start+i)

@[simp] theorem length_slice (content : ℕ → UInt8) (start count : ℕ) :
    (slice content start count).length=count := by
  unfold slice
  rw [List.length_map,List.length_range]

theorem slice_add (content : ℕ → UInt8) (start m n : ℕ) :
    slice content start (m+n)=slice content start m++slice content (start+m) n := by
  unfold slice
  rw [List.range_add,List.map_append,List.map_map]
  congr 1
  refine List.map_congr_left fun i _ => ?_
  simp only [Function.comp_apply,Nat.add_assoc]

theorem take_slice (content : ℕ → UInt8) (start : ℕ) {k count : ℕ} (h : k≤ count) :
    (slice content start count).take k=slice content start k := by
  have hsplit := slice_add content start k (count-k)
  rw [Nat.add_sub_cancel' h] at hsplit
  rw [hsplit,List.take_left' (length_slice content start k)]

/-- A position is not behind the end of a stream, if it has one. -/
def Within (stop : Option ℕ) (position : ℕ) : Prop := ∀ e,stop=some e → position≤e

/-- A read delivers the next bytes of the stream, at most as many as were asked for. -/
structure Delivers (content : ℕ → UInt8) (stop : Option ℕ) (want before after : ℕ)
    (data : List UInt8) : Prop where
  /-- At most as many. -/
  length_le : data.length≤want
  /-- The next bytes. -/
  data_eq : data=slice content before data.length
  /-- The position is moved by their number. -/
  after_eq : after=before+data.length
  /-- They are before the end. -/
  within : Within stop after

section Interfaces

variable (content : ℕ → UInt8) (stop : Option ℕ) (pos : σ → ℕ) (accepted : σ → List UInt8)

/-- A window delivers its bytes. Without a buffered read, a window of no bytes is the end. -/
def WindowReply.Delivers (source : CopySource σ) (want before after : ℕ) : WindowReply → Prop
  | .null length => length=0 →
    after=before ∧ (source.read=none → 0<want → stop=some before)
  | .window direct => direct.length.toNat≤want →
    CopyStream.Delivers content stop want before after direct.data ∧
      (direct.length=0 → source.read=none → 0<want → stop=some before)

/-- A source that obeys its interface: it delivers a stream, reads nothing only at its end,
and does not write into the sink. -/
structure CopySource.Obeys (source : CopySource σ) : Prop where
  /-- Buffered reads. -/
  read : ∀ read,source.read=some read → ∀ want s,
    accepted (read want s).2=accepted s ∧ (0≤(read want s).1.1 →
      CopyStream.Delivers content stop want (pos s) (pos (read want s).2) (read want s).1.2 ∧
        ((read want s).1.2=[] → 0<want → stop=some (pos s)))
  /-- Direct windows. -/
  directRead : ∀ directRead,source.directRead=some directRead → ∀ want s,
    accepted (directRead want s).2=accepted s ∧ (0≤(directRead want s).1.1 →
      (directRead want s).1.2.Delivers content stop source want (pos s)
        (pos (directRead want s).2))
  /-- Giving a window back. -/
  releaseDirect : ∀ release,source.releaseDirect=some release → ∀ s,
    accepted (release s).2=accepted s ∧ pos (release s).2=pos s

/-- What a write may do with the bytes offered: accept the beginning, and tell how much
of it unless it fails. -/
def Accepts (data : List UInt8) (s : σ) (reply : (ℤ×ℕ)×σ) : Prop :=
  pos reply.2=pos s ∧ ∃ k,k≤data.length ∧ accepted reply.2=accepted s++data.take k ∧
    (0≤ reply.1.1 → reply.1.2=k)

/-- A sink that obeys its interface. -/
structure CopySink.Obeys (sink : CopySink σ) : Prop where
  /-- Buffered writes. -/
  write : ∀ write,sink.write=some write → ∀ data s,
    Accepts pos accepted data s (write data s)
  /-- Direct writes. -/
  directWrite : ∀ directWrite,sink.directWrite=some directWrite →
    ∀ window offset length s,
      Accepts pos accepted ((window.data.drop offset).take length) s
        (directWrite window offset length s)
  /-- Flushing. -/
  flush : ∀ flush,sink.flush=some flush → ∀ s,accepted (flush s).2=accepted s

/-- A progress callback that only looks. -/
def CopyOptions.Obeys (options : CopyOptions σ) : Prop :=
  ∀ progress,options.progress=some progress → ∀ done size s,
    accepted (progress done size s).2=accepted s ∧ pos (progress done size s).2=pos s

end Interfaces

/-- The bytes of a block. -/
def Block.bytes : Block → List UInt8
  | .window direct => direct.data
  | .buffered data => data

theorem Block.length_bytes (block : Block) : block.bytes.length=block.got := by
  cases block with
  | window direct => exact direct.data_length
  | buffered data => rfl

/-- Bytes copied out of a window one by one. -/
theorem map_clDirectWindowReadByte (window : DirectWindow) {total count : ℕ}
    (h : total+count≤window.length.toNat) :
    (List.range count).map (fun i => clDirectWindowReadByte window (total+i))=
      (window.data.drop total).take count := by
  have hlength := window.data_length
  refine List.ext_getElem ?_ ?_
  · rw [List.length_map,List.length_range,List.length_take,List.length_drop]
    omega
  · intro i hi hi'
    rw [List.length_map,List.length_range] at hi
    have hlt : total+i<window.length.toNat := by omega
    have hdata : total+i<window.data.length := by omega
    rw [List.getElem_map,List.getElem_range,List.getElem_take,List.getElem_drop]
    unfold clDirectWindowReadByte
    rw [if_pos hlt,List.getD_eq_getElem?_getD,List.getElem?_eq_getElem hdata,Option.getD_some]

/-- Accepting more of a block that was accepted in part. -/
theorem take_append_take_drop (data : List UInt8) (total k : ℕ) :
    data.take total++(data.drop total).take k=data.take (total+k) :=
  (List.take_add ..).symm

section Copying

variable {content : ℕ → UInt8} {stop : Option ℕ} {pos : σ → ℕ} {accepted : σ → List UInt8}
  {source : CopySource σ} {sink : CopySink σ} {options : CopyOptions σ}
  {write : List UInt8 → σ → (ℤ×ℕ)×σ}

/-- A callback that leaves stream and sink alone. -/
theorem wp_callOptional {callback : Option (σ → ℤ×σ)} {s : σ}
    (h : ∀ f,callback=some f → accepted (f s).2=accepted s ∧ pos (f s).2=pos s) :
    wp (callOptional callback) (fun _ t => accepted t=accepted s ∧ pos t=pos s)
      (fun _ => False) s := by
  unfold callOptional
  cases hcallback : callback with
  | none => exact wp_pure.mpr ⟨rfl,rfl⟩
  | some f => exact wp_access.mpr (h f hcallback)

theorem wp_releaseBlock (hsource : source.Obeys content stop pos accepted) (block : Block)
    (s : σ) :
    wp (releaseBlock source block) (fun _ t => accepted t=accepted s ∧ pos t=pos s)
      (fun _ => False) s := by
  cases block with
  | window direct => exact wp_callOptional fun f hf => hsource.releaseDirect f hf s
  | buffered data => exact wp_pure.mpr ⟨rfl,rfl⟩

/-- Offering the rest of a block: the beginning of the rest is accepted. -/
theorem wp_offer (hsink : sink.Obeys pos accepted) (hwrite : sink.write=some write)
    (blockSize : ℕ) (block : Block) {total : ℕ} (htotal : total≤block.got) (s : σ) :
    wp (offer sink write blockSize total block) (fun reply t => pos t=pos s ∧
      ∃ k,total+k≤block.got ∧ accepted t=accepted s++(block.bytes.drop total).take k ∧
        (0≤ reply.1 → reply.2=k)) (fun _ => False) s := by
  cases block with
  | buffered data =>
    refine wp_access.mpr ?_
    obtain ⟨hpos,k,hk,haccepted,hcount⟩ := hsink.write write hwrite (data.drop total) s
    rw [List.length_drop] at hk
    have hgot : data.length=(Block.buffered data).got := rfl
    exact ⟨hpos,k,by omega,haccepted,hcount⟩
  | window direct =>
    have hgot : direct.length.toNat=(Block.window direct).got := rfl
    have hlength := direct.data_length
    unfold offer
    cases hdirect : sink.directWrite with
    | some directWrite =>
      refine wp_access.mpr ?_
      obtain ⟨hpos,k,hk,haccepted,hcount⟩ :=
        hsink.directWrite directWrite hdirect direct total (direct.length.toNat-total) s
      rw [List.length_take,List.length_drop] at hk
      refine ⟨hpos,k,by omega,?_,hcount⟩
      rw [haccepted,List.take_take,Nat.min_eq_left (by omega)]
      rfl
    | none =>
      dsimp only
      unfold writeCopied
      have hroom : total+min (direct.length.toNat-total) blockSize≤direct.length.toNat := by
        omega
      rw [map_clDirectWindowReadByte direct hroom,wp_bind,wp_access]
      obtain ⟨hpos,k,hk,haccepted,hcount⟩ := hsink.write write hwrite
        ((direct.data.drop total).take (min (direct.length.toNat-total) blockSize)) s
      rw [List.length_take,List.length_drop] at hk
      refine wp_pure.mpr ⟨hpos,k,by omega,?_,?_⟩
      · rw [haccepted,List.take_take,Nat.min_eq_left (by omega)]
        rfl
      · -- a short write is turned into an error, the count stays
        split
        next hshort => exact fun hneg => absurd hneg (by omega)
        next => exact hcount

/-- The inner loop accepts the beginning of the block, and all of it unless the copy is
over. -/
theorem wp_writeBlock (hsource : source.Obeys content stop pos accepted)
    (hsink : sink.Obeys pos accepted) (hwrite : sink.write=some write) (blockSize : ℕ)
    (block : Block) (before : List UInt8) (rounds : ℕ) {total : ℕ} {s : σ}
    (htotal : total≤block.got) (hrounds : block.got≤total+rounds)
    (haccepted : accepted s=before++block.bytes.take total) :
    wp (writeBlock source sink write blockSize block rounds total) (fun ret t => pos t=pos s ∧
      ∃ k,k≤block.got ∧ accepted t=before++block.bytes.take k ∧ (0≤ ret → k=block.got))
      (fun _ => False) s := by
  induction rounds generalizing total s with
  | zero => exact wp_pure.mpr ⟨rfl,total,htotal,haccepted,fun _ => by omega⟩
  | succ rounds ih =>
    unfold writeBlock
    by_cases hmore : total<block.got
    · rw [if_pos hmore]
      refine wp_seq (wp_offer hsink hwrite blockSize block htotal s) ?_
      rintro reply t ⟨hpos,k,hk,ht,hcount⟩
      rw [haccepted,List.append_assoc,take_append_take_drop] at ht
      -- a failure and a write of nothing end the copy with what was accepted
      have hover : ∀ ret : ℤ,ret<0 → wp (releaseBlock source block >>= fun _ => pure ret)
          (fun ret u => pos u=pos s ∧ ∃ k,k≤block.got ∧
            accepted u=before++block.bytes.take k ∧ (0≤ ret → k=block.got))
          (fun _ => False) t := by
        intro ret hret
        refine wp_seq (wp_releaseBlock hsource block t) ?_
        rintro _ u ⟨hu,hposu⟩
        exact wp_pure.mpr ⟨hposu.trans hpos,total+k,hk,hu.trans ht,fun h => by omega⟩
      by_cases hfailed : reply.1<0
      · rw [if_pos hfailed]
        exact hover reply.1 hfailed
      · rw [if_neg hfailed]
        by_cases hnone : reply.2=0
        · rw [if_pos hnone]
          exact hover (-3) (by decide)
        · rw [if_neg hnone]
          have hcountk := hcount (by omega)
          rw [hcountk] at hnone ⊢
          refine wp_post (ih hk (by omega) ht) ?_
          rintro ret u ⟨hposu,hrest⟩
          exact ⟨hposu.trans hpos,hrest⟩
    · rw [if_neg hmore]
      exact wp_pure.mpr ⟨rfl,total,htotal,haccepted,fun _ => by omega⟩

/-- What a taken block is: the next bytes of the stream; no block means its end. -/
def TakenFrom (content : ℕ → UInt8) (stop : Option ℕ) (want before after : ℕ) :
    Except ℤ (Option Block) → Prop
  | .error ret => ret<0
  | .ok none => after=before ∧ stop=some before
  | .ok (some block) =>
    0<block.got ∧ Delivers content stop want before after block.bytes

/-- Taking a window: none here leaves the position, and is the end if there are no
buffered reads. -/
theorem wp_takeWindow (hsource : source.Obeys content stop pos accepted) {want : ℕ}
    (hwant : 0<want) (s : σ) :
    wp (takeWindow source want) (fun reply t => accepted t=accepted s ∧
      (reply=.ok none → pos t=pos s ∧
        (source.read=none → source.directRead≠none → stop=some (pos s))) ∧
      (reply≠.ok none → TakenFrom content stop want (pos s) (pos t) reply))
      (fun _ => False) s := by
  unfold takeWindow
  cases hdirect : source.directRead with
  | none =>
    refine wp_pure.mpr ⟨rfl,fun _ => ⟨rfl,?_⟩,fun hne => absurd rfl hne⟩
    exact fun _ hne => absurd rfl hne
  | some directRead =>
    dsimp only
    rw [wp_bind,wp_access]
    obtain ⟨haccepted,hdelivers⟩ := hsource.directRead directRead hdirect want s
    by_cases hfailed : (directRead want s).1.1<0
    · rw [if_pos hfailed]
      refine wp_pure.mpr ⟨haccepted,?_,fun _ => hfailed⟩
      intro h
      cases h
    · rw [if_neg hfailed]
      have hreply := hdelivers (by omega)
      cases hwindow : (directRead want s).1.2 with
      | null length =>
        rw [hwindow] at hreply
        dsimp only
        by_cases hlength : length=0
        · rw [if_neg (fun h => h hlength)]
          obtain ⟨hpos,hend⟩ := hreply hlength
          exact wp_pure.mpr ⟨haccepted,fun _ => ⟨hpos,fun hread _ => hend hread hwant⟩,
            fun hne => absurd rfl hne⟩
        · rw [if_pos hlength]
          refine wp_pure.mpr ⟨haccepted,?_,fun _ => ?_⟩
          · intro h
            cases h
          · show (-4 : ℤ)<0
            omega
      | window direct =>
        rw [hwindow] at hreply
        dsimp only
        by_cases hlarge : want<direct.length.toNat
        · rw [if_pos hlarge,wp_bind]
          have hrelease := @wp_callOptional σ pos accepted source.releaseDirect
            (directRead want s).2 fun f hf => hsource.releaseDirect f hf _
          refine wp_post hrelease ?_
          rintro _ t ⟨ht,-⟩
          refine wp_pure.mpr ⟨ht.trans haccepted,?_,fun _ => ?_⟩
          · intro h
            cases h
          · show (-5 : ℤ)<0
            omega
        · rw [if_neg hlarge]
          obtain ⟨hwin,hend⟩ := hreply (by omega)
          by_cases hempty : direct.length=0
          · rw [if_pos hempty]
            have hnil : direct.data.length=0 := by
              rw [direct.data_length,hempty]
              rfl
            have hpos := hwin.after_eq
            rw [hnil] at hpos
            exact wp_pure.mpr ⟨haccepted,fun _ => ⟨hpos,fun hread _ => hend hempty hread hwant⟩,
              fun hne => absurd rfl hne⟩
          · rw [if_neg hempty]
            have hpositive : 0<direct.length.toNat := by
              have hne : direct.length.toNat≠0 := fun h => hempty (UInt32.toNat_inj.mp h)
              omega
            refine wp_pure.mpr ⟨haccepted,?_,fun _ => ⟨hpositive,hwin⟩⟩
            intro h
            cases h

theorem wp_takeBlock (hsource : source.Obeys content stop pos accepted)
    (hreads : source.read≠none ∨ source.directRead≠none) {want : ℕ} (hwant : 0<want) (s : σ) :
    wp (takeBlock source want) (fun reply t => accepted t=accepted s ∧
      TakenFrom content stop want (pos s) (pos t) reply) (fun _ => False) s := by
  unfold takeBlock
  refine wp_seq (wp_takeWindow hsource hwant s) ?_
  rintro reply t ⟨haccepted,hnone,htaken⟩
  rcases reply with ret | (_ | block)
  · exact wp_pure.mpr ⟨haccepted,htaken (fun h => by cases h)⟩
  · obtain ⟨hpos,hend⟩ := hnone rfl
    dsimp only
    unfold takeBuffered
    cases hread : source.read with
    | none =>
      have hdirect : source.directRead≠none := hreads.resolve_left (fun h => h hread)
      exact wp_pure.mpr ⟨haccepted,hpos,hend hread hdirect⟩
    | some read =>
      dsimp only
      rw [wp_bind,wp_access]
      obtain ⟨hsame,hdelivers⟩ := hsource.read read hread want t
      rw [haccepted] at hsame
      by_cases hfailed : (read want t).1.1<0
      · rw [if_pos hfailed]
        exact wp_pure.mpr ⟨hsame,hfailed⟩
      · rw [if_neg hfailed]
        obtain ⟨hdata,hempty⟩ := hdelivers (by omega)
        rw [hpos] at hdata hempty
        by_cases hnil : (read want t).1.2=[]
        · rw [if_pos hnil]
          have hafter := hdata.after_eq
          rw [hnil] at hafter
          exact wp_pure.mpr ⟨hsame,hafter,hempty hnil hwant⟩
        · rw [if_neg hnil]
          exact wp_pure.mpr ⟨hsame,List.length_pos_iff.mpr hnil,hdata⟩
  · exact wp_pure.mpr ⟨haccepted,htaken (fun h => by cases h)⟩

/-- One block: the sink accepts its beginning, and all of it unless the copy is over. -/
theorem wp_copyBlock (hsource : source.Obeys content stop pos accepted)
    (hsink : sink.Obeys pos accepted) (hoptions : options.Obeys pos accepted)
    (hwrite : sink.write=some write) (blockSize : ℕ) (block : Block) (done : UInt64) (s : σ) :
    wp (copyBlock source sink options write blockSize block done) (fun ret t =>
      ∃ k,k≤block.got ∧ accepted t=accepted s++block.bytes.take k ∧
        (0≤ ret → k=block.got ∧ pos t=pos s)) (fun _ => False) s := by
  unfold copyBlock
  have hstart : accepted s=accepted s++block.bytes.take 0 := by
    rw [List.take_zero,List.append_nil]
  refine wp_seq (wp_writeBlock hsource hsink hwrite blockSize block (accepted s) block.got
    (Nat.zero_le _) (by omega) hstart) ?_
  rintro ret t ⟨hpos,k,hk,haccepted,hall⟩
  by_cases hover : ret<0
  · rw [if_pos hover]
    exact wp_pure.mpr ⟨k,hk,haccepted,fun h => by omega⟩
  · rw [if_neg hover,wp_bind]
    have hwhole := hall (by omega)
    refine wp_post (wp_releaseBlock hsource block t) ?_
    rintro released u ⟨hu,hposu⟩
    by_cases hfailed : released<0
    · rw [if_pos hfailed]
      exact wp_pure.mpr ⟨k,hk,hu.trans haccepted,fun h => by omega⟩
    · rw [if_neg hfailed]
      unfold reportProgress
      have hlook : ∀ f,options.progress.map (fun progress =>
          progress (done+UInt64.ofNat block.got) source.size)=some f →
          accepted (f u).2=accepted u ∧ pos (f u).2=pos u := by
        intro f hf
        obtain ⟨progress,hprogress,rfl⟩ := Option.map_eq_some_iff.mp hf
        exact hoptions progress hprogress _ _ u
      refine wp_post (wp_callOptional hlook) ?_
      rintro _ v ⟨hv,hposv⟩
      exact ⟨k,hk,hv.trans (hu.trans haccepted),
        fun _ => ⟨hwhole,hposv.trans (hposu.trans hpos)⟩⟩

/-- Within the announced size the counter is the number of bytes copied. -/
theorem toNat_done {size : UInt64} {n : ℕ} (hn : n≤ size.toNat) :
    (UInt64.ofNat n).toNat=n := by
  have hlt := size.toNat_lt
  have hsize : UInt64.size=2^64 := rfl
  exact UInt64.toNat_ofNat_of_lt' (by omega)

/-- Something is asked for in every round, and no more than was announced. -/
theorem wantedBytes_spec {size : UInt64} {n blockSize : ℕ} (hblock : 0<blockSize)
    (hmore : size=0 ∨ UInt64.ofNat n<size) (hn : size≠0 → n≤ size.toNat) :
    0<wantedBytes size (UInt64.ofNat n) blockSize ∧
      (size≠0 → n+wantedBytes size (UInt64.ofNat n) blockSize≤ size.toNat) := by
  unfold wantedBytes
  by_cases hsize : size=0
  · rw [if_neg (fun h => h hsize)]
    exact ⟨hblock,fun h => absurd hsize h⟩
  · have hlt := UInt64.lt_iff_toNat_lt.mp (hmore.resolve_left hsize)
    have hdone := toNat_done (hn hsize)
    have hsub : (size-UInt64.ofNat n).toNat=size.toNat-n := by
      rw [UInt64.toNat_sub_of_le _ _ (UInt64.le_iff_toNat_le.mpr (by omega)),hdone]
    rw [if_pos hsize,hsub]
    rw [hdone] at hlt
    refine ⟨by omega,fun _ => by omega⟩

/-- The sink has accepted so many bytes of the stream. -/
def Copied (content : ℕ → UInt8) (stop : Option ℕ) (start n : ℕ) (before after : List UInt8) :
    Prop :=
  after=before++slice content start n ∧ Within stop (start+n)

/-- So many bytes are all that the source has or has announced. -/
def Whole (stop : Option ℕ) (size : UInt64) (start n : ℕ) : Prop :=
  (size=0 → stop=some (start+n)) ∧ (size≠0 → n=size.toNat)

/-- What holds after the loop. -/
theorem wp_finishCopy (hsink : sink.Obeys pos accepted) {start n : ℕ} {before : List UInt8}
    {s : σ} (hcopied : Copied content stop start n before (accepted s))
    (hn : source.size≠0 → n≤ source.size.toNat) (hend : source.size=0 → stop=some (start+n)) :
    wp (finishCopy source sink options (UInt64.ofNat n)) (fun ret t =>
      Copied content stop start n before (accepted t) ∧
        (0≤ ret → Whole stop source.size start n)) (fun _ => False) s := by
  unfold finishCopy
  by_cases hshort : source.size≠0 ∧ UInt64.ofNat n≠source.size
  · rw [if_pos hshort]
    exact wp_pure.mpr ⟨hcopied,fun h => absurd h (by omega)⟩
  · rw [if_neg hshort]
    have hwhole : Whole stop source.size start n := by
      refine ⟨hend,fun hsize => ?_⟩
      have hdone : UInt64.ofNat n=source.size := by
        by_contra hne
        exact hshort ⟨hsize,hne⟩
      rw [← hdone,toNat_done (hn hsize)]
    by_cases hflush : options.flushOnFinish=true
    · rw [if_pos hflush]
      unfold callOptional
      cases hf : sink.flush with
      | none => exact wp_pure.mpr ⟨hcopied,fun _ => hwhole⟩
      | some flush =>
        refine wp_access.mpr ⟨?_,fun _ => hwhole⟩
        rw [hsink.flush flush hf s]
        exact hcopied
    · rw [if_neg hflush]
      exact wp_pure.mpr ⟨hcopied,fun _ => hwhole⟩

/-- The outer loop. It runs out of fuel only if this is not more than what the source has
left, and not more than what is left of the announced size. -/
theorem wp_copyBlocks (hsource : source.Obeys content stop pos accepted)
    (hsink : sink.Obeys pos accepted) (hoptions : options.Obeys pos accepted)
    (hwrite : sink.write=some write) (hreads : source.read≠none ∨ source.directRead≠none)
    {blockSize : ℕ} (hblock : 0<blockSize) {start : ℕ} {before : List UInt8} (fuel : ℕ)
    {n : ℕ} {s : σ} (hcopied : Copied content stop start n before (accepted s))
    (hpos : pos s=start+n) (hn : source.size≠0 → n≤ source.size.toNat) :
    wp (copyBlocks source sink options write blockSize fuel (UInt64.ofNat n))
      (fun ret t => ∃ m,Copied content stop start m before (accepted t) ∧
        (0≤ ret → Whole stop source.size start m))
      (fun t => (∃ m,Copied content stop start m before (accepted t)) ∧
        (∀ e,stop=some e → start+n+fuel≤e) ∧ (source.size≠0 → n+fuel≤ source.size.toNat)) s := by
  induction fuel generalizing n s with
  | zero => exact ⟨⟨n,hcopied⟩,hcopied.2,hn⟩
  | succ fuel ih =>
    have hfinish : (source.size=0 → stop=some (start+n)) → ∀ {t},accepted t=accepted s →
        wp (finishCopy source sink options (UInt64.ofNat n))
          (fun ret t => ∃ m,Copied content stop start m before (accepted t) ∧
            (0≤ ret → Whole stop source.size start m)) (fun t =>
          (∃ m,Copied content stop start m before (accepted t)) ∧
            (∀ e,stop=some e → start+n+(fuel+1)≤e) ∧
            (source.size≠0 → n+(fuel+1)≤ source.size.toNat)) t := by
      intro hend t ht
      rw [← ht] at hcopied
      exact wp_mono (wp_finishCopy hsink hcopied hn hend) (fun ret u h => ⟨n,h⟩)
        (fun _ h => h.elim)
    unfold copyBlocks
    by_cases hmore : source.size=0 ∨ UInt64.ofNat n<source.size
    · obtain ⟨hwant,hwanted⟩ := wantedBytes_spec hblock hmore hn
      rw [if_pos hmore,wp_bind]
      refine wp_mono (wp_takeBlock hsource hreads hwant s) ?_ (fun _ h => h.elim)
      rintro reply t ⟨ht,htaken⟩
      rw [hpos] at htaken
      rcases reply with ret | (_ | block)
      · have hneg : ret<0 := htaken
        refine wp_pure.mpr ⟨n,?_,fun h => by omega⟩
        rw [ht]
        exact hcopied
      · exact hfinish (fun _ => htaken.2) ht
      · obtain ⟨hgot,hdata⟩ := htaken
        have hlength := block.length_bytes
        have hle := hdata.length_le
        rw [hlength] at hle
        -- any beginning of the block continues the copy
        have hextend : ∀ {k u},k≤block.got → accepted u=accepted t++block.bytes.take k →
            Copied content stop start (n+k) before (accepted u) := by
          intro k u hk hu
          have hbytes := hdata.data_eq
          rw [hlength] at hbytes
          rw [hbytes,take_slice content (start+n) hk] at hu
          refine ⟨?_,fun e he => ?_⟩
          · rw [hu,ht,hcopied.1,List.append_assoc,slice_add]
          · have hwithin := hdata.within e he
            rw [hdata.after_eq,hlength] at hwithin
            omega
        dsimp only
        rw [wp_bind]
        refine wp_mono (wp_copyBlock hsource hsink hoptions hwrite blockSize block
          (UInt64.ofNat n) t) ?_ (fun _ h => h.elim)
        rintro ret u ⟨k,hk,hu,hall⟩
        by_cases hover : ret<0
        · rw [if_pos hover]
          exact wp_pure.mpr ⟨n+k,hextend hk hu,fun h => by omega⟩
        · rw [if_neg hover,← UInt64.ofNat_add]
          obtain ⟨hwhole,hposu⟩ := hall (by omega)
          have hnext := hextend hk hu
          rw [hwhole] at hnext
          have hafter := hdata.after_eq
          have hroom : source.size≠0 → n+block.got≤ source.size.toNat := fun hsize => by
            have hbound := hwanted hsize
            omega
          refine wp_mono (ih hnext (by omega) hroom) (fun _ _ h => h) ?_
          rintro v ⟨hlead,hstop,hsize⟩
          refine ⟨hlead,fun e he => ?_,fun hne => ?_⟩
          · have hbound := hstop e he
            omega
          · have hbound := hsize hne
            omega
    · rw [if_neg hmore]
      push Not at hmore
      exact hfinish (fun h => absurd h hmore.1) rfl

end Copying

/-- A copy that returns no error has copied all, whatever callback it has the result
from. -/
theorem clCopyStream_whole {source : CopySource σ} {sink : CopySink σ}
    {options : CopyOptions σ} {content : ℕ → UInt8} {stop : Option ℕ} {pos : σ → ℕ}
    {accepted : σ → List UInt8} (hsource : source.Obeys content stop pos accepted)
    (hsink : sink.Obeys pos accepted) (hoptions : options.Obeys pos accepted) (s : σ)
    (hstart : Within stop (pos s)) (fuel : ℕ) :
    (∃ n,Copied content stop (pos s) n (accepted s)
        (accepted (clCopyStream source sink options fuel s).2) ∧
      ∀ ret,(clCopyStream source sink options fuel s).1=some ret → 0≤ ret →
        Whole stop source.size (pos s) n) ∧
    ((∃ e,stop=some e ∧ e<pos s+fuel) ∨ (source.size≠0 ∧ source.size.toNat<fuel) →
      ∃ ret,(clCopyStream source sink options fuel s).1=some ret) := by
  have hnothing : Copied content stop (pos s) 0 (accepted s) (accepted s) := by
    refine ⟨?_,hstart⟩
    rw [slice,List.range_zero,List.map_nil,List.append_nil]
  -- a refused call returns at once
  have hrefused : ∀ ret : ℤ,ret<0 → (∃ n,Copied content stop (pos s) n (accepted s)
        (accepted ((pure ret : Prog σ ℤ) s).2) ∧
      ∀ r,((pure ret : Prog σ ℤ) s).1=some r → 0≤ r → Whole stop source.size (pos s) n) ∧
      ((∃ e,stop=some e ∧ e<pos s+fuel) ∨ (source.size≠0 ∧ source.size.toNat<fuel) →
        ∃ r,((pure ret : Prog σ ℤ) s).1=some r) := by
    intro ret hret
    refine ⟨⟨0,hnothing,fun r hr hpos => ?_⟩,fun _ => ⟨ret,rfl⟩⟩
    rw [← Option.some.inj hr] at hpos
    omega
  unfold clCopyStream
  cases hwrite : sink.write with
  | none => exact hrefused (-1) (by omega)
  | some write =>
    dsimp only
    split
    · exact hrefused (-1) (by omega)
    next hgiven =>
      split
      · exact hrefused (-2) (by omega)
      next hsize =>
        push Not at hgiven
        have hreads : source.read≠none ∨ source.directRead≠none := by
          by_contra hnone
          push Not at hnone
          have hdirect := hgiven.1 (by rw [hnone.1]; rfl)
          rw [hnone.2] at hdirect
          exact hdirect rfl
        have hblock : 0<(chooseBlockSize source sink options).toNat := by
          have hle := UInt32.le_iff_toNat_le.mp (UInt32.not_lt.mp hsize)
          have hfour : (4 : UInt32).toNat=4 := rfl
          omega
        have hrun := wp_copyBlocks hsource hsink hoptions hwrite hreads hblock fuel hnothing
          rfl (fun _ => Nat.zero_le _)
        unfold wp at hrun
        have hzero : UInt64.ofNat 0=0 := rfl
        rw [hzero] at hrun
        rcases hresult : copyBlocks source sink options write
            (chooseBlockSize source sink options).toNat fuel 0 s with ⟨_ | ret,t⟩ <;>
          rw [hresult] at hrun
        · obtain ⟨⟨n,hn⟩,hstop,hannounced⟩ := hrun
          refine ⟨⟨n,hn,fun _ h => by cases h⟩,?_⟩
          rintro (⟨e,he,hfuel⟩ | ⟨hne,hfuel⟩)
          · have hbound := hstop e he
            omega
          · have hbound := hannounced hne
            omega
        · obtain ⟨n,hn,hwhole⟩ := hrun
          refine ⟨⟨n,hn,fun r hr hpos => hwhole ?_⟩,fun _ => ⟨ret,rfl⟩⟩
          rw [Option.some.inj hr]
          exact hpos

/-- A copy between a source and a sink that obey their interfaces. At every return, and at
every prefix of an endless copy, the sink has accepted the beginning of the stream; if the
result is zero this is all that the source has, or as much as it has announced. If the
stream ends or a size is announced, the copy returns. -/
theorem clCopyStream_exact (source : CopySource σ) (sink : CopySink σ)
    (options : CopyOptions σ) (content : ℕ → UInt8) (stop : Option ℕ) (pos : σ → ℕ)
    (accepted : σ → List UInt8) (hsource : source.Obeys content stop pos accepted)
    (hsink : sink.Obeys pos accepted) (hoptions : options.Obeys pos accepted) (s : σ)
    (hstart : Within stop (pos s)) (fuel : ℕ) :
    (∃ n,Copied content stop (pos s) n (accepted s)
        (accepted (clCopyStream source sink options fuel s).2) ∧
      ((clCopyStream source sink options fuel s).1=some 0 →
        Whole stop source.size (pos s) n)) ∧
    ((∃ e,stop=some e ∧ e<pos s+fuel) ∨ (source.size≠0 ∧ source.size.toNat<fuel) →
      ∃ ret,(clCopyStream source sink options fuel s).1=some ret) := by
  obtain ⟨⟨n,hn,hwhole⟩,hreturns⟩ :=
    clCopyStream_whole hsource hsink hoptions s hstart fuel
  exact ⟨⟨n,hn,fun h => hwhole 0 h (le_refl _)⟩,hreturns⟩

/-- A source of three bytes in windows of two at most. -/
def smallSource : CopySource (Fin 4×List UInt8) where
  read := none
  directRead := some fun want s =>
    let count := min (min want 2) (3-s.1.val)
    ((0,.window
      { data := slice UInt8.ofNat s.1 count
        length := UInt32.ofNat count
        data_length := by
          rw [length_slice,UInt32.toNat_ofNat_of_lt' (by unfold UInt32.size; omega)]
        access := .bytes }),(⟨s.1.val+count,by omega⟩,s.2))
  releaseDirect := some fun s => (0,s)
  size := 0
  preferredBlockSize := 0
  maxBlockSize := 0

/-- A sink that accepts one byte of each write. -/
def smallSink : CopySink (Fin 4×List UInt8) where
  write := some fun data s => ((0,min 1 data.length),(s.1,s.2++data.take 1))
  directWrite := none
  flush := none
  preferredBlockSize := 0
  maxBlockSize := 0

/-- A buffer of four bytes. -/
def smallOptions : CopyOptions (Fin 4×List UInt8) := ⟨true,4,0,none,false⟩

/-- The copy of the three bytes. -/
theorem clCopyStream_exact_small :
    (∃ n,Copied UInt8.ofNat (some 3) 0 n []
        (clCopyStream smallSource smallSink smallOptions 4 (0,[])).2.2 ∧
      ((clCopyStream smallSource smallSink smallOptions 4 (0,[])).1=some 0 →
        Whole (some 3) 0 0 n)) ∧
    ((∃ e,some 3=some e ∧ e<0+4) ∨ ((0 : UInt64)≠0 ∧ (0 : UInt64).toNat<4) →
      ∃ ret,(clCopyStream smallSource smallSink smallOptions 4 (0,[])).1=some ret) := by
  refine clCopyStream_exact smallSource smallSink smallOptions UInt8.ofNat (some 3)
    (fun s => s.1.val) Prod.snd ⟨?_,?_,?_⟩ ⟨?_,?_,?_⟩ ?_ (0,[]) ?_ 4
  · exact fun read h => by cases h
  · rintro directRead h want s
    cases h
    refine ⟨rfl,fun _ _ => ⟨⟨?_,?_,?_,?_⟩,?_⟩⟩
    · rw [length_slice]
      omega
    · rw [length_slice]
    · rw [length_slice]
    · intro e he
      have hend := Option.some.inj he
      dsimp only
      omega
    · intro hzero _ hwant
      have hnat : (UInt32.ofNat (min (min want 2) (3-s.1.val))).toNat=0 :=
        congrArg UInt32.toNat hzero
      rw [UInt32.toNat_ofNat_of_lt' (by unfold UInt32.size; omega)] at hnat
      have hthree : s.1.val=3 := by omega
      rw [hthree]
  · rintro release h s
    cases h
    exact ⟨rfl,rfl⟩
  · rintro write h data s
    cases h
    refine ⟨rfl,min 1 data.length,by omega,?_,fun _ => rfl⟩
    dsimp only
    rw [List.take_eq_take_min]
  · exact fun directWrite h => by cases h
  · exact fun flush h => by cases h
  · exact fun progress h => by cases h
  · exact fun e he => Nat.zero_le e

end ChisLink.CopyStream
