import Mathlib.Tactic.IntervalCases
import ChisLink.StorageClient

/-!
# Frame boundaries of the storage client

An operation leaves the link on a frame boundary if it exchanges the whole
payload of every answer it accepts. The operations read the payload only of the
answers they expect; for each operation there is an exact condition on the
answer. The record of an operation is a sequence of frames: a command, the words
sent and skipped, and possibly an accepted answer with the words read of it.
-/

namespace ChisLink.StorageBoundary

open DriverPrograms WireProtocol StorageClient

variable {δ : Type}

/-- The storage operations with their arguments. -/
inductive StorageRequest where
  /-- Open a path. -/
  | openPath (path : CString) (flags : UInt32)
  /-- Close a handle. -/
  | close (handle : UInt16)
  /-- Read into memory. -/
  | read (handle : UInt16) (length : UInt32)
  /-- Read through a word writer. -/
  | readWithWriter (handle : UInt16) (length : UInt32)
  /-- Write a part of a window. -/
  | writeDirect (handle : UInt16) (window : DirectWindow) (offset length : UInt32)
  /-- Write a buffer. -/
  | write (handle : UInt16) (src : List UInt8) (length : UInt32)
      (h : src.length=length.toNat)
  /-- Move the position. -/
  | seek (handle : UInt16) (offset : UInt64)
  /-- Flush a handle. -/
  | flush (handle : UInt16)
  /-- Metadata of a path. -/
  | stat (path : CString)
  /-- Metadata of a handle. -/
  | fstat (handle : UInt16)
  /-- Entries of a directory. -/
  | list (path : CString) (startIndex maxEntries capacity : UInt32)
  /-- Checksums of a file, with flags. -/
  | crc32Ex (path : CString) (offset length : UInt64) (chunkSize flags maxChunks : UInt32)
  /-- Checksums of a file. -/
  | crc32 (path : CString) (offset length : UInt64) (chunkSize maxChunks : UInt32)
  /-- Copy a file. -/
  | copy (srcPath dstPath : CString) (flags : UInt32)
  /-- Remove a path. -/
  | remove (path : CString)
  /-- Make a directory. -/
  | mkdir (path : CString)
  /-- Rename a path. -/
  | rename (oldPath newPath : CString)

/-- Run an operation and keep its code. -/
def codeOf {α : Type} (run : Prog (Link δ) (Except ℤ α)) : Prog (Link δ) ℤ := do
  let result ← run
  match result with
  | .error code => pure code
  | .ok _ => pure 0

/-- Run a write and keep its code. -/
def writeCode (run : Prog (Link δ) (ℤ×UInt32)) : Prog (Link δ) ℤ := do
  let result ← run
  pure result.1

/-- Carry out an operation. -/
def perform (storage : Storage δ) : StorageRequest → Prog (Link δ) ℤ
  | .openPath path flags => codeOf (clStorageOpen storage path flags)
  | .close handle => codeOf (clStorageClose storage handle)
  | .read handle length => codeOf (clStorageRead storage handle length)
  | .readWithWriter handle length => codeOf (clStorageReadWithWriter storage handle length)
  | .writeDirect handle window offset length =>
    writeCode (clStorageWriteDirect storage handle window offset length)
  | .write handle src length h => writeCode (clStorageWrite storage handle src length h)
  | .seek handle offset => codeOf (clStorageSeek storage handle offset)
  | .flush handle => codeOf (clStorageFlush storage handle)
  | .stat path => codeOf (clStorageStat storage path)
  | .fstat handle => codeOf (clStorageFstat storage handle)
  | .list path startIndex maxEntries capacity =>
    codeOf (clStorageList storage path startIndex maxEntries capacity)
  | .crc32Ex path offset length chunkSize flags maxChunks =>
    codeOf (clStorageCrc32Ex storage path offset length chunkSize flags maxChunks)
  | .crc32 path offset length chunkSize maxChunks =>
    codeOf (clStorageCrc32 storage path offset length chunkSize maxChunks)
  | .copy srcPath dstPath flags => codeOf (clStorageCopy storage srcPath dstPath flags)
  | .remove path => codeOf (clStorageRemove storage path)
  | .mkdir path => codeOf (clStorageMkdir storage path)
  | .rename oldPath newPath => codeOf (clStorageRename storage oldPath newPath)

/-- An answer whose payload no operation would read: it has none. -/
def SettlesStatus (answer : ClpHeader×List UInt32) : Prop := answer.1.length=0

/-- The answer has no payload, or it is a success with the one expected length. -/
def SettlesExact (expected : UInt32) (answer : ClpHeader×List UInt32) : Prop :=
  answer.1.length=0 ∨ (answer.1.imm=clpStatusOk ∧ answer.1.length=expected)

/-- The payload is received as a whole by a hook, or its length can be rounded up
to words in thirty-two bits. -/
def Receivable (hook : Option ((length : UInt32) → Bulk δ length)) (length : UInt32) : Prop :=
  (fastHook hook length).isSome ∨ length≤0xfffffffc

/-- The answer to a read has no payload, or it is a success no longer than the
read and can be received. -/
def SettlesRead (hook : Option ((length : UInt32) → Bulk δ length)) (length : UInt32)
    (answer : ClpHeader×List UInt32) : Prop :=
  answer.1.length=0 ∨
    (answer.1.imm=clpStatusOk ∧ answer.1.length≤length ∧ Receivable hook answer.1.length)

/-- The answer to a list has no payload, or it is a success that has the header
and fits in the buffer. -/
def SettlesList (capacity : UInt32) (answer : ClpHeader×List UInt32) : Prop :=
  answer.1.length=0 ∨
    (answer.1.imm=clpStatusOk ∧ clpStorageListResponseHeaderBytes≤answer.1.length ∧
      answer.1.length≤ capacity ∧ answer.1.length≤0xfffffffc)

/-- The answer to a CRC command has no payload, or it is a success with a whole
number of checksums, not more than asked for, and its third word agrees with
their number or there are none. -/
def SettlesCrc (maxChunks : UInt32) (answer : ClpHeader×List UInt32) : Prop :=
  answer.1.length=0 ∨
    (answer.1.imm=clpStatusOk ∧ clpStorageCrc32ResponseFixedBytes≤answer.1.length ∧
      (answer.1.length-clpStorageCrc32ResponseFixedBytes)%4=0 ∧
      wireChunks answer.1.length≤ maxChunks ∧
      (wireChunks answer.1.length=0 ∨
        answer.2[2]?=some (wireChunks answer.1.length)))

/-- The condition on an answer under which an operation reads all of its payload. -/
def Settles (storage : Storage δ) : StorageRequest → ClpHeader×List UInt32 → Prop
  | .openPath _ _ => SettlesExact 4
  | .read _ length => SettlesRead storage.transport.readPayload length
  | .readWithWriter _ length => SettlesRead storage.transport.readPayloadWriter length
  | .writeDirect _ _ _ _ | .write _ _ _ _ => SettlesExact 4
  | .stat _ | .fstat _ => SettlesExact clpStorageStatResponseBytes
  | .list _ _ _ capacity => SettlesList capacity
  | .crc32Ex _ _ _ _ _ maxChunks | .crc32 _ _ _ _ maxChunks => SettlesCrc maxChunks
  | .close _ | .seek _ _ | .flush _ | .copy _ _ _ | .remove _ | .mkdir _ | .rename _ _ =>
    SettlesStatus

/-- The events of words that were exchanged. -/
def wordEvents (pairs : List (UInt32×UInt32)) : List LinkEvent :=
  pairs.map fun pair => .word pair.1 pair.2

@[simp] theorem wordEvents_append (first second : List (UInt32×UInt32)) :
    wordEvents (first++second)=wordEvents first++wordEvents second := by
  simp [wordEvents]

@[simp] theorem payloadOf_wordEvents (pairs : List (UInt32×UInt32)) (rest : List LinkEvent) :
    payloadOf (wordEvents pairs++rest)=pairs.map Prod.snd++payloadOf rest := by
  induction pairs with
  | nil => rfl
  | cons pair pairs ih =>
    have hcons : payloadOf (wordEvents (pair::pairs)++rest)=
        pair.2::payloadOf (wordEvents pairs++rest) := rfl
    rw [hcons,ih]
    rfl

@[simp] theorem exchanged_wordEvents (pairs : List (UInt32×UInt32)) (rest : List LinkEvent) :
    exchanged (wordEvents pairs++rest)=exchanged rest := by
  induction pairs with
  | nil => rfl
  | cons pair pairs ih =>
    have hcons : exchanged (wordEvents (pair::pairs)++rest)=
        exchanged (wordEvents pairs++rest) := rfl
    rw [hcons,ih]

/-- A record that consists of frames, where each accepted answer is read as a
whole exactly under the condition. -/
inductive Framed (C : ClpHeader×List UInt32 → Prop) : List LinkEvent → Prop where
  /-- Nothing was sent. -/
  | nil : Framed C []
  /-- A command without an accepted answer. -/
  | unanswered (header : ClpHeader) (pairs : List (UInt32×UInt32)) {rest : List LinkEvent} :
      Framed C rest → Framed C (.command header::(wordEvents pairs++rest))
  /-- A command with an accepted answer and the words read of its payload. -/
  | answered (header : ClpHeader) (pairs : List (UInt32×UInt32)) (response : ClpHeader)
      (payload : List (UInt32×UInt32)) {rest : List LinkEvent} :
      (OnBoundary (response,payload.map Prod.snd) ↔ C (response,payload.map Prod.snd)) →
      Framed C rest →
      Framed C (.command header::(wordEvents pairs++
        .accepted response::(wordEvents payload++rest)))

/-- After a frame the record goes on with a command or ends. -/
theorem Framed.payloadOf {C : ClpHeader×List UInt32 → Prop} {events : List LinkEvent}
    (h : Framed C events) : payloadOf events=[] := by
  cases h <;> rfl

/-- Frames follow each other. -/
theorem Framed.append {C : ClpHeader×List UInt32 → Prop} {first second : List LinkEvent}
    (hfirst : Framed C first) (hsecond : Framed C second) : Framed C (first++second) := by
  induction hfirst with
  | nil => exact hsecond
  | unanswered header pairs _ ih =>
    simpa only [List.cons_append,List.append_assoc] using Framed.unanswered header pairs ih
  | answered header pairs response payload hiff _ ih =>
    simpa only [List.cons_append,List.append_assoc] using
      Framed.answered header pairs response payload hiff ih

/-- In a framed record each accepted answer meets the boundary exactly under the
condition. -/
theorem Framed.exchanged {C : ClpHeader×List UInt32 → Prop} {events : List LinkEvent}
    (h : Framed C events) : ∀ answer∈exchanged events,OnBoundary answer ↔ C answer := by
  induction h with
  | nil => simp [WireProtocol.exchanged]
  | unanswered header pairs _ ih =>
    simpa only [WireProtocol.exchanged,exchanged_wordEvents] using ih
  | answered header pairs response payload hiff hrest ih =>
    simp only [WireProtocol.exchanged,exchanged_wordEvents,payloadOf_wordEvents,
      hrest.payloadOf,List.append_nil,List.mem_cons]
    rintro answer (rfl | hmem)
    · exact hiff
    · exact ih answer hmem

section Transport

variable (transport : Transport δ)

theorem emits_xfer (sent : UInt32) :
    Emits Link.log (xfer transport sent)
      (fun received events => events=[.word sent received]) :=
  emits_access fun _ => ⟨_,rfl,rfl⟩

theorem emits_mark (event : LinkEvent) :
    Emits (Link.log (δ := δ)) (mark event) (fun _ events => events=[event]) :=
  emits_update (fun _ => rfl) rfl

theorem emits_setClient (f : Client → Client) :
    Emits (Link.log (δ := δ)) (setClient f) (fun _ events => events=[]) :=
  emits_update (fun _ => (List.append_nil _).symm) rfl

/-- Words that are sent are in the record as they were given. -/
theorem emits_sendWords_sent (words : List UInt32) :
    Emits Link.log (sendWords transport words)
      (fun _ events => ∃ pairs,events=wordEvents pairs ∧ pairs.map Prod.fst=words) := by
  induction words with
  | nil => exact emits_pure ⟨[],rfl,rfl⟩
  | cons word words ih =>
    refine (emits_xfer transport word).bind ?_
    rintro received _ rfl
    refine ih.mono ?_
    rintro _ _ ⟨pairs,rfl,hsent⟩
    refine ⟨(word,received)::pairs,rfl,?_⟩
    rw [List.map_cons,hsent]

/-- Sending words adds only their exchanges. -/
theorem emits_sendWords (words : List UInt32) :
    Emits Link.log (sendWords transport words)
      (fun _ events => ∃ pairs,events=wordEvents pairs) := by
  refine (emits_sendWords_sent transport words).mono ?_
  rintro _ _ ⟨pairs,rfl,-⟩
  exact ⟨pairs,rfl⟩

/-- Receiving words adds as many exchanges. -/
theorem emits_receiveWords (count : ℕ) :
    Emits Link.log (receiveWords transport count)
      (fun words events => ∃ pairs,events=wordEvents pairs ∧
        words=pairs.map Prod.snd ∧ pairs.length=count) := by
  induction count with
  | zero => exact emits_pure ⟨[],rfl,rfl,rfl⟩
  | succ count ih =>
    refine (emits_xfer transport nopWord).bind ?_
    rintro received _ rfl
    refine ih.bind ?_
    rintro words _ ⟨pairs,rfl,rfl,hlen⟩
    refine emits_pure ⟨(nopWord,received)::pairs,?_,rfl,?_⟩
    · simp [wordEvents]
    · simp [hlen]

/-- A hook adds as many exchanges as its payload has words. -/
theorem emits_callHook {length : UInt32} (hook : Bulk δ length) :
    Emits Link.log (callHook hook)
      (fun reply events => ∃ pairs,events=wordEvents pairs ∧
        reply.2=pairs.map Prod.snd ∧ pairs.length=wordCount length) := by
  refine emits_access fun s => ⟨_,rfl,(hook s.device).1.2.toList,rfl,rfl,?_⟩
  exact (hook s.device).1.2.toList_length

theorem emits_badPacket :
    Emits (Link.log (δ := δ)) badPacket (fun _ events => events=[]) :=
  emits_setClient _

theorem emits_clClientNextSeq :
    Emits (Link.log (δ := δ)) clClientNextSeq (fun _ events => events=[]) :=
  emits_access fun _ => ⟨[],(List.append_nil _).symm,rfl⟩

theorem emits_acceptResponse (response : ClpHeader) :
    Emits (Link.log (δ := δ)) (acceptResponse response)
      (fun _ events => events=[.accepted response]) := by
  refine (emits_setClient _).bind ?_
  rintro _ _ rfl
  exact emits_mark _

/-- Events of a wait for an answer: words, and a mark at the end if it was accepted. -/
def Awaited (result : Except ℤ ClpHeader) (events : List LinkEvent) : Prop :=
  ∃ pairs,events=match result with
    | .error _ => wordEvents pairs
    | .ok response => wordEvents pairs++[.accepted response]

/-- One more word before a wait. -/
theorem Awaited.cons {result : Except ℤ ClpHeader} {events : List LinkEvent}
    (h : Awaited result events) (sent received : UInt32) :
    Awaited result (.word sent received::events) := by
  obtain ⟨pairs,rfl⟩ := h
  refine ⟨(sent,received)::pairs,?_⟩
  cases result <;> rfl

theorem emits_rejected (code : ℤ) :
    Emits (Link.log (δ := δ)) (do badPacket; pure (.error code)) Awaited := by
  refine emits_badPacket.bind ?_
  rintro _ _ rfl
  exact emits_pure ⟨[],rfl⟩

theorem emits_acceptedAnswer (response : ClpHeader) :
    Emits (Link.log (δ := δ)) (do acceptResponse response; pure (.ok response))
      Awaited := by
  refine (emits_acceptResponse response).bind ?_
  rintro _ _ rfl
  exact emits_pure ⟨[],rfl⟩

/-- A word is received, and what follows is a wait. -/
theorem emits_xfer_awaited {f : UInt32 → Prog (Link δ) (Except ℤ ClpHeader)}
    (hf : ∀ received,Emits Link.log (f received) Awaited) :
    Emits Link.log (xfer transport nopWord >>= f) Awaited := by
  refine (emits_xfer transport nopWord).bind ?_
  rintro received _ rfl
  exact (hf received).mono fun _ _ h => h.cons nopWord received

theorem emits_readResponseFrom (channel opcode : UInt8) (seq : UInt16) (attempts : ℕ) :
    Emits Link.log (readResponseFrom transport channel opcode seq attempts) Awaited := by
  induction attempts with
  | zero => exact emits_rejected (-2)
  | succ attempts ih =>
    refine emits_xfer_awaited transport fun first => ?_
    split
    · exact ih
    · split
      · split
        · exact emits_rejected (-2)
        · exact emits_acceptedAnswer _
      · split
        · exact emits_rejected (-2)
        · refine emits_xfer_awaited transport fun w1 => ?_
          refine emits_xfer_awaited transport fun w2 => ?_
          refine emits_xfer_awaited transport fun w3 => ?_
          split
          · split
            · exact emits_acceptedAnswer _
            · exact emits_rejected (-2)
          · exact emits_rejected (-2)

/-- The payload words of an answer are read, as many as it has exactly under the
condition. -/
def Drained (C : ClpHeader×List UInt32 → Prop) (response : ClpHeader)
    (events : List LinkEvent) : Prop :=
  ∃ pairs,events=wordEvents pairs ∧
    (OnBoundary (response,pairs.map Prod.snd) ↔ C (response,pairs.map Prod.snd))

theorem emits_beginCommand (opcode : UInt8) (length : UInt32) :
    Emits Link.log (beginCommand transport opcode length)
      (fun _ events => ∃ header pairs,events=.command header::wordEvents pairs) := by
  refine emits_clClientNextSeq.bind ?_
  rintro seq _ rfl
  refine (emits_mark _).bind ?_
  rintro _ _ rfl
  refine (emits_sendWords transport _).bind ?_
  rintro _ _ ⟨pairs,rfl⟩
  exact emits_pure ⟨storageHeader opcode length seq,pairs,by simp⟩

/-- The shape of a frame whose answer is being waited for. -/
def Commanded (result : Except ℤ ClpHeader) (events : List LinkEvent) : Prop :=
  ∃ header tail,events=.command header::tail ∧ Awaited result tail

theorem emits_sendCommand (storage : Storage δ) (opcode : UInt8) (payload : List UInt8) :
    Emits Link.log (sendCommand storage opcode payload) Commanded := by
  refine (emits_beginCommand storage.transport opcode _).bind ?_
  rintro seq _ ⟨header,first,rfl⟩
  refine (emits_sendWords storage.transport _).bind ?_
  rintro _ _ ⟨second,rfl⟩
  refine (emits_readResponseFrom storage.transport _ _ _ _).mono ?_
  rintro result _ ⟨pairs,rfl⟩
  refine ⟨header,_,rfl,first++second++pairs,?_⟩
  cases result <;> simp

/-- A frame that was waited for and is drained. -/
theorem Commanded.framed {C : ClpHeader×List UInt32 → Prop} {response : ClpHeader}
    {first events : List LinkEvent} (h : Commanded (.ok response) first)
    (hd : Drained C response events) : Framed C (first++events) := by
  obtain ⟨header,_,rfl,pairs,rfl⟩ := h
  obtain ⟨payload,rfl,hiff⟩ := hd
  simpa using Framed.answered header pairs response payload hiff .nil

/-- A frame whose answer was not accepted. -/
theorem Commanded.framed_of_error {C : ClpHeader×List UInt32 → Prop} {code : ℤ}
    {first : List LinkEvent} (h : Commanded (.error code) first) : Framed C first := by
  obtain ⟨header,_,rfl,pairs,rfl⟩ := h
  simpa using Framed.unanswered header pairs .nil

/-- A command with one answer is framed if what follows the answer drains it. -/
theorem emits_withResponse {α : Type} {C : ClpHeader×List UInt32 → Prop}
    (storage : Storage δ) (opcode : UInt8) (payload : List UInt8)
    {finish : ClpHeader → Prog (Link δ) (Except ℤ α)}
    (hfinish : ∀ response,
      Emits Link.log (finish response) (fun _ events => Drained C response events)) :
    Emits Link.log (withResponse storage opcode payload finish)
      (fun _ events => Framed C events) := by
  refine (emits_sendCommand storage opcode payload).bind ?_
  rintro result first hfirst
  cases result with
  | error code =>
    refine emits_pure ?_
    rw [List.append_nil]
    exact hfirst.framed_of_error
  | ok response => exact (hfinish response).mono fun _ _ hd => hfirst.framed hd

theorem emits_refuse {α : Type} {C : ClpHeader×List UInt32 → Prop} (code : ℤ) :
    Emits (Link.log (δ := δ)) (refuse code : Prog (Link δ) (Except ℤ α))
      (fun _ events => Framed C events) :=
  emits_pure .nil

end Transport

section Lengths

/-- Only the empty payload has no words. -/
theorem wordCount_eq_zero {length : UInt32} : wordCount length=0 ↔ length=0 := by
  unfold wordCount
  rw [← UInt32.toNat_inj]
  simp only [UInt32.toNat_ofNat]
  omega

/-- Rounding up a length wraps around in thirty-two bits. -/
theorem clpAlignedLength_words (length : UInt32) :
    (clpAlignedLength length).toNat/4=(length.toNat+3)%2^32/4 := by
  have hround : ∀ n : ℕ,n<2^32 → (n &&& 0xfffffffc)/4=n/4 := by
    intro n hn
    have hshift : (n &&& 0xfffffffc) >>> 2=n >>> 2 &&& (2^30-1) := by
      rw [Nat.shiftRight_and_distrib]
      rfl
    rw [Nat.and_two_pow_sub_one_eq_mod,Nat.shiftRight_eq_div_pow,
      Nat.shiftRight_eq_div_pow] at hshift
    omega
  have hmask : (~~~3 : UInt32).toNat=0xfffffffc := by decide
  unfold clpAlignedLength
  rw [UInt32.toNat_and,hmask,UInt32.toNat_add]
  exact hround _ (Nat.mod_lt _ (by decide))

/-- A payload is received as a whole word by word unless its length is one of the
last three. -/
theorem words_eq_wordCount {length : UInt32} :
    (clpAlignedLength length).toNat/4=wordCount length ↔ length≤0xfffffffc := by
  rw [clpAlignedLength_words,UInt32.le_iff_toNat_le]
  unfold wordCount
  have hlt := length.toNat_lt
  have hmax : (0xfffffffc : UInt32).toNat=2^32-4 := by decide
  omega

/-- An answer to a CRC command has three words before its checksums. -/
theorem crc_length {length : UInt32} (hlow : clpStorageCrc32ResponseFixedBytes≤length)
    (hmod : (length-clpStorageCrc32ResponseFixedBytes)%4=0) :
    length.toNat=12+4*(wireChunks length).toNat := by
  have hfixed : clpStorageCrc32ResponseFixedBytes.toNat=12 := rfl
  have hfour : (4 : UInt32).toNat=4 := rfl
  have hzero : (0 : UInt32).toNat=0 := rfl
  have hle := UInt32.le_iff_toNat_le.mp hlow
  have hsub := UInt32.toNat_sub_of_le _ _ hlow
  have hmod' := congrArg UInt32.toNat hmod
  unfold wireChunks
  rw [UInt32.toNat_div,hsub,hfixed,hfour]
  rw [UInt32.toNat_mod,hsub,hfixed,hfour,hzero] at hmod'
  omega

/-- Words of the checksums of a CRC answer. -/
theorem crc_words {length : UInt32} (hlow : clpStorageCrc32ResponseFixedBytes≤length)
    (hmod : (length-clpStorageCrc32ResponseFixedBytes)%4=0) :
    wordCount length=3+wordCount (wireChunks length*4) ∧ wireChunks length*4≤0xfffffffc := by
  have hlen := crc_length hlow hmod
  have hlt := length.toNat_lt
  have hmul : (wireChunks length*4).toNat=(wireChunks length).toNat*4 := by
    have hfour : (4 : UInt32).toNat=4 := rfl
    rw [UInt32.toNat_mul,hfour]
    omega
  have hmax : (0xfffffffc : UInt32).toNat=2^32-4 := by decide
  unfold wordCount
  rw [UInt32.le_iff_toNat_le,hmul,hlen,hmax]
  omega

/-- A word that was stored is loaded again. -/
theorem loadLe32_storeLe32 (word : UInt32) : loadLe32 (storeLe32 word 4)=word := by
  have hstore : storeLe32 word 4=[(word >>> 0).toUInt8,(word >>> 8).toUInt8,
      (word >>> 16).toUInt8,(word >>> 24).toUInt8] := rfl
  rw [hstore]
  simp only [loadLe32,List.take,List.zipIdx,List.foldl]
  apply UInt32.toBitVec_inj.mp
  ext i hi
  simp [-UInt32.toUInt32_toUInt8]
  interval_cases i <;> simp

/-- Nothing is read of an answer; this is its whole payload if it has none. -/
theorem drained_nothing {C : ClpHeader×List UInt32 → Prop} {response : ClpHeader}
    (h : C (response,[]) ↔ response.length=0) : Drained C response [] := by
  refine ⟨[],rfl,?_⟩
  have hb : OnBoundary (response,[]) ↔ response.length=0 := by
    unfold OnBoundary
    rw [← wordCount_eq_zero]
    exact eq_comm
  exact hb.trans h.symm

/-- All words of an answer are read. -/
theorem drained_all {C : ClpHeader×List UInt32 → Prop} {response : ClpHeader}
    {pairs : List (UInt32×UInt32)} (hlen : pairs.length=wordCount response.length)
    (h : C (response,pairs.map Prod.snd)) : Drained C response (wordEvents pairs) := by
  refine ⟨pairs,rfl,?_⟩
  have hb : OnBoundary (response,pairs.map Prod.snd) := by
    unfold OnBoundary
    rw [List.length_map]
    exact hlen
  exact iff_of_true hb h

end Lengths

section Operations

variable (storage : Storage δ)

/-- A payload of fixed small length is received. -/
theorem emits_readPayloadWords (transport : Transport δ) (length : UInt32) :
    Emits Link.log (readPayloadWords transport length)
      (fun payload events => ∃ pairs,events=wordEvents pairs ∧
        payload=payloadBytes (pairs.map Prod.snd) length ∧
        pairs.length=(clpAlignedLength length).toNat/4) := by
  refine (emits_receiveWords transport _).bind ?_
  rintro words _ ⟨pairs,rfl,rfl,hlen⟩
  refine emits_pure ⟨pairs,?_,rfl,hlen⟩
  rw [List.append_nil]

/-- A payload is received through a hook or word by word. -/
theorem emits_receiveFastOrWords (transport : Transport δ)
    (hook : Option ((length : UInt32) → Bulk δ length)) (length : UInt32) :
    Emits Link.log (receiveFastOrWords transport hook length)
      (fun _ events => ∃ pairs,events=wordEvents pairs ∧
        (pairs.length=wordCount length ↔ Receivable hook length)) := by
  unfold receiveFastOrWords Receivable
  cases hhook : fastHook hook length with
  | some bulk =>
    refine (emits_callHook bulk).bind ?_
    rintro reply _ ⟨pairs,rfl,-,hlen⟩
    have hiff : pairs.length=wordCount length ↔
        ((some bulk).isSome=true ∨ length≤0xfffffffc) :=
      iff_of_true hlen (Or.inl rfl)
    split
    · refine (emits_setClient _).bind ?_
      rintro _ _ rfl
      exact emits_pure ⟨pairs,by simp,hiff⟩
    · exact emits_pure ⟨pairs,by simp,hiff⟩
  | none =>
    refine (emits_receiveWords transport _).bind ?_
    rintro words _ ⟨pairs,rfl,-,hlen⟩
    refine emits_pure ⟨pairs,by simp,?_⟩
    rw [hlen,words_eq_wordCount]
    simp

/-- A status command reads no payload. -/
theorem emits_statusCommand (opcode : UInt8) (payload : List UInt8) :
    Emits Link.log (statusCommand storage opcode payload)
      (fun _ events => Framed SettlesStatus events) :=
  emits_withResponse storage opcode payload fun _ => emits_pure (drained_nothing Iff.rfl)

/-- An answer is refused without reading it unless it is the expected success. -/
theorem settlesExact_of_unexpected {expected : UInt32} {response : ClpHeader}
    (h : response.imm≠clpStatusOk ∨ response.length≠expected) :
    SettlesExact expected (response,[]) ↔ response.length=0 := by
  unfold SettlesExact
  constructor
  · rintro (hzero | ⟨himm,hlen⟩)
    · exact hzero
    · exact absurd hlen (h.resolve_left (not_not_intro himm))
  · exact Or.inl

/-- The expected success is read as a whole. -/
theorem drained_exact {expected : UInt32} {response : ClpHeader}
    {pairs : List (UInt32×UInt32)}
    (h : ¬(response.imm≠clpStatusOk ∨ response.length≠expected))
    (hlen : pairs.length=wordCount expected) :
    Drained (SettlesExact expected) response (wordEvents pairs) := by
  push Not at h
  refine drained_all ?_ (Or.inr h)
  rw [hlen,h.2]

theorem emits_clStorageOpen (path : CString) (flags : UInt32) :
    Emits Link.log (clStorageOpen storage path flags)
      (fun _ events => Framed (SettlesExact 4) events) := by
  unfold clStorageOpen
  split
  · exact emits_refuse _
  · split
    · refine emits_withResponse storage _ _ fun response => ?_
      split
      next h => exact emits_pure (drained_nothing (settlesExact_of_unexpected h))
      next h =>
        refine (emits_readPayloadWords storage.transport 4).bind ?_
        rintro payload _ ⟨pairs,rfl,-,hlen⟩
        refine emits_pure ?_
        rw [List.append_nil]
        exact drained_exact h hlen
    · exact emits_refuse _

theorem emits_clStorageStat (path : CString) :
    Emits Link.log (clStorageStat storage path)
      (fun _ events => Framed (SettlesExact clpStorageStatResponseBytes) events) := by
  unfold clStorageStat
  split
  · exact emits_refuse _
  · split
    · refine emits_withResponse storage _ _ fun response => ?_
      split
      next himm =>
        refine (emits_setClient _).bind ?_
        rintro _ _ rfl
        exact emits_pure (drained_nothing (settlesExact_of_unexpected (Or.inl himm)))
      next himm =>
        split
        next hlength =>
          refine (emits_setClient _).bind ?_
          rintro _ _ rfl
          exact emits_pure (drained_nothing (settlesExact_of_unexpected (Or.inr hlength)))
        next hlength =>
          refine (emits_readPayloadWords storage.transport _).bind ?_
          rintro payload _ ⟨pairs,rfl,-,hlen⟩
          refine (emits_setClient _).bind ?_
          rintro _ _ rfl
          refine emits_pure ?_
          simp only [List.append_nil]
          exact drained_exact (not_or_intro himm hlength) hlen
    · exact emits_refuse _

theorem emits_clStorageFstat (handle : UInt16) :
    Emits Link.log (clStorageFstat storage handle)
      (fun _ events => Framed (SettlesExact clpStorageStatResponseBytes) events) := by
  refine emits_withResponse storage _ _ fun response => ?_
  split
  next h => exact emits_pure (drained_nothing (settlesExact_of_unexpected h))
  next h =>
    refine (emits_readPayloadWords storage.transport _).bind ?_
    rintro payload _ ⟨pairs,rfl,-,hlen⟩
    refine emits_pure ?_
    rw [List.append_nil]
    exact drained_exact h hlen

/-- A received payload settles a read exactly if it could be received. -/
theorem drained_read {hook : Option ((length : UInt32) → Bulk δ length)} {length : UInt32}
    {response : ClpHeader} {pairs : List (UInt32×UInt32)}
    (himm : response.imm=clpStatusOk) (hle : response.length≤length)
    (hlen : pairs.length=wordCount response.length ↔ Receivable hook response.length) :
    Drained (SettlesRead hook length) response (wordEvents pairs) := by
  refine ⟨pairs,rfl,?_⟩
  unfold OnBoundary SettlesRead
  rw [List.length_map,hlen]
  constructor
  · intro hreceivable
    exact Or.inr ⟨himm,hle,hreceivable⟩
  · rintro (hzero | ⟨-,-,hreceivable⟩)
    · refine Or.inr ?_
      dsimp only at hzero
      rw [hzero]
      decide
    · exact hreceivable

/-- A read is framed whatever becomes of the payload. -/
theorem emits_storageRead {β : Type}
    (hook : Option ((length : UInt32) → Bulk δ length)) (shape : List UInt32 → UInt32 → β)
    (handle : UInt16) (length : UInt32) :
    Emits Link.log
      (storageRead storage (fun n => do
        let reply ← receiveFastOrWords storage.transport hook n
        pure (reply.map fun words => shape words n)) handle length)
      (fun _ events => Framed (SettlesRead hook length) events) := by
  refine emits_withResponse storage _ _ fun response => ?_
  split
  next h =>
    refine emits_pure (drained_nothing ?_)
    unfold SettlesRead
    constructor
    · rintro (hzero | ⟨himm,hle,-⟩)
      · exact hzero
      · rcases h with h | h
        · exact absurd himm h
        · exact absurd hle (UInt32.not_le.mpr h)
    · exact Or.inl
  next h =>
    push Not at h
    obtain ⟨himm,hle⟩ := h
    have hreceive : Emits Link.log
        (do
          let reply ← receiveFastOrWords storage.transport hook response.length
          pure (reply.map fun words => shape words response.length))
        (fun _ events => Drained (SettlesRead hook length) response events) := by
      refine (emits_receiveFastOrWords storage.transport hook response.length).bind ?_
      rintro reply _ ⟨pairs,rfl,hlen⟩
      refine emits_pure ?_
      rw [List.append_nil]
      exact drained_read himm (UInt32.not_lt.mp hle) hlen
    refine hreceive.bind ?_
    rintro reply first hfirst
    cases reply <;> exact emits_pure (by simpa using hfirst)

theorem emits_requireCap {α : Type} {C : ClpHeader×List UInt32 → Prop} (cap : UInt32)
    {run : Prog (Link δ) (Except ℤ α)} (h : Emits Link.log run (fun _ events => Framed C events)) :
    Emits Link.log (requireCap cap run) (fun _ events => Framed C events) := by
  refine (emits_inspect (Q := fun _ events => events=[]) fun _ => rfl).bind ?_
  rintro caps _ rfl
  split
  · exact emits_refuse _
  · exact h

theorem emits_clStorageList (path : CString) (startIndex maxEntries capacity : UInt32) :
    Emits Link.log (clStorageList storage path startIndex maxEntries capacity)
      (fun _ events => Framed (SettlesList capacity) events) := by
  unfold clStorageList
  split
  · exact emits_refuse _
  · refine emits_requireCap _ ?_
    split
    · exact emits_refuse _
    · split
      · refine emits_withResponse storage _ _ fun response => ?_
        split
        next h =>
          refine emits_pure (drained_nothing ?_)
          unfold SettlesList
          constructor
          · rintro (hzero | ⟨himm,hlow,hhigh,-⟩)
            · exact hzero
            · rcases h with h | h | h
              · exact absurd himm h
              · exact absurd hlow (UInt32.not_le.mpr h)
              · exact absurd hhigh (UInt32.not_le.mpr h)
          · exact Or.inl
        next h =>
          push Not at h
          obtain ⟨himm,hlow,hhigh⟩ := h
          refine (emits_readPayloadWords storage.transport _).bind ?_
          rintro payload _ ⟨pairs,rfl,-,hlen⟩
          refine emits_pure ⟨pairs,List.append_nil _,?_⟩
          unfold OnBoundary SettlesList
          rw [List.length_map,hlen,words_eq_wordCount]
          constructor
          · intro hle
            exact Or.inr ⟨himm,UInt32.not_lt.mp hlow,UInt32.not_lt.mp hhigh,hle⟩
          · rintro (hzero | ⟨-,-,-,hle⟩)
            · dsimp only at hzero
              rw [hzero]
              decide
            · exact hle
      · exact emits_refuse _

/-- A CRC answer that is refused before its payload. -/
theorem settlesCrc_of_refused {maxChunks : UInt32} {response : ClpHeader}
    (h : ¬(response.imm=clpStatusOk ∧
      clpStorageCrc32ResponseFixedBytes≤ response.length ∧
      (response.length-clpStorageCrc32ResponseFixedBytes)%4=0 ∧
      wireChunks response.length≤ maxChunks)) :
    SettlesCrc maxChunks (response,[]) ↔ response.length=0 := by
  unfold SettlesCrc
  constructor
  · rintro (hzero | ⟨himm,hlow,hmod,hmax,-⟩)
    · exact hzero
    · exact absurd ⟨himm,hlow,hmod,hmax⟩ h
  · exact Or.inl

/-- The third word of a received CRC header. -/
theorem third_word {pairs : List (UInt32×UInt32)} (hlen : pairs.length=3) :
    (pairs.map Prod.snd)[2]?=some (loadLe32 ((payloadBytes (pairs.map Prod.snd)
      clpStorageCrc32ResponseFixedBytes).drop 8)) := by
  match pairs,hlen with
  | [a,b,c],_ =>
    have hthird : (payloadBytes ([a,b,c].map Prod.snd)
        clpStorageCrc32ResponseFixedBytes).drop 8=storeLe32 c.2 4 := rfl
    rw [hthird,loadLe32_storeLe32]
    rfl

/-- The number of checksums in the header decides a CRC answer that is not refused. -/
theorem settlesCrc_iff {maxChunks : UInt32} {response : ClpHeader} {words : List UInt32}
    (himm : response.imm=clpStatusOk)
    (hlow : clpStorageCrc32ResponseFixedBytes≤ response.length)
    (hmod : (response.length-clpStorageCrc32ResponseFixedBytes)%4=0)
    (hmax : wireChunks response.length≤ maxChunks) :
    SettlesCrc maxChunks (response,words) ↔
      wireChunks response.length=0 ∨ words[2]?=some (wireChunks response.length) := by
  unfold SettlesCrc
  constructor
  · rintro (hzero | ⟨-,-,-,-,h⟩)
    · dsimp only at hzero
      rw [hzero] at hlow
      exact absurd hlow (by decide)
    · exact h
  · intro h
    exact Or.inr ⟨himm,hlow,hmod,hmax,h⟩

/-- The three words of the header are the whole CRC answer exactly if it has no
checksums. -/
theorem drained_crc_header {maxChunks : UInt32} {response : ClpHeader}
    {pairs : List (UInt32×UInt32)} (himm : response.imm=clpStatusOk)
    (hlow : clpStorageCrc32ResponseFixedBytes≤ response.length)
    (hmod : (response.length-clpStorageCrc32ResponseFixedBytes)%4=0)
    (hmax : wireChunks response.length≤ maxChunks) (hlen : pairs.length=3)
    (hother : wireChunks response.length=0 ∨
      (pairs.map Prod.snd)[2]?≠some (wireChunks response.length)) :
    Drained (SettlesCrc maxChunks) response (wordEvents pairs) := by
  have hwords := crc_words hlow hmod
  have hnat := crc_length hlow hmod
  have hlt := response.length.toNat_lt
  have hboundary : OnBoundary (response,pairs.map Prod.snd) ↔
      wireChunks response.length=0 := by
    have hfour : (4 : UInt32).toNat=4 := rfl
    have hnone : (0 : UInt32).toNat=0 := rfl
    have hmul := UInt32.toNat_mul (wireChunks response.length) 4
    unfold OnBoundary
    rw [List.length_map,hlen,hwords.1,← UInt32.toNat_inj,hnone]
    unfold wordCount
    rw [hmul,hfour]
    omega
  refine ⟨pairs,rfl,?_⟩
  rw [hboundary,settlesCrc_iff himm hlow hmod hmax]
  constructor
  · exact Or.inl
  · rintro (hzero | hsome)
    · exact hzero
    · exact hother.resolve_right (not_not_intro hsome)

/-- A CRC answer whose header and checksums are read. -/
theorem drained_crc_all {maxChunks : UInt32} {response : ClpHeader}
    {pairs more : List (UInt32×UInt32)} (himm : response.imm=clpStatusOk)
    (hlow : clpStorageCrc32ResponseFixedBytes≤ response.length)
    (hmod : (response.length-clpStorageCrc32ResponseFixedBytes)%4=0)
    (hmax : wireChunks response.length≤ maxChunks) (hlen : pairs.length=3)
    (hthird : (pairs.map Prod.snd)[2]?=some (wireChunks response.length))
    (hmore : more.length=wordCount (wireChunks response.length*4)) :
    Drained (SettlesCrc maxChunks) response (wordEvents (pairs++more)) := by
  refine drained_all ?_ ?_
  · rw [List.length_append,hlen,hmore,(crc_words hlow hmod).1]
  · refine (settlesCrc_iff himm hlow hmod hmax).mpr (Or.inr ?_)
    rw [List.map_append,List.getElem?_append_left (by simp [hlen]),hthird]

theorem emits_readPayloadFastOrWords (transport : Transport δ) (length : UInt32) :
    Emits Link.log (readPayloadFastOrWords transport length)
      (fun _ events => ∃ pairs,events=wordEvents pairs ∧
        (pairs.length=wordCount length ↔ Receivable transport.readPayload length)) := by
  refine (emits_receiveFastOrWords transport transport.readPayload length).bind ?_
  rintro reply _ ⟨pairs,rfl,hlen⟩
  exact emits_pure ⟨pairs,List.append_nil _,hlen⟩

theorem emits_clStorageCrc32Ex (path : CString) (offset length : UInt64)
    (chunkSize flags maxChunks : UInt32) :
    Emits Link.log (clStorageCrc32Ex storage path offset length chunkSize flags maxChunks)
      (fun _ events => Framed (SettlesCrc maxChunks) events) := by
  unfold clStorageCrc32Ex
  split
  · exact emits_refuse _
  · refine emits_requireCap _ ?_
    split
    · exact emits_refuse _
    · split
      · refine emits_withResponse storage _ _ fun response => ?_
        split
        next h =>
          refine emits_pure (drained_nothing (settlesCrc_of_refused ?_))
          rintro ⟨himm,hlow,hmod,-⟩
          rcases h with h | h | h
          · exact h himm
          · exact UInt32.not_le.mpr h hlow
          · exact h hmod
        next h =>
          push Not at h
          obtain ⟨himm,hlow,hmod⟩ := h
          have hlow := UInt32.not_lt.mp hlow
          split
          next hmax =>
            refine emits_pure (drained_nothing (settlesCrc_of_refused ?_))
            rintro ⟨-,-,-,hle⟩
            exact UInt32.not_le.mpr hmax hle
          next hmax =>
            have hmax := UInt32.not_lt.mp hmax
            refine (emits_readPayloadWords storage.transport _).bind ?_
            rintro header _ ⟨pairs,rfl,rfl,hlen⟩
            have hthird := third_word hlen
            split
            next hother =>
              refine emits_pure ?_
              rw [List.append_nil]
              refine drained_crc_header himm hlow hmod hmax hlen (Or.inr ?_)
              rw [hthird]
              exact fun hsome => hother (Option.some.inj hsome)
            next hsame =>
              rw [not_not.mp hsame] at hthird
              split
              next hzero =>
                refine emits_pure ?_
                rw [List.append_nil]
                exact drained_crc_header himm hlow hmod hmax hlen (Or.inl hzero)
              next hsome =>
                refine (emits_readPayloadFastOrWords storage.transport _).bind ?_
                rintro reply _ ⟨more,rfl,hmore⟩
                refine emits_pure ?_
                rw [List.append_nil,← wordEvents_append]
                have hreceivable := hmore.mpr (Or.inr (crc_words hlow hmod).2)
                exact drained_crc_all himm hlow hmod hmax hlen hthird hreceivable
      · exact emits_refuse _

theorem emits_clStorageCopy (srcPath dstPath : CString) (flags : UInt32) :
    Emits Link.log (clStorageCopy storage srcPath dstPath flags)
      (fun _ events => Framed SettlesStatus events) := by
  refine emits_requireCap _ ?_
  split
  · split
    · exact emits_statusCommand storage _ _
    · exact emits_refuse _
  · exact emits_refuse _

theorem emits_clStorageSinglePathAck (opcode : UInt8) (path : CString) :
    Emits Link.log (clStorageSinglePathAck storage opcode path)
      (fun _ events => Framed SettlesStatus events) := by
  unfold clStorageSinglePathAck
  split
  · exact emits_refuse _
  · split
    · exact emits_statusCommand storage _ _
    · exact emits_refuse _

theorem emits_clStorageRename (oldPath newPath : CString) :
    Emits Link.log (clStorageRename storage oldPath newPath)
      (fun _ events => Framed SettlesStatus events) := by
  unfold clStorageRename
  split
  · split
    · exact emits_statusCommand storage _ _
    · exact emits_refuse _
  · exact emits_refuse _

/-- Sending a part of a window adds only exchanges. -/
theorem emits_writePayloadFastOrWords (transport : Transport δ) (window : DirectWindow)
    (offset length : UInt32) :
    Emits Link.log (writePayloadFastOrWords transport window offset length)
      (fun _ events => ∃ pairs,events=wordEvents pairs) := by
  unfold writePayloadFastOrWords
  split
  · refine (emits_callHook _).bind ?_
    rintro reply _ ⟨pairs,rfl,-⟩
    split
    · refine (emits_setClient _).bind ?_
      rintro _ _ rfl
      exact emits_pure ⟨pairs,by simp⟩
    · exact emits_pure ⟨pairs,by simp⟩
  · refine (emits_sendWords transport _).bind ?_
    rintro _ _ ⟨pairs,rfl⟩
    exact emits_pure ⟨pairs,by simp⟩

/-- The end of a write whose answer was not used. -/
theorem emits_writeRejected {Q : ℤ×UInt32 → List LinkEvent → Prop}
    (h : Q (-2,0) []) :
    Emits (Link.log (δ := δ)) (do badPacket; pure (-2,0)) Q := by
  refine emits_badPacket.bind ?_
  rintro _ _ rfl
  exact emits_pure h

/-- One part of a write is one frame. -/
theorem emits_storageWriteChunk (handle : UInt16) (window : DirectWindow)
    (offset length : UInt32) :
    Emits Link.log (storageWriteChunk storage handle window offset length)
      (fun _ events => Framed (SettlesExact 4) events) := by
  unfold storageWriteChunk
  split
  · exact emits_pure .nil
  · refine (emits_beginCommand storage.transport _ _).bind ?_
    rintro seq _ ⟨header,first,rfl⟩
    refine (emits_xfer storage.transport _).bind ?_
    rintro received _ rfl
    refine (emits_writePayloadFastOrWords storage.transport window offset length).bind ?_
    rintro sent _ ⟨second,rfl⟩
    split
    · refine emits_pure ?_
      simpa [wordEvents] using
        Framed.unanswered header (first++(_,received)::second) .nil
    · refine (emits_readResponseFrom storage.transport _ _ _ _).bind ?_
      rintro answer _ ⟨third,rfl⟩
      cases answer with
      | error code =>
        refine emits_writeRejected ?_
        simpa [wordEvents] using
          Framed.unanswered header (first++(_,received)::second++third) .nil
      | ok response =>
        have hframed : ∀ events,Drained (SettlesExact 4) response events →
            Framed (SettlesExact 4) (.command header::(wordEvents
              (first++(payloadWord (storeLe32 handle.toUInt32 4) 0,received)::second++third)++
                .accepted response::events)) := by
          rintro _ ⟨payload,rfl,hiff⟩
          simpa using Framed.answered header
            (first++(payloadWord (storeLe32 handle.toUInt32 4) 0,received)::second++third)
            response payload hiff .nil
        dsimp only
        split
        next h =>
          refine emits_writeRejected ?_
          simpa [wordEvents] using
            hframed [] (drained_nothing (settlesExact_of_unexpected h.symm))
        next h =>
          refine (emits_readPayloadWords storage.transport 4).bind ?_
          rintro payload _ ⟨pairs,rfl,-,hlen⟩
          have hdrained : Drained (SettlesExact 4) response (wordEvents pairs) :=
            drained_exact (fun hor => h hor.symm) hlen
          split
          · refine emits_writeRejected ?_
            simpa [wordEvents] using hframed _ hdrained
          · refine (emits_setClient _).bind ?_
            rintro _ _ rfl
            refine emits_pure ?_
            simpa [wordEvents] using hframed _ hdrained

/-- A write is framed, by induction on what remains to be written. -/
theorem emits_writeLoop (handle : UInt16) (window : DirectWindow) (offset : UInt32)
    (length total : ℕ) (written : UInt32) :
    Emits Link.log (writeLoop storage handle window offset length total written)
      (fun _ events => Framed (SettlesExact 4) events) := by
  induction hremaining : length-total using Nat.strong_induction_on generalizing total written with
  | _ remaining ih =>
    unfold writeLoop
    refine (emits_storageWriteChunk storage handle window _ _).bind ?_
    rintro reply first hfirst
    split
    · exact emits_pure (by simpa using hfirst)
    · split
      · exact emits_pure (by simpa using hfirst)
      · split
        next hmore =>
          have hmax : 0<clpStorageWriteFrameMaxData := by decide
          have hless : length-(total+min (length-total) clpStorageWriteFrameMaxData)< remaining := by
            omega
          exact (ih _ hless _ _ rfl).mono fun _ _ hrest => hfirst.append hrest
        next => exact emits_pure (by simpa using hfirst)

theorem emits_clStorageWriteDirect (handle : UInt16) (window : DirectWindow)
    (offset length : UInt32) :
    Emits Link.log (clStorageWriteDirect storage handle window offset length)
      (fun _ events => Framed (SettlesExact 4) events) := by
  unfold clStorageWriteDirect
  split
  · exact emits_pure .nil
  · exact emits_writeLoop storage handle window offset _ _ _

theorem emits_codeOf {α : Type} {C : ClpHeader×List UInt32 → Prop}
    {run : Prog (Link δ) (Except ℤ α)} (h : Emits Link.log run (fun _ events => Framed C events)) :
    Emits Link.log (codeOf run) (fun _ events => Framed C events) := by
  refine h.bind ?_
  rintro result first hfirst
  cases result <;> exact emits_pure (by simpa using hfirst)

theorem emits_writeCode {C : ClpHeader×List UInt32 → Prop} {run : Prog (Link δ) (ℤ×UInt32)}
    (h : Emits Link.log run (fun _ events => Framed C events)) :
    Emits Link.log (writeCode run) (fun _ events => Framed C events) := by
  refine h.bind ?_
  rintro result first hfirst
  exact emits_pure (by simpa using hfirst)

/-- Every operation records frames, and each accepted answer is read as a whole
exactly under the condition of the operation. -/
theorem emits_perform (request : StorageRequest) :
    Emits Link.log (perform storage request)
      (fun _ events => Framed (Settles storage request) events) := by
  cases request with
  | openPath path flags => exact emits_codeOf (emits_clStorageOpen storage path flags)
  | close handle => exact emits_codeOf (emits_statusCommand storage _ _)
  | read handle length => exact emits_codeOf (emits_storageRead storage _ _ handle length)
  | readWithWriter handle length =>
    exact emits_codeOf (emits_storageRead storage _ _ handle length)
  | writeDirect handle window offset length =>
    exact emits_writeCode (emits_clStorageWriteDirect storage handle window offset length)
  | write handle src length h =>
    exact emits_writeCode (emits_clStorageWriteDirect storage handle _ 0 length)
  | seek handle offset => exact emits_codeOf (emits_statusCommand storage _ _)
  | flush handle => exact emits_codeOf (emits_statusCommand storage _ _)
  | stat path => exact emits_codeOf (emits_clStorageStat storage path)
  | fstat handle => exact emits_codeOf (emits_clStorageFstat storage handle)
  | list path startIndex maxEntries capacity =>
    exact emits_codeOf (emits_clStorageList storage path startIndex maxEntries capacity)
  | crc32Ex path offset length chunkSize flags maxChunks =>
    exact emits_codeOf
      (emits_clStorageCrc32Ex storage path offset length chunkSize flags maxChunks)
  | crc32 path offset length chunkSize maxChunks =>
    exact emits_codeOf (emits_clStorageCrc32Ex storage path offset length chunkSize 0 maxChunks)
  | copy srcPath dstPath flags =>
    exact emits_codeOf (emits_clStorageCopy storage srcPath dstPath flags)
  | remove path => exact emits_codeOf (emits_clStorageSinglePathAck storage _ path)
  | mkdir path => exact emits_codeOf (emits_clStorageSinglePathAck storage _ path)
  | rename oldPath newPath =>
    exact emits_codeOf (emits_clStorageRename storage oldPath newPath)

/-- Whatever the transport answers, each operation returns, and every answer it
accepted has been exchanged up to its frame boundary, exactly if the answer
settles the operation. -/
theorem boundary_iff_settles (request : StorageRequest) (s : Link δ) :
    ∃ code t events,perform storage request s=(some code,t) ∧ t.log=s.log++events ∧
      ∀ answer∈exchanged events,OnBoundary answer ↔ Settles storage request answer := by
  obtain ⟨code,t,events,hrun,hlog,hframed⟩ := (emits_perform storage request).returns s
  exact ⟨code,t,events,hrun,hlog,hframed.exchanged⟩

end Operations

/-- A transport that answers each exchange with the next word of a list. -/
def scriptTransport : Transport (List UInt32) where
  xfer32 _ words := (words.headD 0,words.tail)
  readPayload := none
  readPayloadWriter := none
  writePayload := none
  writeWindowPayload := none

/-- A client that was just initialised on a scripted transport. -/
def scriptLink (words : List UInt32) : Link (List UInt32) where
  device := words
  client := ⟨.offline,0,clpStatusOk,0⟩
  log := []

/-- The header of an error response to the first close command, with one word of
payload. -/
def closeFailure : ClpHeader :=
  ⟨clpTypeResponse,clpChStorage,clpStorageClose,7,4,1,0,0⟩

/-- After the five words of the command, the failure is answered. -/
def closeFailureScript : List UInt32 :=
  [0,0,0,0,0]++clpEncodeHeaderWords closeFailure++[0]

/-- A close that is answered with a payload returns without reading it, so that the
next command begins inside of the frame. -/
theorem boundary_fails :
    ¬∀ (δ : Type) (storage : Storage δ) (request : StorageRequest) (s : Link δ)
      (code : ℤ) (t : Link δ) (events : List LinkEvent),
      perform storage request s=(some code,t) → t.log=s.log++events →
      ∀ answer∈exchanged events,answer.1.type=clpTypeResponse → OnBoundary answer := by
  intro hall
  have hrun : perform ⟨scriptTransport,none⟩ (.close 1) (scriptLink closeFailureScript)=
      (some (-3),(perform ⟨scriptTransport,none⟩ (.close 1)
        (scriptLink closeFailureScript)).2) := rfl
  have hanswer : (closeFailure,[])∈exchanged (perform ⟨scriptTransport,none⟩ (.close 1)
      (scriptLink closeFailureScript)).2.log := by decide
  have hboundary := hall _ _ _ _ _ _ _ hrun (List.nil_append _).symm _ hanswer rfl
  exact absurd hboundary (by decide)

end ChisLink.StorageBoundary
