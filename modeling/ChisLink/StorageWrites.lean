import ChisLink.StreamServer

/-!
# Writes in several frames

A direct window is written by one command for each part of it. The frames of a record
are its commands, each with the words sent after its header and the answer to it. An
answer to a write acknowledges as many of its bytes as it says. Whatever is answered,
the bytes acknowledged in the frames of a write are the first ones of the data, and
their number is what the write reports.
-/

namespace ChisLink.StorageWrites

open DriverPrograms WireProtocol StorageClient StorageBoundary StreamServer

variable {δ : Type}

section Frames

/-- A frame of a record. -/
structure Frame where
  /-- Header of the command. -/
  header : ClpHeader
  /-- Words that were sent up to the answer. -/
  sent : List UInt32
  /-- The accepted answer with the words received of its payload. -/
  answer : Option (ClpHeader×List UInt32)

/-- Words sent before the next mark. -/
def sentAfter : List LinkEvent → List UInt32
  | .word sent _::events => sent::sentAfter events
  | _ => []

/-- The answer that is accepted before the next command. -/
def answerAfter : List LinkEvent → Option (ClpHeader×List UInt32)
  | .word _ _::events => answerAfter events
  | .accepted response::events => some (response,payloadOf events)
  | _ => none

/-- The frames of a record. -/
def framesOf : List LinkEvent → List Frame
  | [] => []
  | .command header::events => ⟨header,sentAfter events,answerAfter events⟩::framesOf events
  | .accepted _::events => framesOf events
  | .word _ _::events => framesOf events

/-- The data of a write frame, behind four words of header and one of the handle. -/
def Frame.data (frame : Frame) : List UInt8 :=
  payloadBytes (frame.sent.drop 5) (frame.header.length-4)

/-- Bytes of a write frame that its answer acknowledges. An answer that counts more
bytes than there are in the frame acknowledges none. -/
def Frame.acknowledged (frame : Frame) : List UInt8 :=
  match frame.answer with
  | none => []
  | some (response,payload) =>
    let count := (loadLe32 (payloadBytes payload 4)).toNat
    if response.imm=clpStatusOk ∧ response.length=4 ∧ count≤frame.data.length then
      frame.data.take count
    else []

/-- Bytes that are acknowledged in a record. -/
def acknowledged (events : List LinkEvent) : List UInt8 :=
  (framesOf events).flatMap Frame.acknowledged

/-- The record of some frames. -/
inductive Recorded : List Frame → List LinkEvent → Prop where
  /-- Nothing was sent. -/
  | nil : Recorded [] []
  /-- A command without an accepted answer. -/
  | unanswered (header : ClpHeader) (pairs : List (UInt32×UInt32)) {frames : List Frame}
      {rest : List LinkEvent} : Recorded frames rest →
      Recorded (⟨header,pairs.map Prod.fst,none⟩::frames)
        (.command header::(wordEvents pairs++rest))
  /-- A command with an accepted answer. -/
  | answered (header : ClpHeader) (pairs : List (UInt32×UInt32)) (response : ClpHeader)
      (payload : List (UInt32×UInt32)) {frames : List Frame} {rest : List LinkEvent} :
      Recorded frames rest →
      Recorded (⟨header,pairs.map Prod.fst,some (response,payload.map Prod.snd)⟩::frames)
        (.command header::(wordEvents pairs++.accepted response::(wordEvents payload++rest)))

theorem Recorded.append {first second : List Frame} {events rest : List LinkEvent}
    (h : Recorded first events) (h' : Recorded second rest) :
    Recorded (first++second) (events++rest) := by
  induction h with
  | nil => exact h'
  | unanswered header pairs _ ih =>
    simpa only [List.cons_append,List.append_assoc] using Recorded.unanswered header pairs ih
  | answered header pairs response payload _ ih =>
    simpa only [List.cons_append,List.append_assoc] using
      Recorded.answered header pairs response payload ih

@[simp] theorem sentAfter_wordEvents (pairs : List (UInt32×UInt32)) (rest : List LinkEvent) :
    sentAfter (wordEvents pairs++rest)=pairs.map Prod.fst++sentAfter rest := by
  induction pairs with
  | nil => rfl
  | cons pair pairs ih =>
    have hcons : sentAfter (wordEvents (pair::pairs)++rest)=
        pair.1::sentAfter (wordEvents pairs++rest) := rfl
    rw [hcons,ih]
    rfl

@[simp] theorem answerAfter_wordEvents (pairs : List (UInt32×UInt32))
    (rest : List LinkEvent) :
    answerAfter (wordEvents pairs++rest)=answerAfter rest := by
  induction pairs with
  | nil => rfl
  | cons pair pairs ih =>
    have hcons : answerAfter (wordEvents (pair::pairs)++rest)=
        answerAfter (wordEvents pairs++rest) := rfl
    rw [hcons,ih]

@[simp] theorem framesOf_wordEvents (pairs : List (UInt32×UInt32)) (rest : List LinkEvent) :
    framesOf (wordEvents pairs++rest)=framesOf rest := by
  induction pairs with
  | nil => rfl
  | cons pair pairs ih =>
    have hcons : framesOf (wordEvents (pair::pairs)++rest)=
        framesOf (wordEvents pairs++rest) := rfl
    rw [hcons,ih]

/-- A record goes on with a command or ends. -/
theorem Recorded.starts {frames : List Frame} {events : List LinkEvent}
    (h : Recorded frames events) :
    sentAfter events=[] ∧ answerAfter events=none ∧ payloadOf events=[] := by
  cases h <;> exact ⟨rfl,rfl,rfl⟩

/-- The frames of a record are those that were recorded. -/
theorem Recorded.framesOf {frames : List Frame} {events : List LinkEvent}
    (h : Recorded frames events) : framesOf events=frames := by
  induction h with
  | nil => rfl
  | unanswered header pairs hrest ih =>
    obtain ⟨hsent,hanswer,-⟩ := hrest.starts
    simp only [StorageWrites.framesOf,sentAfter_wordEvents,answerAfter_wordEvents,
      framesOf_wordEvents,hsent,hanswer,ih,List.append_nil]
  | answered header pairs response payload hrest ih =>
    obtain ⟨-,-,hpayload⟩ := hrest.starts
    simp only [StorageWrites.framesOf,sentAfter_wordEvents,answerAfter_wordEvents,
      framesOf_wordEvents,sentAfter,answerAfter,payloadOf_wordEvents,hpayload,ih,
      List.append_nil]

/-- Bytes of enough words do not depend on the words behind them. -/
theorem payloadBytes_append {words : List UInt32} {length : UInt32}
    (h : (payloadBytes words length).length=length.toNat) (rest : List UInt32) :
    payloadBytes (words++rest) length=payloadBytes words length := by
  unfold payloadBytes at h ⊢
  rw [List.length_take] at h
  rw [List.flatMap_append,List.take_append_of_le_length (by omega)]

/-- The frame of a part of a write. -/
structure Frame.Writes (frame : Frame) (part : List UInt8) : Prop where
  /-- The command is a write. -/
  opcode : frame.header.channel=clpChStorage ∧ frame.header.opcode=clpStorageWrite
  /-- Its length is that of the handle and of the part. -/
  length : frame.header.length.toNat=4+part.length
  /-- Its data is the part. -/
  data : frame.data=part

/-- The first words of a frame decide its data. -/
theorem writes_of_sent {seq : UInt16} {handle : UInt32} {words rest : List UInt32}
    {length : UInt32} {part : List UInt8} {answer : Option (ClpHeader×List UInt32)}
    (hpart : part.length=length.toNat) (hlength : length.toNat<2^32-4)
    (hbytes : payloadBytes words length=part) :
    Frame.Writes
      ⟨storageHeader clpStorageWrite (4+length) seq,
        clpEncodeHeaderWords (storageHeader clpStorageWrite (4+length) seq)++handle::words++rest,
        answer⟩ part := by
  have hsub : (4+length)-4=length := by rw [UInt32.add_comm,UInt32.add_sub_cancel]
  refine ⟨⟨rfl,rfl⟩,?_,?_⟩
  · change (4+length).toNat=_
    rw [UInt32.toNat_add,hpart]
    exact Nat.mod_eq_of_lt (by change 4+length.toNat<2^32; omega)
  · change payloadBytes (words++rest) ((4+length)-4)=part
    rw [hsub,payloadBytes_append (by rw [hbytes,hpart]),hbytes]

end Frames

section Parts

/-- The hooks of a transport send the bytes that they are given. -/
structure SendsBytes (transport : Transport δ) : Prop where
  /-- From memory. -/
  memory : ∀ hook,transport.writePayload=some hook → ∀ (data : List UInt8) (length : UInt32)
    (device : δ),length.toNat≤data.length →
    payloadBytes ((hook data length device).1.2.toList.map Prod.fst) length=
      data.take length.toNat
  /-- From a window. -/
  window : ∀ hook,transport.writeWindowPayload=some hook → ∀ (window : DirectWindow)
    (offset length : UInt32) (device : δ),offset.toNat+length.toNat≤window.length.toNat →
    payloadBytes ((hook window offset length device).1.2.toList.map Prod.fst) length=
      (window.data.drop offset.toNat).take length.toNat

/-- Bytes of a window from an offset. -/
def windowBytes (window : DirectWindow) (offset length : ℕ) : List UInt8 :=
  (window.data.drop offset).take length

theorem length_windowBytes {window : DirectWindow} {offset length : ℕ}
    (h : offset+length≤window.length.toNat) :
    (windowBytes window offset length).length=length := by
  have hdata := window.data_length
  unfold windowBytes
  rw [List.length_take,List.length_drop]
  omega

/-- The words of a payload have its first bytes. -/
theorem take_wordsOf_le {payload : List UInt8} {count size : ℕ} (hsize : size≤payload.length)
    (h : size≤4*count) :
    ((wordsOf payload count).flatMap fun word => storeLe32 word 4).take size=
      payload.take size := by
  induction count generalizing payload size with
  | zero =>
    have hzero : size=0 := by omega
    rw [hzero]
    rfl
  | succ count ih =>
    have hfour : ((payload++[0,0,0,0]).take 4).length=4 := by
      rw [List.length_take,List.length_append]
      exact Nat.min_eq_left (by simp)
    rw [wordsOf_succ,List.flatMap_cons,storeLe32_loadLe32]
    rcases Nat.le_total size 4 with hshort | hlong
    · rw [List.take_append_of_le_length (by omega),List.take_take,Nat.min_eq_left hshort,
        List.take_append_of_le_length hsize]
    · have hrest := @ih (payload.drop 4) (size-4) (by rw [List.length_drop]; omega) (by omega)
      have hsplit : payload.take size=payload.take 4++(payload.drop 4).take (size-4) := by
        rw [← List.take_add,Nat.add_sub_cancel' hlong]
      rw [List.take_append,List.take_of_length_le (by omega),hfour,hrest,
        List.take_append_of_le_length (by omega),hsplit]

/-- The words of a part of a window have its bytes. -/
theorem payloadBytes_windowWords {window : DirectWindow} {offset length : UInt32}
    (h : offset.toNat+length.toNat≤window.length.toNat) (hlength : length.toNat<2^32-4) :
    payloadBytes (windowWords window offset length) length=
      windowBytes window offset.toNat length.toNat := by
  have hdata := window.data_length
  have hwindow : window.length.toNat<2^32 := window.length.toNat_lt
  have hcount : (clpAlignedLength length).toNat/4=(length.toNat+3)/4 := by
    rw [clpAlignedLength_words,Nat.mod_eq_of_lt (by omega)]
  have hwords : windowWords window offset length=
      wordsOf (window.data.drop offset.toNat) ((length.toNat+3)/4) := by
    unfold windowWords wordsOf payloadWord directWindowWord
    rw [hcount]
    apply List.map_congr_left
    intro i hi
    have hlt := List.mem_range.mp hi
    have hplace : (offset+UInt32.ofNat (4*i)).toNat=offset.toNat+4*i := by
      rw [UInt32.toNat_add,UInt32.toNat_ofNat_of_lt' (by unfold UInt32.size; omega)]
      exact Nat.mod_eq_of_lt (by omega)
    rw [hplace,List.drop_drop]
  unfold payloadBytes windowBytes
  rw [hwords,take_wordsOf_le (by rw [List.length_drop]; omega) (by omega)]

/-- The hook for a part of a window sends its bytes. -/
theorem writeHook_sends {transport : Transport δ} (hsends : SendsBytes transport)
    {window : DirectWindow} {offset length : UInt32} {bulk : Bulk δ length}
    (hhook : writeHook transport window offset length=some bulk)
    (h : offset.toNat+length.toNat≤window.length.toNat) (device : δ) :
    payloadBytes ((bulk device).1.2.toList.map Prod.fst) length=
      windowBytes window offset.toNat length.toNat := by
  have hdata := window.data_length
  unfold writeHook at hhook
  split at hhook
  next hook _ hpayload =>
    unfold fastHook at hhook
    split at hhook
    · rw [← Option.some.inj hhook]
      exact hsends.memory hook hpayload _ length device (by rw [List.length_drop]; omega)
    · cases hhook
  next =>
    unfold fastHook at hhook
    split at hhook
    · cases hwindow : transport.writeWindowPayload with
      | none =>
        rw [hwindow] at hhook
        cases hhook
      | some hook =>
        rw [hwindow] at hhook
        rw [← Option.some.inj hhook]
        exact hsends.window hook hwindow window offset length device h
    · cases hhook

/-- A part of a window is sent, however it is sent. -/
theorem emits_writePayload_sent {transport : Transport δ} (hsends : SendsBytes transport)
    {window : DirectWindow} {offset length : UInt32}
    (h : offset.toNat+length.toNat≤window.length.toNat) (hlength : length.toNat<2^32-4) :
    Emits Link.log (writePayloadFastOrWords transport window offset length)
      (fun _ events => ∃ pairs,events=wordEvents pairs ∧
        payloadBytes (pairs.map Prod.fst) length=
          windowBytes window offset.toNat length.toNat) := by
  have hdata := window.data_length
  unfold writePayloadFastOrWords
  cases hhook : writeHook transport window offset length with
  | none =>
    refine (emits_sendWords_sent transport _).bind ?_
    rintro _ _ ⟨pairs,rfl,hsent⟩
    refine emits_pure ⟨pairs,List.append_nil _,?_⟩
    rw [hsent]
    exact payloadBytes_windowWords h hlength
  | some bulk =>
    have hbulk := writeHook_sends hsends hhook h
    have hcall : Emits Link.log (callHook bulk) (fun _ events => ∃ pairs,
        events=wordEvents pairs ∧ payloadBytes (pairs.map Prod.fst) length=
          windowBytes window offset.toNat length.toNat) :=
      emits_access fun s => ⟨_,rfl,(bulk s.device).1.2.toList,rfl,hbulk s.device⟩
    refine hcall.bind ?_
    rintro reply _ ⟨pairs,rfl,hpairs⟩
    split
    · refine (emits_setClient _).bind ?_
      rintro _ _ rfl
      exact emits_pure ⟨pairs,by simp,hpairs⟩
    · exact emits_pure ⟨pairs,List.append_nil _,hpairs⟩

/-- What a part of a write reports: the bytes acknowledged in its frame, none after an
error. -/
def PartWritten (part : List UInt8) (reply : ℤ×UInt32) (events : List LinkEvent) : Prop :=
  ∃ frame,Recorded [frame] events ∧ frame.Writes part ∧
    frame.acknowledged=part.take reply.2.toNat ∧ reply.2.toNat≤part.length ∧
    (reply.1< 0 → reply.2=0)

/-- A frame whose answer is none or of another kind acknowledges nothing. -/
theorem acknowledged_nothing {frame : Frame}
    (h : ∀ response payload,frame.answer=some (response,payload) →
      ¬(response.imm=clpStatusOk ∧ response.length=4 ∧
        (loadLe32 (payloadBytes payload 4)).toNat≤frame.data.length)) :
    frame.acknowledged=[] := by
  unfold Frame.acknowledged
  cases hanswer : frame.answer with
  | none => rfl
  | some answer => exact if_neg (h answer.1 answer.2 hanswer)

/-- A part without an accepted answer is not acknowledged. -/
theorem partWritten_unanswered {header : ClpHeader} {pairs : List (UInt32×UInt32)}
    {part : List UInt8} (h : Frame.Writes ⟨header,pairs.map Prod.fst,none⟩ part) :
    PartWritten part (-2,0) (.command header::wordEvents pairs) := by
  have hrecord := Recorded.unanswered header pairs .nil
  rw [List.append_nil] at hrecord
  exact ⟨_,hrecord,h,rfl,Nat.zero_le _,fun _ => rfl⟩

/-- A part with an answer that is refused is not acknowledged. -/
theorem partWritten_refused {header response : ClpHeader}
    {pairs payload : List (UInt32×UInt32)} {part : List UInt8}
    (h : Frame.Writes
      ⟨header,pairs.map Prod.fst,some (response,payload.map Prod.snd)⟩ part)
    (hrefused : ¬(response.imm=clpStatusOk ∧ response.length=4 ∧
      (loadLe32 (payloadBytes (payload.map Prod.snd) 4)).toNat≤part.length)) :
    PartWritten part (-2,0)
      (.command header::(wordEvents pairs++.accepted response::wordEvents payload)) := by
  have hrecord := Recorded.answered header pairs response payload .nil
  rw [List.append_nil] at hrecord
  refine ⟨_,hrecord,h,?_,Nat.zero_le _,fun _ => rfl⟩
  apply acknowledged_nothing
  intro response' payload' hanswer
  cases hanswer
  rw [h.data]
  exact hrefused

/-- A part with an answer that counts no more bytes than it has. -/
theorem partWritten_accepted {header response : ClpHeader}
    {pairs payload : List (UInt32×UInt32)} {part : List UInt8} {count : UInt32}
    (h : Frame.Writes
      ⟨header,pairs.map Prod.fst,some (response,payload.map Prod.snd)⟩ part)
    (hok : response.imm=clpStatusOk ∧ response.length=4)
    (hcount : loadLe32 (payloadBytes (payload.map Prod.snd) 4)=count)
    (hle : count.toNat≤part.length) :
    PartWritten part (0,count)
      (.command header::(wordEvents pairs++.accepted response::wordEvents payload)) := by
  have hrecord := Recorded.answered header pairs response payload .nil
  rw [List.append_nil] at hrecord
  refine ⟨_,hrecord,h,?_,hle,fun hneg => absurd hneg (Int.lt_irrefl 0)⟩
  unfold Frame.acknowledged
  dsimp only
  rw [h.data,hcount,if_pos ⟨hok.1,hok.2,hle⟩]

/-- A part of a write is one frame with this part. -/
theorem emits_partWritten {storage : Storage δ} (hsends : SendsBytes storage.transport)
    (handle : UInt16) {window : DirectWindow} {offset length : UInt32}
    (h : offset.toNat+length.toNat≤window.length.toNat)
    (hlength : length.toNat≤ clpStorageWriteFrameMaxData) :
    Emits Link.log (storageWriteChunk storage handle window offset length)
      (PartWritten (windowBytes window offset.toNat length.toNat)) := by
  have hmax : clpStorageWriteFrameMaxData<2^32-4 := by decide
  have hpart := length_windowBytes h
  obtain ⟨part,hname⟩ : ∃ part,part=windowBytes window offset.toNat length.toNat := ⟨_,rfl⟩
  unfold storageWriteChunk beginCommand
  rw [if_neg (by omega),← hname]
  rw [← hname] at hpart
  simp only [bind_bind]
  refine emits_clClientNextSeq.bind ?_
  rintro seq _ rfl
  refine (emits_mark _).bind ?_
  rintro _ _ rfl
  refine (emits_sendWords_sent storage.transport _).bind ?_
  rintro _ _ ⟨first,rfl,hfirst⟩
  rw [pure_bind]
  refine (emits_xfer storage.transport _).bind ?_
  rintro received _ rfl
  refine (emits_writePayload_sent hsends h (by omega)).bind ?_
  rintro sent _ ⟨second,rfl,hsecond⟩
  rw [← hname] at hsecond
  obtain ⟨word,hword⟩ : ∃ word,word=payloadWord (storeLe32 handle.toUInt32 4) 0 := ⟨_,rfl⟩
  rw [← hword]
  -- The words of the header and the handle, of the part, and of the wait for an answer.
  have hframe : ∀ third answer,Frame.Writes
      ⟨storageHeader clpStorageWrite (4+length) seq,
        (first++(word,received)::second++third).map Prod.fst,answer⟩ part := by
    intro third answer
    rw [List.map_append,List.map_append,hfirst,List.map_cons]
    exact writes_of_sent hpart (by omega) hsecond
  split
  · refine emits_pure ?_
    simpa [wordEvents] using partWritten_unanswered (hframe [] none)
  · refine (emits_readResponseFrom storage.transport _ _ _ _).bind ?_
    rintro answer _ ⟨third,rfl⟩
    cases answer with
    | error code =>
      refine emits_badPacket.bind ?_
      rintro _ _ rfl
      refine emits_pure ?_
      simpa [wordEvents] using partWritten_unanswered (hframe third none)
    | ok response =>
      dsimp only
      split
      next hbad =>
        refine emits_badPacket.bind ?_
        rintro _ _ rfl
        refine emits_pure ?_
        have hrefused : PartWritten part (-2,0)
            (.command _::(wordEvents _++.accepted response::wordEvents [])) :=
          partWritten_refused (hframe third (some (response,[]))) fun hok =>
            hbad.elim (fun hne => hne hok.2.1) fun hne => hne hok.1
        simpa [wordEvents] using hrefused
      next hgood =>
        obtain ⟨hfour,himm⟩ := not_or.mp hgood
        refine (emits_readPayloadWords storage.transport 4).bind ?_
        rintro _ _ ⟨payload,rfl,rfl,-⟩
        split
        next hlong =>
          refine emits_badPacket.bind ?_
          rintro _ _ rfl
          refine emits_pure ?_
          have hrefused := partWritten_refused
            (hframe third (some (response,payload.map Prod.snd))) fun hok => by
              have hle := hok.2.2
              rw [UInt32.lt_iff_toNat_lt] at hlong
              omega
          simpa [wordEvents] using hrefused
        next hshort =>
          refine (emits_setClient _).bind ?_
          rintro _ _ rfl
          refine emits_pure ?_
          have haccepted := partWritten_accepted
            (hframe third (some (response,payload.map Prod.snd)))
            ⟨not_not.mp himm,not_not.mp hfour⟩ rfl (by
              rw [UInt32.lt_iff_toNat_lt] at hshort
              omega)
          simpa [wordEvents] using haccepted

end Parts

section Whole

/-- What a write reports: the bytes acknowledged in its frames, which are the first ones
of the data. -/
def Written (data : List UInt8) (count : ℕ) (events : List LinkEvent) : Prop :=
  ∃ frames,Recorded frames events ∧
    (∀ frame∈frames,∃ part,frame.Writes part ∧ part.length≤ clpStorageWriteFrameMaxData) ∧
    frames.flatMap Frame.acknowledged=data.take count ∧ count≤data.length

/-- One frame of a write. -/
theorem PartWritten.written {part data : List UInt8} {reply : ℤ×UInt32}
    {events : List LinkEvent} (h : PartWritten part reply events)
    (hpart : part.length≤ clpStorageWriteFrameMaxData) (hfront : part <+: data) :
    Written data reply.2.toNat events := by
  obtain ⟨frame,hrecord,hwrites,hacked,hle,-⟩ := h
  obtain ⟨rest,rfl⟩ := hfront
  refine ⟨[frame],hrecord,?_,?_,?_⟩
  · intro other hmem
    rw [List.mem_singleton.mp hmem]
    exact ⟨part,hwrites,hpart⟩
  · rw [List.flatMap_singleton,hacked,List.take_append_of_le_length hle]
  · rw [List.length_append]
    omega

/-- A frame that is acknowledged as a whole, and the frames of the rest. -/
theorem PartWritten.append {part data : List UInt8} {reply : ℤ×UInt32} {count : ℕ}
    {events rest : List LinkEvent} (h : PartWritten part reply events)
    (hpart : part.length≤ clpStorageWriteFrameMaxData) (hwhole : reply.2.toNat=part.length)
    (hrest : Written data count rest) :
    Written (part++data) (part.length+count) (events++rest) := by
  obtain ⟨frame,hrecord,hwrites,hacked,-⟩ := h
  obtain ⟨frames,hrecord',hsmall,hacked',hle⟩ := hrest
  refine ⟨frame::frames,hrecord.append hrecord',?_,?_,?_⟩
  · intro other hmem
    rcases List.mem_cons.mp hmem with rfl | hmem
    · exact ⟨part,hwrites,hpart⟩
    · exact hsmall other hmem
  · rw [List.flatMap_cons,hacked,hacked',hwhole,List.take_length,List.take_length_add_append]
  · rw [List.length_append]
    omega

/-- The bytes of a window fall into those of a part and those behind it. -/
theorem windowBytes_add (window : DirectWindow) (offset first second : ℕ) :
    windowBytes window offset (first+second)=
      windowBytes window offset first++windowBytes window (offset+first) second := by
  unfold windowBytes
  rw [List.take_add,List.drop_drop]

/-- The loop reports what was written before it and what it writes, by induction on what
remains to be written. -/
theorem emits_written {storage : Storage δ} (hsends : SendsBytes storage.transport)
    (handle : UInt16) {window : DirectWindow} {offset : UInt32} {length total : ℕ}
    {written : UInt32} (h : offset.toNat+length≤window.length.toNat) (htotal : total≤length)
    (hwritten : written.toNat=total) :
    Emits Link.log (writeLoop storage handle window offset length total written)
      (fun reply events => ∃ count,reply.2.toNat=total+count ∧
        Written (windowBytes window (offset.toNat+total) (length-total)) count events) := by
  have hpos : 0<clpStorageWriteFrameMaxData := by decide
  have hmax : clpStorageWriteFrameMaxData<2^32-4 := by decide
  have hwindow := window.length.toNat_lt
  induction hremaining : length-total using Nat.strong_induction_on
    generalizing total written with
  | _ remaining ih =>
    obtain ⟨chunk,hchunk⟩ : ∃ chunk,chunk=min (length-total) clpStorageWriteFrameMaxData :=
      ⟨_,rfl⟩
    have hplace : (offset+UInt32.ofNat total).toNat=offset.toNat+total := by
      rw [UInt32.toNat_add,UInt32.toNat_ofNat_of_lt' (by unfold UInt32.size; omega)]
      exact Nat.mod_eq_of_lt (by omega)
    have hsize : (UInt32.ofNat chunk).toNat=chunk :=
      UInt32.toNat_ofNat_of_lt' (by unfold UInt32.size; omega)
    have hlen : (windowBytes window (offset.toNat+total) chunk).length=chunk :=
      length_windowBytes (by omega)
    have hsplit : windowBytes window (offset.toNat+total) remaining=
        windowBytes window (offset.toNat+total) chunk++
          windowBytes window (offset.toNat+(total+chunk)) (remaining-chunk) := by
      rw [← Nat.add_assoc,← windowBytes_add,Nat.add_sub_cancel' (by omega)]
    have hpart : Emits Link.log (storageWriteChunk storage handle window
        (offset+UInt32.ofNat total) (UInt32.ofNat chunk))
        (PartWritten (windowBytes window (offset.toNat+total) chunk)) := by
      have hrun := @emits_partWritten δ storage hsends handle window
        (offset+UInt32.ofNat total) (UInt32.ofNat chunk) (by rw [hplace,hsize]; omega)
        (by rw [hsize]; omega)
      rwa [hplace,hsize] at hrun
    unfold writeLoop
    rw [← hchunk]
    refine hpart.bind ?_
    intro reply first hfirst
    have hle : reply.2.toNat≤ chunk := by
      obtain ⟨_,-,-,-,hle,-⟩ := hfirst
      omega
    have hsum : (written+reply.2).toNat=total+reply.2.toNat := by
      rw [UInt32.toNat_add,hwritten]
      exact Nat.mod_eq_of_lt (by omega)
    have hstop : Written (windowBytes window (offset.toNat+total) remaining) reply.2.toNat
        (first++[]) := by
      rw [List.append_nil]
      exact hfirst.written (by omega) (by rw [hsplit]; exact List.prefix_append _ _)
    split
    · exact emits_pure ⟨reply.2.toNat,hsum,hstop⟩
    split
    · exact emits_pure ⟨reply.2.toNat,hsum,hstop⟩
    next hwhole =>
      have hwhole : reply.2.toNat=chunk := not_not.mp hwhole
      split
      next hmore =>
        refine (ih (length-(total+chunk)) (by omega) (by omega) (by omega) rfl).mono ?_
        rintro last rest ⟨count,hcount,hrest⟩
        refine ⟨chunk+count,by omega,?_⟩
        have hrest' : Written (windowBytes window (offset.toNat+(total+chunk))
            (remaining-chunk)) count rest := by
          rwa [show remaining-chunk=length-(total+chunk) by omega]
        have hall := hfirst.append (by omega) (by omega) hrest'
        rwa [hlen,← hsplit] at hall
      next => exact emits_pure ⟨reply.2.toNat,hsum,hstop⟩

/-- A write of a part of a window returns, whatever is answered. It sends only frames of
the bytes that fit one; the bytes acknowledged are the first ones of the part, and their
number is what is reported. -/
theorem write_acknowledged (storage : Storage δ) (hsends : SendsBytes storage.transport)
    (handle : UInt16) (window : DirectWindow) (offset length : UInt32)
    (hoffset : offset≤window.length) (hlength : length≤window.length-offset) (s : Link δ) :
    ∃ code written t events,
      clStorageWriteDirect storage handle window offset length s=(some (code,written),t) ∧
      t.log=s.log++events ∧
      (∀ frame∈framesOf events,frame.header.opcode=clpStorageWrite ∧
        frame.header.length.toNat=4+frame.data.length ∧
        frame.data.length≤ clpStorageWriteFrameMaxData) ∧
      acknowledged events <+: (window.data.drop offset.toNat).take length.toNat ∧
      written.toNat=(acknowledged events).length ∧ written≤length := by
  have hroom : offset.toNat+length.toNat≤window.length.toNat := by
    rw [UInt32.le_iff_toNat_le,UInt32.toNat_sub_of_le _ _ hoffset] at hlength
    rw [UInt32.le_iff_toNat_le] at hoffset
    omega
  obtain ⟨⟨code,written⟩,t,events,hrun,hlog,count,hcount,frames,hrecord,hsmall,hacked,hle⟩ :=
    (emits_written hsends handle hroom (Nat.zero_le _)
      (show (0 : UInt32).toNat=0 from rfl)).returns s
  rw [Nat.zero_add] at hcount
  rw [Nat.add_zero,Nat.sub_zero] at hacked hle
  have hdata := length_windowBytes hroom
  refine ⟨code,written,t,events,?_,hlog,?_,?_,?_,?_⟩
  · unfold clStorageWriteDirect
    rw [if_neg (by simp only [not_or,UInt32.not_lt]; exact ⟨hoffset,hlength⟩)]
    exact hrun
  · intro frame hmem
    rw [hrecord.framesOf] at hmem
    obtain ⟨part,hwrites,hpart⟩ := hsmall frame hmem
    rw [hwrites.data]
    exact ⟨hwrites.opcode.2,hwrites.length,hpart⟩
  · unfold acknowledged
    rw [hrecord.framesOf,hacked]
    exact List.take_prefix _ _
  · unfold acknowledged
    rw [hrecord.framesOf,hacked,List.length_take,hcount]
    omega
  · rw [UInt32.le_iff_toNat_le,hcount]
    omega

/-- Three bytes in memory. -/
def threeBytes : DirectWindow := ⟨[1,2,3],3,rfl,.bytes⟩

/-- A transport without hooks has nothing to send through them. -/
theorem script_sendsBytes : SendsBytes scriptTransport where
  memory _ h := by cases h
  window _ h := by cases h

/-- After the six words of the command, two bytes are acknowledged. -/
def twoAcknowledged : List UInt32 :=
  [0,0,0,0,0,0]++clpEncodeHeaderWords
    ⟨clpTypeResponse,clpChStorage,clpStorageWrite,clpStatusOk,4,1,0,0⟩++[2]

/-- Of three bytes the first ones are acknowledged. -/
theorem write_acknowledged_two : ∃ code written t events,
    clStorageWriteDirect ⟨scriptTransport,none⟩ 1 threeBytes 0 3 (scriptLink twoAcknowledged)=
      (some (code,written),t) ∧
    t.log=(scriptLink twoAcknowledged).log++events ∧
    (∀ frame∈framesOf events,frame.header.opcode=clpStorageWrite ∧
      frame.header.length.toNat=4+frame.data.length ∧
      frame.data.length≤ clpStorageWriteFrameMaxData) ∧
    acknowledged events <+: [1,2,3] ∧ written.toNat=(acknowledged events).length ∧ written≤3 :=
  write_acknowledged ⟨scriptTransport,none⟩ script_sendsBytes 1 threeBytes 0 3 (by decide)
    (by decide) (scriptLink twoAcknowledged)

example : acknowledged (storageWriteChunk ⟨scriptTransport,none⟩ 1 threeBytes 0 3
    (scriptLink twoAcknowledged)).2.log=[1,2] := by decide +kernel

end Whole

end ChisLink.StorageWrites
