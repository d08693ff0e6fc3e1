import ChisLink.ReplyMatching
import ChisLink.StreamServer

/-!
# The words of a command

The shared exchange collects the bytes of its chunks in a buffer of four and sends a
word each time the buffer is full; the storage client cuts a flat payload into words.
Both send the same words. They decode to the header that was meant, and their bytes
are those of the payload with zeros behind.
-/

namespace ChisLink.CommandEncoding

open DriverPrograms WireProtocol StorageClient StorageBoundary WireCommands StreamServer
  ReplyMatching

variable {δ : Type}

/-- The struct `cl_wire_chunk_t`. A chunk without data stands for zeros. -/
inductive Chunk where
  /-- Bytes in memory. -/
  | data (bytes : List UInt8)
  /-- A null pointer with a length. -/
  | null (length : ℕ)

/-- The bytes of a chunk. -/
def Chunk.contents : Chunk → List UInt8
  | .data bytes => bytes
  | .null length => List.replicate length 0

/-- The inner loop of `wire_xfer_payload_chunks`: the pending bytes after these ones. -/
def xferBytes (transport : Transport δ) : List UInt8 → List UInt8 →
    Prog (Link δ) (List UInt8)
  | [],pending => pure pending
  | byte::bytes,pending =>
    let pending := pending++[byte]
    if pending.length=4 then do
      let _ ← xfer transport (loadLe32 pending)
      xferBytes transport bytes []
    else xferBytes transport bytes pending

/-- Its outer loop. -/
def xferChunks (transport : Transport δ) : List Chunk → List UInt8 →
    Prog (Link δ) (List UInt8)
  | [],pending => pure pending
  | chunk::chunks,pending => do
    let pending ← xferBytes transport chunk.contents pending
    xferChunks transport chunks pending

/-- The function `wire_xfer_payload_chunks`. -/
def wireXferPayloadChunks (transport : Transport δ) (chunks : List Chunk) :
    Prog (Link δ) Unit := do
  let pending ← xferChunks transport chunks []
  if pending.length≠0 then do
    let _ ← xfer transport (loadLe32 pending)
    pure ()
  else pure ()

/-- The function `cl_wire_command_chunks` with its loops. -/
def wireCommandChunks (transport : Transport δ) (channel opcode : UInt8)
    (chunks : List Chunk) (response : ClpHeader) : Prog (Link δ) (ℤ×ClpHeader) :=
  match wirePayloadLength (chunks.map Chunk.contents) with
  | none => pure (-1,response)
  | some length => do
    let seq ← clClientNextSeq
    let header := commandHeader channel opcode (UInt32.ofNat length) seq
    mark (.command header)
    sendWords transport (clpEncodeHeaderWords header)
    wireXferPayloadChunks transport chunks
    readResponseInto transport channel opcode seq response 9

section Accumulator

variable {transport : Transport δ}

theorem sendWords_append (first second : List UInt32) :
    sendWords transport (first++second)=
      (sendWords transport first >>= fun _ => sendWords transport second) := by
  induction first with
  | nil => rfl
  | cons word first ih =>
    have hstep : sendWords transport (word::(first++second))=
        (xfer transport word >>= fun _ => sendWords transport (first++second)) := rfl
    have hfirst : sendWords transport (word::first)=
        (xfer transport word >>= fun _ => sendWords transport first) := rfl
    rw [List.cons_append,hstep,ih,hfirst,bind_bind]

/-- Bytes may be handed over in two parts. -/
theorem xferBytes_append (first second pending : List UInt8) :
    xferBytes transport (first++second) pending=
      (xferBytes transport first pending >>= xferBytes transport second) := by
  induction first generalizing pending with
  | nil => rfl
  | cons byte first ih =>
    rw [List.cons_append]
    unfold xferBytes
    dsimp only
    split
    · rw [bind_bind]
      congr 1
      funext _
      exact ih []
    · exact ih (pending++[byte])

/-- The chunks are taken as if they were one. -/
theorem xferChunks_eq (chunks : List Chunk) (pending : List UInt8) :
    xferChunks transport chunks pending=
      xferBytes transport (chunks.map Chunk.contents).flatten pending := by
  induction chunks generalizing pending with
  | nil => rfl
  | cons chunk chunks ih =>
    have hstep : xferChunks transport (chunk::chunks) pending=
        (xferBytes transport chunk.contents pending >>= xferChunks transport chunks) := rfl
    have hrest : xferChunks transport chunks=
        xferBytes transport (chunks.map Chunk.contents).flatten := funext ih
    rw [hstep,hrest,List.map_cons,List.flatten_cons,xferBytes_append]

theorem wordsOf_zero (payload : List UInt8) : wordsOf payload 0=[] := rfl

/-- The last word is that of the bytes left over. -/
theorem wordsOf_snoc (payload : List UInt8) (count : ℕ) :
    wordsOf payload (count+1)=wordsOf payload count++[loadLe32 (payload.drop (4*count))] := by
  unfold wordsOf payloadWord
  rw [List.range_succ,List.map_append]
  rfl

/-- A word has four bytes. -/
theorem loadLe32_append {four rest : List UInt8} (h : four.length=4) :
    loadLe32 (four++rest)=loadLe32 four := by
  unfold loadLe32
  rw [List.take_append_of_le_length h.ge]

/-- The full words are sent, the bytes that make none are left. -/
theorem xferBytes_eq (bytes : List UInt8) {pending : List UInt8} (h : pending.length<4) :
    xferBytes transport bytes pending=
      (sendWords transport (wordsOf (pending++bytes) ((pending++bytes).length/4)) >>= fun _ =>
        pure ((pending++bytes).drop (4*((pending++bytes).length/4)))) := by
  induction bytes generalizing pending with
  | nil =>
    have hcount : (pending++[]).length/4=0 := by
      rw [List.append_nil]
      omega
    rw [hcount,wordsOf_zero,List.append_nil]
    rfl
  | cons byte bytes ih =>
    have hall : pending++byte::bytes=(pending++[byte])++bytes := by
      simp
    rw [hall]
    unfold xferBytes
    dsimp only
    by_cases hfull : (pending++[byte]).length=4
    · rw [if_pos hfull]
      have hlength : (pending++[byte]++bytes).length/4=bytes.length/4+1 := by
        rw [List.length_append,hfull]
        omega
      have hdrop : (pending++[byte]++bytes).drop 4=bytes := by
        rw [← hfull]
        exact List.drop_left
      have hword : loadLe32 (pending++[byte]++bytes)=loadLe32 (pending++[byte]) :=
        loadLe32_append hfull
      have hrest : (pending++[byte]++bytes).drop (4*(bytes.length/4+1))=
          bytes.drop (4*(bytes.length/4)) := by
        have hsplit : 4*(bytes.length/4+1)=4+4*(bytes.length/4) := by
          omega
        rw [hsplit,← List.drop_drop,hdrop]
      have hnext := @ih [] (by decide)
      rw [List.nil_append] at hnext
      rw [hlength,wordsOf_succ,hdrop,hword,hrest,hnext]
      have hsend : sendWords transport
          (loadLe32 (pending++[byte])::wordsOf bytes (bytes.length/4))=
            (xfer transport (loadLe32 (pending++[byte])) >>= fun _ =>
              sendWords transport (wordsOf bytes (bytes.length/4))) := rfl
      rw [hsend,bind_bind]
    · rw [if_neg hfull]
      have hshort : (pending++[byte]).length<4 := by
        rw [List.length_append,List.length_singleton] at hfull ⊢
        omega
      exact ih hshort

/-- The words that are sent are those of the flat payload. -/
theorem wireXferPayloadChunks_eq {chunks : List Chunk}
    (h : (chunks.map Chunk.contents).flatten.length≤2^32-4) :
    wireXferPayloadChunks transport chunks=
      sendWords transport (payloadWords (chunks.map Chunk.contents).flatten) := by
  obtain ⟨payload,hpayload⟩ : ∃ payload,payload=(chunks.map Chunk.contents).flatten := ⟨_,rfl⟩
  unfold wireXferPayloadChunks
  rw [xferChunks_eq,← hpayload,xferBytes_eq payload (by decide : ([] : List UInt8).length<4),
    List.nil_append,bind_bind,payloadWords_eq (by rw [hpayload]; exact h)]
  have hleft : (payload.drop (4*(payload.length/4))).length=payload.length%4 := by
    rw [List.length_drop]
    omega
  by_cases haligned : payload.length%4=0
  · have hcount : (payload.length+3)/4=payload.length/4 := by
      omega
    rw [hcount]
    have hzero : ¬(payload.drop (4*(payload.length/4))).length≠0 := by
      omega
    refine (congrArg (sendWords transport (wordsOf payload (payload.length/4)) >>= ·) ?_).trans
      (bind_pure _)
    funext u
    rw [pure_bind,if_neg hzero]
  · have hcount : (payload.length+3)/4=payload.length/4+1 := by
      omega
    rw [hcount,wordsOf_snoc,sendWords_append]
    have hsome : (payload.drop (4*(payload.length/4))).length≠0 := by
      omega
    congr 1
    funext u
    rw [pure_bind,if_pos hsome]
    rfl

end Accumulator

section Records

/-- The words that a record says were sent. -/
def sentWords (events : List LinkEvent) : List UInt32 :=
  events.filterMap fun event =>
    match event with
    | .word sent _ => some sent
    | _ => none

/-- The words sent so far. -/
def sent (s : Link δ) : List UInt32 := sentWords s.log

/-- The words that a program sends. -/
def sentBy {α : Type} (program : Prog (Link δ) α) (s : Link δ) : List UInt32 :=
  (sent (program s).2).drop (sent s).length

/-- A program sends these words first and words for reading after them. -/
def SendsFirst {α : Type} (words : List UInt32) (program : Prog (Link δ) α) (s : Link δ) :
    Prop :=
  ∃ reads,sentBy program s=words++List.replicate reads nopWord

/-- Words decode to the header and the payload of a command. -/
def RoundTrips (words : List UInt32) (channel opcode : UInt8) (seq : UInt16)
    (payload : List UInt8) : Prop :=
  ∃ w0 w1 w2 w3 body header,words=w0::w1::w2::w3::body ∧
    clpDecodeHeaderWords w0 w1 w2 w3=some header ∧ header.type=clpTypeCommand ∧
    header.channel=channel ∧ header.opcode=opcode ∧ header.seq=seq ∧
    header.length.toNat=payload.length ∧
    (body.flatMap fun word => storeLe32 word 4)=
      payload++List.replicate ((4-payload.length%4)%4) 0

/-- The words of a command. -/
def commandWords (channel opcode : UInt8) (seq : UInt16) (payload : List UInt8) :
    List UInt32 :=
  clpEncodeHeaderWords (commandHeader channel opcode (UInt32.ofNat payload.length) seq)++
    payloadWords payload

/-- Words for reading. -/
def Reads (words : List UInt32) : Prop := ∃ count,words=List.replicate count nopWord

variable {transport : Transport δ}

theorem Reads.append {first second : List UInt32} (hfirst : Reads first)
    (hsecond : Reads second) : Reads (first++second) := by
  obtain ⟨m,rfl⟩ := hfirst
  obtain ⟨n,rfl⟩ := hsecond
  exact ⟨m+n,by rw [List.replicate_add]⟩

theorem sent_xfer (transport : Transport δ) (word : UInt32) :
    Emits sent (xfer transport word) (fun _ words => words=[word]) := by
  refine emits_access fun s => ⟨[word],?_,rfl⟩
  simp [sent,sentWords]

theorem sent_setClient (f : Client → Client) :
    Emits (sent : Link δ → List UInt32) (setClient f) (fun _ words => words=[]) :=
  emits_update (fun s => by simp [sent]) rfl

/-- A mark is no word. -/
theorem sent_markCommand (header : ClpHeader) :
    Emits (sent : Link δ → List UInt32) (mark (.command header)) (fun _ words => words=[]) :=
  emits_update (fun s => by simp [sent,sentWords]) rfl

theorem sent_markAccepted (header : ClpHeader) :
    Emits (sent : Link δ → List UInt32) (mark (.accepted header)) (fun _ words => words=[]) :=
  emits_update (fun s => by simp [sent,sentWords]) rfl

theorem sent_sendWords (words : List UInt32) :
    Emits sent (sendWords transport words) (fun _ sent => sent=words) := by
  induction words with
  | nil => exact emits_pure rfl
  | cons word words ih =>
    refine (sent_xfer transport word).bind ?_
    rintro _ _ rfl
    refine ih.mono ?_
    rintro _ _ rfl
    rfl

theorem reads_failed (reply : ℤ×ClpHeader) :
    Emits (sent : Link δ → List UInt32) (do badPacket; pure reply) (fun _ words => Reads words) := by
  refine (sent_setClient _).bind ?_
  rintro _ _ rfl
  exact emits_pure ⟨0,rfl⟩

theorem reads_accepted (response : ClpHeader) :
    Emits (sent : Link δ → List UInt32) (do acceptResponse response; pure ((0,response) : ℤ×ClpHeader))
      (fun _ words => Reads words) := by
  have haccept : Emits (sent : Link δ → List UInt32) (acceptResponse response)
      (fun _ words => words=[]) := by
    refine (sent_setClient _).bind ?_
    rintro _ _ rfl
    exact sent_markAccepted response
  refine haccept.bind ?_
  rintro _ _ rfl
  exact emits_pure ⟨0,rfl⟩

/-- A word for reading, and what follows. -/
theorem reads_xfer {f : UInt32 → Prog (Link δ) (ℤ×ClpHeader)}
    (hf : ∀ received,Emits sent (f received) (fun _ words => Reads words)) :
    Emits sent (xfer transport nopWord >>= f) (fun _ words => Reads words) := by
  refine (sent_xfer transport nopWord).bind ?_
  rintro received _ rfl
  refine (hf received).mono ?_
  intro _ words hreads
  exact Reads.append ⟨1,rfl⟩ hreads

/-- The wait for an answer sends words for reading only. -/
theorem reads_readResponseInto (channel opcode : UInt8) (seq : UInt16) (response : ClpHeader)
    (attempts : ℕ) : Emits sent
      (readResponseInto transport channel opcode seq response attempts)
      (fun _ words => Reads words) := by
  induction attempts with
  | zero => exact reads_failed (-2,response)
  | succ attempts ih =>
    refine reads_xfer fun first => ?_
    split
    · exact ih
    · split
      · split
        · exact reads_failed (-2,response)
        · exact reads_accepted (ackHeader first seq)
      · split
        · exact reads_failed (-2,response)
        · refine reads_xfer fun w1 => reads_xfer fun w2 => reads_xfer fun w3 => ?_
          cases clpDecodeHeaderWords first w1 w2 w3 with
          | none => exact reads_failed (-2,response)
          | some decoded =>
            dsimp only
            split
            · exact reads_accepted decoded
            · exact reads_failed (-2,decoded)

end Records

section Commands

variable {transport : Transport δ}

/-- A payload that is cut into words comes back with zeros behind it. -/
theorem stored_wordsOf {payload : List UInt8} {count : ℕ} (h : payload.length≤4*count) :
    ((wordsOf payload count).flatMap fun word => storeLe32 word 4)=
      payload++List.replicate (4*count-payload.length) 0 := by
  induction count generalizing payload with
  | zero =>
    have hempty : payload=[] := List.length_eq_zero_iff.mp (by omega)
    rw [hempty]
    rfl
  | succ count ih =>
    have hrest := @ih (payload.drop 4) (by rw [List.length_drop]; omega)
    rw [List.length_drop] at hrest
    rw [wordsOf_succ,List.flatMap_cons,storeLe32_loadLe32,hrest]
    by_cases hlong : 4≤payload.length
    · have hsame : 4*count-(payload.length-4)=4*(count+1)-payload.length := by
        omega
      rw [List.take_append_of_le_length hlong,hsame,← List.append_assoc,
        List.take_append_drop]
    · have hshort : payload.length≤4 := by
        omega
      have hzeros : ([0,0,0,0] : List UInt8)=List.replicate 4 0 := rfl
      have hpad : 4-payload.length+4*count=4*(count+1)-payload.length := by
        omega
      have hnone : payload.length-4=0 := by
        omega
      rw [List.take_append,List.take_of_length_le hshort,List.drop_of_length_le hshort,hzeros,
        List.take_replicate,List.nil_append,hnone,Nat.sub_zero,List.append_assoc,
        List.replicate_append_replicate,Nat.min_eq_left (by omega),hpad]

/-- The words of a command decode to it. -/
theorem roundTrips_commandWords (channel opcode : UInt8) (seq : UInt16) {payload : List UInt8}
    (h : payload.length≤ clpFrameMaxPayloadBytes) :
    RoundTrips (commandWords channel opcode seq payload) channel opcode seq payload := by
  unfold clpFrameMaxPayloadBytes at h
  have hlength : (UInt32.ofNat payload.length).toNat=payload.length :=
    UInt32.toNat_ofNat_of_lt' (by unfold UInt32.size; omega)
  have htype : clpTypeCommand &&& 0x0f=clpTypeCommand := by
    decide
  have hdecode := @clpDecodeHeaderWords_clpEncodeHeaderWords
    (commandHeader channel opcode (UInt32.ofNat payload.length) seq) htype
  refine ⟨_,_,_,_,payloadWords payload,_,rfl,hdecode,rfl,rfl,rfl,rfl,hlength,?_⟩
  have hpad : 4*((payload.length+3)/4)-payload.length=(4-payload.length%4)%4 := by
    omega
  rw [payloadWords_eq (by omega),stored_wordsOf (by omega),hpad]

/-- What is sent is what the words of the program's record say. -/
theorem sentBy_of_emits {α : Type} {program : Prog (Link δ) α} {words : List UInt32}
    (h : Emits sent program (fun _ all => ∃ reads,all=words++reads ∧ Reads reads))
    (s : Link δ) : SendsFirst words program s := by
  obtain ⟨a,t,all,hrun,hsent,reads,hall,count,hreads⟩ := h.returns s
  refine ⟨count,?_⟩
  unfold sentBy
  rw [hrun]
  dsimp only
  rw [hsent,List.drop_left,hall,hreads]

/-- A program that begins by taking a sequence number. -/
theorem sendsFirst_of_seq {α : Type} {rest : UInt16 → Prog (Link δ) α}
    {words : List UInt32} {seq : UInt16} {s : Link δ} (hseq : nextSeq s.client.nextSeq=seq)
    (h : Emits sent (rest seq) (fun _ all => ∃ reads,all=words++reads ∧ Reads reads)) :
    SendsFirst words (clClientNextSeq >>= rest) s := by
  have hrun : (clClientNextSeq >>= rest) s=
      rest seq {s with client := {s.client with nextSeq := seq}} := by
    rw [← hseq]
    rfl
  obtain ⟨count,hsent⟩ := sentBy_of_emits h {s with client := {s.client with nextSeq := seq}}
  refine ⟨count,?_⟩
  unfold sentBy at hsent ⊢
  rw [hrun]
  exact hsent

/-- The length of a payload that fits in a frame. -/
theorem wirePayloadLengthFrom_eq {chunks : List (List UInt8)} {total : ℕ}
    (h : total+chunks.flatten.length≤ clpFrameMaxPayloadBytes) :
    wirePayloadLengthFrom total chunks=some (total+chunks.flatten.length) := by
  induction chunks generalizing total with
  | nil => rfl
  | cons chunk chunks ih =>
    have hlength : (chunk::chunks).flatten.length=chunk.length+chunks.flatten.length := by
      rw [List.flatten_cons,List.length_append]
    rw [hlength] at h ⊢
    have hfits : ¬(clpFrameMaxPayloadBytes<chunk.length ∨
        clpFrameMaxPayloadBytes-chunk.length<total) := by
      omega
    unfold wirePayloadLengthFrom
    rw [if_neg hfits,ih (by omega),Nat.add_assoc]

/-- A payload that is accepted fits in a frame. -/
theorem wirePayloadLengthFrom_le {chunks : List (List UInt8)} {total length : ℕ}
    (htotal : total≤ clpFrameMaxPayloadBytes)
    (h : wirePayloadLengthFrom total chunks=some length) :
    total+chunks.flatten.length≤ clpFrameMaxPayloadBytes := by
  induction chunks generalizing total with
  | nil => exact htotal
  | cons chunk chunks ih =>
    unfold wirePayloadLengthFrom at h
    split at h
    · cases h
    next hfits =>
      have hnext := ih (by omega) h
      rw [List.flatten_cons,List.length_append]
      omega

/-- With its loops the shared exchange does what it does on a flat payload. -/
theorem wireCommandChunks_eq (transport : Transport δ) (channel opcode : UInt8)
    (chunks : List Chunk) (response : ClpHeader) :
    wireCommandChunks transport channel opcode chunks response=
      clWireCommandChunks transport channel opcode (chunks.map Chunk.contents) response := by
  unfold wireCommandChunks clWireCommandChunks
  cases hlength : wirePayloadLength (chunks.map Chunk.contents) with
  | none => rfl
  | some length =>
    have hfits := wirePayloadLengthFrom_le (Nat.zero_le _) hlength
    rw [Nat.zero_add] at hfits
    have hmax : clpFrameMaxPayloadBytes≤2^32-4 := by
      decide
    rw [wireXferPayloadChunks_eq (hfits.trans hmax)]

/-- The shared exchange sends the words of the command. -/
theorem sendsFirst_wireCommandChunks (channel opcode : UInt8) {chunks : List Chunk}
    (response : ClpHeader) {seq : UInt16} {s : Link δ}
    (h : (chunks.map Chunk.contents).flatten.length≤ clpFrameMaxPayloadBytes)
    (hseq : nextSeq s.client.nextSeq=seq) :
    SendsFirst (commandWords channel opcode seq (chunks.map Chunk.contents).flatten)
      (wireCommandChunks transport channel opcode chunks response) s := by
  have hlength : wirePayloadLength (chunks.map Chunk.contents)=
      some (chunks.map Chunk.contents).flatten.length := by
    have hfrom := @wirePayloadLengthFrom_eq (chunks.map Chunk.contents) 0 (by omega)
    rwa [Nat.zero_add] at hfrom
  unfold wireCommandChunks
  rw [hlength]
  refine sendsFirst_of_seq hseq ?_
  refine (sent_markCommand _).bind ?_
  rintro _ _ rfl
  refine (sent_sendWords _).bind ?_
  rintro _ _ rfl
  have hmax : clpFrameMaxPayloadBytes≤2^32-4 := by
    decide
  rw [wireXferPayloadChunks_eq (h.trans hmax)]
  refine (sent_sendWords _).bind ?_
  rintro _ _ rfl
  refine (reads_readResponseInto channel opcode seq response 9).mono ?_
  intro _ reads hreads
  refine ⟨reads,?_,hreads⟩
  simp [commandWords]

/-- The storage client sends the words of the command. -/
theorem sendsFirst_sendCommand (storage : Storage δ) (opcode : UInt8) (payload : List UInt8)
    {seq : UInt16} {s : Link δ} (hseq : nextSeq s.client.nextSeq=seq) :
    SendsFirst (commandWords clpChStorage opcode seq payload)
      (sendCommand storage opcode payload) s := by
  have hprogram : sendCommand storage opcode payload=
      (clClientNextSeq >>= fun seq => do
        mark (.command (storageHeader opcode (UInt32.ofNat payload.length) seq))
        sendWords storage.transport
          (clpEncodeHeaderWords (storageHeader opcode (UInt32.ofNat payload.length) seq))
        sendWords storage.transport (payloadWords payload)
        clWireReadResponse storage.transport clpChStorage opcode seq) := by
    unfold sendCommand beginCommand
    rw [bind_bind]
    rfl
  rw [hprogram]
  refine sendsFirst_of_seq hseq ?_
  refine (sent_markCommand _).bind ?_
  rintro _ _ rfl
  refine (sent_sendWords _).bind ?_
  rintro _ _ rfl
  refine (sent_sendWords _).bind ?_
  rintro _ _ rfl
  unfold clWireReadResponse
  rw [readResponseFrom_eq storage.transport clpChStorage opcode seq (ackHeader 0 seq) 9]
  refine (reads_readResponseInto clpChStorage opcode seq (ackHeader 0 seq) 9).bind ?_
  intro _ reads hreads
  refine emits_pure ⟨reads,?_,hreads⟩
  have hheader : storageHeader opcode (UInt32.ofNat payload.length) seq=
      commandHeader clpChStorage opcode (UInt32.ofNat payload.length) seq := rfl
  simp [commandWords,hheader]

/-- A command is sent in words that decode to its header and its payload. They depend on
the bytes of the payload only, not on how it is cut into chunks, and the storage client
sends the same ones. -/
theorem command_roundTrips (channel opcode : UInt8) (seq : UInt16) (payload : List UInt8)
    (h : payload.length≤ clpFrameMaxPayloadBytes) :
    ∃ words,RoundTrips words channel opcode seq payload ∧
      (∀ (δ : Type) (transport : Transport δ) (chunks : List Chunk) (response : ClpHeader)
        (s : Link δ),(chunks.map Chunk.contents).flatten=payload →
          nextSeq s.client.nextSeq=seq →
            SendsFirst words (wireCommandChunks transport channel opcode chunks response) s) ∧
      (channel=clpChStorage → ∀ (δ : Type) (storage : Storage δ) (s : Link δ),
        nextSeq s.client.nextSeq=seq →
          SendsFirst words (sendCommand storage opcode payload) s) := by
  refine ⟨commandWords channel opcode seq payload,roundTrips_commandWords channel opcode seq h,
    ?_,?_⟩
  · intro δ transport chunks response s hchunks hseq
    subst hchunks
    exact sendsFirst_wireCommandChunks channel opcode response h hseq
  · intro hchannel δ storage s hseq
    subst hchannel
    exact sendsFirst_sendCommand storage opcode payload hseq

/-- A payload of five bytes in three chunks, one of them without data. -/
theorem command_roundTrips_five : ∃ words,
    RoundTrips words clpChStorage clpStorageOpen 1 [1,2,0,0,5] ∧
      (∀ (δ : Type) (transport : Transport δ) (response : ClpHeader) (s : Link δ),
        nextSeq s.client.nextSeq=1 → SendsFirst words (wireCommandChunks transport clpChStorage
          clpStorageOpen [.data [1,2],.null 2,.data [5]] response) s) := by
  obtain ⟨words,htrip,hchunks,-⟩ :=
    command_roundTrips clpChStorage clpStorageOpen 1 [1,2,0,0,5] (by decide)
  refine ⟨words,htrip,fun δ transport response s hseq => ?_⟩
  exact hchunks δ transport _ response s rfl hseq

end Commands

end ChisLink.CommandEncoding
