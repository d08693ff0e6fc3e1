import ChisLink.StorageBoundary

/-!
# Commands in chunks

The clients of streams, of the network and of Bluetooth share one exchange: a
command whose payload is given in chunks, and the wait for its answer. The
caller owns the response header. It is written only on some paths: an accepted
answer fills it, and so does the header of an answer that is then rejected.
Where nothing is written it keeps whatever it held before.
-/

namespace ChisLink.WireCommands

open DriverPrograms WireProtocol StorageClient StorageBoundary

variable {δ : Type}

/-- The function `cl_client_status_error`. -/
def clClientStatusError (status : UInt8) : ℤ :=
  if status=clpStatusOk then 0 else -(status.toNat : ℤ)-10

/-- Header of a command on a channel. -/
def commandHeader (channel opcode : UInt8) (length : UInt32) (seq : UInt16) : ClpHeader :=
  { type := clpTypeCommand
    channel := channel
    opcode := opcode
    imm := 0
    length := length
    seq := seq
    flags := clpFlagNeedsAck
    crc32 := 0 }

/-- The loop of `wire_payload_length` from a total on, `none` where a chunk does
not fit in the frame. -/
def wirePayloadLengthFrom (total : ℕ) : List (List UInt8) → Option ℕ
  | [] => some total
  | chunk::chunks =>
    if clpFrameMaxPayloadBytes<chunk.length ∨
        clpFrameMaxPayloadBytes-chunk.length<total then none
    else wirePayloadLengthFrom (total+chunk.length) chunks

/-- The function `wire_payload_length`. -/
def wirePayloadLength (chunks : List (List UInt8)) : Option ℕ :=
  wirePayloadLengthFrom 0 chunks

/-- The loop of `cl_wire_read_response` on the caller's header: the code and what
the header holds afterwards. -/
def readResponseInto (transport : Transport δ) (channel opcode : UInt8) (seq : UInt16)
    (response : ClpHeader) : ℕ → Prog (Link δ) (ℤ×ClpHeader)
  | 0 => do
    badPacket
    pure (-2,response)
  | attempts+1 => do
    let first ← xfer transport nopWord
    if clpIsProtocolWord first=false ∨ clpWordType first=clpTypeNop then
      readResponseInto transport channel opcode seq response attempts
    else if clpWordType first=clpTypeAck then
      if clpWordChannel first≠channel ∨ clpWordOpcode first≠opcode then do
        badPacket
        pure (-2,response)
      else do
        acceptResponse (ackHeader first seq)
        pure (0,ackHeader first seq)
    else if clpWordType first≠clpTypeResponse then do
      badPacket
      pure (-2,response)
    else do
      let w1 ← xfer transport nopWord
      let w2 ← xfer transport nopWord
      let w3 ← xfer transport nopWord
      match clpDecodeHeaderWords first w1 w2 w3 with
      | some decoded =>
        if answers decoded channel opcode seq then do
          acceptResponse decoded
          pure (0,decoded)
        else do
          -- The header is overwritten although the answer is not accepted.
          badPacket
          pure (-2,decoded)
      | none => do
        badPacket
        pure (-2,response)

/-- The function `cl_wire_command_chunks`: the code and the caller's header. -/
def clWireCommandChunks (transport : Transport δ) (channel opcode : UInt8)
    (chunks : List (List UInt8)) (response : ClpHeader) : Prog (Link δ) (ℤ×ClpHeader) :=
  match wirePayloadLength chunks with
  | none => pure (-1,response)
  | some length => do
    let seq ← clClientNextSeq
    let header := commandHeader channel opcode (UInt32.ofNat length) seq
    mark (.command header)
    sendWords transport (clpEncodeHeaderWords header)
    sendWords transport (payloadWords chunks.flatten)
    readResponseInto transport channel opcode seq response 9

/-- The function `cl_wire_discard_payload`. -/
def clWireDiscardPayload (transport : Transport δ) (length : UInt32) : Prog (Link δ) Unit := do
  let _ ← receivePayload transport length
  pure ()

/-- The outcome of a wait as an answer or a code. -/
def toAnswer (reply : ℤ×ClpHeader) : Except ℤ ClpHeader :=
  if reply.1<0 then .error reply.1 else .ok reply.2

/-- The wait of the storage client is the wait on a header of its own. -/
theorem readResponseFrom_eq (transport : Transport δ) (channel opcode : UInt8) (seq : UInt16)
    (response : ClpHeader) (attempts : ℕ) :
    readResponseFrom transport channel opcode seq attempts=
      readResponseInto transport channel opcode seq response attempts >>=
        fun reply => pure (toAnswer reply) := by
  induction attempts with
  | zero => rfl
  | succ attempts ih =>
    unfold readResponseFrom readResponseInto
    rw [bind_bind]
    congr 1
    funext first
    split
    · exact ih
    · split
      · split <;> rfl
      · split
        · rfl
        · rw [bind_bind]
          congr 1
          funext w1
          rw [bind_bind]
          congr 1
          funext w2
          rw [bind_bind]
          congr 1
          funext w3
          cases clpDecodeHeaderWords first w1 w2 w3 with
          | none => rfl
          | some decoded =>
            dsimp only
            split <;> rfl

/-- Events of a wait: words if it fails, and words with the mark of the answer if
it succeeds. Only a response has a payload. -/
def Waited (reply : ℤ×ClpHeader) (events : List LinkEvent) : Prop :=
  ∃ pairs,(reply.1<0 ∧ events=wordEvents pairs) ∨
    (reply.1=0 ∧ (reply.2.length≠0 → reply.2.type=clpTypeResponse) ∧
      events=wordEvents pairs++[.accepted reply.2])

/-- More words before a wait. -/
theorem Waited.append {reply : ℤ×ClpHeader} {events : List LinkEvent}
    (h : Waited reply events) (first : List (UInt32×UInt32)) :
    Waited reply (wordEvents first++events) := by
  obtain ⟨pairs,⟨hcode,rfl⟩ | ⟨hcode,htype,rfl⟩⟩ := h
  · exact ⟨first++pairs,Or.inl ⟨hcode,by simp⟩⟩
  · exact ⟨first++pairs,Or.inr ⟨hcode,htype,by simp⟩⟩

theorem emits_waitFailed (response : ClpHeader) :
    Emits (Link.log (δ := δ)) (do badPacket; pure (-2,response)) Waited := by
  refine emits_badPacket.bind ?_
  rintro _ _ rfl
  exact emits_pure ⟨[],Or.inl ⟨by simp,rfl⟩⟩

theorem emits_waitAccepted {response : ClpHeader}
    (h : response.length≠0 → response.type=clpTypeResponse) :
    Emits (Link.log (δ := δ)) (do acceptResponse response; pure (0,response)) Waited := by
  refine (emits_acceptResponse response).bind ?_
  rintro _ _ rfl
  exact emits_pure ⟨[],Or.inr ⟨rfl,h,rfl⟩⟩

/-- A word is received, and what follows is a wait. -/
theorem emits_xfer_waited (transport : Transport δ) {f : UInt32 → Prog (Link δ) (ℤ×ClpHeader)}
    (hf : ∀ received,Emits Link.log (f received) Waited) :
    Emits Link.log (xfer transport nopWord >>= f) Waited := by
  refine (emits_xfer transport nopWord).bind ?_
  rintro received _ rfl
  exact (hf received).mono fun _ _ h => h.append [(nopWord,received)]

/-- A header that answers a command is one of a response. -/
theorem type_of_answers {response : ClpHeader} {channel opcode : UInt8} {seq : UInt16}
    (h : answers response channel opcode seq) : response.type=clpTypeResponse := by
  unfold answers at h
  simp only [Bool.and_eq_true,decide_eq_true_eq] at h
  exact h.1.1.1

/-- Every wait ends, in one of the two ways. -/
theorem emits_readResponseInto (transport : Transport δ) (channel opcode : UInt8)
    (seq : UInt16) (response : ClpHeader) (attempts : ℕ) :
    Emits Link.log (readResponseInto transport channel opcode seq response attempts)
      Waited := by
  induction attempts with
  | zero => exact emits_waitFailed response
  | succ attempts ih =>
    refine emits_xfer_waited transport fun first => ?_
    split
    · exact ih
    · split
      · split
        · exact emits_waitFailed response
        · exact emits_waitAccepted fun h => absurd rfl h
      · split
        · exact emits_waitFailed response
        · refine emits_xfer_waited transport fun w1 => ?_
          refine emits_xfer_waited transport fun w2 => ?_
          refine emits_xfer_waited transport fun w3 => ?_
          cases clpDecodeHeaderWords first w1 w2 w3 with
          | none => exact emits_waitFailed response
          | some decoded =>
            dsimp only
            split
            next hanswers => exact emits_waitAccepted fun _ => type_of_answers hanswers
            next => exact emits_waitFailed decoded

/-- Events of an exchange: none if the payload is too long for a frame, else a
command and a wait. -/
def Exchanged (reply : ℤ×ClpHeader) (events : List LinkEvent) : Prop :=
  (reply.1<0 ∧ events=[]) ∨ ∃ header tail,events=.command header::tail ∧ Waited reply tail

/-- Every exchange ends, in one of these ways. -/
theorem emits_clWireCommandChunks (transport : Transport δ) (channel opcode : UInt8)
    (chunks : List (List UInt8)) (response : ClpHeader) :
    Emits Link.log (clWireCommandChunks transport channel opcode chunks response)
      Exchanged := by
  unfold clWireCommandChunks
  cases wirePayloadLength chunks with
  | none => exact emits_pure (Or.inl ⟨by simp,rfl⟩)
  | some length =>
    refine emits_clClientNextSeq.bind ?_
    rintro seq _ rfl
    refine (emits_mark _).bind ?_
    rintro _ _ rfl
    refine (emits_sendWords transport _).bind ?_
    rintro _ _ ⟨first,rfl⟩
    refine (emits_sendWords transport _).bind ?_
    rintro _ _ ⟨second,rfl⟩
    refine (emits_readResponseInto transport channel opcode seq response 9).mono ?_
    intro reply events hwaited
    refine Or.inr ⟨_,_,rfl,?_⟩
    simpa using hwaited.append (first++second)

/-- Discarding a payload exchanges its words unless the length wraps around when it
is rounded up. -/
theorem emits_clWireDiscardPayload (transport : Transport δ) (length : UInt32) :
    Emits Link.log (clWireDiscardPayload transport length)
      (fun _ events => ∃ pairs,events=wordEvents pairs ∧
        pairs.length=(clpAlignedLength length).toNat/4) := by
  refine (emits_receiveWords transport _).bind ?_
  rintro words _ ⟨pairs,rfl,-,hlen⟩
  exact emits_pure ⟨pairs,by simp,hlen⟩

end ChisLink.WireCommands
