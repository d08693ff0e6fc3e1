import ChisLink.WireCommands

/-!
# Exchanges of the network and Bluetooth clients

The operations of these clients exchange commands and end each of them in one of
a few ways: by looking at the status only, by expecting a payload of one length,
by expecting an acknowledgement, or by taking a payload within bounds. The header
of a failed exchange is not looked at, so an exchange returns it only if it was
accepted. The scratch buffer is there only with its size; the record of an
operation is a sequence of frames, each with the command that it answers.
-/

namespace ChisLink.ClientExchange

open DriverPrograms WireProtocol StorageClient StorageBoundary WireCommands

variable {δ α β : Type}

/-- A client with its transport and the size of its scratch buffer. -/
structure Peer (δ : Type) where
  /-- The transport of the client. -/
  transport : Transport δ
  /-- Size of the scratch buffer. -/
  scratchSize : ℕ
  /-- What the scratch buffer holds where a request leaves it alone. -/
  residue : ℕ → UInt8

/-- Exchange a command in chunks; the header is returned if it was accepted. -/
def commandAnswer (transport : Transport δ) (channel opcode : UInt8)
    (chunks : List (List UInt8)) : Prog (Link δ) (Except ℤ ClpHeader) :=
  match wirePayloadLength chunks with
  | none => pure (.error (-1))
  | some length => do
    let seq ← clClientNextSeq
    let header := commandHeader channel opcode (UInt32.ofNat length) seq
    mark (.command header)
    sendWords transport (clpEncodeHeaderWords header)
    sendWords transport (payloadWords chunks.flatten)
    clWireReadResponse transport channel opcode seq

/-- This is the exchange of `cl_wire_command_chunks`, whatever the caller's header
held before. -/
theorem commandAnswer_eq (transport : Transport δ) (channel opcode : UInt8)
    (chunks : List (List UInt8)) (stale : ClpHeader) :
    commandAnswer transport channel opcode chunks=
      clWireCommandChunks transport channel opcode chunks stale >>=
        fun reply => pure (toAnswer reply) := by
  unfold commandAnswer clWireCommandChunks
  cases wirePayloadLength chunks with
  | none => rfl
  | some length =>
    dsimp only
    rw [bind_bind]
    congr 1
    funext seq
    rw [bind_bind]
    congr 1
    funext _
    rw [bind_bind]
    congr 1
    funext _
    rw [bind_bind]
    congr 1
    funext _
    exact readResponseFrom_eq transport channel opcode seq stale 9

/-- Go on with a result, or return its code. -/
def andThen (p : Prog (Link δ) (Except ℤ α)) (f : α → Prog (Link δ) (Except ℤ β)) :
    Prog (Link δ) (Except ℤ β) := do
  let result ← p
  match result with
  | .error code => pure (.error code)
  | .ok a => f a

/-- Clean up after an operation, whatever its result; the first error is returned. -/
def andFinally (run : Prog (Link δ) (Except ℤ α)) (cleanup : Prog (Link δ) (Except ℤ β)) :
    Prog (Link δ) (Except ℤ α) := do
  let result ← run
  let cleaned ← cleanup
  match result,cleaned with
  | .error code,_ => pure (.error code)
  | .ok _,.error code => pure (.error code)
  | .ok a,.ok _ => pure (.ok a)

/-- Exchange a command and end it. -/
def exchange (peer : Peer δ) (channel opcode : UInt8) (chunks : List (List UInt8))
    (finish : ClpHeader → Prog (Link δ) (Except ℤ α)) : Prog (Link δ) (Except ℤ α) :=
  andThen (commandAnswer peer.transport channel opcode chunks) finish

/-- The functions `net_scratch` and `ble_scratch`. -/
def withScratch (peer : Peer δ) (required : ℕ) (run : Prog (Link δ) (Except ℤ α)) :
    Prog (Link δ) (Except ℤ α) :=
  if peer.scratchSize< required then refuse (-1) else run

/-- The function `response_ok`. -/
def responseOk (response : ClpHeader) (length : UInt32) : Bool :=
  response.imm=clpStatusOk && response.length=length

/-- The code of an answer that is not the expected one. -/
def responseError (response : ClpHeader) : ℤ :=
  if response.imm=clpStatusOk then -2 else clClientStatusError response.imm

/-- The function `discard_response_error`. -/
def discardResponseError (peer : Peer δ) (response : ClpHeader) :
    Prog (Link δ) (Except ℤ α) := do
  clWireDiscardPayload peer.transport response.length
  pure (.error (responseError response))

/-- Return by the status and leave the payload where it is. -/
def statusOnly (response : ClpHeader) : Prog (Link δ) (Except ℤ Unit) :=
  pure (if response.imm=clpStatusOk then .ok ()
    else .error (clClientStatusError response.imm))

/-- The function `ble_expect_ack` behind its exchange. -/
def expectAck (peer : Peer δ) (response : ClpHeader) : Prog (Link δ) (Except ℤ Unit) :=
  if response.imm=clpStatusOk then pure (.ok ()) else discardResponseError peer response

/-- Expect a success with a payload of one length. -/
def expectExact (peer : Peer δ) (expected : UInt32) (parse : List UInt8 → Except ℤ α)
    (response : ClpHeader) : Prog (Link δ) (Except ℤ α) :=
  if responseOk response expected then do
    let payload ← readPayloadWords peer.transport expected
    pure (parse payload)
  else discardResponseError peer response

/-- Expect a success with a payload within bounds. -/
def expectWithin (peer : Peer δ) (low high : UInt32)
    (parse : UInt32 → List UInt8 → Except ℤ α) (response : ClpHeader) :
    Prog (Link δ) (Except ℤ α) :=
  if response.imm≠clpStatusOk ∨ response.length<low ∨ high< response.length then
    discardResponseError peer response
  else do
    let payload ← readPayloadWords peer.transport response.length
    pure (parse response.length payload)

/-- The bytes of a request word. -/
def le32 (word : UInt32) : List UInt8 := storeLe32 word 4

/-- The bytes of a request half word. -/
def le16 (word : UInt16) : List UInt8 := storeLe32 word.toUInt32 2

/-- A half word at an offset of the scratch buffer, and two bytes that stay. -/
def le16At (peer : Peer δ) (offset : ℕ) (word : UInt16) : List UInt8 :=
  le16 word++[peer.residue (offset+2),peer.residue (offset+3)]

/-- The word of a payload at a byte offset. -/
def wordAt (payload : List UInt8) (offset : ℕ) : UInt32 := loadLe32 (payload.drop offset)

/-- A result word as a count, if it fits in an `int`. -/
def countOf (word : UInt32) : Except ℤ ℕ :=
  if word≤0x7fffffff then .ok word.toNat else .error (-3)

/-- Accepted answers of a record with the command before each and the payload words
received of it. -/
def answeredFrom (command : Option ClpHeader) :
    List LinkEvent → List (Option ClpHeader×ClpHeader×List UInt32)
  | [] => []
  | .command header::events => answeredFrom (some header) events
  | .accepted response::events =>
    (command,response,payloadOf events)::answeredFrom command events
  | .word _ _::events => answeredFrom command events

/-- Accepted answers of a record. -/
def answered (events : List LinkEvent) : List (Option ClpHeader×ClpHeader×List UInt32) :=
  answeredFrom none events

end ChisLink.ClientExchange
