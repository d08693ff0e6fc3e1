import Mathlib.Data.List.GetD
import Mathlib.Logic.Function.Basic
import ChisLink.StreamClient

/-!
# The stream server behind the wire

The microcontroller collects the words of a command, carries the command out on
streams that have one position each, and answers in words. A command may be lost,
be refused, or be carried out without an answer that arrives; a receive sends as
many bytes as the server likes, and the bulk transfer of a payload may fail. All
this is chosen for each command from outside.
-/

namespace ChisLink.StreamServer

open DriverPrograms WireProtocol StorageClient StorageBoundary StreamRing WireCommands
  StreamClient

section Payloads

/-- The words of a payload, so many of them. -/
def wordsOf (payload : List UInt8) (count : ℕ) : List UInt32 :=
  (List.range count).map fun i => payloadWord payload (4*i)

theorem wordsOf_succ (payload : List UInt8) (count : ℕ) :
    wordsOf payload (count+1)=loadLe32 payload::wordsOf (payload.drop 4) count := by
  unfold wordsOf payloadWord
  rw [List.range_succ_eq_map,List.map_cons,List.map_map,Nat.mul_zero,List.drop_zero]
  congr 1
  apply List.map_congr_left
  intro i _
  change loadLe32 (payload.drop (4*(i+1)))=loadLe32 ((payload.drop 4).drop (4*i))
  rw [List.drop_drop]
  congr 2
  omega

/-- Enough words hold the payload. -/
theorem take_wordsOf {payload : List UInt8} {count : ℕ} (h : payload.length≤4*count) :
    ((wordsOf payload count).flatMap fun word => storeLe32 word 4).take payload.length=
      payload := by
  induction count generalizing payload with
  | zero =>
    have hempty : payload=[] := List.length_eq_zero_iff.mp (by omega)
    rw [hempty]
    rfl
  | succ count ih =>
    rw [wordsOf_succ,List.flatMap_cons,storeLe32_loadLe32]
    rcases Nat.le_total payload.length 4 with hshort | hlong
    · have hfour : ((payload++[0,0,0,0]).take 4).length=4 := by
        rw [List.length_take,List.length_append]
        exact Nat.min_eq_left (by simp)
      rw [List.take_append_of_le_length (by omega),List.take_take,Nat.min_eq_left hshort]
      exact List.take_left
    · have hfirst : (payload++[0,0,0,0]).take 4=payload.take 4 :=
        List.take_append_of_le_length hlong
      have hrest := @ih (payload.drop 4) (by rw [List.length_drop]; omega)
      rw [List.length_drop] at hrest
      rw [hfirst,List.take_append,List.take_take,List.length_take,Nat.min_eq_left hlong,
        Nat.min_eq_right hlong,hrest]
      exact List.take_append_drop 4 payload

/-- Words are sent as a payload of their bytes. -/
theorem wordsOf_stored (words : List UInt32) :
    wordsOf (words.flatMap fun word => storeLe32 word 4) words.length=words := by
  induction words with
  | nil => rfl
  | cons word words ih =>
    have hrest : (storeLe32 word 4++words.flatMap fun word => storeLe32 word 4).drop 4=
        words.flatMap fun word => storeLe32 word 4 := rfl
    rw [List.length_cons,wordsOf_succ,List.flatMap_cons,loadLe32_stored,hrest,ih]

theorem length_stored (words : List UInt32) :
    (words.flatMap fun word => storeLe32 word 4).length=4*words.length := by
  induction words with
  | nil => rfl
  | cons word words ih =>
    rw [List.flatMap_cons,List.length_append,ih,List.length_cons]
    have hfour : (storeLe32 word 4).length=4 := rfl
    omega

/-- A payload that is not too long for the length field. -/
theorem payloadWords_eq {payload : List UInt8} (h : payload.length≤2^32-4) :
    payloadWords payload=wordsOf payload ((payload.length+3)/4) := by
  have hlength : (UInt32.ofNat payload.length).toNat=payload.length :=
    UInt32.toNat_ofNat_of_lt' (by unfold UInt32.size; omega)
  unfold payloadWords wordsOf
  rw [clpAlignedLength_words,hlength,Nat.mod_eq_of_lt (by omega)]

/-- A payload is received as it was sent. -/
theorem payloadBytes_payloadWords {payload : List UInt8} (h : payload.length≤2^32-4) :
    payloadBytes (payloadWords payload) (UInt32.ofNat payload.length)=payload := by
  have hlength : (UInt32.ofNat payload.length).toNat=payload.length :=
    UInt32.toNat_ofNat_of_lt' (by unfold UInt32.size; omega)
  unfold payloadBytes
  rw [payloadWords_eq h,hlength]
  exact take_wordsOf (by omega)

/-- A payload of words is sent as these words. -/
theorem payloadWords_stored {words : List UInt32} (h : words.length<2^30-1) :
    payloadWords (words.flatMap fun word => storeLe32 word 4)=words := by
  have hlength := length_stored words
  have hcount : (4*words.length+3)/4=words.length := by omega
  rw [payloadWords_eq (by omega),hlength,hcount,wordsOf_stored]

end Payloads

/-- The streams of the server: the remote image and a position for each stream. -/
structure Server where
  /-- The bytes of the image. -/
  image : List UInt8
  /-- Positions in it. -/
  position : UInt8 → ℕ

/-- How a command is answered. -/
inductive Answer where
  /-- Nothing arrives. -/
  | silent
  /-- An error, with a payload. -/
  | failure (status : UInt8) (h : status≠clpStatusOk) (payload : List UInt8)
  /-- Success, with the payload of the command. -/
  | success

/-- What becomes of a command. -/
structure Fate where
  /-- Whether it is carried out. -/
  carriedOut : Bool
  /-- The answer that arrives. -/
  answer : Answer
  /-- Success is reported only for what was carried out. -/
  honest : answer=.success → carriedOut=true
  /-- Whether an answer without a payload is an ACK. -/
  asAck : Bool
  /-- The stream that is opened. -/
  streamId : UInt8
  /-- Bytes that a receive sends, as far as there are any. -/
  count : UInt32
  /-- Result of the bulk transfer of its payload. -/
  bulkResult : ℤ

/-- A command that is lost. -/
def lost : Fate :=
  { carriedOut := false
    answer := .silent
    honest := fun h => by cases h
    asAck := false
    streamId := 0
    count := 0
    bulkResult := 0 }

/-- The bytes that a receive sends. -/
def Server.sent (server : Server) (id : UInt8) (count : UInt32) : List UInt8 :=
  (server.image.drop (server.position id)).take count.toNat

/-- Move a stream. -/
def Server.move (server : Server) (id : UInt8) (position : ℕ) : Server :=
  { server with position := Function.update server.position id position }

/-- The payload that answers an open. -/
def Server.openPayload (server : Server) (fate : Fate) : List UInt8 :=
  storeLe32 fate.streamId.toUInt32 4++storeLe32 (UInt32.ofNat server.image.length) 4++
    storeLe32 0 4++storeLe32 0 4

/-- The payload and the streams after a command was carried out. The words of the
request are those the client sends. -/
def Server.carryOut (server : Server) (fate : Fate) (opcode : UInt8)
    (request : List UInt32) : List UInt8×Server :=
  let id := (request.getD 0 0).toUInt8
  if opcode=clpStreamOpen then (server.openPayload fate,server.move fate.streamId 0)
  else if opcode=clpStreamSeek then
    ([],server.move id ((request.getD 1 0).toNat+(request.getD 2 0).toNat*2^32))
  else if opcode=clpStreamRecv then
    (server.sent id fate.count,
      server.move id (server.position id+(server.sent id fate.count).length))
  else ([],server)

theorem carryOut_open (server : Server) (fate : Fate) (request : List UInt32) :
    server.carryOut fate clpStreamOpen request=
      (server.openPayload fate,server.move fate.streamId 0) := by
  unfold Server.carryOut
  rw [if_pos rfl]

theorem carryOut_seek (server : Server) (fate : Fate) (id : UInt8) (low high : UInt32) :
    server.carryOut fate clpStreamSeek [id.toUInt32,low,high]=
      ([],server.move id (low.toNat+high.toNat*2^32)) := by
  unfold Server.carryOut
  rw [if_neg (by decide),if_pos rfl]
  simp only [List.getD_cons_zero,List.getD_cons_succ,UInt8.toUInt8_toUInt32]

theorem carryOut_recv (server : Server) (fate : Fate) (id : UInt8) (capacity : UInt32) :
    server.carryOut fate clpStreamRecv [id.toUInt32,capacity]=
      (server.sent id fate.count,
        server.move id (server.position id+(server.sent id fate.count).length)) := by
  unfold Server.carryOut
  rw [if_neg (by decide),if_neg (by decide),if_pos rfl]
  simp only [List.getD_cons_zero,UInt8.toUInt8_toUInt32]

/-- No command changes the image. -/
@[simp] theorem image_carryOut (server : Server) (fate : Fate) (opcode : UInt8)
    (request : List UInt32) : (server.carryOut fate opcode request).2.image=server.image := by
  unfold Server.carryOut
  split
  · rfl
  · split
    · rfl
    · split <;> rfl

/-- The words of an answer to a command. -/
def answerWords (command : ClpHeader) (asAck : Bool) (status : UInt8)
    (payload : List UInt8) : List UInt32 :=
  if asAck=true ∧ payload=[] then
    [clpMakeWord clpTypeAck command.channel command.opcode status]
  else
    clpEncodeHeaderWords
        { type := clpTypeResponse
          channel := command.channel
          opcode := command.opcode
          imm := status
          length := UInt32.ofNat payload.length
          seq := command.seq
          flags := 0
          crc32 := 0 }++
      payloadWords payload

/-- The server at the end of the wire. -/
structure Device where
  /-- Its streams. -/
  server : Server
  /-- Words of the command that is being sent. -/
  inbox : List UInt32
  /-- Words that are still to be delivered. -/
  outbox : List UInt32
  /-- What becomes of the next commands. -/
  fates : List Fate
  /-- Result of the next bulk transfer. -/
  bulkResult : ℤ

/-- A command has arrived as a whole. -/
def commandComplete (words : List UInt32) : Bool :=
  4≤words.length && words.length=4+wordCount (words.getD 1 0)

/-- The words that answer a command, given the payload of a success. -/
def Fate.outbox (fate : Fate) (command : ClpHeader) (payload : List UInt8) : List UInt32 :=
  match fate.answer with
  | .silent => []
  | .failure status _ extra => answerWords command fate.asAck status extra
  | .success => answerWords command fate.asAck clpStatusOk payload

/-- The server after a command with this header and these words of a request. -/
def served (server : Server) (fates : List Fate) (command : ClpHeader)
    (request : List UInt32) : Device :=
  let fate := fates.headD lost
  let done := server.carryOut fate command.opcode request
  { server := if fate.carriedOut then done.2 else server
    inbox := []
    outbox := fate.outbox command done.1
    fates := fates.tail
    bulkResult := fate.bulkResult }

/-- A command is taken from the wire. -/
def Device.take (device : Device) (words : List UInt32) : Device :=
  match clpDecodeHeaderWords (words.getD 0 0) (words.getD 1 0) (words.getD 2 0)
      (words.getD 3 0) with
  | none => { device with inbox := [] }
  | some command => served device.server device.fates command (words.drop 4)

/-- Exchange one word with the server. -/
def Device.exchange (word : UInt32) (device : Device) : UInt32×Device :=
  let shifted := { device with outbox := device.outbox.tail }
  let words := device.inbox++[word]
  (device.outbox.headD 0,
    if device.inbox=[] ∧ clpWordType word≠clpTypeCommand then shifted
    else if commandComplete words then shifted.take words
    else { shifted with inbox := words })

/-- Receive a payload in one go. -/
def Device.bulk (length : UInt32) : Bulk Device length := fun device =>
  ((device.bulkResult,
      ⟨(List.range (wordCount length)).map fun i => (nopWord,device.outbox.getD i 0),by simp⟩),
    { device with outbox := device.outbox.drop (wordCount length) })

/-- The transport to the server. -/
def wire : Transport Device where
  xfer32 := Device.exchange
  readPayload := some Device.bulk
  readPayloadWriter := none
  writePayload := none
  writeWindowPayload := none

section Sending

variable {α : Type} {D : Link Device → Prop} {s : Link Device}

/-- One word is exchanged. -/
theorem wp_xfer_wire {word : UInt32} {f : UInt32 → Prog (Link Device) α}
    {Q : α → Link Device → Prop}
    (h : ∀ t : Link Device,t.device=(s.device.exchange word).2 →
      wp (f (s.device.exchange word).1) Q D t) :
    wp (xfer wire word >>= f) Q D s := by
  rw [wp_bind]
  exact h _ rfl

/-- A part of a command that is not the whole is not complete. -/
theorem commandComplete_part {header : ClpHeader} {payload first second : List UInt32}
    (hcount : payload.length=wordCount header.length)
    (hparts : first++second=clpEncodeHeaderWords header++payload) (hsecond : second≠[]) :
    commandComplete first=false := by
  have hlengths := congrArg List.length hparts
  have hfour : (clpEncodeHeaderWords header).length=4 := rfl
  rw [List.length_append,List.length_append,hfour,hcount] at hlengths
  have hpositive := List.length_pos_iff.mpr hsecond
  unfold commandComplete
  rw [Bool.and_eq_false_iff]
  rcases Nat.lt_or_ge first.length 4 with hshort | hlong
  · exact Or.inl (decide_eq_false (by omega))
  · have hlength : first.getD 1 0=header.length := by
      have hhead : (first++second).getD 1 0=
          (clpEncodeHeaderWords header++payload).getD 1 0 := by rw [hparts]
      rw [List.getD_append _ _ _ _ (by omega)] at hhead
      exact hhead
    rw [hlength]
    exact Or.inr (decide_eq_false (by omega))

/-- The whole command is complete. -/
theorem commandComplete_whole {header : ClpHeader} {payload : List UInt32}
    (hcount : payload.length=wordCount header.length) :
    commandComplete (clpEncodeHeaderWords header++payload)=true := by
  have hlength : (clpEncodeHeaderWords header++payload).length=4+payload.length := by
    rw [List.length_append]
    rfl
  unfold commandComplete
  rw [hlength,hcount,Bool.and_eq_true]
  exact ⟨decide_eq_true (by omega),decide_eq_true rfl⟩

/-- The words of a command are collected, by induction on those that remain. -/
theorem wp_collect {header : ClpHeader} {payload before words : List UInt32}
    {Q : Unit → Link Device → Prop} (hcount : payload.length=wordCount header.length)
    (htype : header.type=clpTypeCommand)
    (hparts : before++words=clpEncodeHeaderWords header++payload) (hwords : words≠[])
    (hbefore : s.device.inbox=before)
    (h : ∀ t : Link Device,
      t.device=served s.device.server s.device.fates header payload → Q () t) :
    wp (sendWords wire words) Q D s := by
  induction words generalizing s before with
  | nil => exact absurd rfl hwords
  | cons word words ih =>
    have hcollects : ¬(s.device.inbox=[] ∧ clpWordType word≠clpTypeCommand) := by
      rintro ⟨hempty,hother⟩
      rw [← hbefore,hempty,List.nil_append] at hparts
      obtain ⟨rfl,-⟩ := List.cons.inj hparts
      rw [clpWordType_clpMakeWord,htype] at hother
      exact hother rfl
    have hsnoc : before++[word]++words=clpEncodeHeaderWords header++payload := by
      rw [List.append_assoc]
      exact hparts
    unfold sendWords
    refine wp_xfer_wire fun t ht => ?_
    unfold Device.exchange at ht
    dsimp only at ht
    rw [if_neg hcollects,hbefore] at ht
    cases words with
    | nil =>
      rw [List.append_nil] at hsnoc
      rw [hsnoc,if_pos (commandComplete_whole hcount)] at ht
      have hdecode := clpDecodeHeaderWords_clpEncodeHeaderWords
        (show header.type &&& 0x0f=header.type by rw [htype]; rfl)
      refine h t ?_
      rw [ht]
      unfold Device.take
      have hsome : clpDecodeHeaderWords ((clpEncodeHeaderWords header++payload).getD 0 0)
          ((clpEncodeHeaderWords header++payload).getD 1 0)
          ((clpEncodeHeaderWords header++payload).getD 2 0)
          ((clpEncodeHeaderWords header++payload).getD 3 0)=some header := hdecode
      rw [hsome]
      rfl
    | cons next words =>
      rw [if_neg (by rw [commandComplete_part hcount hsnoc (List.cons_ne_nil _ _)]; simp)] at ht
      refine ih hsnoc (List.cons_ne_nil _ _) (by rw [ht]) fun u hu => h u ?_
      rw [hu,ht]

/-- Sending one list after another is sending both. -/
theorem sendWords_append {δ : Type} (transport : Transport δ) (first second : List UInt32) :
    sendWords transport (first++second)=
      sendWords transport first >>= fun _ => sendWords transport second := by
  induction first with
  | nil => rfl
  | cons word first ih =>
    change (xfer transport word >>= fun _ => sendWords transport (first++second))=
      (xfer transport word >>= fun _ => sendWords transport first) >>=
        fun _ => sendWords transport second
    rw [bind_bind,ih]

end Sending

section Receiving

variable {α : Type} {D : Link Device → Prop} {s : Link Device}

/-- The server between commands, with these words to deliver. -/
def Device.delivering (device : Device) (words : List UInt32) : Device :=
  { device with inbox := [], outbox := words }

/-- An idle word takes one word from the server. -/
theorem wp_xfer_idle {device : Device} {words : List UInt32}
    {f : UInt32 → Prog (Link Device) α} {Q : α → Link Device → Prop}
    (hs : s.device=device.delivering words)
    (h : ∀ t : Link Device,t.device=device.delivering words.tail →
      wp (f (words.headD 0)) Q D t) :
    wp (xfer wire nopWord >>= f) Q D s := by
  refine wp_xfer_wire fun t ht => ?_
  have hidle : (device.delivering words).exchange nopWord=
      (words.headD 0,device.delivering words.tail) := by
    unfold Device.exchange
    dsimp only
    rw [if_pos ⟨rfl,by decide⟩]
    rfl
  rw [hs,hidle] at ht
  rw [hs,hidle]
  exact h t ht

/-- Words that are received one by one. -/
theorem wp_receiveWords {device : Device} {words : List UInt32} {count : ℕ}
    {Q : List UInt32 → Link Device → Prop} (hs : s.device=device.delivering words)
    (h : ∀ t : Link Device,t.device=device.delivering (words.drop count) →
      Q ((List.range count).map fun i => words.getD i 0) t) :
    wp (receiveWords wire count) Q D s := by
  induction count generalizing s words Q with
  | zero => exact h s hs
  | succ count ih =>
    unfold receiveWords
    refine wp_xfer_idle hs fun t ht => ?_
    rw [wp_bind]
    refine ih ht fun u hu => ?_
    rw [wp_pure]
    have hall := h u (by rw [hu,List.drop_tail])
    rw [List.range_succ_eq_map,List.map_cons,List.map_map] at hall
    have hhead : words.getD 0 0=words.headD 0 := by
      cases words <;> rfl
    have htail : ((fun i => words.getD i 0)∘Nat.succ)=fun i => words.tail.getD i 0 := by
      funext i
      cases words <;> rfl
    rw [hhead,htail] at hall
    exact hall

end Receiving

/-- What a command and its answer come to. -/
def Outcome (before : Device) (opcode : UInt8) (request : List UInt32) (stale : ClpHeader)
    (reply : ℤ×ClpHeader) (after : Device) : Prop :=
  let fate := before.fates.headD lost
  let done := before.server.carryOut fate opcode request
  after.server=(if fate.carriedOut then done.2 else before.server) ∧ after.inbox=[] ∧
    after.fates=before.fates.tail ∧ after.bulkResult=fate.bulkResult ∧
    match fate.answer with
    | .silent => reply=(-2,stale)
    | .failure status _ _ => reply.1=0 ∧ reply.2.imm=status
    | .success =>
      reply.1=0 ∧ reply.2.imm=clpStatusOk ∧
        reply.2.length=UInt32.ofNat done.1.length ∧ after.outbox=payloadWords done.1

section Commands

variable {D : Link Device → Prop} {s : Link Device}

/-- Nothing arrives, and the header of the caller is left alone. -/
theorem wp_wait_silent {device : Device} {channel opcode : UInt8} {seq : UInt16}
    {stale : ClpHeader} {Q : ℤ×ClpHeader → Link Device → Prop} (attempts : ℕ)
    (hs : s.device=device.delivering [])
    (h : ∀ t : Link Device,t.device=device.delivering [] → Q (-2,stale) t) :
    wp (readResponseInto wire channel opcode seq stale attempts) Q D s := by
  induction attempts generalizing s with
  | zero => exact h _ hs
  | succ attempts ih =>
    unfold readResponseInto
    refine wp_xfer_idle hs fun t ht => ?_
    rw [if_pos (Or.inl (by decide))]
    exact ih ht

/-- A response to the command is accepted. -/
theorem wp_wait_response {device : Device} {header : ClpHeader} {stale : ClpHeader}
    {words : List UInt32} {Q : ℤ×ClpHeader → Link Device → Prop} (attempts : ℕ)
    (htype : header.type=clpTypeResponse)
    (hs : s.device=device.delivering (clpEncodeHeaderWords header++words))
    (h : ∀ t : Link Device,t.device=device.delivering words → Q (0,header) t) :
    wp (readResponseInto wire header.channel header.opcode header.seq stale (attempts+1))
      Q D s := by
  have hdecode := clpDecodeHeaderWords_clpEncodeHeaderWords
    (show header.type &&& 0x0f=header.type by rw [htype]; rfl)
  have hanswers : answers header header.channel header.opcode header.seq=true := by
    unfold answers
    simp [htype]
  have hfirst : (clpEncodeHeaderWords header++words).headD 0=
      clpMakeWord clpTypeResponse header.channel header.opcode header.imm := by
    rw [← htype]
    rfl
  unfold readResponseInto
  refine wp_xfer_idle hs fun t1 ht1 => ?_
  rw [hfirst,clpIsProtocolWord_clpMakeWord,clpWordType_clpMakeWord,if_neg (by decide),
    if_neg (by decide),if_neg (by decide)]
  refine wp_xfer_idle ht1 fun t2 ht2 => ?_
  refine wp_xfer_idle ht2 fun t3 ht3 => ?_
  refine wp_xfer_idle ht3 fun t4 ht4 => ?_
  rw [← htype]
  have hsome : clpDecodeHeaderWords
      (clpMakeWord header.type header.channel header.opcode header.imm)
      ((clpEncodeHeaderWords header++words).tail.headD 0)
      ((clpEncodeHeaderWords header++words).tail.tail.headD 0)
      ((clpEncodeHeaderWords header++words).tail.tail.tail.headD 0)=some header := hdecode
  rw [hsome]
  dsimp only
  rw [if_pos hanswers]
  exact h _ ht4

/-- An answer to the command is accepted. -/
theorem wp_wait_answered {device : Device} {command : ClpHeader} {stale : ClpHeader}
    {asAck : Bool} {status : UInt8} {payload : List UInt8}
    {Q : ℤ×ClpHeader → Link Device → Prop} (attempts : ℕ)
    (hs : s.device=device.delivering (answerWords command asAck status payload))
    (h : ∀ (response : ClpHeader) (t : Link Device),response.imm=status →
      response.length=UInt32.ofNat payload.length →
      t.device=device.delivering (payloadWords payload) → Q (0,response) t) :
    wp (readResponseInto wire command.channel command.opcode command.seq stale (attempts+1))
      Q D s := by
  unfold answerWords at hs
  split at hs
  next hack =>
    unfold readResponseInto
    refine wp_xfer_idle hs fun t ht => ?_
    rw [List.headD_cons,clpIsProtocolWord_clpMakeWord,clpWordType_clpMakeWord,
      if_neg (by decide),if_pos (by decide),clpWordChannel_clpMakeWord,
      clpWordOpcode_clpMakeWord,if_neg (by simp)]
    refine h _ _ (clpWordImm_clpMakeWord _ _ _ _) ?_ ?_
    · rw [hack.2]
      rfl
    · rw [hack.2]
      exact ht
  next =>
    obtain ⟨header,hheader⟩ : ∃ header : ClpHeader,header=
        ⟨clpTypeResponse,command.channel,command.opcode,status,UInt32.ofNat payload.length,
          command.seq,0,0⟩ := ⟨_,rfl⟩
    have hchannel : header.channel=command.channel := by rw [hheader]
    have hopcode : header.opcode=command.opcode := by rw [hheader]
    have hseq : header.seq=command.seq := by rw [hheader]
    rw [← hheader] at hs
    rw [← hchannel,← hopcode,← hseq]
    refine wp_wait_response attempts (by rw [hheader]) hs fun t ht => h header t ?_ ?_ ht
    · rw [hheader]
    · rw [hheader]

/-- A payload that fits in a frame has the length that was computed. -/
theorem wirePayloadLengthFrom_eq {chunks : List (List UInt8)} {total length : ℕ}
    (htotal : total≤ clpFrameMaxPayloadBytes)
    (h : wirePayloadLengthFrom total chunks=some length) :
    length=total+chunks.flatten.length ∧ length≤ clpFrameMaxPayloadBytes := by
  induction chunks generalizing total with
  | nil =>
    cases h
    exact ⟨rfl,htotal⟩
  | cons chunk chunks ih =>
    unfold wirePayloadLengthFrom at h
    split at h
    · cases h
    next hfits =>
      obtain ⟨hchunk,hsum⟩ := not_or.mp hfits
      obtain ⟨hlength,hle⟩ := ih (by omega) h
      refine ⟨?_,hle⟩
      rw [hlength,List.flatten_cons,List.length_append]
      omega

/-- The words of a payload are as many as its length says. -/
theorem length_payloadWords {payload : List UInt8} (h : payload.length≤2^32-4) :
    (payloadWords payload).length=wordCount (UInt32.ofNat payload.length) := by
  have hlength : (UInt32.ofNat payload.length).toNat=payload.length :=
    UInt32.toNat_ofNat_of_lt' (by unfold UInt32.size; omega)
  rw [payloadWords_eq h]
  unfold wordsOf wordCount
  rw [List.length_map,List.length_range,hlength]

/-- A command is sent, carried out or not, and answered or not. -/
theorem wp_command {opcode : UInt8} {chunks : List (List UInt8)} {length : ℕ}
    {stale : ClpHeader} {Q : ℤ×ClpHeader → Link Device → Prop}
    (hinbox : s.device.inbox=[]) (hlength : wirePayloadLength chunks=some length)
    (h : ∀ reply t,Outcome s.device opcode (payloadWords chunks.flatten) stale reply
      (Link.device t) → Q reply t) :
    wp (clWireCommandChunks wire clpChStream opcode chunks stale) Q D s := by
  obtain ⟨hsum,hmax⟩ := wirePayloadLengthFrom_eq (Nat.zero_le _) hlength
  rw [Nat.zero_add] at hsum
  unfold clpFrameMaxPayloadBytes at hmax
  have hwords : (payloadWords chunks.flatten).length=wordCount (UInt32.ofNat length) := by
    rw [hsum]
    exact length_payloadWords (by omega)
  unfold clWireCommandChunks
  rw [hlength]
  dsimp only
  rw [wp_bind]
  unfold clClientNextSeq
  rw [wp_access]
  dsimp only
  obtain ⟨seq,hseq⟩ : ∃ seq : UInt16,seq=
      if s.client.nextSeq+1=0 then 1 else s.client.nextSeq+1 := ⟨_,rfl⟩
  rw [← hseq]
  obtain ⟨command,hcommand⟩ : ∃ command,
      command=commandHeader clpChStream opcode (UInt32.ofNat length) seq := ⟨_,rfl⟩
  rw [← hcommand,wp_bind]
  unfold mark
  rw [wp_update,← bind_bind,← sendWords_append,wp_bind]
  have htype : command.type=clpTypeCommand := by rw [hcommand]; rfl
  have hopcode : command.opcode=opcode := by rw [hcommand]; rfl
  have hcount : (payloadWords chunks.flatten).length=wordCount command.length := by
    rw [hwords,hcommand]
    rfl
  refine wp_collect hcount htype (List.nil_append _) (List.cons_ne_nil _ _) hinbox
    fun t ht => ?_
  obtain ⟨after,hafter⟩ : ∃ after,
      after=served s.device.server s.device.fates command (payloadWords chunks.flatten) :=
    ⟨_,rfl⟩
  have hwait : t.device=after.delivering ((s.device.fates.headD lost).outbox command
      (s.device.server.carryOut (s.device.fates.headD lost) opcode
        (payloadWords chunks.flatten)).1) := by
    rw [ht,hafter,← hopcode]
    rfl
  have hchannel : command.channel=clpChStream := by rw [hcommand]; rfl
  have hnumber : command.seq=seq := by rw [hcommand]; rfl
  have hserver : after.server=
      if (s.device.fates.headD lost).carriedOut then
        (s.device.server.carryOut (s.device.fates.headD lost) opcode
          (payloadWords chunks.flatten)).2
      else s.device.server := by
    rw [hafter,← hopcode]
    rfl
  have hfates : after.fates=s.device.fates.tail := by rw [hafter]; rfl
  have hbulk : after.bulkResult=(s.device.fates.headD lost).bulkResult := by
    rw [hafter]
    rfl
  unfold Fate.outbox at hwait
  rw [← hchannel,← hopcode,← hnumber]
  cases hanswer : (s.device.fates.headD lost).answer with
  | silent =>
    rw [hanswer] at hwait
    refine wp_wait_silent 9 hwait fun u hu => h _ u ?_
    rw [hu]
    refine ⟨hserver,rfl,hfates,hbulk,?_⟩
    rw [hanswer]
  | failure status hstatus extra =>
    rw [hanswer] at hwait
    refine wp_wait_answered 8 hwait fun response u himm _ hu => h _ u ?_
    rw [hu]
    refine ⟨hserver,rfl,hfates,hbulk,?_⟩
    rw [hanswer]
    exact ⟨rfl,himm⟩
  | success =>
    rw [hanswer] at hwait
    refine wp_wait_answered 8 hwait fun response u himm hlen hu => h _ u ?_
    rw [hu]
    refine ⟨hserver,rfl,hfates,hbulk,?_⟩
    rw [hanswer]
    exact ⟨rfl,himm,hlen,rfl⟩

/-- A payload that does not fit in a frame is refused. -/
theorem wp_command_tooLong {opcode : UInt8} {chunks : List (List UInt8)}
    {stale : ClpHeader} {Q : ℤ×ClpHeader → Link Device → Prop}
    (hlength : wirePayloadLength chunks=none) (h : Q (-1,stale) s) :
    wp (clWireCommandChunks wire clpChStream opcode chunks stale) Q D s := by
  unfold clWireCommandChunks
  rw [hlength]
  exact h

end Commands

section Operations

variable {α : Type} {D : Link Device → Prop} {s : Link Device}

/-- The code of a command. -/
def commandCode (reply : ℤ×ClpHeader) : ℤ :=
  if reply.1<0 then reply.1 else clClientStatusError reply.2.imm

theorem clClientStatusError_neg {status : UInt8} (h : status≠clpStatusOk) :
    clClientStatusError status<0 := by
  unfold clClientStatusError
  rw [if_neg h]
  omega

/-- The status of an answer becomes a code; the server is not asked. -/
theorem wp_streamCommandStatus {reply : ℤ×ClpHeader} {Q : ℤ → Link Device → Prop}
    (h : ∀ t : Link Device,t.device=s.device → Q (commandCode reply) t) :
    wp (streamCommandStatus reply.1 reply.2) Q D s := by
  unfold commandCode at h
  unfold streamCommandStatus
  split
  next hneg =>
    rw [if_pos hneg] at h
    exact h s rfl
  next hneg =>
    rw [if_neg hneg] at h
    split
    · exact h _ rfl
    next hok =>
      rw [not_not.mp hok] at h
      exact h s rfl

/-- What is discarded is taken from the words to be delivered. -/
theorem wp_clWireDiscardPayload {device : Device} {words : List UInt32} {length : UInt32}
    {Q : Unit → Link Device → Prop} (hs : s.device=device.delivering words)
    (h : ∀ (t : Link Device) (rest : List UInt32),t.device=device.delivering rest → Q () t) :
    wp (clWireDiscardPayload wire length) Q D s := by
  unfold clWireDiscardPayload receivePayload
  rw [wp_bind]
  exact wp_receiveWords hs fun t ht => h t _ ht

theorem wp_discardIfAny {device : Device} {words : List UInt32} {response : ClpHeader}
    {Q : Unit → Link Device → Prop} (hs : s.device=device.delivering words)
    (h : ∀ (t : Link Device) (rest : List UInt32),t.device=device.delivering rest → Q () t) :
    wp (discardIfAny wire response) Q D s := by
  unfold discardIfAny
  split
  · exact wp_clWireDiscardPayload hs h
  · exact h s words hs

/-- The end of an operation without a payload. -/
theorem wp_finishAck {device : Device} {words : List UInt32} {stream done : Stream}
    {reply : ℤ×ClpHeader} {Q : ℤ×Stream → Link Device → Prop}
    (hs : s.device=device.delivering words)
    (h : ∀ (t : Link Device) (rest : List UInt32),t.device=device.delivering rest →
      Q (if commandCode reply<0 then (commandCode reply,failed stream (commandCode reply))
        else (0,done)) t) :
    wp (finishAck wire stream done reply.1 reply.2) Q D s := by
  unfold finishAck
  rw [wp_bind]
  refine wp_streamCommandStatus fun t ht => ?_
  rw [wp_bind]
  refine wp_discardIfAny (ht.trans hs) fun u rest hu => ?_
  exact h u rest hu

/-- As many words as the length says are all words of the payload. -/
theorem all_words {payload : List UInt8} {length : UInt32} (hlength : payload.length≤2^32-4)
    (heq : length=UInt32.ofNat payload.length) :
    ((List.range (wordCount length)).map fun i => (payloadWords payload).getD i 0)=
      payloadWords payload := by
  rw [heq,← length_payloadWords hlength]
  apply List.ext_getElem
  · simp
  · intro i hi hi'
    simp [List.getElem?_eq_getElem hi']

/-- The words of a payload are received one by one. -/
theorem wp_receivePayload {device : Device} {payload : List UInt8} {length : UInt32}
    {Q : List UInt32 → Link Device → Prop}
    (hs : s.device=device.delivering (payloadWords payload)) (hlength : payload.length≤2^32-4)
    (heq : length=UInt32.ofNat payload.length)
    (h : ∀ (t : Link Device) (rest : List UInt32),t.device=device.delivering rest →
      Q (payloadWords payload) t) :
    wp (receivePayload wire length) Q D s := by
  have htoNat : length.toNat=payload.length := by
    rw [heq]
    exact UInt32.toNat_ofNat_of_lt' (by unfold UInt32.size; omega)
  have hwords : (clpAlignedLength length).toNat/4=wordCount length :=
    words_eq_wordCount.mpr (by rw [UInt32.le_iff_toNat_le,htoNat]; change _≤2^32-4; omega)
  unfold receivePayload
  rw [hwords]
  refine wp_receiveWords hs fun t ht => ?_
  rw [all_words hlength heq]
  exact h t _ ht

/-- The words of a payload are received by the bulk transfer or one by one. -/
theorem wp_readPayloadFastOrWords {device : Device} {payload : List UInt8}
    {length : UInt32} {Q : Except ℤ (List UInt8) → Link Device → Prop}
    (hs : s.device=device.delivering (payloadWords payload)) (hlength : payload.length<2^16)
    (heq : length=UInt32.ofNat payload.length)
    (h : ∀ (t : Link Device) (rest : List UInt32),t.device=device.delivering rest →
      Q (if 256≤ payload.length ∧ device.bulkResult<0 then .error device.bulkResult
        else .ok payload) t) :
    wp (readPayloadFastOrWords wire length) Q D s := by
  have htoNat : length.toNat=payload.length := by
    rw [heq]
    exact UInt32.toNat_ofNat_of_lt' (by unfold UInt32.size; omega)
  have hbytes : payloadBytes (payloadWords payload) length=payload := by
    rw [heq]
    exact payloadBytes_payloadWords (by omega)
  unfold readPayloadFastOrWords receiveFastOrWords fastHook
  rw [wp_bind]
  by_cases hfast : clClientFastPayloadThreshold≤length
  · have hlong : 256≤ payload.length := by
      have hle := UInt32.le_iff_toNat_le.mp hfast
      rw [htoNat] at hle
      exact hle
    have hhook : wire.readPayload.map (fun hook => hook length)=some (Device.bulk length) :=
      rfl
    rw [if_pos hfast,hhook]
    dsimp only
    rw [wp_bind]
    unfold callHook Device.bulk
    rw [wp_access]
    dsimp only
    rw [hs]
    have hreceived : ((List.range (wordCount length)).map fun i =>
        (nopWord,(payloadWords payload).getD i 0)).map Prod.snd=payloadWords payload := by
      rw [List.map_map]
      exact all_words (by omega) heq
    by_cases hfails : device.bulkResult<0
    · have hcode : (device.delivering (payloadWords payload)).bulkResult<0 := hfails
      rw [if_pos hcode,wp_bind]
      unfold transferTimeout setClient
      rw [wp_update,wp_pure,wp_pure]
      have hend := fun t rest => h t rest
      rw [if_pos ⟨hlong,hfails⟩] at hend
      exact hend _ _ rfl
    · have hcode : ¬(device.delivering (payloadWords payload)).bulkResult<0 := hfails
      rw [if_neg hcode,wp_pure,wp_pure]
      have hend := fun t rest => h t rest
      rw [if_neg (not_and_of_not_right _ hfails)] at hend
      change Q (.ok (payloadBytes (((List.range (wordCount length)).map fun i =>
        (nopWord,(payloadWords payload).getD i 0)).map Prod.snd) length)) _
      rw [hreceived,hbytes]
      exact hend _ _ rfl
  · have hshort : ¬(256≤ payload.length ∧ device.bulkResult<0) := by
      rintro ⟨hlong,-⟩
      apply hfast
      rw [UInt32.le_iff_toNat_le,htoNat]
      exact hlong
    rw [if_neg hfast]
    dsimp only
    rw [wp_bind]
    refine wp_receivePayload hs (by omega) heq fun t rest ht => ?_
    rw [wp_pure,wp_pure]
    have hend := h t _ ht
    rw [if_neg hshort] at hend
    change Q (.ok (payloadBytes (payloadWords payload) length)) t
    rw [hbytes]
    exact hend

/-- An operation that expects a payload fails with the code of its command. -/
theorem wp_finishExact_failed {reply : ℤ×ClpHeader} {expected : UInt32} {failure : ℤ → α}
    {other : α} {use : List UInt8 → α} {Q : α → Link Device → Prop}
    (hcode : commandCode reply<0)
    (h : ∀ t : Link Device,t.device=s.device → Q (failure (commandCode reply)) t) :
    wp (finishExact wire expected failure other use reply.1 reply.2) Q D s := by
  unfold finishExact
  rw [wp_bind]
  refine wp_streamCommandStatus fun t ht => ?_
  rw [if_pos hcode,wp_pure]
  exact h t ht

/-- It goes on with the payload. -/
theorem wp_finishExact_done {device : Device} {payload : List UInt8} {reply : ℤ×ClpHeader}
    {expected : UInt32} {failure : ℤ → α} {other : α} {use : List UInt8 → α}
    {Q : α → Link Device → Prop} (hcode : commandCode reply=0)
    (hs : s.device=device.delivering (payloadWords payload))
    (hlength : reply.2.length=UInt32.ofNat payload.length)
    (hexpected : expected=UInt32.ofNat payload.length) (hsmall : payload.length≤2^32-4)
    (h : ∀ (t : Link Device) (rest : List UInt32),t.device=device.delivering rest →
      Q (use payload) t) :
    wp (finishExact wire expected failure other use reply.1 reply.2) Q D s := by
  unfold finishExact
  rw [wp_bind]
  refine wp_streamCommandStatus fun t ht => ?_
  rw [hcode,if_neg (by decide),hlength,if_neg (not_not.mpr hexpected.symm),wp_bind]
  unfold readPayloadWords
  rw [wp_bind]
  refine wp_receivePayload (ht.trans hs) hsmall hexpected fun u rest hu => ?_
  rw [wp_pure,wp_pure,hexpected,payloadBytes_payloadWords hsmall]
  exact h u rest hu

end Operations

end ChisLink.StreamServer
