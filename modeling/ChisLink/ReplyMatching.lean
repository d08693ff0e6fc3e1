import ChisLink.ClientExchange
import ChisLink.LabelledRuns

/-!
# Replies and their commands

A client issues one command after another while the wire delivers frames that the
microcontroller produced for any command so far, in any order and any number of
times, mixed with words that belong to no frame. The wait for a reply looks at the
channel and the opcode, and at the sequence number where the reply has one. The
word of an ACK has none. What the wait accepts is followed back to the command
that it was produced for.
-/

namespace ChisLink.ReplyMatching

open DriverPrograms WireProtocol StorageClient StorageBoundary WireCommands ClientExchange
  LabelledRuns

/-- The two kinds of replies. -/
inductive FrameKind where
  /-- One word. -/
  | ack
  /-- A header, with what the microcontroller chooses of it. -/
  | response (length : UInt32) (flags : UInt16) (crc32 : UInt32)
deriving DecidableEq

/-- A reply that was produced for a command. -/
structure Frame where
  /-- Number of the command, from zero. -/
  producer : ℕ
  /-- Kind of the reply. -/
  kind : FrameKind
  /-- Its status. -/
  status : UInt8
deriving DecidableEq

/-- Whether a word begins a reply. -/
def beginsReply (word : UInt32) : Bool :=
  clpIsProtocolWord word && (clpWordType word=clpTypeAck || clpWordType word=clpTypeResponse)

/-- What the wire delivers during a wait. -/
inductive Item where
  /-- A word that does not begin a reply. -/
  | stray (word : UInt32) (h : beginsReply word=false)
  /-- A reply. -/
  | frame (frame : Frame)

/-- The words of a reply to a command. -/
def Frame.words (frame : Frame) (command : ClpHeader) : List UInt32 :=
  match frame.kind with
  | .ack => [clpMakeWord clpTypeAck command.channel command.opcode frame.status]
  | .response length flags crc32 =>
    clpEncodeHeaderWords
      { type := clpTypeResponse
        channel := command.channel
        opcode := command.opcode
        imm := frame.status
        length := length
        seq := command.seq
        flags := flags
        crc32 := crc32 }

/-- The words of an item, with the commands issued so far. -/
def Item.words (issued : List ClpHeader) : Item → List UInt32
  | .stray word _ => [word]
  | .frame reply =>
    match issued[reply.producer]? with
    | some command => reply.words command
    | none => []

/-- The first reply among what was delivered. -/
def firstReply : List Item → Option Frame
  | [] => none
  | .stray _ _::items => firstReply items
  | .frame frame::_ => some frame

/-- The two ways to issue a command. -/
inductive Issue where
  /-- `cl_wire_command_chunks`, with what the header of the caller held before. -/
  | chunks (channel opcode : UInt8) (chunks : List (List UInt8)) (stale : ClpHeader)
  /-- `send_command` of the storage client. -/
  | storage (opcode : UInt8) (payload : List UInt8)

/-- Issue a command over a script of words. -/
def Issue.run : Issue → Prog (Link (List UInt32)) (Except ℤ ClpHeader)
  | .chunks channel opcode parts stale => do
    let reply ← clWireCommandChunks scriptTransport channel opcode parts stale
    pure (toAnswer reply)
  | .storage opcode payload => sendCommand ⟨scriptTransport,none⟩ opcode payload

/-- The header that is sent with a sequence number, unless the payload is too long. -/
def Issue.header (seq : UInt16) : Issue → Option ClpHeader
  | .chunks channel opcode parts _ =>
    (wirePayloadLength parts).map fun length =>
      commandHeader channel opcode (UInt32.ofNat length) seq
  | .storage opcode payload => some (storageHeader opcode (UInt32.ofNat payload.length) seq)

/-- The words that are exchanged while the command is sent. -/
def Issue.sentWords : Issue → ℕ
  | .chunks _ _ parts _ => 4+(payloadWords parts.flatten).length
  | .storage _ payload => 4+(payloadWords payload).length

/-- The sequence number after this one. -/
def nextSeq (seq : UInt16) : UInt16 := if seq+1=0 then 1 else seq+1

/-- A reply that a command accepted. -/
structure Accepted where
  /-- Number of the command. -/
  command : ℕ
  /-- The header that it returned. -/
  response : ClpHeader
  /-- What was delivered during its wait. -/
  delivered : List Item

/-- The client with the history of its commands. -/
structure World where
  /-- The client. -/
  client : Client
  /-- Headers of the commands issued. -/
  issued : List ClpHeader
  /-- Replies accepted. -/
  accepted : List Accepted

/-- One command with what the wire delivers. -/
structure Action where
  /-- The command. -/
  issue : Issue
  /-- Words received while it is sent; they are dropped. -/
  echo : List UInt32
  /-- What is delivered while its reply is awaited. -/
  items : List Item

/-- Headers of the commands in a record. -/
def commandsOf : List LinkEvent → List ClpHeader
  | [] => []
  | .command header::events => header::commandsOf events
  | _::events => commandsOf events

/-- The commands that a reply may belong to when this one awaits its own. -/
def issuedWith (s : World) (issue : Issue) : List ClpHeader :=
  s.issued++(issue.header (nextSeq s.client.nextSeq)).toList

/-- The link on which a command is issued. -/
def linkFor (s : World) (action : Action) : Link (List UInt32) where
  device := action.echo++action.items.flatMap (Item.words (issuedWith s action.issue))
  client := s.client
  log := []

/-- Whether an item is a word of its own or a reply to one of so many commands. -/
def Item.within (count : ℕ) : Item → Bool
  | .stray _ _ => true
  | .frame reply => reply.producer<count

/-- Whether the wire can deliver this: the words while sending are as many as are
sent, and replies are to commands that were issued. -/
def deliverable (s : World) (action : Action) : Bool :=
  action.echo.length=action.issue.sentWords &&
    action.items.all (Item.within (issuedWith s action.issue).length)

/-- The reply that a command accepted, if it did. -/
def acceptedBy (s : World) (action : Action) : Except ℤ ClpHeader → List Accepted
  | .error _ => []
  | .ok response => [⟨s.issued.length,response,action.items⟩]

/-- Issue one command. -/
def step (s : World) (action : Action) : Option World :=
  if deliverable s action then
    match action.issue.run (linkFor s action) with
    | (some answer,t) =>
      some
        { client := t.client
          issued := s.issued++commandsOf t.log
          accepted := s.accepted++acceptedBy s action answer }
    | (none,_) => none
  else none

/-- A client before its first command. -/
def fresh (client : Client) : World := ⟨client,[],[]⟩

/-- What an accepted reply has in common with the command that awaits it: channel and
opcode, and for a response also the sequence number and the whole header. -/
def Matches (channel opcode : UInt8) (seq : UInt16) (command : ClpHeader) (frame : Frame)
    (response : ClpHeader) : Prop :=
  command.channel=channel ∧ command.opcode=opcode ∧ response.imm=frame.status ∧
    (frame.kind≠.ack → command.seq=seq ∧
      clpEncodeHeaderWords response=frame.words command)

/-- The first reply among the items was produced for a command that matches. -/
def Attributed (channel opcode : UInt8) (seq : UInt16) (issued : List ClpHeader)
    (items : List Item) (response : ClpHeader) : Prop :=
  ∃ frame command,firstReply items=some frame ∧ issued[frame.producer]?=some command ∧
    Matches channel opcode seq command frame response

@[simp] theorem commandsOf_append (first second : List LinkEvent) :
    commandsOf (first++second)=commandsOf first++commandsOf second := by
  induction first with
  | nil => rfl
  | cons event first ih =>
    cases event with
    | command header => exact congrArg (List.cons header) ih
    | word sent received => exact ih
    | accepted response => exact ih

section Script

variable {channel opcode : UInt8} {seq : UInt16} {issued : List ClpHeader}

/-- A wait keeps the sequence number and the commands, and what it accepts is
attributed. -/
def Awaits (channel opcode : UInt8) (seq : UInt16) (issued : List ClpHeader)
    (items : List Item) (before : Link (List UInt32)) (answer : Except ℤ ClpHeader)
    (after : Link (List UInt32)) : Prop :=
  after.client.nextSeq=before.client.nextSeq ∧ commandsOf after.log=commandsOf before.log ∧
    ∀ response,answer=.ok response →
      Attributed channel opcode seq issued items response

/-- One word from the script. -/
theorem wp_xfer_script {sent : UInt32} {s : Link (List UInt32)} {α : Type}
    {f : UInt32 → Prog (Link (List UInt32)) α} {Q : α → Link (List UInt32) → Prop}
    {D : Link (List UInt32) → Prop}
    (h : ∀ t : Link (List UInt32),t.device=s.device.tail → t.client=s.client →
      commandsOf t.log=commandsOf s.log → wp (f (s.device.headD 0)) Q D t) :
    wp (xfer scriptTransport sent >>= f) Q D s := by
  rw [wp_bind]
  refine h _ rfl rfl ?_
  rw [commandsOf_append]
  exact List.append_nil _

/-- The client gives up; nothing is accepted. -/
theorem wp_rejected {items : List Item} {s t : Link (List UInt32)} (code : ℤ)
    (hclient : t.client.nextSeq=s.client.nextSeq)
    (hlog : commandsOf t.log=commandsOf s.log) :
    wp (do badPacket; pure (.error code)) (Awaits channel opcode seq issued items s)
      (fun _ => False) t := by
  rw [wp_bind]
  exact ⟨hclient,hlog,fun _ h => by cases h⟩

/-- An accepted reply that is attributed. -/
theorem wp_accepted {items : List Item} {s t : Link (List UInt32)} {response : ClpHeader}
    (hclient : t.client.nextSeq=s.client.nextSeq)
    (hlog : commandsOf t.log=commandsOf s.log)
    (h : Attributed channel opcode seq issued items response) :
    wp (do acceptResponse response; pure (.ok response))
      (Awaits channel opcode seq issued items s) (fun _ => False) t := by
  rw [wp_bind]
  refine ⟨hclient,?_,fun other hother => ?_⟩
  · change commandsOf (t.log++[.accepted response])=_
    rw [commandsOf_append,hlog]
    exact List.append_nil _
  · cases hother
    exact h

/-- A wait that begins later in the same exchange. -/
theorem Awaits.of_later {items : List Item} {s t u : Link (List UInt32)}
    {answer : Except ℤ ClpHeader} (h : Awaits channel opcode seq issued items t answer u)
    (hclient : t.client=s.client) (hlog : commandsOf t.log=commandsOf s.log) :
    Awaits channel opcode seq issued items s answer u :=
  ⟨h.1.trans (congrArg Client.nextSeq hclient),h.2.1.trans hlog,h.2.2⟩

/-- A word that begins no reply is skipped or refused. -/
theorem wp_readStray {attempts : ℕ} {word : UInt32} {words : List UInt32}
    {items : List Item} {s : Link (List UInt32)} (hword : beginsReply word=false)
    (hhead : s.device.headD 0=word) (htail : s.device.tail=words)
    (hrest : ∀ t : Link (List UInt32),t.device=words → t.client=s.client →
      commandsOf t.log=commandsOf s.log →
      wp (readResponseFrom scriptTransport channel opcode seq attempts)
        (Awaits channel opcode seq issued items s) (fun _ => False) t) :
    wp (readResponseFrom scriptTransport channel opcode seq (attempts+1))
      (Awaits channel opcode seq issued items s) (fun _ => False) s := by
  unfold readResponseFrom
  refine wp_xfer_script fun t ht hclient hlog => ?_
  rw [hhead]
  split
  · exact hrest t (ht.trans htail) hclient hlog
  next hskip =>
    -- A word of the protocol that begins no reply is neither an ACK nor a response.
    have hprotocol : clpIsProtocolWord word=true := by
      by_contra h
      exact hskip (Or.inl (Bool.eq_false_of_not_eq_true h))
    have hkinds : ¬(clpWordType word=clpTypeAck ∨ clpWordType word=clpTypeResponse) := by
      intro h
      unfold beginsReply at hword
      rw [hprotocol,Bool.true_and,Bool.or_eq_false_iff] at hword
      rcases h with h | h
      · exact absurd hword.1 (by simp [h])
      · exact absurd hword.2 (by simp [h])
    rw [if_neg fun h => hkinds (Or.inl h),if_pos fun h => hkinds (Or.inr h)]
    exact wp_rejected (-2) (congrArg Client.nextSeq hclient) hlog

/-- An ACK is accepted if it has the channel and the opcode. -/
theorem wp_readAck {attempts : ℕ} {words : List UInt32} {items : List Item}
    {reply : Frame} {command : ClpHeader} {s : Link (List UInt32)}
    (hkind : reply.kind=.ack) (hcommand : issued[reply.producer]?=some command)
    (hdevice : s.device=reply.words command++words) :
    wp (readResponseFrom scriptTransport channel opcode seq (attempts+1))
      (Awaits channel opcode seq issued (.frame reply::items) s) (fun _ => False) s := by
  have hwords : reply.words command=
      [clpMakeWord clpTypeAck command.channel command.opcode reply.status] := by
    unfold Frame.words
    rw [hkind]
  rw [hwords] at hdevice
  unfold readResponseFrom
  refine wp_xfer_script fun t _ hclient hlog => ?_
  rw [hdevice,List.cons_append,List.headD_cons,clpIsProtocolWord_clpMakeWord,
    clpWordType_clpMakeWord,if_neg (by decide),if_pos (by decide),
    clpWordChannel_clpMakeWord,clpWordOpcode_clpMakeWord]
  split
  · exact wp_rejected (-2) (congrArg Client.nextSeq hclient) hlog
  next hsame =>
    have hchannel : command.channel=channel := by
      by_contra h
      exact hsame (Or.inl h)
    have hopcode : command.opcode=opcode := by
      by_contra h
      exact hsame (Or.inr h)
    refine wp_accepted (congrArg Client.nextSeq hclient) hlog
      ⟨reply,command,rfl,hcommand,hchannel,hopcode,?_,fun h => absurd hkind h⟩
    exact clpWordImm_clpMakeWord _ _ _ _

/-- A response is accepted if it also has the sequence number. -/
theorem wp_readResponse {attempts : ℕ} {words : List UInt32} {items : List Item}
    {reply : Frame} {command : ClpHeader} {s : Link (List UInt32)} {length : UInt32}
    {flags : UInt16} {crc32 : UInt32} (hkind : reply.kind=.response length flags crc32)
    (hcommand : issued[reply.producer]?=some command)
    (hdevice : s.device=reply.words command++words) :
    wp (readResponseFrom scriptTransport channel opcode seq (attempts+1))
      (Awaits channel opcode seq issued (.frame reply::items) s) (fun _ => False) s := by
  obtain ⟨header,hheader⟩ : ∃ header : ClpHeader,header=
      ⟨clpTypeResponse,command.channel,command.opcode,reply.status,length,command.seq,
        flags,crc32⟩ := ⟨_,rfl⟩
  have hwords : reply.words command=clpEncodeHeaderWords header := by
    unfold Frame.words
    rw [hkind,hheader]
  have htype : header.type=clpTypeResponse := by rw [hheader]
  have hfour : s.device=[clpMakeWord header.type header.channel header.opcode header.imm,
      header.length,clpMakeSeqFlags header.seq header.flags,header.crc32]++words :=
    hdevice.trans (congrArg (·++words) hwords)
  unfold readResponseFrom
  refine wp_xfer_script fun t1 ht1 hclient1 hlog1 => ?_
  rw [hfour,List.cons_append,List.headD_cons,clpIsProtocolWord_clpMakeWord,
    clpWordType_clpMakeWord,htype,if_neg (by decide),if_neg (by decide),
    if_neg (by decide)]
  refine wp_xfer_script fun t2 ht2 hclient2 hlog2 => ?_
  refine wp_xfer_script fun t3 ht3 hclient3 hlog3 => ?_
  refine wp_xfer_script fun t4 _ hclient4 hlog4 => ?_
  have hclient : t4.client.nextSeq=s.client.nextSeq := by
    rw [hclient4,hclient3,hclient2,hclient1]
  have hlog : commandsOf t4.log=commandsOf s.log := by
    rw [hlog4,hlog3,hlog2,hlog1]
  have hdecode : clpDecodeHeaderWords
      (clpMakeWord clpTypeResponse header.channel header.opcode header.imm)
      (t1.device.headD 0) (t2.device.headD 0) (t3.device.headD 0)=some header := by
    rw [ht3,ht2,ht1,hfour,← htype]
    exact clpDecodeHeaderWords_clpEncodeHeaderWords (by rw [htype]; rfl)
  rw [hdecode]
  dsimp only
  split
  next hanswers =>
    unfold answers at hanswers
    simp only [Bool.and_eq_true,decide_eq_true_eq] at hanswers
    obtain ⟨⟨⟨-,hchannel⟩,hopcode⟩,hseq⟩ := hanswers
    rw [hheader] at hchannel hopcode hseq
    refine wp_accepted hclient hlog
      ⟨reply,command,rfl,hcommand,hchannel,hopcode,by rw [hheader],fun _ => ?_⟩
    exact ⟨hseq,hwords.symm⟩
  next => exact wp_rejected (-2) hclient hlog

/-- The wait on a script of items, by induction on the attempts; each round takes one
item. -/
theorem wp_readResponseFrom (attempts : ℕ) (items : List Item) (s : Link (List UInt32))
    (hdevice : s.device=items.flatMap (Item.words issued))
    (hitems : ∀ item∈items,item.within issued.length=true) :
    wp (readResponseFrom scriptTransport channel opcode seq attempts)
      (Awaits channel opcode seq issued items s) (fun _ => False) s := by
  induction attempts generalizing items s with
  | zero => exact wp_rejected (-2) rfl rfl
  | succ attempts ih =>
    cases items with
    | nil =>
      have hempty : s.device=[] := hdevice
      have hzero : beginsReply 0=false := by decide
      refine wp_readStray hzero (by rw [hempty]; rfl) (congrArg List.tail hempty)
        fun t ht hclient hlog => ?_
      exact wp_post (ih [] t ht (by simp)) (fun _ _ h => h.of_later hclient hlog)
    | cons item items =>
      have hrest : ∀ item∈items,item.within issued.length=true :=
        fun other hother => hitems other (List.mem_cons_of_mem _ hother)
      cases item with
      | stray word hword =>
        have hwords : s.device=word::items.flatMap (Item.words issued) := hdevice
        refine wp_readStray hword (by rw [hwords]; rfl) (congrArg List.tail hwords)
          fun t ht hclient hlog => ?_
        exact wp_post (ih items t ht hrest) (fun _ _ h => h.of_later hclient hlog)
      | frame reply =>
        have hlt : reply.producer< issued.length :=
          of_decide_eq_true (hitems _ List.mem_cons_self)
        have hcommand := List.getElem?_eq_getElem hlt
        have hwords : s.device=reply.words issued[reply.producer]++
            items.flatMap (Item.words issued) := by
          rw [hdevice,List.flatMap_cons,Item.words]
          simp only [hcommand]
        cases hkind : reply.kind with
        | ack => exact wp_readAck hkind hcommand hwords
        | response length flags crc32 => exact wp_readResponse hkind hcommand hwords

end Script

section Exchange

variable {α : Type} {D : Link (List UInt32) → Prop} {s : Link (List UInt32)}

/-- Words that are sent take as many from the script. -/
theorem wp_sendWords_script {words : List UInt32} {Q : Unit → Link (List UInt32) → Prop}
    (h : ∀ t : Link (List UInt32),t.device=s.device.drop words.length →
      t.client=s.client → commandsOf t.log=commandsOf s.log → Q () t) :
    wp (sendWords scriptTransport words) Q D s := by
  induction words generalizing s with
  | nil => exact h s rfl rfl rfl
  | cons word words ih =>
    unfold sendWords
    refine wp_xfer_script fun t ht hclient hlog => ih fun u hu hclient' hlog' => ?_
    refine h u ?_ (hclient'.trans hclient) (hlog'.trans hlog)
    rw [hu,ht,List.drop_tail,List.length_cons]

/-- The next sequence number is taken. -/
theorem wp_clClientNextSeq {Q : UInt16 → Link (List UInt32) → Prop}
    (h : ∀ t : Link (List UInt32),t.device=s.device →
      t.client.nextSeq=nextSeq s.client.nextSeq → t.log=s.log →
      Q (nextSeq s.client.nextSeq) t) :
    wp clClientNextSeq Q D s := by
  unfold clClientNextSeq
  rw [wp_access]
  exact h _ rfl rfl rfl

/-- A command with its payload is sent, and something follows. -/
theorem wp_commandSent {header : UInt16 → ClpHeader} {payload : List UInt32}
    {f : UInt16 → Prog (Link (List UInt32)) α} {Q : α → Link (List UInt32) → Prop}
    (h : ∀ t : Link (List UInt32),t.device=s.device.drop (4+payload.length) →
      t.client.nextSeq=nextSeq s.client.nextSeq →
      commandsOf t.log=commandsOf s.log++[header (nextSeq s.client.nextSeq)] →
      wp (f (nextSeq s.client.nextSeq)) Q D t) :
    wp clClientNextSeq (fun seq t => wp (mark (.command (header seq))) (fun _ t =>
      wp (sendWords scriptTransport (clpEncodeHeaderWords (header seq))) (fun _ t =>
        wp (sendWords scriptTransport payload) (fun _ t => wp (f seq) Q D t) D t) D t)
      D t) D s := by
  refine wp_clClientNextSeq fun t ht hclient hlog => ?_
  unfold mark
  rw [wp_update]
  refine wp_sendWords_script fun u hu hclient' hlog' => ?_
  refine wp_sendWords_script fun v hv hclient'' hlog'' => h v ?_ ?_ ?_
  · rw [hv,hu,ht,List.drop_drop]
    rfl
  · rw [hclient'',hclient']
    exact hclient
  · rw [hlog'',hlog',commandsOf_append,hlog]
    rfl

end Exchange

/-- What a command leaves: its header among the commands, its sequence number in the
client, and an answer that is attributed. -/
def Answered (s : World) (action : Action) (answer : Except ℤ ClpHeader)
    (t : Link (List UInt32)) : Prop :=
  commandsOf t.log=(action.issue.header (nextSeq s.client.nextSeq)).toList ∧
    t.client.nextSeq=(if (action.issue.header (nextSeq s.client.nextSeq)).isSome
      then nextSeq s.client.nextSeq else s.client.nextSeq) ∧
    ∀ response,answer=.ok response →
      ∃ command,action.issue.header (nextSeq s.client.nextSeq)=some command ∧
        Attributed command.channel command.opcode command.seq
          (issuedWith s action.issue) action.items response

/-- The header of a command carries its sequence number. -/
theorem seq_of_header {issue : Issue} {seq : UInt16} {command : ClpHeader}
    (h : issue.header seq=some command) : command.seq=seq := by
  cases issue with
  | chunks channel opcode parts stale =>
    obtain ⟨length,-,rfl⟩ := Option.map_eq_some_iff.mp h
    rfl
  | storage opcode payload =>
    cases h
    rfl

section Exchange

variable {s : World} {action : Action}

/-- The wait after the command is sent. -/
theorem wp_await {channel opcode : UInt8} {length : UInt32} {t : Link (List UInt32)}
    (hdeliver : deliverable s action=true)
    (hheader : action.issue.header (nextSeq s.client.nextSeq)=
      some (commandHeader channel opcode length (nextSeq s.client.nextSeq)))
    (hdevice : t.device=(linkFor s action).device.drop action.issue.sentWords)
    (hclient : t.client.nextSeq=nextSeq s.client.nextSeq)
    (hlog : commandsOf t.log=
      [commandHeader channel opcode length (nextSeq s.client.nextSeq)]) :
    wp (readResponseFrom scriptTransport channel opcode (nextSeq s.client.nextSeq) 9)
      (Answered s action) (fun _ => False) t := by
  unfold deliverable at hdeliver
  simp only [Bool.and_eq_true,decide_eq_true_eq,List.all_eq_true] at hdeliver
  obtain ⟨hecho,hitems⟩ := hdeliver
  have hscript : t.device=action.items.flatMap (Item.words (issuedWith s action.issue)) := by
    rw [hdevice,← hecho]
    exact List.drop_left
  refine wp_post (wp_readResponseFrom 9 action.items t hscript hitems) ?_
  rintro answer u ⟨hseq,hcommands,haccepted⟩
  refine ⟨?_,?_,fun response hresponse => ⟨_,hheader,haccepted response hresponse⟩⟩
  · rw [hcommands,hlog,hheader]
    rfl
  · rw [hseq,hclient,hheader]
    rfl

/-- Both ways to issue a command answer for it. -/
theorem wp_run (hdeliver : deliverable s action=true) :
    wp action.issue.run (Answered s action) (fun _ => False) (linkFor s action) := by
  have hawait := @wp_await s action
  obtain ⟨issue,echo,items⟩ := action
  cases issue with
  | chunks channel opcode parts stale =>
    unfold Issue.run clWireCommandChunks
    rw [wp_bind]
    cases hlength : wirePayloadLength parts with
    | none =>
      have hheader : (Issue.chunks channel opcode parts stale).header
          (nextSeq s.client.nextSeq)=none :=
        congrArg (Option.map _) hlength
      refine ⟨?_,?_,fun response hresponse => ?_⟩
      · rw [hheader]
        rfl
      · rw [hheader]
        rfl
      · cases hresponse
    | some length =>
      dsimp only
      simp only [wp_bind]
      refine wp_commandSent fun t ht hclient hlog => ?_
      have hwait := @hawait channel opcode (UInt32.ofNat length) t hdeliver
        (congrArg (Option.map _) hlength) ht hclient hlog
      rw [readResponseFrom_eq _ _ _ _ stale,wp_bind] at hwait
      exact hwait
  | storage opcode payload =>
    unfold Issue.run sendCommand beginCommand
    simp only [wp_bind,wp_pure]
    exact wp_commandSent fun t ht hclient hlog => hawait hdeliver rfl ht hclient hlog

/-- What one step does. -/
theorem step_cases {t : World} (h : step s action=some t) :
    deliverable s action=true ∧ ∃ answer link,Answered s action answer link ∧
      t=⟨link.client,s.issued++commandsOf link.log,s.accepted++acceptedBy s action answer⟩ := by
  unfold step at h
  split at h
  next hdeliver =>
    obtain ⟨answer,link,hrun,hanswered⟩ := wp_total (wp_run hdeliver)
    rw [hrun] at h
    cases h
    exact ⟨hdeliver,answer,link,hanswered,rfl⟩
  next => cases h

end Exchange

/-- The sequence number of a command, counted from zero. -/
def seqOf (start : UInt16) (command : ℕ) : UInt16 := nextSeq (nextSeq^[command] start)

/-- The next number as a remainder: zero is skipped. -/
theorem toNat_nextSeq (seq : UInt16) : (nextSeq seq).toNat=seq.toNat%65535+1 := by
  have hlt := seq.toNat_lt
  unfold nextSeq
  by_cases hwrap : seq+1=0
  · have hlast : seq.toNat=65535 := by
      have hsum := congrArg UInt16.toNat hwrap
      rw [UInt16.toNat_add] at hsum
      have hone : (1 : UInt16).toNat=1 := rfl
      have hzero : (0 : UInt16).toNat=0 := rfl
      omega
    rw [if_pos hwrap,hlast]
    rfl
  · have hbefore : seq.toNat+1<65536 := by
      by_contra hge
      apply hwrap
      apply UInt16.toNat_inj.mp
      rw [UInt16.toNat_add]
      have hone : (1 : UInt16).toNat=1 := rfl
      have hzero : (0 : UInt16).toNat=0 := rfl
      omega
    rw [if_neg hwrap,UInt16.toNat_add]
    have hone : (1 : UInt16).toNat=1 := rfl
    omega

/-- Closed form of the numbers. -/
theorem toNat_seqOf (start : UInt16) (command : ℕ) :
    (seqOf start command).toNat=(start.toNat+command)%65535+1 := by
  induction command with
  | zero => exact toNat_nextSeq start
  | succ command ih =>
    have hstep : seqOf start (command+1)=nextSeq (seqOf start command) := by
      unfold seqOf
      rw [Function.iterate_succ_apply']
    rw [hstep,toNat_nextSeq,ih]
    omega

/-- Equal numbers are far apart. -/
theorem apart_of_seqOf_eq {start : UInt16} {first second : ℕ} (hlt : first<second)
    (h : seqOf start first=seqOf start second) : first+65535≤ second := by
  have hforms := congrArg UInt16.toNat h
  rw [toNat_seqOf,toNat_seqOf] at hforms
  omega

/-- What a reply that was accepted has to do with the command: it is the first reply
that was delivered; it was produced for a command issued until then on the same channel
with the same opcode, and its status is reported. A response is reported as it was
produced, for this command or for one that is older by a whole cycle of sequence
numbers. -/
def Belongs (issued : List ClpHeader) (entry : Accepted) : Prop :=
  ∃ frame producer command,firstReply entry.delivered=some frame ∧
    issued[frame.producer]?=some producer ∧ issued[entry.command]?=some command ∧
    frame.producer≤entry.command ∧ producer.channel=command.channel ∧
    producer.opcode=command.opcode ∧ entry.response.imm=frame.status ∧
    (frame.kind≠.ack → clpEncodeHeaderWords entry.response=frame.words producer ∧
      (frame.producer=entry.command ∨ frame.producer+65535≤entry.command))

/-- Later commands do not change it. -/
theorem Belongs.append {issued : List ClpHeader} {entry : Accepted}
    (h : Belongs issued entry) (more : List ClpHeader) : Belongs (issued++more) entry := by
  obtain ⟨frame,producer,command,hfirst,hproducer,hcommand,hrest⟩ := h
  refine ⟨frame,producer,command,hfirst,?_,?_,hrest⟩
  · rw [List.getElem?_append_left (List.getElem?_eq_some_iff.mp hproducer).1,hproducer]
  · rw [List.getElem?_append_left (List.getElem?_eq_some_iff.mp hcommand).1,hcommand]

/-- What holds between commands. -/
structure Inv (start : UInt16) (s : World) : Prop where
  /-- The client counts the commands. -/
  client : s.client.nextSeq=nextSeq^[s.issued.length] start
  /-- The commands carry the numbers. -/
  seqs : ∀ k command,s.issued[k]?=some command → command.seq=seqOf start k
  /-- Every reply that was accepted belongs to its command. -/
  accepted : ∀ entry∈s.accepted,Belongs s.issued entry

/-- A command that is attributed a reply belongs to it. -/
theorem belongs_of_attributed {start : UInt16} {issued : List ClpHeader}
    {command : ClpHeader} {response : ClpHeader} {items : List Item}
    (hseqs : ∀ k other,(issued++[command])[k]?=some other → other.seq=seqOf start k)
    (h : Attributed command.channel command.opcode command.seq (issued++[command]) items
      response) :
    Belongs (issued++[command]) ⟨issued.length,response,items⟩ := by
  obtain ⟨frame,producer,hfirst,hproducer,hchannel,hopcode,hstatus,hresponse⟩ := h
  have hlast : (issued++[command])[issued.length]?=some command := by simp
  have hle : frame.producer≤ issued.length := by
    have hlt := (List.getElem?_eq_some_iff.mp hproducer).1
    rw [List.length_append,List.length_singleton] at hlt
    omega
  refine ⟨frame,producer,command,hfirst,hproducer,hlast,hle,hchannel,hopcode,hstatus,?_⟩
  intro hkind
  obtain ⟨hseq,hwords⟩ := hresponse hkind
  refine ⟨hwords,?_⟩
  rcases Nat.eq_or_lt_of_le hle with heq | hlt
  · exact Or.inl heq
  · refine Or.inr (@apart_of_seqOf_eq start _ _ hlt ?_)
    rw [← hseqs _ _ hproducer,← hseqs _ _ hlast,hseq]

/-- One command keeps it. -/
theorem Inv.step {start : UInt16} {s t : World} {action : Action} (hs : Inv start s)
    (h : step s action=some t) : Inv start t := by
  obtain ⟨-,answer,link,⟨hcommands,hseq,haccepted⟩,rfl⟩ := step_cases h
  unfold issuedWith at haccepted
  cases hheader : action.issue.header (nextSeq s.client.nextSeq) with
  | none =>
    rw [hheader] at hcommands hseq haccepted
    have hnone : acceptedBy s action answer=[] := by
      cases answer with
      | error code => rfl
      | ok response =>
        obtain ⟨command,hnone,-⟩ := haccepted response rfl
        cases hnone
    have hsame : s.issued++commandsOf link.log=s.issued := by
      rw [hcommands]
      exact List.append_nil _
    refine ⟨?_,?_,?_⟩
    · dsimp only
      rw [hsame,hseq]
      exact hs.client
    · dsimp only
      rw [hsame]
      exact hs.seqs
    · dsimp only
      rw [hsame,hnone,List.append_nil]
      exact hs.accepted
  | some command =>
    rw [hheader] at hcommands hseq haccepted
    have hsame : s.issued++commandsOf link.log=s.issued++[command] := by
      rw [hcommands]
      rfl
    have hnumber : command.seq=seqOf start s.issued.length := by
      rw [seq_of_header hheader,hs.client]
      rfl
    have hseqs : ∀ k other,(s.issued++[command])[k]?=some other →
        other.seq=seqOf start k := by
      intro k other hother
      rcases Nat.lt_or_ge k s.issued.length with hlt | hge
      · rw [List.getElem?_append_left hlt] at hother
        exact hs.seqs k other hother
      · have hlt := (List.getElem?_eq_some_iff.mp hother).1
        rw [List.length_append,List.length_singleton] at hlt
        obtain rfl : k=s.issued.length := by omega
        rw [List.getElem?_concat_length] at hother
        cases hother
        exact hnumber
    refine ⟨?_,?_,?_⟩
    · dsimp only
      rw [hsame,hseq,List.length_append,List.length_singleton,Function.iterate_succ_apply',
        ← hs.client]
      rfl
    · dsimp only
      rw [hsame]
      exact hseqs
    · dsimp only
      rw [hsame]
      intro entry hentry
      rcases List.mem_append.mp hentry with hold | hnew
      · exact (hs.accepted entry hold).append _
      · cases answer with
        | error code => cases hnew
        | ok response =>
          cases List.mem_singleton.mp hnew
          obtain ⟨other,hother,hattributed⟩ := haccepted response rfl
          cases hother
          exact belongs_of_attributed hseqs hattributed

/-- The first close command. -/
def closeIssue : Issue := .storage clpStorageClose [1]

/-- Nothing answers the command. -/
def unanswered : Action := ⟨closeIssue,[0,0,0,0,0],[]⟩

end ChisLink.ReplyMatching
