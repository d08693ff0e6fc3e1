import ChisLink.StreamServer

/-!
# Devices that answer

A device takes the words of a command and then delivers its answer: idle words as
often as the client skips them, an ACK word or the header of a response, and the
payload. The contract is about the words that are exchanged, for any device. The
responder at the end is one that meets it.
-/

namespace ChisLink.AnsweringDevice

open DriverPrograms WireProtocol StorageClient StorageBoundary WireCommands
open StreamServer (payloadBytes_payloadWords length_payloadWords wirePayloadLengthFrom_eq
  sendWords_append)

variable {δ : Type}

/-- Exchange words with a device: what is received, and the device afterwards. -/
def exchangeAll (transport : Transport δ) : List UInt32 → δ → List UInt32×δ
  | [], d => ([],d)
  | word::words, d =>
    let reply := transport.xfer32 word d
    let rest := exchangeAll transport words reply.2
    (reply.1::rest.1,rest.2)

/-- Idle words bring these words. -/
def Delivers (transport : Transport δ) (words : List UInt32) (d d' : δ) : Prop :=
  exchangeAll transport (List.replicate words.length nopWord) d=(words,d')

/-- The link with another device and more events. -/
def advanced (s : Link δ) (d : δ) (events : List LinkEvent) : Link δ :=
  {s with device := d,log := s.log++events}

/-- A word that the client skips while it waits. -/
def Skipped (word : UInt32) : Prop :=
  clpIsProtocolWord word=false ∨ clpWordType word=clpTypeNop

/-- What a device sends back. -/
inductive Reply where
  /-- An ACK word. -/
  | ack (status : UInt8)
  /-- A response with a payload. -/
  | response (status : UInt8) (flags : UInt16) (crc32 : UInt32) (payload : List UInt8)

/-- Its status. -/
def Reply.status : Reply → UInt8
  | .ack status => status
  | .response status _ _ _ => status

/-- Its payload. -/
def Reply.payload : Reply → List UInt8
  | .ack _ => []
  | .response _ _ _ payload => payload

/-- The header that the client has of it. -/
def Reply.header (channel opcode : UInt8) (seq : UInt16) : Reply → ClpHeader
  | .ack status => ⟨clpTypeAck,channel,opcode,status,0,seq,0,0⟩
  | .response status flags crc32 payload =>
    ⟨clpTypeResponse,channel,opcode,status,UInt32.ofNat payload.length,seq,flags,crc32⟩

/-- The words before its payload. -/
def Reply.words (channel opcode : UInt8) (seq : UInt16) : Reply → List UInt32
  | .ack status => [clpMakeWord clpTypeAck channel opcode status]
  | .response status flags crc32 payload => clpEncodeHeaderWords
    ⟨clpTypeResponse,channel,opcode,status,UInt32.ofNat payload.length,seq,flags,crc32⟩

theorem header_imm (reply : Reply) (channel opcode : UInt8) (seq : UInt16) :
    (reply.header channel opcode seq).imm=reply.status := by
  cases reply <;> rfl

theorem header_length (reply : Reply) (channel opcode : UInt8) (seq : UInt16) :
    (reply.header channel opcode seq).length=UInt32.ofNat reply.payload.length := by
  cases reply <;> rfl

/-- An answer has no payload if it has no length. -/
theorem payload_nil {reply : Reply} (hlength : reply.payload.length≤ clpFrameMaxPayloadBytes) :
    UInt32.ofNat reply.payload.length=0 ↔ reply.payload=[] := by
  have hmax : clpFrameMaxPayloadBytes=32768 := rfl
  have hnat : (UInt32.ofNat reply.payload.length).toNat=reply.payload.length :=
    UInt32.toNat_ofNat_of_lt' (by unfold UInt32.size; omega)
  have hzero : (0 : UInt32).toNat=0 := rfl
  rw [← UInt32.toNat_inj,hnat,hzero,List.length_eq_zero_iff]

/-- The device takes a command under any number and delivers an answer to it. -/
def Answers (transport : Transport δ) (channel opcode : UInt8) (payload : List UInt8)
    (R : Reply → δ → Prop) (d : δ) : Prop :=
  ∀ seq,∃ skipped reply d',(∀ word∈skipped,Skipped word) ∧ skipped.length≤8 ∧
    reply.payload.length≤ clpFrameMaxPayloadBytes ∧
    Delivers transport (skipped++(reply.words channel opcode seq++payloadWords reply.payload))
      (exchangeAll transport (clpEncodeHeaderWords
        (commandHeader channel opcode (UInt32.ofNat payload.length) seq)++
          payloadWords payload) d).2 d' ∧
    R reply d'

section Exchange

variable (transport : Transport δ)

theorem exchangeAll_nil (d : δ) : exchangeAll transport [] d=([],d) := rfl

theorem exchangeAll_cons (word : UInt32) (words : List UInt32) (d : δ) :
    exchangeAll transport (word::words) d=
      ((transport.xfer32 word d).1::(exchangeAll transport words (transport.xfer32 word d).2).1,
        (exchangeAll transport words (transport.xfer32 word d).2).2) := rfl

theorem delivers_nil {d d' : δ} : Delivers transport [] d d' ↔ d'=d := by
  unfold Delivers
  rw [List.length_nil,List.replicate_zero,exchangeAll_nil]
  exact ⟨fun h => (congrArg Prod.snd h).symm,fun h => by rw [h]⟩

theorem delivers_cons {word : UInt32} {words : List UInt32} {d d' : δ} :
    Delivers transport (word::words) d d' ↔
      ∃ d'',transport.xfer32 nopWord d=(word,d'') ∧ Delivers transport words d'' d' := by
  unfold Delivers
  rw [List.length_cons,List.replicate_succ,exchangeAll_cons]
  constructor
  · intro h
    obtain ⟨hreceived,hlast⟩ := Prod.mk.inj h
    obtain ⟨hword,hwords⟩ := List.cons.inj hreceived
    exact ⟨_,Prod.ext hword rfl,Prod.ext hwords hlast⟩
  · rintro ⟨d'',hword,hwords⟩
    rw [hword,hwords]

theorem delivers_append {first second : List UInt32} {d d' : δ} :
    Delivers transport (first++second) d d' ↔
      ∃ d'',Delivers transport first d d'' ∧ Delivers transport second d'' d' := by
  induction first generalizing d with
  | nil => simp [delivers_nil]
  | cons word first ih =>
    rw [List.cons_append,delivers_cons]
    constructor
    · rintro ⟨d1,hword,hrest⟩
      obtain ⟨d2,hfirst,hsecond⟩ := ih.mp hrest
      exact ⟨d2,(delivers_cons transport).mpr ⟨d1,hword,hfirst⟩,hsecond⟩
    · rintro ⟨d2,hfirst,hsecond⟩
      obtain ⟨d1,hword,hrest⟩ := (delivers_cons transport).mp hfirst
      exact ⟨d1,hword,ih.mpr ⟨d2,hrest,hsecond⟩⟩

theorem advanced_advanced (s : Link δ) (d d' : δ) (events more : List LinkEvent) :
    advanced (advanced s d events) d' more=advanced s d' (events++more) := by
  unfold advanced
  rw [List.append_assoc]

theorem advanced_nothing (s : Link δ) : advanced s s.device []=s := by
  unfold advanced
  rw [List.append_nil]

end Exchange

section Programs

variable {transport : Transport δ} {α : Type} {Q : α → Link δ → Prop} {D : Link δ → Prop}
  {s : Link δ}

/-- A word is exchanged. -/
theorem wp_xfer_bind {word : UInt32} {f : UInt32 → Prog (Link δ) α}
    (h : wp (f (transport.xfer32 word s.device).1) Q D
      (advanced s (transport.xfer32 word s.device).2
        [.word word (transport.xfer32 word s.device).1])) :
    wp (xfer transport word >>= f) Q D s := by
  rw [wp_bind]
  exact h

/-- A known word is received. -/
theorem wp_receive {word : UInt32} {d : δ} {f : UInt32 → Prog (Link δ) α}
    (hword : transport.xfer32 nopWord s.device=(word,d))
    (h : wp (f word) Q D (advanced s d [.word nopWord word])) :
    wp (xfer transport nopWord >>= f) Q D s := by
  apply wp_xfer_bind
  rw [hword]
  exact h

/-- Words are sent. -/
theorem wp_sendWords {words : List UInt32} {Q : Unit → Link δ → Prop}
    (h : Q () (advanced s (exchangeAll transport words s.device).2
      (wordEvents (words.zip (exchangeAll transport words s.device).1)))) :
    wp (sendWords transport words) Q D s := by
  induction words generalizing s with
  | nil =>
    rw [exchangeAll_nil] at h
    change Q () s
    rw [← advanced_nothing s]
    exact h
  | cons word words ih =>
    unfold sendWords
    apply wp_xfer_bind
    apply ih
    rw [advanced_advanced]
    exact h

/-- Words are received. -/
theorem wp_receiveWords {words : List UInt32} {d : δ}
    {Q : List UInt32 → Link δ → Prop} (hd : Delivers transport words s.device d)
    (h : Q words (advanced s d
      (wordEvents ((List.replicate words.length nopWord).zip words)))) :
    wp (receiveWords transport words.length) Q D s := by
  induction words generalizing s Q with
  | nil =>
    rw [delivers_nil] at hd
    rw [hd] at h
    change Q [] s
    rw [← advanced_nothing s]
    exact h
  | cons word words ih =>
    obtain ⟨d',hword,hrest⟩ := (delivers_cons transport).mp hd
    rw [List.length_cons]
    unfold receiveWords
    refine wp_receive hword ?_
    rw [wp_bind]
    refine ih hrest ?_
    rw [wp_pure,advanced_advanced]
    exact h

/-- The link after an answer was accepted. -/
def accepted (s : Link δ) (response : ClpHeader) : Link δ :=
  {s with
    client := {s.client with
      lastStatus := response.imm
      state := if response.imm=clpStatusOk then .idle else .error}
    log := s.log++[.accepted response]}

/-- An answer is accepted after some words that are skipped. -/
theorem wp_wait {channel opcode : UInt8} {seq : UInt16} {stale : ClpHeader}
    {skipped : List UInt32} {reply : Reply} {attempts : ℕ} {d : δ}
    {Q : ℤ×ClpHeader → Link δ → Prop}
    (hskipped : ∀ word∈skipped,Skipped word) (hcount : skipped.length<attempts)
    (hd : Delivers transport (skipped++reply.words channel opcode seq) s.device d)
    (h : ∀ pairs,Q (0,reply.header channel opcode seq)
      (accepted (advanced s d (wordEvents pairs)) (reply.header channel opcode seq))) :
    wp (readResponseInto transport channel opcode seq stale attempts) Q D s := by
  induction skipped generalizing s attempts with
  | nil =>
    obtain ⟨attempts,rfl⟩ : ∃ n,attempts=n+1 := ⟨attempts-1,by simp at hcount; omega⟩
    rw [List.nil_append] at hd
    unfold readResponseInto
    cases reply with
    | ack status =>
      obtain ⟨d1,hword,hrest⟩ := (delivers_cons transport).mp hd
      rw [delivers_nil] at hrest
      subst hrest
      refine wp_receive hword ?_
      rw [clpIsProtocolWord_clpMakeWord,clpWordType_clpMakeWord,if_neg (by decide),
        if_pos (by decide),clpWordChannel_clpMakeWord,clpWordOpcode_clpMakeWord,
        if_neg (by simp)]
      have hheader : ackHeader (clpMakeWord clpTypeAck channel opcode status) seq=
          Reply.header channel opcode seq (.ack status) := by
        unfold ackHeader
        rw [clpWordType_clpMakeWord,clpWordChannel_clpMakeWord,clpWordOpcode_clpMakeWord,
          clpWordImm_clpMakeWord]
        rfl
      rw [hheader]
      exact h [(nopWord,clpMakeWord clpTypeAck channel opcode status)]
    | response status flags crc32 payload =>
      obtain ⟨header,hheader⟩ : ∃ header : ClpHeader,header=
          Reply.header channel opcode seq (.response status flags crc32 payload) := ⟨_,rfl⟩
      have htype : header.type=clpTypeResponse := by rw [hheader]; rfl
      have hanswers : answers header channel opcode seq=true := by
        rw [hheader]
        simp [answers,Reply.header]
      have hwords : Reply.words channel opcode seq (.response status flags crc32 payload)=
          clpEncodeHeaderWords header := by rw [hheader]; rfl
      have hfour : header.type &&& 0x0f=header.type := by rw [htype]; decide
      have hdecode := clpDecodeHeaderWords_clpEncodeHeaderWords hfour
      rw [← hheader] at h
      rw [hwords] at hd
      obtain ⟨d1,hw0,hd⟩ := (delivers_cons transport).mp hd
      obtain ⟨d2,hw1,hd⟩ := (delivers_cons transport).mp hd
      obtain ⟨d3,hw2,hd⟩ := (delivers_cons transport).mp hd
      obtain ⟨d4,hw3,hd⟩ := (delivers_cons transport).mp hd
      rw [delivers_nil] at hd
      subst hd
      have hresponse : clpWordType (clpMakeWord header.type header.channel header.opcode
          header.imm)=clpTypeResponse := by
        rw [clpWordType_clpMakeWord,htype]
        rfl
      refine wp_receive hw0 ?_
      rw [clpIsProtocolWord_clpMakeWord,hresponse,if_neg (by decide),if_neg (by decide),
        if_neg (by decide)]
      refine wp_receive hw1 ?_
      rw [advanced_advanced]
      refine wp_receive hw2 ?_
      rw [advanced_advanced]
      refine wp_receive hw3 ?_
      rw [advanced_advanced,hdecode]
      dsimp only
      rw [if_pos hanswers]
      exact h ((clpEncodeHeaderWords header).map fun word => (nopWord,word))
  | cons word skipped ih =>
    obtain ⟨attempts,rfl⟩ : ∃ n,attempts=n+1 := ⟨attempts-1,by simp at hcount; omega⟩
    obtain ⟨d1,hword,hrest⟩ := (delivers_cons transport).mp hd
    have hskip : clpIsProtocolWord word=false ∨ clpWordType word=clpTypeNop :=
      hskipped word (List.mem_cons_self ..)
    unfold readResponseInto
    refine wp_receive hword ?_
    rw [if_pos hskip]
    refine ih (fun w hw => hskipped w (List.mem_cons_of_mem _ hw))
      (by rw [List.length_cons] at hcount; omega) hrest fun pairs => ?_
    rw [advanced_advanced]
    exact h ((nopWord,word)::pairs)

/-- What an answered command leaves behind. -/
structure Answered (s t : Link δ) (response : ClpHeader) : Prop where
  /-- The capabilities are as before. -/
  caps : t.client.caps=s.client.caps
  /-- The record holds the command, the words and the answer. -/
  log : ∃ command pairs,
    t.log=s.log++.command command::(wordEvents pairs++[.accepted response])

theorem log_accepted {s t : Link δ} {command response : ClpHeader} {d d' : δ}
    {first : List (UInt32×UInt32)} (second : List (UInt32×UInt32))
    (h : t.log=s.log++[.command command]) :
    ∃ command pairs,
      (accepted (advanced (advanced t d (wordEvents first)) d' (wordEvents second))
        response).log=
      s.log++.command command::(wordEvents pairs++[.accepted response]) := by
  refine ⟨command,first++second,?_⟩
  rw [advanced_advanced,← wordEvents_append]
  change t.log++wordEvents (first++second)++[.accepted response]=_
  rw [h,List.append_assoc,List.append_assoc]
  rfl

/-- A command is answered. -/
theorem wp_answered {channel opcode : UInt8} {chunks : List (List UInt8)} {length : ℕ}
    {stale : ClpHeader} {R : Reply → δ → Prop} {Q : ℤ×ClpHeader → Link δ → Prop}
    (hlength : wirePayloadLength chunks=some length)
    (hd : Answers transport channel opcode chunks.flatten R s.device)
    (h : ∀ seq reply t d,Answered s t (reply.header channel opcode seq) →
      reply.payload.length≤ clpFrameMaxPayloadBytes →
      Delivers transport (payloadWords reply.payload) t.device d → R reply d →
      Q (0,reply.header channel opcode seq) t) :
    wp (clWireCommandChunks transport channel opcode chunks stale) Q D s := by
  obtain ⟨hsum,hmax⟩ := wirePayloadLengthFrom_eq (Nat.zero_le _) hlength
  rw [Nat.zero_add] at hsum
  unfold clWireCommandChunks
  rw [hlength]
  dsimp only
  rw [wp_bind]
  unfold clClientNextSeq
  rw [wp_access]
  dsimp only
  obtain ⟨seq,hseq⟩ : ∃ seq : UInt16,seq=
      if s.client.nextSeq+1=0 then 1 else s.client.nextSeq+1 := ⟨_,rfl⟩
  rw [← hseq,hsum,wp_bind]
  obtain ⟨skipped,reply,d,hskipped,hcount,hframe,hdeliver,hr⟩ := hd seq
  unfold mark
  rw [wp_update,← bind_bind,← sendWords_append,wp_bind]
  apply wp_sendWords
  rw [← List.append_assoc] at hdeliver
  obtain ⟨d1,hwords,hpayload⟩ := (delivers_append transport).mp hdeliver
  refine wp_wait hskipped (Nat.lt_succ_of_le hcount) hwords fun pairs => ?_
  exact h seq reply _ d ⟨rfl,log_accepted _ rfl⟩ hframe hpayload hr

/-- A payload is received. -/
theorem wp_receivePayload {payload : List UInt8} {d : δ}
    {Q : List UInt32 → Link δ → Prop} (hlength : payload.length≤ clpFrameMaxPayloadBytes)
    (hd : Delivers transport (payloadWords payload) s.device d)
    (h : ∀ pairs,pairs.length=wordCount (UInt32.ofNat payload.length) →
      Q (payloadWords payload) (advanced s d (wordEvents pairs))) :
    wp (receivePayload transport (UInt32.ofNat payload.length)) Q D s := by
  have hmax : clpFrameMaxPayloadBytes=32768 := rfl
  have hword : (UInt32.ofNat payload.length).toNat=payload.length :=
    UInt32.toNat_ofNat_of_lt' (by unfold UInt32.size; omega)
  have hsmall : UInt32.ofNat payload.length≤0xfffffffc := by
    rw [UInt32.le_iff_toNat_le,hword]
    change payload.length≤4294967292
    omega
  have hshort : payload.length≤2^32-4 := by omega
  have hcount := length_payloadWords hshort
  have hwords := words_eq_wordCount.mpr hsmall
  unfold receivePayload
  rw [hwords,← hcount]
  refine wp_receiveWords hd (h _ ?_)
  rw [List.length_zip,List.length_replicate,Nat.min_self,hcount]

/-- Its bytes are those that were sent. -/
theorem wp_readPayloadWords {payload : List UInt8} {d : δ}
    {Q : List UInt8 → Link δ → Prop} (hlength : payload.length≤ clpFrameMaxPayloadBytes)
    (hd : Delivers transport (payloadWords payload) s.device d)
    (h : ∀ pairs,pairs.length=wordCount (UInt32.ofNat payload.length) →
      Q payload (advanced s d (wordEvents pairs))) :
    wp (readPayloadWords transport (UInt32.ofNat payload.length)) Q D s := by
  have hmax : clpFrameMaxPayloadBytes=32768 := rfl
  unfold readPayloadWords
  rw [wp_bind]
  refine wp_receivePayload hlength hd fun pairs hpairs => ?_
  rw [wp_pure,payloadBytes_payloadWords (by omega)]
  exact h pairs hpairs

/-- A payload that fits in a frame has its length. -/
theorem wirePayloadLengthFrom_of_le {chunks : List (List UInt8)} {total : ℕ}
    (h : total+chunks.flatten.length≤ clpFrameMaxPayloadBytes) :
    wirePayloadLengthFrom total chunks=some (total+chunks.flatten.length) := by
  induction chunks generalizing total with
  | nil => rfl
  | cons chunk chunks ih =>
    rw [List.flatten_cons,List.length_append,← Nat.add_assoc] at h ⊢
    unfold wirePayloadLengthFrom
    rw [if_neg (by omega),ih h]

theorem wirePayloadLength_of_le {chunks : List (List UInt8)}
    (h : chunks.flatten.length≤ clpFrameMaxPayloadBytes) :
    wirePayloadLength chunks=some chunks.flatten.length := by
  have hzero : 0+chunks.flatten.length≤ clpFrameMaxPayloadBytes := by
    rw [Nat.zero_add]
    exact h
  unfold wirePayloadLength
  rw [wirePayloadLengthFrom_of_le hzero,Nat.zero_add]

/-- A storage command is a command with its payload in one chunk. -/
theorem sendCommand_eq (storage : Storage δ) (opcode : UInt8) {payload : List UInt8}
    (stale : ClpHeader) (hlength : payload.length≤ clpFrameMaxPayloadBytes) :
    sendCommand storage opcode payload=
      clWireCommandChunks storage.transport clpChStorage opcode [payload] stale >>=
        fun reply => pure (toAnswer reply) := by
  have hone : [payload].flatten=payload := by simp
  have hfits : wirePayloadLength [payload]=some payload.length := by
    rw [wirePayloadLength_of_le (by rw [hone]; exact hlength),hone]
  have hwait : ∀ seq,clWireReadResponse storage.transport clpChStorage opcode seq=
      readResponseInto storage.transport clpChStorage opcode seq stale 9 >>=
        fun reply => pure (toAnswer reply) := fun seq => readResponseFrom_eq _ _ _ _ stale 9
  unfold sendCommand clWireCommandChunks beginCommand
  rw [hfits,hone]
  dsimp only
  simp only [bind_bind,pure_bind,hwait]
  rfl

/-- A storage command is answered. -/
theorem wp_sendCommand {storage : Storage δ} {opcode : UInt8} {payload : List UInt8}
    {R : Reply → δ → Prop} {Q : Except ℤ ClpHeader → Link δ → Prop}
    (hlength : payload.length≤ clpFrameMaxPayloadBytes)
    (hd : Answers storage.transport clpChStorage opcode payload R s.device)
    (h : ∀ seq reply t d,Answered s t (reply.header clpChStorage opcode seq) →
      reply.payload.length≤ clpFrameMaxPayloadBytes →
      Delivers storage.transport (payloadWords reply.payload) t.device d → R reply d →
      Q (.ok (reply.header clpChStorage opcode seq)) t) :
    wp (sendCommand storage opcode payload) Q D s := by
  have hone : [payload].flatten=payload := by simp
  have hfits : wirePayloadLength [payload]=some payload.length := by
    rw [wirePayloadLength_of_le (by rw [hone]; exact hlength),hone]
  rw [sendCommand_eq storage opcode ⟨0,0,0,0,0,0,0,0⟩ hlength,wp_bind]
  rw [← hone] at hd
  refine wp_answered hfits hd fun seq reply t d hanswered hframe hdeliver hr => ?_
  rw [wp_pure]
  exact h seq reply t d hanswered hframe hdeliver hr

end Programs

/-- A device that collects the words of a command and then delivers what is answered. -/
structure Responder (σ : Type) where
  /-- Words of a command so far. -/
  received : List UInt32
  /-- Words to deliver. -/
  pending : List UInt32
  /-- What is behind the commands. -/
  store : σ

/-- All the words of a command. -/
def whole (frame : List UInt32) : Bool :=
  4≤frame.length && frame.length=4+wordCount (frame.getD 1 0)

section Responder

variable {σ : Type} (serve : ClpHeader → List UInt8 → σ → Reply×σ)

/-- Carry out a command. -/
def carryOut (frame : List UInt32) (store : σ) : Responder σ :=
  match clpDecodeHeaderWords (frame.getD 0 0) (frame.getD 1 0) (frame.getD 2 0)
      (frame.getD 3 0) with
  | none => ⟨[],[],store⟩
  | some header =>
    let reply := serve header (payloadBytes (frame.drop 4) header.length) store
    ⟨[],reply.1.words header.channel header.opcode header.seq++payloadWords reply.1.payload,
      reply.2⟩

/-- The words of a responder. -/
def respond : Transport (Responder σ) where
  xfer32 sent d :=
    match d.pending with
    | word::words => (word,{d with pending := words})
    | [] =>
      if whole (d.received++[sent]) then (0,carryOut serve (d.received++[sent]) d.store)
      else (0,{d with received := d.received++[sent]})
  readPayload := none
  readPayloadWriter := none
  writePayload := none
  writeWindowPayload := none

/-- The words of a command are collected until the command is whole. -/
theorem exchangeAll_collects {rest : List UInt32} (front : List UInt32) {store : σ}
    (hrest : rest≠[])
    (hwhole : whole (front++rest)=true)
    (hpart : ∀ n,front.length<n → n<(front++rest).length →
      whole ((front++rest).take n)=false) :
    (exchangeAll (respond serve) rest ⟨front,[],store⟩).2=
      carryOut serve (front++rest) store := by
  induction rest generalizing front with
  | nil => exact absurd rfl hrest
  | cons word rest ih =>
    have hmove : front++word::rest=front++[word]++rest := by simp
    rw [hmove] at hwhole hpart ⊢
    rw [exchangeAll_cons]
    by_cases hlast : rest=[]
    · subst hlast
      rw [List.append_nil] at hwhole ⊢
      rw [exchangeAll_nil]
      dsimp only [respond]
      rw [if_pos hwhole]
    · have hpos := List.length_pos_iff.mpr hlast
      have hmore := hpart (front.length+1) (Nat.lt_succ_self _) (by simp; omega)
      rw [List.take_left' (by simp)] at hmore
      have hstep : (respond serve).xfer32 word ⟨front,[],store⟩=
          (0,⟨front++[word],[],store⟩) := by
        dsimp only [respond]
        rw [hmore]
        rfl
      rw [hstep]
      refine ih _ hlast hwhole fun n hn => hpart n ?_
      rw [List.length_append] at hn
      omega

/-- A part of a command is not whole. -/
theorem not_whole_take {header : ClpHeader} {words : List UInt32} {n : ℕ}
    (hwords : words.length=wordCount header.length)
    (hn : n<(clpEncodeHeaderWords header++words).length) :
    whole ((clpEncodeHeaderWords header++words).take n)=false := by
  have hlength : (clpEncodeHeaderWords header++words).length=4+words.length := by
    rw [List.length_append]
    rfl
  unfold whole
  rw [List.length_take,Nat.min_eq_left hn.le]
  by_cases hfour : 4≤n
  · obtain ⟨k,rfl⟩ : ∃ k,n=k+4 := ⟨n-4,by omega⟩
    have hsecond : ((clpEncodeHeaderWords header++words).take (k+4)).getD 1 0=header.length :=
      rfl
    have hshort : k+4≠4+wordCount header.length := by omega
    rw [hsecond]
    simp [hshort]
  · simp [hfour]

/-- What is pending is delivered. -/
theorem delivers_pending (words : List UInt32) (received : List UInt32) (store : σ) :
    Delivers (respond serve) words ⟨received,words,store⟩ ⟨received,[],store⟩ := by
  induction words with
  | nil => exact (delivers_nil _).mpr rfl
  | cons word words ih => exact (delivers_cons _).mpr ⟨_,rfl,ih⟩

/-- A responder at rest answers every command with what is served. -/
theorem respond_answers {channel opcode : UInt8} {payload : List UInt8} {store : σ}
    {R : Reply → Responder σ → Prop} (hlength : payload.length≤ clpFrameMaxPayloadBytes)
    (h : ∀ seq,
      let reply := serve (commandHeader channel opcode (UInt32.ofNat payload.length) seq)
        payload store
      reply.1.payload.length≤ clpFrameMaxPayloadBytes ∧ R reply.1 ⟨[],[],reply.2⟩) :
    Answers (respond serve) channel opcode payload R ⟨[],[],store⟩ := by
  intro seq
  have hmax : clpFrameMaxPayloadBytes=32768 := rfl
  obtain ⟨header,hheader⟩ : ∃ header,
      header=commandHeader channel opcode (UInt32.ofNat payload.length) seq := ⟨_,rfl⟩
  have htype : header.type=clpTypeCommand := by rw [hheader]; rfl
  have hchannel : header.channel=channel := by rw [hheader]; rfl
  have hopcode : header.opcode=opcode := by rw [hheader]; rfl
  have hseq : header.seq=seq := by rw [hheader]; rfl
  have hpayload : header.length=UInt32.ofNat payload.length := by rw [hheader]; rfl
  have hshort : payload.length≤2^32-4 := by omega
  have hcount := length_payloadWords hshort
  have hwords : (payloadWords payload).length=wordCount header.length := by
    rw [hcount,hpayload]
  have hwhole : whole (clpEncodeHeaderWords header++payloadWords payload)=true := by
    have hlength : (clpEncodeHeaderWords header++payloadWords payload).length=
        4+(payloadWords payload).length := by
      rw [List.length_append]
      rfl
    have hsecond : (clpEncodeHeaderWords header++payloadWords payload).getD 1 0=
        header.length := rfl
    unfold whole
    rw [hsecond,hlength,hwords]
    simp
  obtain ⟨frame,hframe⟩ : ∃ frame,frame=clpEncodeHeaderWords header++payloadWords payload :=
    ⟨_,rfl⟩
  have hne : frame≠[] := by
    rw [hframe]
    exact List.cons_ne_nil _ _
  have hcollect : (exchangeAll (respond serve) frame ⟨[],[],store⟩).2=
      carryOut serve frame store := by
    refine exchangeAll_collects serve [] hne (by rw [hframe]; exact hwhole) ?_
    intro n _ hlt
    rw [List.nil_append,hframe] at hlt ⊢
    exact not_whole_take hwords hlt
  have hcarry : carryOut serve frame store=
      ⟨[],(serve header payload store).1.words channel opcode seq++
        payloadWords (serve header payload store).1.payload,
        (serve header payload store).2⟩ := by
    have hdecode : clpDecodeHeaderWords (frame.getD 0 0) (frame.getD 1 0) (frame.getD 2 0)
        (frame.getD 3 0)=some header := by
      rw [hframe]
      exact clpDecodeHeaderWords_clpEncodeHeaderWords (by rw [htype]; decide)
    have hrest : frame.drop 4=payloadWords payload := by
      rw [hframe]
      rfl
    unfold carryOut
    rw [hrest,hdecode]
    dsimp only
    rw [hpayload,payloadBytes_payloadWords (by omega),hchannel,hopcode,hseq]
  have hserved := h seq
  rw [← hheader] at hserved ⊢
  refine ⟨[],_,_,fun word hword => absurd hword (List.not_mem_nil),Nat.zero_le _,hserved.1,
    ?_,hserved.2⟩
  rw [← hframe,hcollect,hcarry,List.nil_append]
  exact delivers_pending serve _ [] _

end Responder

end ChisLink.AnsweringDevice
