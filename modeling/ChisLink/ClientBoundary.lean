import ChisLink.BleClient
import ChisLink.NetClient

/-!
# Frame boundaries of the network and Bluetooth clients

Whether the payload of an accepted answer is exchanged as a whole depends on the
command, on the status and on the length only. Some commands end by their status
and leave every payload, some discard a payload only after an error, and the
others read or discard what there is. The operations are sequences of commands,
so the same condition holds for each frame of their records.
-/

namespace ChisLink.ClientBoundary

open DriverPrograms WireProtocol StorageClient StorageBoundary WireCommands ClientExchange
  NetClient BleClient

/-- Commands that end by their status only. A plain scan is told apart from an
extended one by the length of its request. -/
def ignoresPayload (channel opcode : UInt8) (length : UInt32) : Bool :=
  (channel=clpChNet && (opcode=clpNetConfigSet || opcode=clpNetWebControl ||
      opcode=clpNetListen || opcode=clpNetClose)) ||
    (channel=clpChBle && (opcode=clpBleScanStop || opcode=clpBleDisconnect ||
      opcode=clpBleGattNotify || (opcode=clpBleScanStart && length=4)))

/-- Commands that expect an acknowledgement and discard a payload only after an
error. -/
def expectsAck (channel opcode : UInt8) : Bool :=
  channel=clpChBle && (opcode=clpBleScanStart || opcode=clpBleConnUpdate ||
    opcode=clpBlePair || opcode=clpBlePasskeyReply || opcode=clpBleSecurityConfig ||
    opcode=clpBleGattsReset || opcode=clpBleGattsStart || opcode=clpBleGattsStop ||
    opcode=clpBleGattsAddInclude || opcode=clpBleAdvStart || opcode=clpBleAdvStop ||
    opcode=clpBleGattsSetValue)

/-- Whether a command takes the payload of an answer with this status. -/
def takesPayload (channel opcode : UInt8) (length : UInt32) (status : UInt8) : Bool :=
  !ignoresPayload channel opcode length && (!expectsAck channel opcode || status≠clpStatusOk)

/-- The answer has no payload, or the command takes it and its length can be rounded
up to words in thirty-two bits. -/
def Settles (command response : ClpHeader) : Prop :=
  response.length=0 ∨
    (takesPayload command.channel command.opcode command.length response.imm=true ∧
      response.length≤0xfffffffc)

/-- A record that consists of frames, where each accepted answer is read as a whole
exactly if it settles its command. -/
inductive Frames : List LinkEvent → Prop where
  /-- Nothing was sent. -/
  | nil : Frames []
  /-- A command without an accepted answer. -/
  | unanswered (header : ClpHeader) (pairs : List (UInt32×UInt32)) {rest : List LinkEvent} :
      Frames rest → Frames (.command header::(wordEvents pairs++rest))
  /-- A command with an accepted answer and the words read of its payload. -/
  | answered (header : ClpHeader) (pairs : List (UInt32×UInt32)) (response : ClpHeader)
      (payload : List (UInt32×UInt32)) {rest : List LinkEvent} :
      (OnBoundary (response,payload.map Prod.snd) ↔ Settles header response) →
      Frames rest →
      Frames (.command header::(wordEvents pairs++
        .accepted response::(wordEvents payload++rest)))

/-- After a frame the record goes on with a command or ends. -/
theorem Frames.payloadOf {events : List LinkEvent} (h : Frames events) :
    payloadOf events=[] := by
  cases h <;> rfl

/-- Frames follow each other. -/
theorem Frames.append {first second : List LinkEvent} (hfirst : Frames first)
    (hsecond : Frames second) : Frames (first++second) := by
  induction hfirst with
  | nil => exact hsecond
  | unanswered header pairs _ ih =>
    simpa only [List.cons_append,List.append_assoc] using Frames.unanswered header pairs ih
  | answered header pairs response payload hiff _ ih =>
    simpa only [List.cons_append,List.append_assoc] using
      Frames.answered header pairs response payload hiff ih

@[simp] theorem answeredFrom_wordEvents (command : Option ClpHeader)
    (pairs : List (UInt32×UInt32)) (rest : List LinkEvent) :
    answeredFrom command (wordEvents pairs++rest)=answeredFrom command rest := by
  induction pairs with
  | nil => rfl
  | cons pair pairs ih =>
    have hcons : answeredFrom command (wordEvents (pair::pairs)++rest)=
        answeredFrom command (wordEvents pairs++rest) := rfl
    rw [hcons,ih]

/-- In a record of frames each accepted answer belongs to a command and is read as a
whole exactly if it settles this command. -/
theorem Frames.answeredFrom {events : List LinkEvent} (h : Frames events)
    (before : Option ClpHeader) :
    ∀ entry∈answeredFrom before events,
      ∃ command,entry.1=some command ∧ (OnBoundary entry.2 ↔ Settles command entry.2.1) := by
  induction h generalizing before with
  | nil => simp [ClientExchange.answeredFrom]
  | unanswered header pairs _ ih =>
    simpa only [ClientExchange.answeredFrom,answeredFrom_wordEvents] using ih (some header)
  | answered header pairs response payload hiff hrest ih =>
    simp only [ClientExchange.answeredFrom,answeredFrom_wordEvents,payloadOf_wordEvents,
      hrest.payloadOf,List.append_nil,List.mem_cons]
    rintro entry (rfl | hmem)
    · exact ⟨header,rfl,hiff⟩
    · exact ih (some header) entry hmem

variable {δ α β : Type}

/-- The program returns and records frames. -/
def Keeps (p : Prog (Link δ) α) : Prop := Emits Link.log p fun _ events => Frames events

section Sequences

theorem keeps_pure (a : α) : Keeps (δ := δ) (pure a) := emits_pure .nil

theorem keeps_refuse (code : ℤ) : Keeps (refuse code : Prog (Link δ) (Except ℤ α)) :=
  keeps_pure _

theorem Keeps.bind {p : Prog (Link δ) β} {f : β → Prog (Link δ) α} (hp : Keeps p)
    (hf : ∀ b,Keeps (f b)) : Keeps (p >>= f) := by
  refine Emits.bind hp ?_
  intro b first hfirst
  exact (hf b).mono fun _ _ hrest => hfirst.append hrest

theorem Keeps.andThen {p : Prog (Link δ) (Except ℤ α)} {f : α → Prog (Link δ) (Except ℤ β)}
    (hp : Keeps p) (hf : ∀ a,Keeps (f a)) : Keeps (andThen p f) := by
  refine hp.bind fun result => ?_
  cases result with
  | error code => exact keeps_pure _
  | ok a => exact hf a

theorem Keeps.andFinally {run : Prog (Link δ) (Except ℤ α)}
    {cleanup : Prog (Link δ) (Except ℤ β)} (hrun : Keeps run) (hcleanup : Keeps cleanup) :
    Keeps (andFinally run cleanup) := by
  refine hrun.bind fun result => hcleanup.bind fun cleaned => ?_
  cases result with
  | error code => exact keeps_pure _
  | ok a => cases cleaned <;> exact keeps_pure _

theorem Keeps.withScratch {peer : Peer δ} {required : ℕ} {run : Prog (Link δ) (Except ℤ α)}
    (h : Keeps run) : Keeps (withScratch peer required run) := by
  unfold ClientExchange.withScratch
  split
  · exact keeps_refuse _
  · exact h

theorem Keeps.ite {c : Prop} [Decidable c] {p q : Prog (Link δ) α} (hp : Keeps p)
    (hq : Keeps q) : Keeps (if c then p else q) := by
  split
  · exact hp
  · exact hq

/-- A check of the arguments before an operation that needs the buffer. -/
theorem Keeps.checked {c : Prop} [Decidable c] {code : ℤ} {peer : Peer δ} {required : ℕ}
    {run : Prog (Link δ) (Except ℤ α)} (h : Keeps run) :
    Keeps (if c then refuse code else ClientExchange.withScratch peer required run) :=
  (keeps_refuse _).ite h.withScratch

end Sequences

section Families

variable {peer : Peer δ} {channel opcode : UInt8} {chunks : List (List UInt8)}

/-- Exactly the words of a length rounded up in thirty-two bits are exchanged. -/
def AllWords (response : ClpHeader) (events : List LinkEvent) : Prop :=
  ∃ pairs,events=wordEvents pairs ∧
    pairs.length=(clpAlignedLength response.length).toNat/4

/-- Nothing is exchanged. -/
def NoWords (events : List LinkEvent) : Prop := events=[]

/-- What follows an accepted answer takes the payload or leaves it, as the command does. -/
def EndsAs (takes : Bool) (response : ClpHeader) (events : List LinkEvent) : Prop :=
  if takes then AllWords response events else NoWords events

/-- An exchange records one frame if its end does as the command does. -/
theorem keeps_exchange {finish : ClpHeader → Prog (Link δ) (Except ℤ α)}
    (h : ∀ length,wirePayloadLength chunks=some length → ∀ response,
      Emits Link.log (finish response) fun _ events =>
        EndsAs (takesPayload channel opcode (UInt32.ofNat length) response.imm) response
          events) :
    Keeps (exchange peer channel opcode chunks finish) := by
  unfold exchange ClientExchange.andThen commandAnswer
  cases hlength : wirePayloadLength chunks with
  | none => exact emits_pure .nil
  | some length =>
    dsimp only
    rw [bind_bind]
    refine emits_clClientNextSeq.bind ?_
    rintro seq _ rfl
    rw [bind_bind]
    refine (emits_mark _).bind ?_
    rintro _ _ rfl
    rw [bind_bind]
    refine (emits_sendWords peer.transport _).bind ?_
    rintro _ _ ⟨first,rfl⟩
    rw [bind_bind]
    refine (emits_sendWords peer.transport _).bind ?_
    rintro _ _ ⟨second,rfl⟩
    refine (emits_readResponseFrom peer.transport channel opcode seq 9).bind ?_
    rintro answer _ ⟨third,rfl⟩
    cases answer with
    | error code =>
      refine emits_pure ?_
      simpa using Frames.unanswered (commandHeader channel opcode (UInt32.ofNat length) seq)
        (first++second++third) .nil
    | ok response =>
      refine (h length hlength response).mono ?_
      intro _ events hends
      have hframe : ∀ payload,events=wordEvents payload →
          (OnBoundary (response,payload.map Prod.snd) ↔
            Settles (commandHeader channel opcode (UInt32.ofNat length) seq) response) →
          Frames (.command (commandHeader channel opcode (UInt32.ofNat length) seq)::(
            wordEvents (first++second++third)++.accepted response::events)) := by
        rintro payload rfl hiff
        simpa using Frames.answered _ (first++second++third) response payload hiff .nil
      have hgoal : Frames (.command (commandHeader channel opcode (UInt32.ofNat length) seq)::(
          wordEvents (first++second++third)++.accepted response::events)) := by
        unfold EndsAs at hends
        split at hends
        next htakes =>
          obtain ⟨payload,rfl,hlen⟩ := hends
          refine hframe payload rfl ?_
          unfold OnBoundary Settles
          rw [List.length_map,hlen]
          rw [words_eq_wordCount]
          constructor
          · exact fun hle => Or.inr ⟨htakes,hle⟩
          · rintro (hzero | ⟨-,hle⟩)
            · rw [hzero]
              decide
            · exact hle
        next htakes =>
          refine hframe [] hends ?_
          unfold OnBoundary Settles
          rw [← wordCount_eq_zero]
          constructor
          · exact fun hzero => Or.inl hzero.symm
          · exact fun hor => (hor.resolve_right fun hright => htakes hright.1).symm
      simpa [NoWords,wordEvents] using hgoal

theorem allWords_discard (response : ClpHeader) :
    Emits Link.log (discardResponseError (α := α) peer response)
      (fun _ events => AllWords response events) := by
  refine (emits_clWireDiscardPayload peer.transport response.length).bind ?_
  rintro _ _ ⟨pairs,rfl,hlen⟩
  exact emits_pure ⟨pairs,by simp,hlen⟩

theorem allWords_exact (expected : UInt32) (parse : List UInt8 → Except ℤ α)
    (response : ClpHeader) :
    Emits Link.log (expectExact peer expected parse response)
      (fun _ events => AllWords response events) := by
  unfold expectExact
  split
  next hok =>
    unfold responseOk at hok
    simp only [Bool.and_eq_true,decide_eq_true_eq] at hok
    refine (emits_readPayloadWords peer.transport expected).bind ?_
    rintro _ _ ⟨pairs,rfl,-,hlen⟩
    exact emits_pure ⟨pairs,by simp,by rw [hlen,hok.2]⟩
  next => exact allWords_discard response

theorem allWords_within (low high : UInt32) (parse : UInt32 → List UInt8 → Except ℤ α)
    (response : ClpHeader) :
    Emits Link.log (expectWithin peer low high parse response)
      (fun _ events => AllWords response events) := by
  unfold expectWithin
  split
  · exact allWords_discard response
  · refine (emits_readPayloadWords peer.transport response.length).bind ?_
    rintro _ _ ⟨pairs,rfl,-,hlen⟩
    exact emits_pure ⟨pairs,by simp,hlen⟩

/-- A payload without bytes has no words. -/
theorem allWords_nil {response : ClpHeader} (h : response.length=0) : AllWords response [] := by
  refine ⟨[],rfl,?_⟩
  rw [h]
  rfl

/-- A command that takes every payload. -/
theorem keeps_taken {finish : ClpHeader → Prog (Link δ) (Except ℤ α)}
    (htakes : ∀ length status,takesPayload channel opcode length status=true)
    (h : ∀ response,Emits Link.log (finish response) fun _ events => AllWords response events) :
    Keeps (exchange peer channel opcode chunks finish) := by
  refine keeps_exchange fun length _ response => (h response).mono fun _ events hwords => ?_
  unfold EndsAs
  rw [if_pos (htakes _ _)]
  exact hwords

/-- A command that ends by its status. -/
theorem keeps_statusOnly
    (hignores : ∀ length,wirePayloadLength chunks=some length →
      ignoresPayload channel opcode (UInt32.ofNat length)=true) :
    Keeps (exchange peer channel opcode chunks statusOnly) := by
  refine keeps_exchange fun length hlength response => emits_pure ?_
  unfold EndsAs takesPayload
  rw [hignores length hlength]
  rfl

/-- A command that expects an acknowledgement. -/
theorem keeps_expectAck (hack : expectsAck channel opcode=true)
    (hcounts : ∀ length,wirePayloadLength chunks=some length →
      ignoresPayload channel opcode (UInt32.ofNat length)=false) :
    Keeps (exchange peer channel opcode chunks (expectAck peer)) := by
  refine keeps_exchange fun length hlength response => ?_
  unfold EndsAs takesPayload expectAck
  rw [hcounts length hlength,hack]
  split
  next himm =>
    refine emits_pure ?_
    rw [himm]
    rfl
  next himm =>
    refine (allWords_discard response).mono fun _ events hwords => ?_
    rw [if_pos (by simp [himm])]
    exact hwords

end Families

section Commands

variable {peer : Peer δ} in
/-- A command that expects a payload of one length. -/
theorem keeps_exact {channel opcode : UInt8} {chunks : List (List UInt8)}
    (htakes : ∀ length status,takesPayload channel opcode length status=true)
    {expected : UInt32} {parse : List UInt8 → Except ℤ α} :
    Keeps (exchange peer channel opcode chunks (expectExact peer expected parse)) :=
  keeps_taken htakes fun response => allWords_exact expected parse response

variable {peer : Peer δ} in
/-- A command that takes a payload within bounds. -/
theorem keeps_within {channel opcode : UInt8} {chunks : List (List UInt8)}
    (htakes : ∀ length status,takesPayload channel opcode length status=true)
    {low high : UInt32} {parse : UInt32 → List UInt8 → Except ℤ α} :
    Keeps (exchange peer channel opcode chunks (expectWithin peer low high parse)) :=
  keeps_taken htakes fun response => allWords_within low high parse response

variable (peer : Peer δ)

theorem keeps_clNetStatus (flags : UInt32) : Keeps (clNetStatus peer flags) :=
  (keeps_exact fun _ _ => rfl).withScratch

theorem keeps_clNetConfigSet (config : NetConfig) (password : Option CString) :
    Keeps (clNetConfigSet peer config password) := by
  refine Keeps.withScratch ?_
  split
  · exact keeps_refuse _
  · exact keeps_statusOnly fun _ _ => rfl

theorem keeps_clNetResolveIpv4 (host : CString) : Keeps (clNetResolveIpv4 peer host) := by
  unfold clNetResolveIpv4
  split
  · exact keeps_pure _
  · exact (keeps_exact fun _ _ => rfl).checked

theorem keeps_clNetOpen (proto : NetProto) (remote : NetAddr) :
    Keeps (clNetOpen peer proto remote) :=
  ((keeps_refuse _).ite (keeps_exact fun _ _ => rfl)).withScratch

theorem keeps_clNetOpenHost (proto : NetProto) (host : CString) (port : UInt16) :
    Keeps (clNetOpenHost peer proto host port) :=
  (keeps_refuse _).ite
    ((keeps_clNetResolveIpv4 peer host).andThen fun _ => keeps_clNetOpen peer proto _)

theorem keeps_clNetAccept (listenHandle : UInt16) : Keeps (clNetAccept peer listenHandle) := by
  refine (keeps_refuse _).ite (Keeps.withScratch (keeps_taken (fun _ _ => rfl) ?_))
  intro response
  unfold finishAccept
  split
  · exact allWords_discard response
  · split
    next hzero => exact emits_pure (allWords_nil hzero)
    next => exact allWords_exact _ _ response

theorem keeps_clNetClose (handle : UInt16) : Keeps (clNetClose peer handle) :=
  (keeps_statusOnly fun _ _ => rfl).checked

theorem keeps_clNetPoll (handle : UInt16) : Keeps (clNetPoll peer handle) :=
  (keeps_exact fun _ _ => rfl).checked

theorem keeps_waitFlagsFrom (handle : UInt16) (requiredFlags : UInt32) (remaining : ℕ) :
    Keeps (waitFlagsFrom peer handle requiredFlags remaining) := by
  induction remaining with
  | zero => exact keeps_refuse _
  | succ remaining ih =>
    refine (keeps_clNetPoll peer handle).andThen fun flags => (keeps_pure _).ite ?_
    exact ih.andThen fun reply => keeps_pure _

theorem keeps_netWaitFlagsBudget (handle : UInt16) (requiredFlags : UInt32) (remaining : ℕ) :
    Keeps (netWaitFlagsBudget peer handle requiredFlags remaining) :=
  (keeps_refuse _).ite (keeps_waitFlagsFrom peer handle requiredFlags remaining)

theorem keeps_clNetWaitFlags (handle : UInt16) (requiredFlags attempts : UInt32) :
    Keeps (clNetWaitFlags peer handle requiredFlags attempts) :=
  (keeps_netWaitFlagsBudget peer handle requiredFlags _).andThen fun _ => keeps_pure _

theorem keeps_clNetSend (handle : UInt16) (data : List UInt8) :
    Keeps (clNetSend peer handle data) :=
  (keeps_exact fun _ _ => rfl).checked

/-- By induction on the bytes that are left, and for the same number of them on the
attempts that are left. -/
theorem keeps_sendAllFrom (handle : UInt16) (data : List UInt8) (stallBudget sent remaining : ℕ) :
    Keeps (sendAllFrom peer handle data stallBudget sent remaining) := by
  induction hleft : data.length-sent using Nat.strong_induction_on generalizing sent remaining with
  | _ left ihSent =>
    induction remaining using Nat.strong_induction_on with
    | _ remaining ihRemaining =>
      unfold sendAllFrom
      split
      next hmore =>
        refine (keeps_clNetSend peer handle _).andThen fun written => ?_
        split
        next hsome =>
          split
          next => exact keeps_refuse _
          next => exact ihSent (data.length-(sent+written)) (by omega) (sent+written) _ rfl
        next =>
          refine (keeps_netWaitFlagsBudget peer handle _ remaining).andThen fun reply => ?_
          exact ihRemaining reply.2 reply.2.isLt
      next => exact keeps_pure _

theorem keeps_clNetSendAll (handle : UInt16) (data : List UInt8) (waitAttempts : UInt32) :
    Keeps (clNetSendAll peer handle data waitAttempts) :=
  (keeps_refuse _).ite (keeps_sendAllFrom peer handle data _ 0 _)

theorem keeps_clNetRecv (handle : UInt16) (capacity : UInt32) :
    Keeps (clNetRecv peer handle capacity) :=
  (keeps_within fun _ _ => rfl).checked

/-- A datagram that fits is taken in two parts, which together have its words. -/
theorem allWords_recvfrom {requestCapacity : UInt32}
    (hcapacity : requestCapacity≤ clpNetRecvfromFrameMaxData) (response : ClpHeader) :
    Emits Link.log (finishRecvfrom peer requestCapacity response)
      (fun _ events => AllWords response events) := by
  unfold finishRecvfrom
  split
  · exact allWords_discard response
  · split
    next hzero => exact emits_pure (allWords_nil hzero)
    next =>
      split
      next => exact allWords_discard response
      next hbounds =>
        rw [not_or] at hbounds
        have hlow := UInt32.le_iff_toNat_le.mp (UInt32.not_lt.mp hbounds.1)
        have hhigh := UInt32.le_iff_toNat_le.mp (UInt32.not_lt.mp hbounds.2)
        have hcap := UInt32.le_iff_toNat_le.mp hcapacity
        have haddr : clpNetRecvfromAddrBytes.toNat=8 := rfl
        have hmax : clpNetRecvfromFrameMaxData.toNat=32760 := rfl
        rw [haddr] at hlow
        rw [UInt32.toNat_add,haddr] at hhigh
        rw [hmax] at hcap
        have hrest : (response.length-clpNetRecvfromAddrBytes).toNat=
            response.length.toNat-8 :=
          UInt32.toNat_sub_of_le _ _ (UInt32.le_iff_toNat_le.mpr hlow)
        have hwords : 2+(clpAlignedLength (response.length-clpNetRecvfromAddrBytes)).toNat/4=
            (clpAlignedLength response.length).toNat/4 := by
          rw [clpAlignedLength_words,clpAlignedLength_words,hrest]
          omega
        have htwo : (clpAlignedLength clpNetRecvfromAddrBytes).toNat/4=2 := by decide
        refine (emits_readPayloadWords peer.transport _).bind ?_
        rintro payload _ ⟨first,rfl,-,hfirst⟩
        rw [htwo] at hfirst
        dsimp only
        split
        next =>
          refine (emits_readPayloadWords peer.transport _).bind ?_
          rintro data _ ⟨second,rfl,-,hsecond⟩
          refine emits_pure ⟨first++second,by simp,?_⟩
          rw [List.length_append,hfirst,hsecond,hwords]
        next hnone =>
          refine emits_pure ⟨first,by simp,?_⟩
          rw [hfirst,← hwords,not_not.mp hnone]
          rfl

theorem keeps_clNetRecvfrom (handle : UInt16) (capacity : UInt32) :
    Keeps (clNetRecvfrom peer handle capacity) := by
  have hcapacity : min capacity clpNetRecvfromFrameMaxData≤ clpNetRecvfromFrameMaxData := by
    change (if capacity≤ clpNetRecvfromFrameMaxData then capacity
      else clpNetRecvfromFrameMaxData)≤ clpNetRecvfromFrameMaxData
    split
    next h => exact h
    next => exact UInt32.le_refl _
  refine (keeps_refuse _).ite (Keeps.withScratch (keeps_taken (fun _ _ => rfl) ?_))
  exact fun response => allWords_recvfrom peer hcapacity response

theorem keeps_recvWaitFrom (handle : UInt16) (capacity : UInt32) (remaining : ℕ) :
    Keeps (recvWaitFrom peer handle capacity remaining) := by
  induction remaining using Nat.strong_induction_on with
  | _ remaining ih =>
    unfold recvWaitFrom
    refine (keeps_clNetRecv peer handle capacity).andThen fun data => (keeps_pure _).ite ?_
    refine (keeps_netWaitFlagsBudget peer handle _ remaining).andThen fun reply => ?_
    exact ih reply.2 reply.2.isLt

theorem keeps_clNetRecvWait (handle : UInt16) (capacity waitAttempts : UInt32) :
    Keeps (clNetRecvWait peer handle capacity waitAttempts) :=
  (keeps_refuse _).ite (keeps_recvWaitFrom peer handle capacity _)

theorem keeps_clNetOpenTcpHostWait (host : CString) (port : UInt16) (attempts : UInt32) :
    Keeps (clNetOpenTcpHostWait peer host port attempts) := by
  refine (keeps_clNetOpenHost peer .tcp host port).andThen fun handle => ?_
  refine (keeps_clNetWaitFlags peer handle _ attempts).bind fun connected => ?_
  cases connected with
  | error code => exact (keeps_clNetClose peer handle).bind fun _ => keeps_pure _
  | ok _ => exact keeps_pure _

theorem keeps_tcpRequest (handle : UInt16) (txData : List UInt8)
    (rxCapacity ioAttempts : UInt32) :
    Keeps (tcpRequest peer handle txData rxCapacity ioAttempts) :=
  Keeps.ite ((keeps_clNetRecvWait peer handle rxCapacity ioAttempts).andThen fun _ => keeps_pure _)
    (keeps_pure _)

theorem keeps_clNetTcpRequestHost (host : CString) (port : UInt16) (txData : List UInt8)
    (rxCapacity connectAttempts ioAttempts : UInt32) :
    Keeps (clNetTcpRequestHost peer host port txData rxCapacity connectAttempts ioAttempts) := by
  refine (keeps_clNetOpenTcpHostWait peer host port connectAttempts).andThen fun handle => ?_
  split
  · refine (keeps_clNetSendAll peer handle txData ioAttempts).bind fun sent => ?_
    cases sent with
    | error code => exact (keeps_clNetClose peer handle).bind fun _ => keeps_pure _
    | ok _ =>
      exact (keeps_tcpRequest peer handle txData rxCapacity ioAttempts).andFinally
        (keeps_clNetClose peer handle)
  · exact (keeps_tcpRequest peer handle txData rxCapacity ioAttempts).andFinally
      (keeps_clNetClose peer handle)

theorem keeps_clBleScanStart (durationMs : UInt16) : Keeps (clBleScanStart peer durationMs) := by
  refine (keeps_statusOnly fun length hlength => ?_).withScratch
  have hfour : wirePayloadLength [le32 durationMs.toUInt32]=some 4 := rfl
  rw [hfour] at hlength
  cases hlength
  rfl

theorem keeps_clBleScanStop : Keeps (clBleScanStop peer) := keeps_statusOnly fun _ _ => rfl

theorem keeps_clBleScanStartEx (durationMs intervalUs windowUs : UInt16) (flags : UInt32) :
    Keeps (clBleScanStartEx peer durationMs intervalUs windowUs flags) := by
  refine (keeps_expectAck rfl fun length hlength => ?_).withScratch
  have hsixteen : wirePayloadLength [le32 durationMs.toUInt32++le32 intervalUs.toUInt32++
      le32 windowUs.toUInt32++le32 flags]=some 16 := rfl
  rw [hsixteen] at hlength
  cases hlength
  rfl

theorem keeps_clBleConnect (addr : BleAddr) : Keeps (clBleConnect peer addr) :=
  (keeps_exact fun _ _ => rfl).withScratch

theorem keeps_clBleDisconnect (handle : UInt16) : Keeps (clBleDisconnect peer handle) :=
  (keeps_statusOnly fun _ _ => rfl).checked

theorem keeps_clBleGattFindChr16 (handle startHandle endHandle uuid16 : UInt16) :
    Keeps (clBleGattFindChr16 peer handle startHandle endHandle uuid16) :=
  (keeps_refuse _).ite
    ((keeps_exact fun _ _ => rfl).checked)

theorem keeps_clBleGattFindService (handle startHandle endHandle uuid16 : UInt16) :
    Keeps (clBleGattFindService peer handle startHandle endHandle uuid16) :=
  (keeps_exact fun _ _ => rfl).checked

theorem keeps_clBleGattFindDesc (handle chrValueHandle endHandle uuid16 : UInt16) :
    Keeps (clBleGattFindDesc peer handle chrValueHandle endHandle uuid16) :=
  (keeps_exact fun _ _ => rfl).checked

theorem keeps_clBleGattRead (handle attr : UInt16) (capacity : UInt32) :
    Keeps (clBleGattRead peer handle attr capacity) :=
  (keeps_within fun _ _ => rfl).checked

theorem keeps_clBleGattWrite (handle attr : UInt16) (data : List UInt8) :
    Keeps (clBleGattWrite peer handle attr data) :=
  (keeps_exact fun _ _ => rfl).checked

theorem keeps_clBleGattNotify (handle attr : UInt16) (enable : Bool) :
    Keeps (clBleGattNotify peer handle attr enable) :=
  (keeps_statusOnly fun _ _ => rfl).checked

theorem keeps_clBleGattSubscribe (handle valueHandle endHandle : UInt16)
    (enable indicate : Bool) :
    Keeps (clBleGattSubscribe peer handle valueHandle endHandle enable indicate) := by
  refine (keeps_refuse _).ite ((keeps_refuse _).ite ?_)
  refine (keeps_clBleGattFindDesc peer handle valueHandle _ _).andThen fun desc => ?_
  refine (keeps_clBleGattWrite peer handle desc.handle _).andThen fun written => ?_
  exact (keeps_refuse _).ite (keeps_clBleGattNotify peer handle valueHandle enable)

theorem keeps_clBleGattSubscribeChr16 (handle serviceUuid16 chrUuid16 : UInt16)
    (enable indicate : Bool) :
    Keeps (clBleGattSubscribeChr16 peer handle serviceUuid16 chrUuid16 enable indicate) := by
  have hrange : Keeps (serviceRange peer handle serviceUuid16) :=
    (keeps_pure _).ite
      ((keeps_clBleGattFindService peer handle _ _ _).andThen fun _ => keeps_pure _)
  refine (keeps_refuse _).ite (hrange.andThen fun range => ?_)
  refine (keeps_clBleGattFindChr16 peer handle _ _ _).andThen fun chr => ?_
  exact (keeps_clBleGattSubscribe peer handle _ _ _ _).andThen fun _ => keeps_pure _

theorem keeps_clBleEventNext (maxData : ℕ) : Keeps (clBleEventNext peer maxData) :=
  (keeps_within fun _ _ => rfl).checked

theorem keeps_onConnection (addr : BleAddr) {run : UInt16 → Prog (Link δ) (Except ℤ α)}
    (hrun : ∀ handle,Keeps (run handle)) : Keeps (onConnection peer addr run) :=
  (keeps_clBleConnect peer addr).andThen fun handle =>
    (hrun handle).andFinally (keeps_clBleDisconnect peer handle)

theorem keeps_clBleProbeDeviceName (addr : BleAddr) (outSize : ℕ) :
    Keeps (clBleProbeDeviceName peer addr outSize) := by
  refine (keeps_refuse _).ite (keeps_onConnection peer addr fun handle => ?_)
  refine (keeps_clBleGattFindChr16 peer handle _ _ _).andThen fun chr => ?_
  exact ((keeps_clBleGattRead peer handle _ _).andThen fun _ => keeps_pure _).withScratch

theorem keeps_clBleReadChr16 (addr : BleAddr) (uuid16 : UInt16) (capacity : UInt32) :
    Keeps (clBleReadChr16 peer addr uuid16 capacity) := by
  refine (keeps_refuse _).ite (keeps_onConnection peer addr fun handle => ?_)
  exact (keeps_clBleGattFindChr16 peer handle _ _ _).andThen fun chr =>
    keeps_clBleGattRead peer handle _ _

theorem keeps_clBleWriteChr16 (addr : BleAddr) (uuid16 : UInt16) (data : List UInt8) :
    Keeps (clBleWriteChr16 peer addr uuid16 data) := by
  refine (keeps_refuse _).ite (keeps_onConnection peer addr fun handle => ?_)
  exact (keeps_clBleGattFindChr16 peer handle _ _ _).andThen fun chr =>
    keeps_clBleGattWrite peer handle _ _

theorem keeps_subscribeOrNotify (handle valueHandle : UInt16) (enable : Bool) :
    Keeps (subscribeOrNotify peer handle valueHandle enable) := by
  refine (keeps_clBleGattSubscribe peer handle _ _ _ _).bind fun result => ?_
  cases result with
  | error code => exact (keeps_clBleGattNotify peer handle valueHandle enable).ite (keeps_pure _)
  | ok _ => exact keeps_pure _

theorem keeps_collectNotifications (valueHandle : UInt16) (capacity attempts : ℕ)
    (events : List BleEvent) :
    Keeps (collectNotifications peer valueHandle capacity attempts events) := by
  induction attempts generalizing events with
  | zero => exact keeps_pure _
  | succ attempts ih =>
    refine (keeps_clBleEventNext peer _).bind fun next => ?_
    cases next with
    | error code => exact (ih events).ite (keeps_pure _)
    | ok event => exact ih _

theorem keeps_clBleCollectNotifyChr16 (addr : BleAddr) (uuid16 : UInt16) (capacity : ℕ)
    (pollAttempts : UInt32) :
    Keeps (clBleCollectNotifyChr16 peer addr uuid16 capacity pollAttempts) := by
  refine (keeps_refuse _).ite (keeps_onConnection peer addr fun handle => ?_)
  refine (keeps_clBleGattFindChr16 peer handle _ _ _).andThen fun chr => ?_
  refine (keeps_subscribeOrNotify peer handle _ true).andThen fun _ => ?_
  exact (keeps_collectNotifications peer _ _ _ _).andFinally
    (keeps_subscribeOrNotify peer handle _ false)

theorem keeps_collectScan (capacity attempts : ℕ) (events : List BleEvent) :
    Keeps (collectScan peer capacity attempts events) := by
  induction attempts generalizing events with
  | zero => exact keeps_pure _
  | succ attempts ih =>
    refine (keeps_clBleEventNext peer _).bind fun next => ?_
    cases next with
    | error code => exact (ih events).ite (keeps_pure _)
    | ok event => exact (keeps_pure _).ite (ih _)

theorem keeps_clBleScanCollect (durationMs : UInt16) (capacity : ℕ) (pollAttempts : UInt32) :
    Keeps (clBleScanCollect peer durationMs capacity pollAttempts) :=
  (keeps_clBleScanStart peer durationMs).andThen fun _ =>
    (keeps_collectScan peer _ _ _).andFinally (keeps_clBleScanStop peer)

theorem keeps_clBleGattFindService128 (handle startHandle endHandle : UInt16)
    (uuid128 : Uuid128) :
    Keeps (clBleGattFindService128 peer handle startHandle endHandle uuid128) :=
  (keeps_exact fun _ _ => rfl).withScratch

theorem keeps_clBleGattFindChr128 (handle startHandle endHandle : UInt16) (uuid128 : Uuid128) :
    Keeps (clBleGattFindChr128 peer handle startHandle endHandle uuid128) :=
  (keeps_exact fun _ _ => rfl).withScratch

theorem keeps_clBleConnInfo (handle : UInt16) : Keeps (clBleConnInfo peer handle) :=
  (keeps_exact fun _ _ => rfl).checked

theorem keeps_clBleIsConnected (handle : UInt16) : Keeps (clBleIsConnected peer handle) := by
  refine (keeps_clBleConnInfo peer handle).bind fun info => ?_
  cases info <;> exact keeps_pure _

theorem keeps_bleGattsAddService (flags : UInt32) (uuid16 : UInt16) (uuid128 : Option Uuid128) :
    Keeps (bleGattsAddService peer flags uuid16 uuid128) := by
  unfold bleGattsAddService
  dsimp only
  split
  · exact keeps_refuse _
  · exact (keeps_exact fun _ _ => rfl).withScratch

theorem keeps_bleGattsAddAttr {opcode : UInt8}
    (htakes : ∀ length status,takesPayload clpChBle opcode length status=true)
    (parent : UInt16) (flags : UInt32) (uuid16 : UInt16) (uuid128 : Option Uuid128)
    (value : List UInt8) :
    Keeps (bleGattsAddAttr peer opcode parent flags uuid16 uuid128 value) := by
  unfold bleGattsAddAttr
  refine (keeps_refuse _).ite ?_
  dsimp only
  split
  · exact keeps_refuse _
  · exact (keeps_exact htakes).withScratch

theorem keeps_clBleGattsReset : Keeps (clBleGattsReset peer) :=
  keeps_expectAck rfl fun _ _ => rfl

theorem keeps_clBleGattsStart : Keeps (clBleGattsStart peer) :=
  keeps_expectAck rfl fun _ _ => rfl

theorem keeps_clBleGattsStop : Keeps (clBleGattsStop peer) :=
  keeps_expectAck rfl fun _ _ => rfl

theorem keeps_clBleAdvStart (config : BleAdvConfig) : Keeps (clBleAdvStart peer config) :=
  (keeps_expectAck rfl fun _ _ => rfl).checked

theorem keeps_clBleAdvStop : Keeps (clBleAdvStop peer) :=
  keeps_expectAck rfl fun _ _ => rfl

theorem keeps_clBleGattsNotify (handle chr : UInt16) (data : List UInt8) :
    Keeps (clBleGattsNotify peer handle chr data) :=
  (keeps_exact fun _ _ => rfl).checked

theorem keeps_hostServices : Keeps (hostServices peer) := by
  have hchr : ∀ svc uuid flags,Keeps (clBleGattsAddChr128 peer svc uuid flags []) :=
    fun _ _ _ => keeps_bleGattsAddAttr peer (fun _ _ => rfl) _ _ _ _ _
  refine (keeps_clBleGattsReset peer).andThen fun _ => ?_
  refine (keeps_bleGattsAddService peer _ _ _).andThen fun svc => ?_
  refine (hchr svc _ _).andThen fun _ => ?_
  refine (hchr svc _ _).andThen fun tx => ?_
  exact (keeps_clBleGattsStart peer).andThen fun _ => keeps_pure _

theorem keeps_findPeer (attempts : ℕ) : Keeps (findPeer peer attempts) := by
  induction attempts with
  | zero => exact keeps_pure _
  | succ attempts ih =>
    refine (keeps_clBleEventNext peer _).bind fun next => ?_
    cases next with
    | error code => exact keeps_pure _
    | ok event => exact (keeps_pure _).ite ((keeps_pure _).ite ih)

theorem keeps_dropConnection (handle : UInt16) (code : ℤ) (link : BleLink) :
    Keeps (dropConnection peer handle code link) :=
  (keeps_clBleDisconnect peer handle).bind fun _ => keeps_pure _

theorem keeps_joinOn (handle : UInt16) (link : BleLink) : Keeps (joinOn peer handle link) := by
  refine (keeps_clBleGattFindService128 peer handle _ _ _).bind fun service => ?_
  cases service with
  | error code => exact keeps_dropConnection peer handle code link
  | ok service =>
    refine (keeps_clBleGattFindChr128 peer handle _ _ _).bind fun rx => ?_
    cases rx with
    | error code => exact keeps_dropConnection peer handle code link
    | ok rx =>
      refine (keeps_clBleGattFindChr128 peer handle _ _ _).bind fun tx => ?_
      cases tx with
      | error code => exact keeps_dropConnection peer handle code _
      | ok tx =>
        refine (keeps_clBleGattSubscribe peer handle _ _ _ _).bind fun subscribed => ?_
        cases subscribed with
        | error code => exact keeps_dropConnection peer handle code _
        | ok _ => exact keeps_pure _

theorem keeps_linkJoin (link : BleLink) : Keeps (linkJoin peer link) := by
  refine (keeps_clBleScanStartEx peer _ _ _ _).bind fun scanning => ?_
  cases scanning with
  | error code => exact keeps_pure _
  | ok _ =>
    refine (keeps_findPeer peer 600).bind fun found => ?_
    refine (keeps_clBleScanStop peer).bind fun _ => ?_
    cases found with
    | none => exact keeps_pure _
    | some address =>
      refine (keeps_clBleConnect peer _).bind fun connected => ?_
      cases connected with
      | error code => exact keeps_pure _
      | ok handle => exact keeps_joinOn peer handle link

theorem keeps_linkHost (name : CString) (link : BleLink) : Keeps (linkHost peer name link) := by
  refine (keeps_hostServices peer).bind fun services => ?_
  cases services with
  | error code => exact keeps_pure _
  | ok tx =>
    refine (keeps_clBleAdvStart peer _).bind fun advertised => ?_
    cases advertised <;> exact keeps_pure _

theorem keeps_clBleLinkStart (link : BleLink) (role : LinkRole) (name : CString) :
    Keeps (clBleLinkStart peer link role name) := by
  refine (keeps_pure _).ite ?_
  cases role with
  | host => exact keeps_linkHost peer name _
  | join => exact keeps_linkJoin peer _
  | other => exact keeps_pure _

theorem keeps_clBleLinkStop (link : BleLink) (handle : UInt16) :
    Keeps (clBleLinkStop peer link handle) := by
  have hrest : ∀ _ : Except ℤ Unit,Keeps (do
      let _ ← clBleAdvStop peer
      let _ ← clBleGattsStop peer
      pure (.ok 0,{ link with notifyAttr := 0, rxAttr := 0, txChr := 0 }) :
      Prog (Link δ) (Except ℤ ℕ×BleLink)) := fun _ =>
    (keeps_clBleAdvStop peer).bind fun _ => (keeps_clBleGattsStop peer).bind fun _ => keeps_pure _
  unfold clBleLinkStop
  split
  · exact (keeps_clBleDisconnect peer handle).bind hrest
  · exact (keeps_pure _).bind hrest

theorem keeps_clBleLinkSend (link : BleLink) (handle : UInt16) (data : List UInt8) :
    Keeps (clBleLinkSend peer link handle data) :=
  (keeps_refuse _).ite ((keeps_clBleGattsNotify peer handle _ data).ite
    (((keeps_clBleGattWrite peer handle _ data).andThen fun _ => keeps_pure _).ite
      (keeps_refuse _)))

theorem keeps_clBleLinkPeerReady (link : BleLink) (handle : UInt16) :
    Keeps (clBleLinkPeerReady peer link handle) :=
  (keeps_clBleEventNext peer _).andThen fun _ => keeps_pure _

end Commands

/-- The network operations with their arguments. -/
inductive NetRequest where
  /-- The status of the station. -/
  | status (flags : UInt32)
  /-- Connect the station. -/
  | connect
  /-- Read the configuration. -/
  | configGet
  /-- Change the configuration. -/
  | configSet (config : NetConfig) (password : Option CString)
  /-- Control the web server. -/
  | webControl (action : UInt32)
  /-- Scan for access points. -/
  | scan (startIndex maxEntries : UInt32)
  /-- Resolve a name. -/
  | resolveIpv4 (host : CString)
  /-- Open a socket. -/
  | openSocket (proto : NetProto) (remote : NetAddr)
  /-- Open a datagram socket. -/
  | openUdp
  /-- Bind a socket. -/
  | bind (proto : NetProto) (local_ : NetAddr)
  /-- Listen on a socket. -/
  | listen (handle : UInt16) (backlog : UInt32)
  /-- Accept a connection. -/
  | accept (listenHandle : UInt16)
  /-- Open a socket to a named host. -/
  | openHost (proto : NetProto) (host : CString) (port : UInt16)
  /-- Connect to a named host and wait. -/
  | openTcpHostWait (host : CString) (port : UInt16) (attempts : UInt32)
  /-- A request and its answer over a connection. -/
  | tcpRequestHost (host : CString) (port : UInt16) (txData : List UInt8)
      (rxCapacity connectAttempts ioAttempts : UInt32)
  /-- Close a socket. -/
  | close (handle : UInt16)
  /-- The flags of a socket. -/
  | poll (handle : UInt16)
  /-- Wait for flags of a socket. -/
  | waitFlags (handle : UInt16) (requiredFlags attempts : UInt32)
  /-- Wait for a connection. -/
  | waitConnected (handle : UInt16) (attempts : UInt32)
  /-- Send a part of the data. -/
  | send (handle : UInt16) (data : List UInt8)
  /-- Send a datagram to an address. -/
  | sendto (handle : UInt16) (remote : NetAddr) (data : List UInt8)
  /-- Send all of the data. -/
  | sendAll (handle : UInt16) (data : List UInt8) (waitAttempts : UInt32)
  /-- Send one datagram. -/
  | udpSend (remote : NetAddr) (data : List UInt8)
  /-- Send one datagram to a named host. -/
  | udpSendHost (host : CString) (port : UInt16) (data : List UInt8)
  /-- Receive data. -/
  | recv (handle : UInt16) (capacity : UInt32)
  /-- Receive a datagram. -/
  | recvfrom (handle : UInt16) (capacity : UInt32)
  /-- Wait for data. -/
  | recvWait (handle : UInt16) (capacity waitAttempts : UInt32)

/-- The Bluetooth operations with their arguments. -/
inductive BleRequest where
  /-- Start a scan. -/
  | scanStart (durationMs : UInt16)
  /-- Stop the scan. -/
  | scanStop
  /-- Scan and collect the results. -/
  | scanCollect (durationMs : UInt16) (capacity : ℕ) (pollAttempts : UInt32)
  /-- Start a scan with its parameters. -/
  | scanStartEx (durationMs intervalUs windowUs : UInt16) (flags : UInt32)
  /-- Connect to a peer. -/
  | connect (addr : BleAddr)
  /-- Drop a connection. -/
  | disconnect (handle : UInt16)
  /-- Read the name of a device. -/
  | probeDeviceName (addr : BleAddr) (outSize : ℕ)
  /-- Connect and read a characteristic. -/
  | readChr16 (addr : BleAddr) (uuid16 : UInt16) (capacity : UInt32)
  /-- Connect and write a characteristic. -/
  | writeChr16 (addr : BleAddr) (uuid16 : UInt16) (data : List UInt8)
  /-- Connect and collect notifications. -/
  | collectNotifyChr16 (addr : BleAddr) (uuid16 : UInt16) (capacity : ℕ) (pollAttempts : UInt32)
  /-- Find a characteristic, without its UUID. -/
  | gattFindChr16 (handle startHandle endHandle uuid16 : UInt16)
  /-- Find a service. -/
  | gattFindService (handle startHandle endHandle uuid16 : UInt16)
  /-- Find a characteristic. -/
  | gattFindChr (handle startHandle endHandle uuid16 : UInt16)
  /-- Find a descriptor. -/
  | gattFindDesc (handle chrValueHandle endHandle uuid16 : UInt16)
  /-- Find a service by a long UUID. -/
  | gattFindService128 (handle startHandle endHandle : UInt16) (uuid128 : Uuid128)
  /-- Find a characteristic by a long UUID. -/
  | gattFindChr128 (handle startHandle endHandle : UInt16) (uuid128 : Uuid128)
  /-- Find a descriptor by a long UUID. -/
  | gattFindDesc128 (handle chrValueHandle endHandle : UInt16) (uuid128 : Uuid128)
  /-- Read an attribute. -/
  | gattRead (handle attr : UInt16) (capacity : UInt32)
  /-- Write an attribute. -/
  | gattWrite (handle attr : UInt16) (data : List UInt8)
  /-- Switch notifications. -/
  | gattNotify (handle attr : UInt16) (enable : Bool)
  /-- Subscribe to a characteristic. -/
  | gattSubscribe (handle valueHandle endHandle : UInt16) (enable indicate : Bool)
  /-- Find a characteristic and subscribe to it. -/
  | gattSubscribeChr16 (handle serviceUuid16 chrUuid16 : UInt16) (enable indicate : Bool)
  /-- Read an attribute from an offset. -/
  | gattReadLong (handle attr offset : UInt16) (capacity : UInt32)
  /-- Write an attribute at an offset. -/
  | gattWriteLong (handle attr offset : UInt16) (data : List UInt8)
  /-- The next event. -/
  | eventNext (maxData : ℕ)
  /-- New connection parameters. -/
  | connUpdate (handle intervalMin intervalMax latency timeout : UInt16)
  /-- Exchange the MTU. -/
  | exchangeMtu (handle : UInt16)
  /-- Information about a connection. -/
  | connInfo (handle : UInt16)
  /-- Whether a connection is active. -/
  | isConnected (handle : UInt16)
  /-- Configure the security. -/
  | securityConfig (config : BleSecurityConfig)
  /-- Pair with a peer. -/
  | pair (handle : UInt16) (ioCaps bond : UInt8)
  /-- Reply with a passkey. -/
  | passkeyReply (handle : UInt16) (passkey : UInt32)
  /-- Reset the server. -/
  | gattsReset
  /-- Add a service. -/
  | gattsAddService16 (uuid16 : UInt16) (flags : UInt32)
  /-- Add a service with a long UUID. -/
  | gattsAddService128 (uuid128 : Uuid128) (flags : UInt32)
  /-- Include a service. -/
  | gattsAddInclude (service includedService : UInt16)
  /-- Add a characteristic. -/
  | gattsAddChr16 (service uuid16 : UInt16) (flags : UInt32) (value : List UInt8)
  /-- Add a characteristic with a long UUID. -/
  | gattsAddChr128 (service : UInt16) (uuid128 : Uuid128) (flags : UInt32) (value : List UInt8)
  /-- Add a descriptor. -/
  | gattsAddDesc16 (chr uuid16 : UInt16) (flags : UInt32) (value : List UInt8)
  /-- Add a descriptor with a long UUID. -/
  | gattsAddDesc128 (chr : UInt16) (uuid128 : Uuid128) (flags : UInt32) (value : List UInt8)
  /-- Start the server. -/
  | gattsStart
  /-- Stop the server. -/
  | gattsStop
  /-- Advertise. -/
  | advStart (config : BleAdvConfig)
  /-- Stop advertising. -/
  | advStop
  /-- Notify a peer. -/
  | gattsNotify (handle chr : UInt16) (data : List UInt8)
  /-- Set a value of the server. -/
  | gattsSetValue (attr : UInt16) (data : List UInt8)
  /-- Get a value of the server. -/
  | gattsGetValue (attr offset : UInt16) (capacity : UInt32)
  /-- Whether a peer is subscribed. -/
  | gattsSubscribed (handle chr : UInt16)
  /-- Start a game link. -/
  | linkStart (link : BleLink) (role : LinkRole) (name : CString)
  /-- Stop a game link. -/
  | linkStop (link : BleLink) (handle : UInt16)
  /-- Send over a game link. -/
  | linkSend (link : BleLink) (handle : UInt16) (data : List UInt8)
  /-- Whether the peer is ready. -/
  | linkPeerReady (link : BleLink) (handle : UInt16)

/-- Run a link operation and keep its code. -/
def linkCode (run : Prog (Link δ) (Except ℤ ℕ×BleLink)) : Prog (Link δ) ℤ := do
  let result ← run
  match result.1 with
  | .error code => pure code
  | .ok value => pure value

/-- Carry out a network operation. -/
def performNet (net : Peer δ) : NetRequest → Prog (Link δ) ℤ
  | .status flags => codeOf (clNetStatus net flags)
  | .connect => codeOf (clNetConnect net)
  | .configGet => codeOf (clNetConfigGet net)
  | .configSet config password => codeOf (clNetConfigSet net config password)
  | .webControl action => codeOf (clNetWebControl net action)
  | .scan startIndex maxEntries => codeOf (clNetScan net startIndex maxEntries)
  | .resolveIpv4 host => codeOf (clNetResolveIpv4 net host)
  | .openSocket proto remote => codeOf (clNetOpen net proto remote)
  | .openUdp => codeOf (clNetOpenUdp net)
  | .bind proto local_ => codeOf (clNetBind net proto local_)
  | .listen handle backlog => codeOf (clNetListen net handle backlog)
  | .accept listenHandle => codeOf (clNetAccept net listenHandle)
  | .openHost proto host port => codeOf (clNetOpenHost net proto host port)
  | .openTcpHostWait host port attempts => codeOf (clNetOpenTcpHostWait net host port attempts)
  | .tcpRequestHost host port txData rxCapacity connectAttempts ioAttempts =>
    codeOf (clNetTcpRequestHost net host port txData rxCapacity connectAttempts ioAttempts)
  | .close handle => codeOf (clNetClose net handle)
  | .poll handle => codeOf (clNetPoll net handle)
  | .waitFlags handle requiredFlags attempts =>
    codeOf (clNetWaitFlags net handle requiredFlags attempts)
  | .waitConnected handle attempts => codeOf (clNetWaitConnected net handle attempts)
  | .send handle data => codeOf (clNetSend net handle data)
  | .sendto handle remote data => codeOf (clNetSendto net handle remote data)
  | .sendAll handle data waitAttempts => codeOf (clNetSendAll net handle data waitAttempts)
  | .udpSend remote data => codeOf (clNetUdpSend net remote data)
  | .udpSendHost host port data => codeOf (clNetUdpSendHost net host port data)
  | .recv handle capacity => codeOf (clNetRecv net handle capacity)
  | .recvfrom handle capacity => codeOf (clNetRecvfrom net handle capacity)
  | .recvWait handle capacity waitAttempts =>
    codeOf (clNetRecvWait net handle capacity waitAttempts)

/-- Carry out a Bluetooth operation. -/
def performBle (ble : Peer δ) : BleRequest → Prog (Link δ) ℤ
  | .scanStart durationMs => codeOf (clBleScanStart ble durationMs)
  | .scanStop => codeOf (clBleScanStop ble)
  | .scanCollect durationMs capacity pollAttempts =>
    codeOf (clBleScanCollect ble durationMs capacity pollAttempts)
  | .scanStartEx durationMs intervalUs windowUs flags =>
    codeOf (clBleScanStartEx ble durationMs intervalUs windowUs flags)
  | .connect addr => codeOf (clBleConnect ble addr)
  | .disconnect handle => codeOf (clBleDisconnect ble handle)
  | .probeDeviceName addr outSize => codeOf (clBleProbeDeviceName ble addr outSize)
  | .readChr16 addr uuid16 capacity => codeOf (clBleReadChr16 ble addr uuid16 capacity)
  | .writeChr16 addr uuid16 data => codeOf (clBleWriteChr16 ble addr uuid16 data)
  | .collectNotifyChr16 addr uuid16 capacity pollAttempts =>
    codeOf (clBleCollectNotifyChr16 ble addr uuid16 capacity pollAttempts)
  | .gattFindChr16 handle startHandle endHandle uuid16 =>
    codeOf (clBleGattFindChr16 ble handle startHandle endHandle uuid16)
  | .gattFindService handle startHandle endHandle uuid16 =>
    codeOf (clBleGattFindService ble handle startHandle endHandle uuid16)
  | .gattFindChr handle startHandle endHandle uuid16 =>
    codeOf (clBleGattFindChr ble handle startHandle endHandle uuid16)
  | .gattFindDesc handle chrValueHandle endHandle uuid16 =>
    codeOf (clBleGattFindDesc ble handle chrValueHandle endHandle uuid16)
  | .gattFindService128 handle startHandle endHandle uuid128 =>
    codeOf (clBleGattFindService128 ble handle startHandle endHandle uuid128)
  | .gattFindChr128 handle startHandle endHandle uuid128 =>
    codeOf (clBleGattFindChr128 ble handle startHandle endHandle uuid128)
  | .gattFindDesc128 handle chrValueHandle endHandle uuid128 =>
    codeOf (clBleGattFindDesc128 ble handle chrValueHandle endHandle uuid128)
  | .gattRead handle attr capacity => codeOf (clBleGattRead ble handle attr capacity)
  | .gattWrite handle attr data => codeOf (clBleGattWrite ble handle attr data)
  | .gattNotify handle attr enable => codeOf (clBleGattNotify ble handle attr enable)
  | .gattSubscribe handle valueHandle endHandle enable indicate =>
    codeOf (clBleGattSubscribe ble handle valueHandle endHandle enable indicate)
  | .gattSubscribeChr16 handle serviceUuid16 chrUuid16 enable indicate =>
    codeOf (clBleGattSubscribeChr16 ble handle serviceUuid16 chrUuid16 enable indicate)
  | .gattReadLong handle attr offset capacity =>
    codeOf (clBleGattReadLong ble handle attr offset capacity)
  | .gattWriteLong handle attr offset data =>
    codeOf (clBleGattWriteLong ble handle attr offset data)
  | .eventNext maxData => codeOf (clBleEventNext ble maxData)
  | .connUpdate handle intervalMin intervalMax latency timeout =>
    codeOf (clBleConnUpdate ble handle intervalMin intervalMax latency timeout)
  | .exchangeMtu handle => codeOf (clBleExchangeMtu ble handle)
  | .connInfo handle => codeOf (clBleConnInfo ble handle)
  | .isConnected handle => codeOf (clBleIsConnected ble handle)
  | .securityConfig config => codeOf (clBleSecurityConfig ble config)
  | .pair handle ioCaps bond => codeOf (clBlePair ble handle ioCaps bond)
  | .passkeyReply handle passkey => codeOf (clBlePasskeyReply ble handle passkey)
  | .gattsReset => codeOf (clBleGattsReset ble)
  | .gattsAddService16 uuid16 flags => codeOf (clBleGattsAddService16 ble uuid16 flags)
  | .gattsAddService128 uuid128 flags => codeOf (clBleGattsAddService128 ble uuid128 flags)
  | .gattsAddInclude service includedService =>
    codeOf (clBleGattsAddInclude ble service includedService)
  | .gattsAddChr16 service uuid16 flags value =>
    codeOf (clBleGattsAddChr16 ble service uuid16 flags value)
  | .gattsAddChr128 service uuid128 flags value =>
    codeOf (clBleGattsAddChr128 ble service uuid128 flags value)
  | .gattsAddDesc16 chr uuid16 flags value =>
    codeOf (clBleGattsAddDesc16 ble chr uuid16 flags value)
  | .gattsAddDesc128 chr uuid128 flags value =>
    codeOf (clBleGattsAddDesc128 ble chr uuid128 flags value)
  | .gattsStart => codeOf (clBleGattsStart ble)
  | .gattsStop => codeOf (clBleGattsStop ble)
  | .advStart config => codeOf (clBleAdvStart ble config)
  | .advStop => codeOf (clBleAdvStop ble)
  | .gattsNotify handle chr data => codeOf (clBleGattsNotify ble handle chr data)
  | .gattsSetValue attr data => codeOf (clBleGattsSetValue ble attr data)
  | .gattsGetValue attr offset capacity => codeOf (clBleGattsGetValue ble attr offset capacity)
  | .gattsSubscribed handle chr => codeOf (clBleGattsSubscribed ble handle chr)
  | .linkStart link role name => linkCode (clBleLinkStart ble link role name)
  | .linkStop link handle => linkCode (clBleLinkStop ble link handle)
  | .linkSend link handle data => codeOf (clBleLinkSend ble link handle data)
  | .linkPeerReady link handle => codeOf (clBleLinkPeerReady ble link handle)

theorem keeps_codeOf {run : Prog (Link δ) (Except ℤ α)} (h : Keeps run) : Keeps (codeOf run) := by
  refine h.bind fun result => ?_
  cases result <;> exact keeps_pure _

theorem keeps_linkCode {run : Prog (Link δ) (Except ℤ ℕ×BleLink)} (h : Keeps run) :
    Keeps (linkCode run) := by
  refine h.bind fun result => ?_
  cases result.1 <;> exact keeps_pure _

theorem keeps_performNet (peer : Peer δ) (request : NetRequest) :
    Keeps (performNet peer request) := by
  cases request with
  | status => exact keeps_codeOf (keeps_clNetStatus peer _)
  | connect => exact keeps_codeOf ((keeps_clNetStatus peer _).andThen fun _ => keeps_pure _)
  | configGet => exact keeps_codeOf (keeps_exact fun _ _ => rfl).withScratch
  | configSet => exact keeps_codeOf (keeps_clNetConfigSet peer _ _)
  | webControl => exact keeps_codeOf (keeps_statusOnly fun _ _ => rfl).checked
  | scan => exact keeps_codeOf (keeps_within fun _ _ => rfl).checked
  | resolveIpv4 => exact keeps_codeOf (keeps_clNetResolveIpv4 peer _)
  | openSocket => exact keeps_codeOf (keeps_clNetOpen peer _ _)
  | openUdp => exact keeps_codeOf (keeps_clNetOpen peer _ _)
  | bind => exact keeps_codeOf (keeps_exact fun _ _ => rfl).checked
  | listen => exact keeps_codeOf (keeps_statusOnly fun _ _ => rfl).checked
  | accept => exact keeps_codeOf (keeps_clNetAccept peer _)
  | openHost => exact keeps_codeOf (keeps_clNetOpenHost peer _ _ _)
  | openTcpHostWait => exact keeps_codeOf (keeps_clNetOpenTcpHostWait peer _ _ _)
  | tcpRequestHost => exact keeps_codeOf (keeps_clNetTcpRequestHost peer _ _ _ _ _ _)
  | close => exact keeps_codeOf (keeps_clNetClose peer _)
  | poll => exact keeps_codeOf (keeps_clNetPoll peer _)
  | waitFlags => exact keeps_codeOf (keeps_clNetWaitFlags peer _ _ _)
  | waitConnected => exact keeps_codeOf (keeps_clNetWaitFlags peer _ _ _)
  | send => exact keeps_codeOf (keeps_clNetSend peer _ _)
  | sendto => exact keeps_codeOf (keeps_exact fun _ _ => rfl).checked
  | sendAll => exact keeps_codeOf (keeps_clNetSendAll peer _ _ _)
  | udpSend =>
    exact keeps_codeOf ((keeps_clNetOpen peer _ _).andThen fun handle =>
      (keeps_clNetSend peer handle _).andFinally (keeps_clNetClose peer handle))
  | udpSendHost =>
    exact keeps_codeOf ((keeps_clNetOpenHost peer _ _ _).andThen fun handle =>
      (keeps_clNetSend peer handle _).andFinally (keeps_clNetClose peer handle))
  | recv => exact keeps_codeOf (keeps_clNetRecv peer _ _)
  | recvfrom => exact keeps_codeOf (keeps_clNetRecvfrom peer _ _)
  | recvWait => exact keeps_codeOf (keeps_clNetRecvWait peer _ _ _)

theorem keeps_performBle (peer : Peer δ) (request : BleRequest) :
    Keeps (performBle peer request) := by
  cases request with
  | scanStart => exact keeps_codeOf (keeps_clBleScanStart peer _)
  | scanStop => exact keeps_codeOf (keeps_clBleScanStop peer)
  | scanCollect => exact keeps_codeOf (keeps_clBleScanCollect peer _ _ _)
  | scanStartEx => exact keeps_codeOf (keeps_clBleScanStartEx peer _ _ _ _)
  | connect => exact keeps_codeOf (keeps_clBleConnect peer _)
  | disconnect => exact keeps_codeOf (keeps_clBleDisconnect peer _)
  | probeDeviceName => exact keeps_codeOf (keeps_clBleProbeDeviceName peer _ _)
  | readChr16 => exact keeps_codeOf (keeps_clBleReadChr16 peer _ _ _)
  | writeChr16 => exact keeps_codeOf (keeps_clBleWriteChr16 peer _ _ _)
  | collectNotifyChr16 => exact keeps_codeOf (keeps_clBleCollectNotifyChr16 peer _ _ _ _)
  | gattFindChr16 => exact keeps_codeOf (keeps_clBleGattFindChr16 peer _ _ _ _)
  | gattFindService => exact keeps_codeOf (keeps_clBleGattFindService peer _ _ _ _)
  | gattFindChr => exact keeps_codeOf (keeps_exact fun _ _ => rfl).checked
  | gattFindDesc => exact keeps_codeOf (keeps_clBleGattFindDesc peer _ _ _ _)
  | gattFindService128 => exact keeps_codeOf (keeps_clBleGattFindService128 peer _ _ _ _)
  | gattFindChr128 => exact keeps_codeOf (keeps_clBleGattFindChr128 peer _ _ _ _)
  | gattFindDesc128 => exact keeps_codeOf (keeps_exact fun _ _ => rfl).withScratch
  | gattRead => exact keeps_codeOf (keeps_clBleGattRead peer _ _ _)
  | gattWrite => exact keeps_codeOf (keeps_clBleGattWrite peer _ _ _)
  | gattNotify => exact keeps_codeOf (keeps_clBleGattNotify peer _ _ _)
  | gattSubscribe => exact keeps_codeOf (keeps_clBleGattSubscribe peer _ _ _ _ _)
  | gattSubscribeChr16 => exact keeps_codeOf (keeps_clBleGattSubscribeChr16 peer _ _ _ _ _)
  | gattReadLong => exact keeps_codeOf (keeps_within fun _ _ => rfl).checked
  | gattWriteLong => exact keeps_codeOf (keeps_exact fun _ _ => rfl).checked
  | eventNext => exact keeps_codeOf (keeps_clBleEventNext peer _)
  | connUpdate => exact keeps_codeOf (keeps_expectAck rfl fun _ _ => rfl).checked
  | exchangeMtu => exact keeps_codeOf (keeps_exact fun _ _ => rfl).checked
  | connInfo => exact keeps_codeOf (keeps_clBleConnInfo peer _)
  | isConnected => exact keeps_codeOf (keeps_clBleIsConnected peer _)
  | securityConfig => exact keeps_codeOf (keeps_expectAck rfl fun _ _ => rfl).checked
  | pair => exact keeps_codeOf (keeps_expectAck rfl fun _ _ => rfl).checked
  | passkeyReply => exact keeps_codeOf (keeps_expectAck rfl fun _ _ => rfl).checked
  | gattsReset => exact keeps_codeOf (keeps_clBleGattsReset peer)
  | gattsAddService16 => exact keeps_codeOf (keeps_bleGattsAddService peer _ _ _)
  | gattsAddService128 => exact keeps_codeOf (keeps_bleGattsAddService peer _ _ _)
  | gattsAddInclude => exact keeps_codeOf (keeps_expectAck rfl fun _ _ => rfl).checked
  | gattsAddChr16 => exact keeps_codeOf (keeps_bleGattsAddAttr peer (fun _ _ => rfl) _ _ _ _ _)
  | gattsAddChr128 => exact keeps_codeOf (keeps_bleGattsAddAttr peer (fun _ _ => rfl) _ _ _ _ _)
  | gattsAddDesc16 => exact keeps_codeOf (keeps_bleGattsAddAttr peer (fun _ _ => rfl) _ _ _ _ _)
  | gattsAddDesc128 => exact keeps_codeOf (keeps_bleGattsAddAttr peer (fun _ _ => rfl) _ _ _ _ _)
  | gattsStart => exact keeps_codeOf (keeps_clBleGattsStart peer)
  | gattsStop => exact keeps_codeOf (keeps_clBleGattsStop peer)
  | advStart => exact keeps_codeOf (keeps_clBleAdvStart peer _)
  | advStop => exact keeps_codeOf (keeps_clBleAdvStop peer)
  | gattsNotify => exact keeps_codeOf (keeps_clBleGattsNotify peer _ _ _)
  | gattsSetValue => exact keeps_codeOf (keeps_expectAck rfl fun _ _ => rfl).checked
  | gattsGetValue => exact keeps_codeOf (keeps_within fun _ _ => rfl).withScratch
  | gattsSubscribed => exact keeps_codeOf (keeps_exact fun _ _ => rfl).checked
  | linkStart => exact keeps_linkCode (keeps_clBleLinkStart peer _ _ _)
  | linkStop => exact keeps_linkCode (keeps_clBleLinkStop peer _ _)
  | linkSend => exact keeps_codeOf (keeps_clBleLinkSend peer _ _ _)
  | linkPeerReady => exact keeps_codeOf (keeps_clBleLinkPeerReady peer _ _)

/-- An operation of one of the two clients. -/
inductive ClientRequest where
  /-- A network operation. -/
  | net (request : NetRequest)
  /-- A Bluetooth operation. -/
  | ble (request : BleRequest)

/-- Carry out an operation. -/
def performClient (peer : Peer δ) : ClientRequest → Prog (Link δ) ℤ
  | .net request => performNet peer request
  | .ble request => performBle peer request

theorem keeps_performClient (peer : Peer δ) (request : ClientRequest) :
    Keeps (performClient peer request) := by
  cases request with
  | net request => exact keeps_performNet peer request
  | ble request => exact keeps_performBle peer request

/-- Whatever the transport answers, each operation returns, and every answer it
accepted belongs to one of its commands and has been exchanged up to its frame
boundary exactly if it settles that command. -/
theorem payload_taken_iff (peer : Peer δ) (request : ClientRequest) (s : Link δ) :
    ∃ code t events,performClient peer request s=(some code,t) ∧ t.log=s.log++events ∧
      ∀ entry∈answered events,∃ command,entry.1=some command ∧
        (OnBoundary entry.2 ↔ Settles command entry.2.1) := by
  obtain ⟨code,t,events,hrun,hlog,hframes⟩ := (keeps_performClient peer request).returns s
  exact ⟨code,t,events,hrun,hlog,hframes.answeredFrom none⟩

/-- The header of a response to the first command of a client that closes a socket,
with one word of payload. -/
def closeResponse : ClpHeader := ⟨clpTypeResponse,clpChNet,clpNetClose,clpStatusOk,4,1,0,0⟩

/-- After the five words of the command, it is answered. -/
def closeResponseScript : List UInt32 :=
  [0,0,0,0,0]++clpEncodeHeaderWords closeResponse++[0]

/-- A client with a small scratch buffer on a scripted transport. -/
def smallPeer : Peer (List UInt32) := ⟨scriptTransport,4,fun _ => 0⟩

/-- A close that is answered with a payload returns without reading it. -/
theorem payload_left :
    ¬∀ (δ : Type) (peer : Peer δ) (request : ClientRequest) (s : Link δ) (code : ℤ)
      (t : Link δ) (events : List LinkEvent),
      performClient peer request s=(some code,t) → t.log=s.log++events →
      ∀ entry∈answered events,entry.2.1.type=clpTypeResponse → OnBoundary entry.2 := by
  intro hall
  have hrun : performClient smallPeer (.net (.close 1)) (scriptLink closeResponseScript)=
      (some 0,(performClient smallPeer (.net (.close 1))
        (scriptLink closeResponseScript)).2) := rfl
  have hanswer : (some (commandHeader clpChNet clpNetClose 4 1),closeResponse,[])∈
      answered (performClient smallPeer (.net (.close 1))
        (scriptLink closeResponseScript)).2.log := by decide
  have hboundary := hall _ _ _ _ _ _ _ hrun (List.nil_append _).symm _ hanswer rfl
  exact absurd hboundary (by decide)

end ChisLink.ClientBoundary
