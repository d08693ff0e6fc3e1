import ChisLink.BleConnections

/-!
# The control channel of the client

Hello and the request for the capabilities read the first four words of a payload of at
least sixteen bytes, and the setting of the poll ticks reads none. So a session on the
channel keeps the frames exactly for answers without a payload and for answers of sixteen
bytes to the first two. The client is never left busy, and it is idle exactly if the last
operation succeeded.
-/

namespace ChisLink.ControlClient

open DriverPrograms WireProtocol StorageBoundary WireCommands BleConnections

/-- Opcode of a hello. -/
def clpCtrlHello : UInt8 := 0x01

/-- Opcode of the request for the capabilities. -/
def clpCtrlCaps : UInt8 := 0x02

/-- Opcode that sets the poll ticks. -/
def clpCtrlSetPollTicks : UInt8 := 0x05

variable {δ : Type} (transport : Transport δ)

/-- Send a command of the channel and wait for its answer. -/
def controlCommand (opcode imm : UInt8) (length : UInt32) (before : Client → Client)
    (payload : List UInt32) : Prog (Link δ) (Except ℤ ClpHeader) := do
  let seq ← clClientNextSeq
  let header := {commandHeader clpChControl opcode length seq with imm := imm}
  mark (.command header)
  setClient before
  sendWords transport (clpEncodeHeaderWords header)
  sendWords transport payload
  clWireReadResponse transport clpChControl opcode seq

/-- A command whose answer holds the capabilities. -/
def capsCommand (opcode imm : UInt8) (before : Client → Client) : Prog (Link δ) Bool := do
  match ← controlCommand transport opcode imm 0 before [] with
  | .error _ => do
    badPacket
    pure false
  | .ok decoded =>
    if decoded.length<16 then do
      badPacket
      pure false
    else do
      let words ← receiveWords transport 4
      setClient fun c =>
        {c with
          caps := words.headD 0
          lastStatus := decoded.imm
          state := if decoded.imm=clpStatusOk then .idle else .error}
      pure (decoded.imm=clpStatusOk)

/-- The function `cl_client_hello`. -/
def clClientHello : Prog (Link δ) Bool :=
  capsCommand transport clpCtrlHello clpVersion fun c => {c with state := .busy}

/-- The function `cl_client_poll`. -/
def clClientPoll : Prog (Link δ) Bool := do
  let online ← clClientHello transport
  if online then pure true
  else do
    setClient fun c => {c with state := .offline}
    pure false

/-- The function `cl_client_request_caps`. -/
def clClientRequestCaps : Prog (Link δ) Bool := capsCommand transport clpCtrlCaps 0 id

/-- The function `cl_client_set_poll_ticks`; whether it returns zero. -/
def clClientSetPollTicks (ticks : UInt8) : Prog (Link δ) Bool := do
  let ticks := if ticks=0 then 1 else ticks
  match ← controlCommand transport clpCtrlSetPollTicks 0 1 id [ticks.toUInt32] with
  | .error _ => do
    badPacket
    pure false
  | .ok response =>
    if response.imm=clpStatusOk then pure true
    else do
      badPacket
      pure false

/-- The operations of the channel. -/
inductive ControlOp where
  /-- Say hello. -/
  | hello
  /-- Say hello and go offline without an answer. -/
  | poll
  /-- Ask for the capabilities. -/
  | requestCaps
  /-- Set the poll ticks. -/
  | setPollTicks (ticks : UInt8)

/-- Run an operation. -/
def ControlOp.run : ControlOp → Prog (Link δ) Bool
  | .hello => clClientHello transport
  | .poll => clClientPoll transport
  | .requestCaps => clClientRequestCaps transport
  | .setPollTicks ticks => clClientSetPollTicks transport ticks

/-- Run operations one after the other, with the result of the last one. -/
def session (before : Bool) : List ControlOp → Prog (Link δ) Bool
  | [] => pure before
  | op::ops => do
    let result ← op.run transport
    session result ops

section Boundary

variable {α : Type}

/-- The answer has no payload, or all of it is read. -/
def Settles (answer : ClpHeader×List UInt32) : Prop :=
  answer.1.length=0 ∨ (answer.1.opcode≠clpCtrlSetPollTicks ∧ answer.1.length=16)

/-- The program returns and records frames. -/
def Keeps (p : Prog (Link δ) α) : Prop := Emits Link.log p fun _ events => Framed Settles events

/-- After a command the payload of its answer is all that is left of the frame. -/
theorem keeps_command (opcode imm : UInt8) (length : UInt32) (before : Client → Client)
    (payload : List UInt32) {finish : Except ℤ ClpHeader → Prog (Link δ) α}
    (herror : ∀ code,Emits Link.log (finish (.error code)) fun _ events => events=[])
    (hok : ∀ response : ClpHeader,response.opcode=opcode →
      Emits Link.log (finish (.ok response)) fun _ events => Drained Settles response events) :
    Keeps (controlCommand transport opcode imm length before payload >>= finish) := by
  have hasked : Emits Link.log (controlCommand transport opcode imm length before payload)
      (fun answer events => Commanded answer events ∧ Matches clpChControl opcode answer) := by
    unfold controlCommand
    refine emits_clClientNextSeq.bind ?_
    rintro seq _ rfl
    refine (emits_mark _).bind ?_
    rintro _ _ rfl
    refine (emits_setClient before).bind ?_
    rintro _ _ rfl
    refine (emits_sendWords transport _).bind ?_
    rintro _ _ ⟨first,rfl⟩
    refine (emits_sendWords transport _).bind ?_
    rintro _ _ ⟨second,rfl⟩
    refine ((emits_readResponseFrom transport clpChControl opcode seq 9).and
      (emits_matches_readResponse transport seq 9)).mono ?_
    rintro answer _ ⟨⟨pairs,rfl⟩,hmatches⟩
    refine ⟨⟨_,_,rfl,first++second++pairs,?_⟩,hmatches⟩
    cases answer <;> simp
  refine hasked.bind ?_
  rintro answer first ⟨hcommanded,hmatches⟩
  cases answer with
  | error code =>
    refine (herror code).mono ?_
    rintro _ _ rfl
    rw [List.append_nil]
    exact hcommanded.framed_of_error
  | ok response =>
    exact (hok response (hmatches response rfl).2).mono fun _ _ h => hcommanded.framed h

/-- Nothing more is read of an answer. -/
theorem drained_nothing {response : ClpHeader}
    (h : ¬(response.opcode≠clpCtrlSetPollTicks ∧ response.length=16)) :
    Drained Settles response [] := by
  refine ⟨[],rfl,?_⟩
  unfold OnBoundary Settles
  rw [or_iff_left h,← wordCount_eq_zero]
  exact eq_comm

/-- A refusal exchanges nothing. -/
theorem emits_refused :
    Emits (Link.log (δ := δ)) (do badPacket; pure false) fun _ events => events=[] :=
  emits_badPacket.bind fun _ _ h => emits_pure (by rw [h]; rfl)

theorem keeps_capsCommand {opcode : UInt8} (hopcode : opcode≠clpCtrlSetPollTicks) (imm : UInt8)
    (before : Client → Client) : Keeps (capsCommand transport opcode imm before) := by
  refine keeps_command transport opcode imm 0 before [] (fun _ => emits_refused) ?_
  intro response hsame
  dsimp only
  split
  next hshort =>
    refine emits_refused.mono ?_
    rintro _ _ rfl
    refine drained_nothing fun hsixteen => ?_
    rw [hsixteen.2] at hshort
    exact absurd hshort (by decide)
  next hlong =>
    refine (emits_receiveWords transport 4).bind ?_
    rintro words _ ⟨pairs,rfl,-,hfour⟩
    refine (emits_setClient _).bind ?_
    rintro _ _ rfl
    refine emits_pure ⟨pairs,by simp,?_⟩
    have hlength := UInt32.le_iff_toNat_le.mp (UInt32.not_lt.mp hlong)
    have hsixteen : (16 : UInt32).toNat=16 := rfl
    have hzero : (0 : UInt32).toNat=0 := rfl
    unfold OnBoundary Settles wordCount
    rw [List.length_map,hfour,hsame,and_iff_right hopcode,← UInt32.toNat_inj,
      ← UInt32.toNat_inj,hzero,hsixteen]
    dsimp only
    omega

theorem keeps_run (op : ControlOp) : Keeps (op.run transport) := by
  cases op with
  | hello => exact keeps_capsCommand transport (by decide) _ _
  | requestCaps => exact keeps_capsCommand transport (by decide) _ _
  | poll =>
    refine (keeps_capsCommand transport (by decide) _ _).bind fun online first hfirst => ?_
    split
    · exact emits_pure (by simpa using hfirst)
    · refine (emits_setClient _).bind ?_
      rintro _ _ rfl
      exact emits_pure (by simpa using hfirst)
  | setPollTicks ticks =>
    refine keeps_command transport _ _ _ _ _ (fun _ => emits_refused) fun response hsame => ?_
    have hnothing : Drained Settles response [] := drained_nothing fun h => h.1 hsame
    dsimp only
    split
    · exact emits_pure hnothing
    · refine emits_refused.mono ?_
      rintro _ _ rfl
      exact hnothing

theorem keeps_session (before : Bool) (ops : List ControlOp) :
    Keeps (session transport before ops) := by
  induction ops generalizing before with
  | nil => exact emits_pure .nil
  | cons op ops ih =>
    refine (keeps_run transport op).bind fun result first hfirst => ?_
    exact (ih result).mono fun _ _ h => hfirst.append h

/-- In every session on the control channel, with any device, an accepted answer leaves the
link between frames exactly if it has no payload or is one of sixteen bytes to a hello or a
request for the capabilities. -/
theorem control_frames_kept (before : Bool) (ops : List ControlOp) (s : Link δ) :
    ∃ result t events,session transport before ops s=(some result,t) ∧ t.log=s.log++events ∧
      ∀ answer∈exchanged events,OnBoundary answer ↔ Settles answer := by
  obtain ⟨result,t,events,hrun,hlog,hframed⟩ := (keeps_session transport before ops).returns s
  exact ⟨result,t,events,hrun,hlog,hframed.exchanged⟩

end Boundary

/-- The client is not busy, and the last operation succeeded exactly if the client is idle
and exactly if its status is `OK`. -/
structure Settled (result : Bool) (client : Client) : Prop where
  /-- No operation is under way. -/
  not_busy : client.state≠.busy
  /-- It is idle after a success. -/
  idle_iff : result=true ↔ client.state=.idle
  /-- The status is that of a success. -/
  status_iff : result=true ↔ client.lastStatus=clpStatusOk

/-- After an answer was accepted the client has its status. -/
theorem wp_readResponseFrom (channel opcode : UInt8) (seq : UInt16) (attempts : ℕ)
    (s : Link δ) :
    wp (readResponseFrom transport channel opcode seq attempts)
      (fun answer t => ∀ response,answer=.ok response →
        Settled (response.imm=clpStatusOk) t.client) (fun _ => True) s := by
  have hbad : ∀ t : Link δ,wp (do badPacket; pure (.error (-2)))
      (fun (answer : Except ℤ ClpHeader) t => ∀ response,answer=.ok response →
        Settled (response.imm=clpStatusOk) t.client) (fun _ => True) t := by
    intro t _ h
    cases h
  have haccept : ∀ (accepted : ClpHeader) (t : Link δ),
      wp (do acceptResponse accepted; pure (.ok accepted))
        (fun (answer : Except ℤ ClpHeader) t => ∀ response,answer=.ok response →
          Settled (response.imm=clpStatusOk) t.client) (fun _ => True) t := by
    intro accepted t response h
    cases h
    by_cases hok : accepted.imm=clpStatusOk <;> constructor <;> simp [hok]
  induction attempts generalizing s with
  | zero => exact hbad s
  | succ attempts ih =>
    refine wp_seq (wp_any _ s) fun first t _ => ?_
    split
    · exact ih t
    · split
      · split
        · exact hbad t
        · exact haccept _ t
      · split
        · exact hbad t
        · refine wp_seq (wp_any _ t) fun w1 t1 _ => ?_
          refine wp_seq (wp_any _ t1) fun w2 t2 _ => ?_
          refine wp_seq (wp_any _ t2) fun w3 t3 _ => ?_
          split
          · split
            · exact haccept _ t3
            · exact hbad t3
          · exact hbad t3

theorem settled_badPacket (s : Link δ) :
    wp (do badPacket; pure false) (fun result t => Settled result t.client) (fun _ => True) s :=
  ⟨ClientState.noConfusion,iff_of_false Bool.false_ne_true ClientState.noConfusion,
    iff_of_false Bool.false_ne_true (by decide : clpStatusBadPacket≠clpStatusOk)⟩

theorem settled_capsCommand (opcode imm : UInt8) (before : Client → Client) (s : Link δ) :
    wp (capsCommand transport opcode imm before) (fun result t => Settled result t.client)
      (fun _ => True) s := by
  refine wp_seq (wp_any _ s) fun answer t _ => ?_
  cases answer with
  | error code => exact settled_badPacket t
  | ok decoded =>
    dsimp only
    split
    · exact settled_badPacket t
    · refine wp_seq (wp_any _ t) fun words u _ => ?_
      rw [setClient,wp_bind,wp_update,wp_pure]
      by_cases hok : decoded.imm=clpStatusOk <;> constructor <;> simp [hok]

theorem settled_run (op : ControlOp) (s : Link δ) :
    wp (op.run transport) (fun result t => Settled result t.client) (fun _ => True) s := by
  cases op with
  | hello => exact settled_capsCommand transport _ _ _ s
  | requestCaps => exact settled_capsCommand transport _ _ _ s
  | poll =>
    refine wp_seq (settled_capsCommand transport _ _ _ s) fun online t honline => ?_
    split
    next h => exact h▸honline
    next h =>
      rw [Bool.not_eq_true] at h
      refine ⟨ClientState.noConfusion,iff_of_false Bool.false_ne_true ClientState.noConfusion,?_⟩
      exact h▸honline.status_iff
  | setPollTicks ticks =>
    have hasked : wp (controlCommand transport clpCtrlSetPollTicks 0 1 id
        [(if ticks=0 then 1 else ticks).toUInt32]) (fun answer t => ∀ response,
          answer=.ok response → Settled (response.imm=clpStatusOk) t.client)
        (fun _ => True) s := by
      refine wp_seq (wp_any _ s) fun seq t _ => ?_
      refine wp_seq (wp_any _ t) fun _ t _ => ?_
      refine wp_seq (wp_any _ t) fun _ t _ => ?_
      refine wp_seq (wp_any _ t) fun _ t _ => ?_
      refine wp_seq (wp_any _ t) fun _ t _ => ?_
      exact wp_readResponseFrom transport _ _ _ _ t
    refine wp_seq hasked fun answer t hanswer => ?_
    cases answer with
    | error code => exact settled_badPacket t
    | ok response =>
      dsimp only
      split
      next hok => simpa [hok] using hanswer response rfl
      next => exact settled_badPacket t

/-- After every session of at least one operation, with any device and from any state, the
client is settled with the result of the last operation. -/
theorem sessions_settle (before : Bool) (op : ControlOp) (ops : List ControlOp) (s : Link δ) :
    ∃ result t,session transport before (op::ops) s=(some result,t) ∧
      Settled result t.client := by
  obtain ⟨result,t,-,hrun,-⟩ := (keeps_session transport before (op::ops)).returns s
  refine ⟨result,t,hrun,?_⟩
  have hsettled : wp (session transport before (op::ops))
      (fun result t => Settled result t.client) (fun _ => True) s := by
    clear hrun
    induction ops generalizing op before s with
    | nil => exact wp_seq (settled_run transport op s) fun _ _ h => h
    | cons next ops ih => exact wp_seq (wp_any _ s) fun between t _ => ih between next t
  unfold wp at hsettled
  rwa [hrun] at hsettled

end ChisLink.ControlClient
