import ChisLink.AnsweredExchange
import ChisLink.ResourceLedger
import ChisLink.SocketLayer

/-!
# Owners of the network handles

The server opens a handle when it answers an open, a bind or an accept with one, and
releases a handle whenever it receives a close for it. In every sequence of socket calls
the descriptors, and the callers that were given a handle, have exactly the open handles,
each once, and a close only ever names an open handle.
-/

namespace ChisLink.SocketOwnership

open DriverPrograms WireProtocol StorageClient StorageBoundary WireCommands ClientExchange
  AnsweringDevice AnsweredExchange NetClient SocketLayer ResourceLedger
open StreamServer (wirePayloadLengthFrom_eq)

variable {δ : Type}

/-- Opens and closes of network handles, newest first. -/
abbrev History : Type := List (Event UInt16)

/-- A reply that opens no handle. -/
def OpensNone (history : δ → History) (d d' : δ) : Prop := history d'=history d

/-- A reply of a payload that begins with a handle that was not open. -/
def OpensOne (history : δ → History) (size : ℕ) (d : δ) (reply : Reply) (d' : δ) : Prop :=
  reply.status=clpStatusOk ∧ reply.payload.length=size ∧ ∃ handle : UInt16,
    wordAt reply.payload 0=handle.toUInt32 ∧ handle≠0 ∧ handle∉live (history d) ∧
    history d'=.opened handle::history d

/-- A server that answers every command, and the handles it has opened and closed. -/
structure Manages (transport : Transport δ) (ready : δ → Prop) (history : δ → History) :
    Prop where
  /-- Open and bind open one handle if they succeed. -/
  opens : ∀ d,ready d → ∀ opcode,opcode=clpNetOpen ∨ opcode=clpNetBind → ∀ payload,
    payload.length=12 → Answers transport clpChNet opcode payload (fun reply d' => ready d' ∧
      (reply.status≠clpStatusOk ∧ OpensNone history d d' ∨
        OpensOne history 4 d reply d')) d
  /-- An accept that succeeds opens a handle, or has no payload. -/
  accepts : ∀ d,ready d → ∀ payload,payload.length=4 →
    Answers transport clpChNet clpNetAccept payload (fun reply d' => ready d' ∧
      ((reply.status≠clpStatusOk ∨ reply.payload=[]) ∧ OpensNone history d d' ∨
        OpensOne history 12 d reply d')) d
  /-- A close releases the handle, whatever its status. -/
  closes : ∀ d,ready d → ∀ handle : UInt16,
    Answers transport clpChNet clpNetClose (le32 handle.toUInt32) (fun reply d' => ready d' ∧
      reply.payload=[] ∧ history d'=.closed handle::history d) d
  /-- A listen opens no handle. -/
  listens : ∀ d,ready d → ∀ payload,payload.length=8 →
    Answers transport clpChNet clpNetListen payload (fun reply d' => ready d' ∧
      reply.payload=[] ∧ OpensNone history d d') d
  /-- Nor do the commands that only use one. -/
  uses : ∀ d,ready d → ∀ opcode,opcode=clpNetSend ∨ opcode=clpNetSendto ∨
    opcode=clpNetRecv ∨ opcode=clpNetRecvfrom ∨ opcode=clpNetPoll ∨ opcode=clpNetResolve →
    ∀ payload,payload.length≤ clpFrameMaxPayloadBytes →
    Answers transport clpChNet opcode payload (fun _ d' => ready d' ∧ OpensNone history d d') d

/-- The handle of a descriptor in use. -/
def owned (slot : SocketFd) : Option UInt16 :=
  if slot.used ∧ slot.handle≠0 then some slot.handle else none

/-- The program: the socket context, and the handles that were returned to it. -/
structure Caller where
  /-- The context. -/
  ctx : SocketContext
  /-- Handles that `cl_net_open_tcp_host_wait` has returned. -/
  held : List UInt16

/-- The calls. -/
inductive SocketCall where
  /-- `cl_socket_socket`. -/
  | socket (domain type protocol : ℤ)
  /-- `cl_socket_connect`. -/
  | connect (fd : ℤ) (addr : Option Sockaddr) (addrLen : UInt32)
  /-- `cl_socket_bind`. -/
  | bind (fd : ℤ) (addr : Option Sockaddr) (addrLen : UInt32)
  /-- `cl_socket_listen`. -/
  | listen (fd backlog : ℤ)
  /-- `cl_socket_accept`. -/
  | accept (fd : ℤ) (place : Option AddrPlace)
  /-- `cl_socket_send`. -/
  | send (fd : ℤ) (data : List UInt8)
  /-- `cl_socket_sendto`. -/
  | sendto (fd : ℤ) (data : List UInt8) (addr : Option Sockaddr) (addrLen : UInt32)
  /-- `cl_socket_recv`. -/
  | recv (fd : ℤ) (capacity : UInt32)
  /-- `cl_socket_recvfrom`. -/
  | recvfrom (fd : ℤ) (capacity : UInt32) (place : Option AddrPlace)
  /-- `cl_socket_poll`. -/
  | poll (fd : ℤ)
  /-- `cl_socket_close`. -/
  | close (fd : ℤ)
  /-- `cl_net_open_tcp_host_wait`. -/
  | openTcpHostWait (host : CString) (port : UInt16) (attempts : UInt32)

/-- What a call returns. -/
inductive SocketResult where
  /-- The result of a call of the socket layer. -/
  | reply (reply : SocketReply)
  /-- The handle or the code of `cl_net_open_tcp_host_wait`. -/
  | opened (result : Except ℤ UInt16)

/-- The handle that a call returns to the program. -/
def returned : SocketResult → Option UInt16
  | .opened (.ok handle) => some handle
  | _ => none

/-- A call of the socket layer. -/
def socketCall (net : Peer δ) (ctx : SocketContext) : SocketCall → Prog (Link δ) SocketReply
  | .socket domain type protocol => pure (clSocketSocket ctx domain type protocol)
  | .connect fd addr addrLen => clSocketConnect net ctx fd addr addrLen
  | .bind fd addr addrLen => clSocketBind net ctx fd addr addrLen
  | .listen fd backlog => clSocketListen net ctx fd backlog
  | .accept fd place => clSocketAccept net ctx fd place
  | .send fd data => clSocketSend net ctx fd data
  | .sendto fd data addr addrLen => clSocketSendto net ctx fd data addr addrLen
  | .recv fd capacity => clSocketRecv net ctx fd capacity
  | .recvfrom fd capacity place => clSocketRecvfrom net ctx fd capacity place
  | .poll fd => clSocketPoll net ctx fd
  | .close fd => clSocketClose net ctx fd
  | .openTcpHostWait .. => pure { ret := 0, ctx := ctx }

/-- One call, and the program after it. -/
def perform (net : Peer δ) (caller : Caller) (call : SocketCall) :
    Prog (Link δ) (SocketResult×Caller) :=
  match call with
  | .openTcpHostWait host port attempts => do
    let result ← clNetOpenTcpHostWait net host port attempts
    match result with
    | .error code => pure (.opened (.error code),caller)
    | .ok handle =>
      pure (.opened (.ok handle),{ caller with held := caller.held++[handle] })
  | call => do
    let reply ← socketCall net caller.ctx call
    pure (.reply reply,{ caller with ctx := reply.ctx })

/-- One call after another. -/
def performAll (net : Peer δ) (caller : Caller) :
    List SocketCall → Prog (Link δ) (List SocketResult×Caller)
  | [] => pure ([],caller)
  | call::calls => do
    let first ← perform net caller call
    let rest ← performAll net first.2 calls
    pure (first.1::rest.1,rest.2)

/-- The descriptors and the program have exactly the open handles, and a client whose
scratch buffer is too small for an open has none. -/
structure Sound (net : Peer δ) (ready : δ → Prop) (history : δ → History) (caller : Caller)
    (d : δ) : Prop where
  /-- The server is ready for another command. -/
  ready : ready d
  /-- The books. -/
  books : Balanced owned caller.ctx.fds caller.held (history d)
  /-- The buffer. -/
  room : net.scratchSize<12 → live (history d)=[]

section Commands

variable {net : Peer δ} {ready : δ → Prop} {history : δ → History} {s : Link δ}
  {D : Link δ → Prop}

/-- The server is ready, and no handle was opened or closed. -/
structure Unmoved (ready : δ → Prop) (history : δ → History) (s t : Link δ) : Prop where
  /-- It is ready. -/
  ready : ready t.device
  /-- The handles. -/
  same : history t.device=history s.device

/-- The server is ready, and a handle was opened. -/
structure Gained (net : Peer δ) (ready : δ → Prop) (history : δ → History) (s t : Link δ)
    (handle : UInt16) : Prop where
  /-- It is ready. -/
  ready : ready t.device
  /-- The buffer is large enough. -/
  room : 12≤ net.scratchSize
  /-- The handle is not zero. -/
  nonzero : handle≠0
  /-- It was not open. -/
  fresh : handle∉live (history s.device)
  /-- It is now. -/
  now : history t.device=.opened handle::history s.device

theorem unmoved_of_eq {t : Link δ} {d : δ} (hready : ready d)
    (hsame : history d=history s.device) (ht : t.device=d) : Unmoved ready history s t := by
  refine ⟨?_,?_⟩
  · rw [ht]
    exact hready
  · rw [ht]
    exact hsame

/-- A payload that begins with a handle. -/
theorem handleOf_opened {payload : List UInt8} {handle : UInt16}
    (hword : wordAt payload 0=handle.toUInt32) (hne : handle≠0) :
    handleOf payload=.ok handle := by
  unfold handleOf
  rw [hword,UInt16.toUInt16_toUInt32]
  dsimp only
  rw [if_neg hne]

theorem length_le32 (word : UInt32) : (le32 word).length=4 := rfl

/-- The end of an exchange takes the whole answer. -/
def Takes (net : Peer δ) (opcode : UInt8) (D : Link δ → Prop) {α : Type}
    (finish : ClpHeader → Prog (Link δ) (Except ℤ α)) : Prop :=
  ∀ ⦃seq⦄ ⦃reply : Reply⦄ ⦃t : Link δ⦄ ⦃d⦄ ⦃E : Link δ → Prop⦄,
    reply.payload.length≤ clpFrameMaxPayloadBytes →
    Delivers net.transport (payloadWords reply.payload) t.device d → (∀ u,u.device=d → E u) →
    wp (finish (reply.header clpChNet opcode seq)) (fun _ => E) D t

theorem takes_exact {α : Type} {opcode : UInt8} (expected : UInt32)
    (parse : List UInt8 → Except ℤ α) : Takes net opcode D (expectExact net expected parse) :=
  fun _ _ _ _ _ hframe hd hend => wp_expectExact hframe hd (fun _ _ => hend) fun _ _ => hend

theorem takes_within {α : Type} {opcode : UInt8} (low high : UInt32)
    (parse : UInt32 → List UInt8 → Except ℤ α) :
    Takes net opcode D (expectWithin net low high parse) :=
  fun _ _ _ _ _ hframe hd hend => wp_expectWithin hframe hd (fun _ _ _ => hend) fun _ _ => hend

/-- A datagram is read in two parts. -/
theorem takes_recvfrom (requestCapacity : UInt32) :
    Takes net clpNetRecvfrom D (finishRecvfrom net requestCapacity) := by
  intro seq reply t d E hframe hd hend
  have hnat := toNat_payloadLength hframe
  have height : clpNetRecvfromAddrBytes.toNat=8 := rfl
  unfold finishRecvfrom
  rw [header_imm,header_length]
  by_cases hstatus : reply.status=clpStatusOk
  · rw [if_neg (not_not.mpr hstatus)]
    by_cases hempty : reply.payload=[]
    · rw [if_pos ((payload_nil hframe).mpr hempty),wp_pure]
      rw [hempty] at hd
      exact hend t ((delivers_nil _).mp hd).symm
    · rw [if_neg (mt (payload_nil hframe).mp hempty)]
      by_cases hbad : UInt32.ofNat reply.payload.length<clpNetRecvfromAddrBytes ∨
          requestCapacity+clpNetRecvfromAddrBytes<UInt32.ofNat reply.payload.length
      · rw [if_pos hbad]
        exact wp_discardResponseError hframe hd fun _ => hend
      · have hlong : 8≤ reply.payload.length := by
          have hle := UInt32.not_lt.mp (not_or.mp hbad).1
          rw [UInt32.le_iff_toNat_le,hnat,height] at hle
          exact hle
        rw [if_neg hbad]
        obtain ⟨front,rest,hfront,hsplit⟩ : ∃ front rest : List UInt8,front.length=8 ∧
            reply.payload=front++rest :=
          ⟨reply.payload.take 8,reply.payload.drop 8,
            by rw [List.length_take]; exact Nat.min_eq_left hlong,
            (List.take_append_drop 8 reply.payload).symm⟩
        rw [hsplit] at hd hframe hnat ⊢
        rw [List.length_append,hfront] at hframe hnat ⊢
        have hread : clpNetRecvfromAddrBytes=UInt32.ofNat front.length := by
          rw [hfront]
          rfl
        have hdata : UInt32.ofNat (8+rest.length)-clpNetRecvfromAddrBytes=
            UInt32.ofNat rest.length := by
          have hmax : clpFrameMaxPayloadBytes=32768 := rfl
          have hrest : (UInt32.ofNat rest.length).toNat=rest.length :=
            UInt32.toNat_ofNat_of_lt' (by unfold UInt32.size; omega)
          rw [← UInt32.toNat_inj,UInt32.toNat_sub_of_le _ _ (by
            rw [UInt32.le_iff_toNat_le,hnat,height]; omega),hnat,height,hrest]
          omega
        rw [hdata,wp_bind,hread]
        refine wp_readParts 2 hfront (by rw [List.length_append,hfront]; exact hframe)
          hd fun u hu => ?_
        have hshort : rest.length≤ clpFrameMaxPayloadBytes := by omega
        by_cases hnone : UInt32.ofNat rest.length=0
        · have hnil : rest=[] := (@payload_nil (.response 0 0 0 rest) hshort).mp hnone
          rw [hnil] at hu
          rw [if_neg (not_not.mpr hnone),wp_pure]
          exact hend u ((delivers_nil _).mp hu).symm
        · rw [if_pos hnone,wp_bind]
          refine wp_readPayloadWords hshort hu fun pairs _ => ?_
          rw [wp_pure]
          exact hend _ rfl
  · rw [if_pos hstatus]
    exact wp_discardResponseError hframe hd fun _ => hend

/-- A handle was opened, or the operation failed and none was. -/
def Granted (net : Peer δ) (ready : δ → Prop) (history : δ → History) (s : Link δ) :
    Except ℤ UInt16 → Link δ → Prop
  | .error _,t => Unmoved ready history s t
  | .ok handle,t => Gained net ready history s t handle

section Managed

variable (h : Manages net.transport ready history) (hready : ready s.device)
include h hready

/-- An exchange that opens a handle. -/
theorem wp_opening {opcode : UInt8} (hopcode : opcode=clpNetOpen ∨ opcode=clpNetBind)
    {payload : List UInt8} (hpayload : payload.length=12) (hroom : 12≤ net.scratchSize) :
    wp (exchange net clpChNet opcode [payload] (expectExact net 4 handleOf))
      (Granted net ready history s) D s := by
  have hone : [payload].flatten=payload := by simp
  have hmax : clpFrameMaxPayloadBytes=32768 := rfl
  have hanswers := h.opens s.device hready opcode hopcode payload hpayload
  refine wp_exchange (by rw [hone]; omega) (by rw [hone]; exact hanswers) ?_
  rintro seq reply t d hframe hd ⟨hready',⟨hstatus,hsame⟩ |
    ⟨hstatus,hlength,handle,hword,hne,hfresh,hnow⟩⟩
  · refine wp_expectExact hframe hd (fun hok' => absurd hok' hstatus) fun _ code u hu => ?_
    exact unmoved_of_eq hready' hsame hu
  · refine wp_expectExact hframe hd (fun _ _ u hu => ?_) fun hnot => absurd ⟨hstatus,hlength⟩ hnot
    rw [handleOf_opened hword hne]
    exact ⟨by rw [hu]; exact hready',hroom,hne,hfresh,by rw [hu]; exact hnow⟩

theorem wp_clNetOpen (proto : NetProto) (remote : NetAddr) :
    wp (clNetOpen net proto remote) (Granted net ready history s) D s := by
  unfold clNetOpen
  refine wp_withScratch (fun _ => ⟨hready,rfl⟩) fun hroom => ?_
  split
  · exact ⟨hready,rfl⟩
  · exact wp_opening h hready (.inl rfl) rfl hroom

theorem wp_clNetBind (proto : NetProto) (bound : NetAddr) :
    wp (clNetBind net proto bound) (Granted net ready history s) D s := by
  unfold clNetBind
  split
  · exact ⟨hready,rfl⟩
  · exact wp_withScratch (fun _ => ⟨hready,rfl⟩) (wp_opening h hready (.inr rfl) rfl)

theorem wp_clNetAccept (listenHandle : UInt16) :
    wp (clNetAccept net listenHandle)
      (fun result t => match result with
        | .ok (some (handle,_)) => Gained net ready history s t handle
        | _ => Unmoved ready history s t) D s := by
  have hone : [le32 listenHandle.toUInt32].flatten=le32 listenHandle.toUInt32 := by simp
  have hmax : clpFrameMaxPayloadBytes=32768 := rfl
  unfold clNetAccept
  split
  · exact ⟨hready,rfl⟩
  refine wp_withScratch (fun _ => ⟨hready,rfl⟩) fun hroom => ?_
  have hanswers := h.accepts s.device hready (le32 listenHandle.toUInt32) rfl
  refine wp_exchange (by rw [hone,length_le32]; omega) (by rw [hone]; exact hanswers) ?_
  rintro seq reply t d hframe hd ⟨hready',⟨hnothing,hsame⟩ |
    ⟨hstatus,hlength,handle,hword,hne,hfresh,hnow⟩⟩
  · unfold finishAccept
    rw [header_imm,header_length]
    by_cases hstatus : reply.status=clpStatusOk
    · have hempty := hnothing.resolve_left (not_not.mpr hstatus)
      rw [hempty] at hd
      have hdevice : t.device=d := ((delivers_nil _).mp hd).symm
      rw [if_neg (not_not.mpr hstatus),if_pos ((payload_nil hframe).mpr hempty),wp_pure]
      exact unmoved_of_eq hready' hsame hdevice
    · rw [if_pos hstatus]
      exact wp_discardResponseError hframe hd fun code u hu => unmoved_of_eq hready' hsame hu
  · have hsome : reply.payload≠[] := by
      intro hempty
      rw [hempty] at hlength
      cases hlength
    unfold finishAccept
    rw [header_imm,if_neg (not_not.mpr hstatus)]
    rw [if_neg (by rw [header_length]; exact mt (payload_nil hframe).mp hsome)]
    refine wp_expectExact hframe hd (fun _ _ u hu => ?_) fun hnot => absurd ⟨hstatus,hlength⟩ hnot
    rw [handleOf_opened hword hne]
    exact ⟨by rw [hu]; exact hready',hroom,hne,hfresh,by rw [hu]; exact hnow⟩

/-- A close of a handle that is open. -/
theorem wp_clNetClose {handle : UInt16} (hne : handle≠0) (hroom : 12≤ net.scratchSize) :
    wp (clNetClose net handle)
      (fun _ t => ready t.device ∧ history t.device=.closed handle::history s.device) D s := by
  have hone : [le32 handle.toUInt32].flatten=le32 handle.toUInt32 := by simp
  have hmax : clpFrameMaxPayloadBytes=32768 := rfl
  unfold clNetClose
  rw [if_neg hne]
  refine wp_withScratch (fun hsmall => by omega) fun _ => ?_
  refine wp_exchange (by rw [hone,length_le32]; omega)
    (by rw [hone]; exact h.closes s.device hready handle) ?_
  rintro seq reply t d - hd ⟨hready',hempty,hclosed⟩
  refine wp_statusOnly hempty hd (fun _ u hu => ?_) fun _ code u hu => ?_
  · exact ⟨by rw [hu]; exact hready',by rw [hu]; exact hclosed⟩
  · exact ⟨by rw [hu]; exact hready',by rw [hu]; exact hclosed⟩

theorem wp_clNetListen (handle : UInt16) (backlog : UInt32) :
    wp (clNetListen net handle backlog) (fun _ => Unmoved ready history s) D s := by
  have hone : [le32 handle.toUInt32++le32 backlog].flatten=le32 handle.toUInt32++le32 backlog :=
    by simp
  have hmax : clpFrameMaxPayloadBytes=32768 := rfl
  unfold clNetListen
  split
  · exact ⟨hready,rfl⟩
  refine wp_withScratch (fun _ => ⟨hready,rfl⟩) fun hroom => ?_
  refine wp_exchange (by rw [hone,List.length_append,length_le32,length_le32]; omega)
    (by rw [hone]; exact h.listens s.device hready _ rfl) ?_
  rintro seq reply t d - hd ⟨hready',hempty,hsame⟩
  exact wp_statusOnly hempty hd (fun _ u hu => unmoved_of_eq hready' hsame hu)
    fun _ code u hu => unmoved_of_eq hready' hsame hu

/-- An exchange that only uses a handle, and takes its whole answer. -/
theorem wp_using {α : Type} {opcode : UInt8} (hopcode : opcode=clpNetSend ∨
      opcode=clpNetSendto ∨ opcode=clpNetRecv ∨ opcode=clpNetRecvfrom ∨ opcode=clpNetPoll ∨
      opcode=clpNetResolve) {required : ℕ} {chunks : List (List UInt8)}
    {finish : ClpHeader → Prog (Link δ) (Except ℤ α)} (hfinish : Takes net opcode D finish) :
    wp (withScratch net required (exchange net clpChNet opcode chunks finish))
      (fun _ => Unmoved ready history s) D s := by
  refine wp_withScratch (fun _ => ⟨hready,rfl⟩) fun _ => ?_
  cases hlength : wirePayloadLength chunks with
  | none => exact wp_exchange_tooLong hlength ⟨hready,rfl⟩
  | some length =>
    obtain ⟨hsum,hmax⟩ := wirePayloadLengthFrom_eq (Nat.zero_le _) hlength
    have hfits : chunks.flatten.length≤ clpFrameMaxPayloadBytes := by omega
    refine wp_exchange hfits (h.uses s.device hready opcode hopcode _ hfits) ?_
    rintro seq reply t d hframe hd ⟨hready',hsame⟩
    exact hfinish hframe hd fun u hu => unmoved_of_eq hready' hsame hu

theorem wp_clNetPoll (handle : UInt16) :
    wp (clNetPoll net handle) (fun _ => Unmoved ready history s) D s := by
  unfold clNetPoll
  split
  · exact ⟨hready,rfl⟩
  · exact wp_using h hready (by simp) (takes_exact _ _)

theorem wp_clNetSend (handle : UInt16) (data : List UInt8) :
    wp (clNetSend net handle data) (fun _ => Unmoved ready history s) D s := by
  unfold clNetSend
  split
  · exact ⟨hready,rfl⟩
  · exact wp_using h hready (by simp) (takes_exact _ _)

theorem wp_clNetSendto (handle : UInt16) (remote : NetAddr) (data : List UInt8) :
    wp (clNetSendto net handle remote data) (fun _ => Unmoved ready history s) D s := by
  unfold clNetSendto
  split
  · exact ⟨hready,rfl⟩
  · exact wp_using h hready (by simp) (takes_exact _ _)

theorem wp_clNetRecv (handle : UInt16) (capacity : UInt32) :
    wp (clNetRecv net handle capacity) (fun _ => Unmoved ready history s) D s := by
  unfold clNetRecv
  split
  · exact ⟨hready,rfl⟩
  · exact wp_using h hready (by simp) (takes_within _ _ _)

theorem wp_clNetRecvfrom (handle : UInt16) (capacity : UInt32) :
    wp (clNetRecvfrom net handle capacity) (fun _ => Unmoved ready history s) D s := by
  unfold clNetRecvfrom
  split
  · exact ⟨hready,rfl⟩
  · exact wp_using h hready (by simp) (takes_recvfrom _)

theorem wp_clNetResolveIpv4 (host : CString) :
    wp (clNetResolveIpv4 net host) (fun _ => Unmoved ready history s) D s := by
  unfold clNetResolveIpv4
  split
  · exact ⟨hready,rfl⟩
  split
  · exact ⟨hready,rfl⟩
  · exact wp_using h hready (by simp) (takes_exact _ _)

/-- A wait only polls. -/
theorem wp_waitFlagsFrom (handle : UInt16) (requiredFlags : UInt32) (remaining : ℕ) :
    wp (waitFlagsFrom net handle requiredFlags remaining)
      (fun _ => Unmoved ready history s) D s := by
  induction remaining generalizing s with
  | zero => exact ⟨hready,rfl⟩
  | succ remaining ih =>
    unfold waitFlagsFrom
    refine wp_seq (wp_clNetPoll h hready handle) fun result t ht => ?_
    cases result with
    | error code => exact ht
    | ok flags =>
      dsimp only
      split
      · exact ht
      · refine wp_seq (ih ht.ready) fun result u hu => ?_
        have hall : Unmoved ready history s u := ⟨hu.ready,hu.same.trans ht.same⟩
        cases result with
        | error code => exact hall
        | ok reply => exact hall

theorem wp_clNetWaitConnected (handle : UInt16) (attempts : UInt32) :
    wp (clNetWaitConnected net handle attempts) (fun _ => Unmoved ready history s) D s := by
  unfold clNetWaitConnected clNetWaitFlags
  refine wp_andThen ?_
  unfold netWaitFlagsBudget
  split
  · exact ⟨hready,rfl⟩
  · refine wp_post (wp_waitFlagsFrom h hready handle _ _) fun result t ht => ?_
    cases result with
    | error code => exact ht
    | ok reply => exact ht

/-- A connection to a host is returned open, or is not open any more. -/
theorem wp_clNetOpenTcpHostWait (host : CString) (port : UInt16) (attempts : UInt32) :
    wp (clNetOpenTcpHostWait net host port attempts)
      (fun result t => Granted net ready history s result t ∨
        (∃ code,result=.error code) ∧ ready t.device ∧ 12≤ net.scratchSize ∧
          ∃ handle∉live (history s.device),
            history t.device=.closed handle::.opened handle::history s.device) D s := by
  unfold clNetOpenTcpHostWait clNetOpenHost
  refine wp_andThen ?_
  split
  · exact .inl ⟨hready,rfl⟩
  refine wp_seq (wp_clNetResolveIpv4 h hready host) fun resolved t ht => ?_
  cases resolved with
  | error code => exact .inl ht
  | ok ipv4 =>
    refine wp_post (wp_clNetOpen h ht.ready .tcp ⟨ipv4,port⟩) fun opened u hu => ?_
    cases opened with
    | error code => exact .inl ⟨hu.ready,hu.same.trans ht.same⟩
    | ok handle =>
      have hfresh : handle∉live (history s.device) := by
        rw [← ht.same]
        exact hu.fresh
      have hnow : history u.device=.opened handle::history s.device := by
        rw [hu.now,ht.same]
      refine wp_seq (wp_clNetWaitConnected h hu.ready handle attempts) fun connected v hv => ?_
      have hopen : history v.device=.opened handle::history s.device := hv.same.trans hnow
      cases connected with
      | ok flags => exact .inl ⟨hv.ready,hu.room,hu.nonzero,hfresh,hopen⟩
      | error code =>
        refine wp_seq (wp_clNetClose h hv.ready hu.nonzero hu.room) fun _ w hw => ?_
        rw [hopen] at hw
        exact .inr ⟨⟨code,rfl⟩,hw.1,hu.room,handle,hfresh,hw.2⟩

end Managed

end Commands

section Calls

variable {net : Peer δ} {ready : δ → Prop} {history : δ → History} {s t : Link δ} {d : δ}
  {D : Link δ → Prop} {ctx : SocketContext} {held : List UInt16} {fd : ℤ} {slot : SocketFd}

/-- Where a descriptor stands in the table. -/
theorem socketSlot_some (h : socketSlot ctx fd=some slot) :
    ∃ hi : fd.toNat-1<ctx.fds.length,ctx.fds[fd.toNat-1]=slot ∧ slot.used=true := by
  unfold socketSlot at h
  split at h
  · cases h
  · obtain ⟨hget,hused⟩ := Option.filter_eq_some_iff.mp h
    obtain ⟨hi,hslot⟩ := List.getElem?_eq_some_iff.mp hget
    exact ⟨hi,hslot,hused⟩

theorem socketSlot_range (h : socketSlot ctx fd=some slot) :
    ¬(fd≤0 ∨ ctx.fds.length<fd.toNat) := by
  intro hout
  unfold socketSlot at h
  rw [if_pos hout] at h
  cases h

/-- A descriptor that is stored is found. -/
theorem socketSlot_set {slot' : SocketFd} {error : ℤ} (h : socketSlot ctx fd=some slot)
    (hused : slot'.used=true) :
    socketSlot ⟨ctx.fds.set (fd.toNat-1) slot',error⟩ fd=some slot' := by
  obtain ⟨hi,-,-⟩ := socketSlot_some h
  have hrange := socketSlot_range h
  unfold socketSlot
  dsimp only
  rw [List.length_set,if_neg hrange,List.getElem?_set_self hi,Option.filter_some,if_pos hused]

/-- So is one after another was stored. -/
theorem socketSlot_set_ne {slot' : SocketFd} {error : ℤ} {i : ℕ} (h : socketSlot ctx fd=some slot)
    (hne : i≠fd.toNat-1) : socketSlot ⟨ctx.fds.set i slot',error⟩ fd=some slot := by
  have hrange := socketSlot_range h
  unfold socketSlot at h ⊢
  dsimp only
  rw [if_neg hrange] at h
  rw [List.length_set,if_neg hrange,List.getElem?_set_ne hne]
  exact h

/-- The descriptor that is chosen is free. -/
theorem socketAllocFd_some {i : ℕ} (h : socketAllocFd ctx=some i) :
    ∃ hi : i<ctx.fds.length,ctx.fds[i].used=false := by
  obtain ⟨hi,hfree,-⟩ := List.findIdx?_eq_some_iff_getElem.mp h
  exact ⟨hi,by simpa using hfree⟩

theorem owned_used (hused : slot.used=true) (hne : slot.handle≠0) :
    owned slot=some slot.handle := if_pos ⟨hused,hne⟩

theorem owned_zero (hzero : slot.handle=0) : owned slot=none := if_neg fun h => h.2 hzero

theorem owned_free (hfree : slot.used=false) : owned slot=none :=
  if_neg fun h => by
    rw [hfree] at h
    cases h.1

theorem Sound.move {caller : Caller} (h : Sound net ready history caller s.device)
    (ht : Unmoved ready history s t) : Sound net ready history caller t.device := by
  refine ⟨ht.ready,?_,fun hsmall => ?_⟩
  · rw [ht.same]
    exact h.books
  · rw [ht.same]
    exact h.room hsmall

/-- A descriptor with the same handle is stored. -/
theorem Sound.keep {slot' : SocketFd} {error : ℤ}
    (h : Sound net ready history ⟨ctx,held⟩ d) (hslot : socketSlot ctx fd=some slot)
    (hsame : owned slot'=owned slot) :
    Sound net ready history ⟨⟨ctx.fds.set (fd.toNat-1) slot',error⟩,held⟩ d := by
  obtain ⟨hi,hget,-⟩ := socketSlot_some hslot
  refine ⟨h.ready,h.books.keep hi ?_,h.room⟩
  rw [hget]
  exact hsame

/-- A free descriptor, or one without a handle, gets the handle that was opened. -/
theorem Sound.gain {slot' : SocketFd} {error : ℤ} {i : ℕ} {handle : UInt16}
    (h : Sound net ready history ⟨ctx,held⟩ s.device) (hi : i<ctx.fds.length)
    (hnone : owned ctx.fds[i]=none) (ht : Gained net ready history s t handle)
    (hsome : owned slot'=some handle) :
    Sound net ready history ⟨⟨ctx.fds.set i slot',error⟩,held⟩ t.device := by
  refine ⟨ht.ready,?_,fun hsmall => ?_⟩
  · rw [ht.now]
    exact h.books.gain hi hnone hsome ht.fresh
  · have hroom := ht.room
    omega

/-- A descriptor of its own gets the handle that was opened. -/
theorem Sound.fill {slot' : SocketFd} {error : ℤ} {handle : UInt16}
    (h : Sound net ready history ⟨ctx,held⟩ s.device) (hslot : socketSlot ctx fd=some slot)
    (hzero : slot.handle=0) (ht : Gained net ready history s t handle)
    (hused : slot'.used=true) (hhandle : slot'.handle=handle) :
    Sound net ready history ⟨⟨ctx.fds.set (fd.toNat-1) slot',error⟩,held⟩ t.device := by
  obtain ⟨hi,hget,-⟩ := socketSlot_some hslot
  refine h.gain hi ?_ ht ?_
  · rw [hget]
    exact owned_zero hzero
  · rw [← hhandle]
    exact owned_used hused (by rw [hhandle]; exact ht.nonzero)

theorem Sound.finishSend (h : Sound net ready history ⟨ctx,held⟩ d)
    (hslot : socketSlot ctx fd=some slot) (data : List UInt8) (sent : Except ℤ ℕ) :
    Sound net ready history ⟨(SocketLayer.finishSend ctx fd slot data sent).ctx,held⟩ d := by
  unfold SocketLayer.finishSend
  cases sent with
  | error code => exact h.keep hslot rfl
  | ok written =>
    dsimp only
    split
    · exact h.keep hslot rfl
    · exact h.keep hslot rfl

theorem Sound.finishDatagram (h : Sound net ready history ⟨ctx,held⟩ d)
    (hslot : socketSlot ctx fd=some slot) (capacity : UInt32) (place : Option AddrPlace)
    (received : Except ℤ (Option (NetAddr×List UInt8))) :
    Sound net ready history
      ⟨(SocketLayer.finishDatagram ctx fd slot capacity place received).ctx,held⟩ d := by
  unfold SocketLayer.finishDatagram
  cases received with
  | error code => exact h.keep hslot rfl
  | ok datagram =>
    dsimp only
    split
    · exact h.keep hslot rfl
    · have hsame : owned (learnRemote slot datagram)=owned slot := by
        unfold learnRemote
        split <;> rfl
      obtain ⟨converted,hconverted⟩ : ∃ converted,converted=netAddrToSockaddr
          (if (learnRemote slot datagram).hasRemote then some (learnRemote slot datagram).remote
          else none) place := ⟨_,rfl⟩
      rw [← hconverted]
      split
      · exact h.keep hslot hsame
      · exact h.keep hslot hsame

theorem Sound.clSocketSocket (h : Sound net ready history ⟨ctx,held⟩ d)
    (domain type protocol : ℤ) :
    Sound net ready history ⟨(SocketLayer.clSocketSocket ctx domain type protocol).ctx,held⟩
      d := by
  unfold SocketLayer.clSocketSocket
  split
  · exact ⟨h.ready,h.books,h.room⟩
  split
  · exact ⟨h.ready,h.books,h.room⟩
  split
  · exact ⟨h.ready,h.books,h.room⟩
  dsimp only
  cases hfree : socketAllocFd ctx with
  | none => exact ⟨h.ready,h.books,h.room⟩
  | some i =>
    obtain ⟨hi,hunused⟩ := socketAllocFd_some hfree
    refine ⟨h.ready,h.books.keep hi ?_,h.room⟩
    rw [owned_free hunused]
    exact owned_zero rfl

/-- A call has kept the books. -/
def Keeping (net : Peer δ) (ready : δ → Prop) (history : δ → History) (held : List UInt16)
    (reply : SocketReply) (t : Link δ) : Prop :=
  Sound net ready history ⟨reply.ctx,held⟩ t.device

section Books

variable (hM : Manages net.transport ready history)
  (h : Sound net ready history ⟨ctx,held⟩ s.device)
include hM h

theorem wp_clSocketConnect (addr : Option Sockaddr) (addrLen : UInt32) :
    wp (clSocketConnect net ctx fd addr addrLen) (Keeping net ready history held) D s := by
  unfold clSocketConnect
  cases hslot : socketSlot ctx fd with
  | none => exact ⟨h.ready,h.books,h.room⟩
  | some slot =>
    dsimp only
    split
    · exact h.keep hslot rfl
    split
    · exact h.keep hslot rfl
    split
    · exact h.keep hslot rfl
    next hzero =>
      split
      · exact h.keep hslot rfl
      · refine wp_seq (wp_clNetOpen hM h.ready _ _) fun opened t ht => ?_
        cases opened with
        | error code => exact (h.move ht).keep hslot rfl
        | ok handle =>
          exact h.fill hslot (not_not.mp hzero) ht (socketSlot_some hslot).2.2 rfl

theorem wp_clSocketBind (addr : Option Sockaddr) (addrLen : UInt32) :
    wp (clSocketBind net ctx fd addr addrLen) (Keeping net ready history held) D s := by
  unfold clSocketBind
  cases hslot : socketSlot ctx fd with
  | none => exact ⟨h.ready,h.books,h.room⟩
  | some slot =>
    dsimp only
    split
    · exact h.keep hslot rfl
    next hzero =>
      split
      · exact h.keep hslot rfl
      · refine wp_seq (wp_clNetBind hM h.ready _ _) fun opened t ht => ?_
        cases opened with
        | error code => exact (h.move ht).keep hslot rfl
        | ok handle =>
          exact h.fill hslot (not_not.mp hzero) ht (socketSlot_some hslot).2.2 rfl

theorem wp_clSocketListen (backlog : ℤ) :
    wp (clSocketListen net ctx fd backlog) (Keeping net ready history held) D s := by
  unfold clSocketListen
  cases hslot : socketSlot ctx fd with
  | none => exact ⟨h.ready,h.books,h.room⟩
  | some slot =>
    dsimp only
    split
    · exact h.keep hslot rfl
    · refine wp_seq (wp_clNetListen hM h.ready _ _) fun result t ht => ?_
      cases result with
      | error code => exact (h.move ht).keep hslot rfl
      | ok _ => exact (h.move ht).keep hslot rfl

/-- A connection that is accepted gets the descriptor that was chosen, or is closed. -/
theorem wp_finishSocketAccept (hslot : socketSlot ctx fd=some slot) {acceptedFd : ℕ}
    (hfree : socketAllocFd ctx=some acceptedFd) {handle : UInt16}
    (ht : Gained net ready history s t handle) (remote : NetAddr) (place : Option AddrPlace) :
    wp (finishSocketAccept net ctx fd slot acceptedFd handle remote place)
      (Keeping net ready history held) D t := by
  unfold finishSocketAccept
  dsimp only
  split
  · refine wp_seq (wp_clNetClose hM ht.ready ht.nonzero ht.room) ?_
    rintro _ u ⟨hu,hclosed⟩
    have hbooks : Sound net ready history ⟨ctx,held⟩ u.device := by
      refine ⟨hu,?_,fun hsmall => ?_⟩
      · rw [hclosed,ht.now]
        exact h.books.pass ht.fresh
      · have hroom := ht.room
        omega
    exact hbooks.keep hslot rfl
  · obtain ⟨hi,hunused⟩ := socketAllocFd_some hfree
    obtain ⟨hj,hget,hused⟩ := socketSlot_some hslot
    have hne : acceptedFd≠fd.toNat-1 := by
      intro heq
      have hsame : ctx.fds[acceptedFd]=slot := by
        rw [← hget]
        exact getElem_congr_idx heq
      rw [hsame,hused] at hunused
      cases hunused
    obtain ⟨accepted,haccepted⟩ : ∃ accepted : SocketFd,accepted=
        { clearedFd with
          used := true
          proto := .tcp
          remote := remote
          handle := handle
          hasRemote := true
          flags := clpNetSocketFlagConnected } := ⟨_,rfl⟩
    have howned : owned accepted=some handle := by
      rw [haccepted]
      exact owned_used rfl ht.nonzero
    rw [← haccepted]
    have hgained : Sound net ready history
        ⟨⟨ctx.fds.set acceptedFd accepted,ctx.lastError⟩,held⟩ t.device :=
      h.gain hi (owned_free hunused) ht howned
    exact hgained.keep (socketSlot_set_ne hslot hne) rfl

theorem wp_clSocketAccept (place : Option AddrPlace) :
    wp (clSocketAccept net ctx fd place) (Keeping net ready history held) D s := by
  unfold clSocketAccept
  cases hslot : socketSlot ctx fd with
  | none => exact ⟨h.ready,h.books,h.room⟩
  | some slot =>
    dsimp only
    split
    · exact h.keep hslot rfl
    cases hfree : socketAllocFd ctx with
    | none => exact h.keep hslot rfl
    | some acceptedFd =>
      refine wp_seq (wp_clNetAccept hM h.ready _) ?_
      rintro (code | _ | ⟨handle,remote⟩) t ht
      · exact (h.move ht).keep hslot rfl
      · exact (h.move ht).keep hslot rfl
      · exact wp_finishSocketAccept hM h hslot hfree ht remote place

theorem wp_clSocketSend (data : List UInt8) :
    wp (clSocketSend net ctx fd data) (Keeping net ready history held) D s := by
  unfold clSocketSend
  cases hslot : socketSlot ctx fd with
  | none => exact ⟨h.ready,h.books,h.room⟩
  | some slot =>
    dsimp only
    split
    · exact h.keep hslot rfl
    · refine wp_seq (wp_clNetSend hM h.ready _ _) fun sent t ht => ?_
      exact (h.move ht).finishSend hslot data sent

/-- A descriptor without a handle gets one, and keeps it whatever happens next. -/
theorem wp_withUdpHandle (hslot : socketSlot ctx fd=some slot)
    (place : Option AddrPlace) {next : SocketContext → SocketFd → Prog (Link δ) SocketReply}
    (hnext : ∀ ctx' slot' t,Sound net ready history ⟨ctx',held⟩ t.device →
      socketSlot ctx' fd=some slot' → wp (next ctx' slot') (Keeping net ready history held) D t) :
    wp (withUdpHandle net ctx fd slot place next) (Keeping net ready history held) D s := by
  unfold withUdpHandle
  split
  next hzero =>
    refine wp_seq (wp_clNetOpen hM h.ready _ _) fun opened t ht => ?_
    cases opened with
    | error code => exact (h.move ht).keep hslot rfl
    | ok handle =>
      have hused := (socketSlot_some hslot).2.2
      exact hnext _ _ t (h.fill hslot hzero ht hused rfl) (socketSlot_set hslot hused)
  · exact hnext ctx slot s h hslot

theorem wp_clSocketSendto (data : List UInt8) (addr : Option Sockaddr) (addrLen : UInt32) :
    wp (clSocketSendto net ctx fd data addr addrLen) (Keeping net ready history held) D s := by
  unfold clSocketSendto
  cases hslot : socketSlot ctx fd with
  | none => exact ⟨h.ready,h.books,h.room⟩
  | some slot =>
    dsimp only
    split
    · exact wp_clSocketSend hM h data
    split
    · exact h.keep hslot rfl
    split
    · exact h.keep hslot rfl
    · refine wp_withUdpHandle hM h hslot none fun ctx' slot' t ht hslot' => ?_
      refine wp_seq (wp_clNetSendto hM ht.ready _ _ _) fun sent u hu => ?_
      exact (ht.move hu).finishSend hslot' data sent

/-- A receive stores its descriptor with the same handle. -/
theorem wp_clSocketRecv (capacity : UInt32) :
    wp (clSocketRecv net ctx fd capacity)
      (fun reply t => Sound net ready history ⟨reply.ctx,held⟩ t.device ∧
        ∀ slot,socketSlot ctx fd=some slot → ∃ slot',socketSlot reply.ctx fd=some slot' ∧
          owned slot'=owned slot) D s := by
  unfold clSocketRecv
  cases hslot : socketSlot ctx fd with
  | none => exact ⟨⟨h.ready,h.books,h.room⟩,fun slot hsome => by cases hsome⟩
  | some slot =>
    have hused := (socketSlot_some hslot).2.2
    have stored : ∀ {slot' error},slot'.used=true → owned slot'=owned slot →
        ∀ slot'',some slot=some slot'' → ∃ slot₁,
          socketSlot ⟨ctx.fds.set (fd.toNat-1) slot',error⟩ fd=some slot₁ ∧
            owned slot₁=owned slot'' := by
      rintro slot' error hused' hsame _ ⟨⟩
      exact ⟨slot',socketSlot_set hslot hused',hsame⟩
    dsimp only
    split
    · exact ⟨h.keep hslot rfl,stored hused rfl⟩
    · refine wp_seq (wp_clNetRecv hM h.ready _ _) fun received t ht => ?_
      have hs := h.move ht
      cases received with
      | error code => exact ⟨hs.keep hslot rfl,stored hused rfl⟩
      | ok data =>
        dsimp only
        split
        · exact ⟨hs.keep hslot rfl,stored hused rfl⟩
        · exact ⟨hs.keep hslot rfl,stored hused rfl⟩

theorem wp_clSocketRecvfrom (capacity : UInt32) (place : Option AddrPlace) :
    wp (clSocketRecvfrom net ctx fd capacity place) (Keeping net ready history held) D s := by
  unfold clSocketRecvfrom
  cases hslot : socketSlot ctx fd with
  | none => exact ⟨h.ready,h.books,h.room⟩
  | some slot =>
    dsimp only
    split
    · refine wp_withUdpHandle hM h hslot place fun ctx' slot' t ht hslot' => ?_
      refine wp_seq (wp_clNetRecvfrom hM ht.ready _ _) fun received u hu => ?_
      exact (ht.move hu).finishDatagram hslot' capacity place received
    · refine wp_seq (wp_clSocketRecv hM h capacity) ?_
      rintro reply t ⟨ht,hstored⟩
      obtain ⟨slot',hslot',hsame⟩ := hstored slot hslot
      split
      · exact ht
      split
      · exact ht.keep hslot' hsame.symm
      · exact ht

theorem wp_clSocketPoll : wp (clSocketPoll net ctx fd) (Keeping net ready history held) D s := by
  unfold clSocketPoll
  cases hslot : socketSlot ctx fd with
  | none => exact ⟨h.ready,h.books,h.room⟩
  | some slot =>
    dsimp only
    split
    · exact h.keep hslot rfl
    · refine wp_seq (wp_clNetPoll hM h.ready _) fun polled t ht => ?_
      cases polled with
      | error code => exact (h.move ht).keep hslot rfl
      | ok flags => exact (h.move ht).keep hslot rfl

/-- A close releases the handle of the descriptor, which is then free. -/
theorem wp_clSocketClose : wp (clSocketClose net ctx fd) (Keeping net ready history held) D s := by
  unfold clSocketClose
  cases hslot : socketSlot ctx fd with
  | none => exact ⟨h.ready,h.books,h.room⟩
  | some slot =>
    obtain ⟨hi,hget,hused⟩ := socketSlot_some hslot
    dsimp only
    by_cases hzero : slot.handle=0
    · rw [if_neg (not_not.mpr hzero)]
      refine h.keep hslot ?_
      rw [owned_zero hzero]
      rfl
    · rw [if_pos hzero]
      have howned : owned ctx.fds[fd.toNat-1]=some slot.handle := by
        rw [hget]
        exact owned_used hused hzero
      have hlive : slot.handle∈live (history s.device) :=
        (h.books.owners.1 _).mpr (.inl ⟨_,List.getElem_mem hi,howned⟩)
      have hroom : 12≤ net.scratchSize := by
        by_contra hsmall
        rw [h.room (Nat.not_le.mp hsmall)] at hlive
        cases hlive
      refine wp_seq (wp_clNetClose hM h.ready hzero hroom) ?_
      rintro closed t ⟨ht,hnow⟩
      have hbooks : ∀ error,Sound net ready history
          ⟨⟨ctx.fds.set (fd.toNat-1) clearedFd,error⟩,held⟩ t.device := by
        refine fun error => ⟨ht,?_,fun hsmall => by omega⟩
        rw [hnow]
        exact h.books.lose hi howned rfl
      cases closed with
      | error code => exact hbooks _
      | ok _ => exact hbooks _

/-- Every call keeps the books. -/
theorem wp_socketCall (call : SocketCall) :
    wp (socketCall net ctx call) (Keeping net ready history held) D s := by
  cases call with
  | socket domain type protocol => exact h.clSocketSocket domain type protocol
  | connect fd addr addrLen => exact wp_clSocketConnect hM h addr addrLen
  | bind fd addr addrLen => exact wp_clSocketBind hM h addr addrLen
  | listen fd backlog => exact wp_clSocketListen hM h backlog
  | accept fd place => exact wp_clSocketAccept hM h place
  | send fd data => exact wp_clSocketSend hM h data
  | sendto fd data addr addrLen => exact wp_clSocketSendto hM h data addr addrLen
  | recv fd capacity => exact wp_post (wp_clSocketRecv hM h capacity) (fun _ _ h => h.1)
  | recvfrom fd capacity place => exact wp_clSocketRecvfrom hM h capacity place
  | poll fd => exact wp_clSocketPoll hM h
  | close fd => exact wp_clSocketClose hM h
  | openTcpHostWait host port attempts => exact h

end Books

/-- What a call does to the books, and to the handles that were returned. -/
theorem wp_perform (hM : Manages net.transport ready history) {caller : Caller}
    (h : Sound net ready history caller s.device) (call : SocketCall) :
    wp (perform net caller call)
      (fun done t => Sound net ready history done.2 t.device ∧
        done.2.held=caller.held++(returned done.1).toList) D s := by
  unfold perform
  split
  next host port attempts =>
    refine wp_seq (wp_clNetOpenTcpHostWait hM h.ready host port attempts) ?_
    rintro result t (ht | ⟨⟨code,rfl⟩,ht,hroom,handle,hfresh,hnow⟩)
    · cases result with
      | error code => exact ⟨h.move ht,(List.append_nil _).symm⟩
      | ok handle =>
        refine ⟨⟨ht.ready,?_,fun hsmall => ?_⟩,rfl⟩
        · rw [ht.now]
          exact h.books.hold ht.fresh
        · have hroom := ht.room
          omega
    · refine ⟨⟨ht,?_,fun hsmall => by omega⟩,(List.append_nil _).symm⟩
      rw [hnow]
      exact h.books.pass hfresh
  · refine wp_seq (wp_socketCall hM h call) ?_
    intro reply t ht
    exact ⟨ht,(List.append_nil _).symm⟩

theorem wp_performAll (hM : Manages net.transport ready history) {caller : Caller}
    (h : Sound net ready history caller s.device) (calls : List SocketCall) :
    wp (performAll net caller calls)
      (fun done t => Sound net ready history done.2 t.device ∧
        done.2.held=caller.held++done.1.filterMap returned) (fun _ => False) s := by
  induction calls generalizing caller s with
  | nil => exact ⟨h,(List.append_nil _).symm⟩
  | cons call calls ih =>
    unfold performAll
    refine wp_seq (wp_perform hM h call) ?_
    rintro first t ⟨ht,hfirst⟩
    refine wp_seq (ih ht) ?_
    rintro rest u ⟨hu,hrest⟩
    refine ⟨hu,?_⟩
    have hsplit : (first.1::rest.1).filterMap returned=
        (returned first.1).toList++rest.1.filterMap returned := by
      cases hreturned : returned first.1 with
      | none => exact List.filterMap_cons_none hreturned
      | some handle => exact List.filterMap_cons_some hreturned
    rw [hsplit,← List.append_assoc,← hfirst]
    exact hrest

/-- The descriptors that `cl_socket_init` leaves own nothing. -/
theorem owned_clSocketInit (fdCount : ℕ) : (clSocketInit fdCount).fds.filterMap owned=[] := by
  refine List.filterMap_eq_nil_iff.mpr fun slot hslot => ?_
  rw [List.eq_of_mem_replicate hslot]
  rfl

/-- After every sequence of calls each open handle is owned by exactly one descriptor in
use or was returned by `cl_net_open_tcp_host_wait`, and nothing else is owned. Only open
handles were ever closed. -/
theorem handles_owned (hM : Manages net.transport ready history) (hready : ready s.device)
    (hstart : history s.device=[]) (fdCount : ℕ) (calls : List SocketCall) :
    ∃ results caller t,performAll net ⟨clSocketInit fdCount,[]⟩ calls s=
        (some (results,caller),t) ∧
      caller.held=results.filterMap returned ∧ Lawful (history t.device) ∧
      (∀ handle,handle∈live (history t.device) ↔
        (∃ slot∈caller.ctx.fds,owned slot=some handle) ∨ handle∈caller.held) ∧
      (∀ (i j : ℕ) (slot slot' : SocketFd) (handle : UInt16),caller.ctx.fds[i]?=some slot →
        caller.ctx.fds[j]?=some slot' → owned slot=some handle → owned slot'=some handle → i=j) ∧
      (∀ slot∈caller.ctx.fds,∀ handle,owned slot=some handle → handle∉caller.held) ∧
      caller.held.Nodup := by
  have hbooks : Sound net ready history ⟨clSocketInit fdCount,[]⟩ s.device := by
    refine ⟨hready,?_,fun _ => by rw [hstart]; rfl⟩
    rw [hstart]
    exact ⟨by rw [owned_clSocketInit]; exact .refl _,trivial⟩
  obtain ⟨⟨results,caller⟩,t,hrun,hend,hheld⟩ := wp_total (wp_performAll hM hbooks calls)
  exact ⟨results,caller,t,hrun,hheld,hend.books.lawful,hend.books.owners⟩

end Calls

section Server

/-- A handle that is not open. -/
def freeHandle (events : History) : Option UInt16 :=
  [1,2,3,4].find? fun handle => handle∉live events

/-- Answer with a handle and more, if there is one. -/
def serveHandle (more : List UInt8) (events : History) : Reply×History :=
  match freeHandle events with
  | none => (.ack clpStatusBadPacket,events)
  | some handle =>
    (.response clpStatusOk 0 0 (le32 handle.toUInt32++more),.opened handle::events)

/-- A server with four handles, whose connections are never established. -/
def serveNet (header : ClpHeader) (payload : List UInt8) (events : History) : Reply×History :=
  if header.opcode=clpNetOpen ∨ header.opcode=clpNetBind then serveHandle [] events
  else if header.opcode=clpNetAccept then serveHandle (le32 0x7f000001++le32 80) events
  else if header.opcode=clpNetClose then
    (.ack clpStatusOk,.closed (wordAt payload 0).toUInt16::events)
  else if header.opcode=clpNetPoll then (.response clpStatusOk 0 0 (le32 0),events)
  else (.ack clpStatusOk,events)

/-- A handle that is free is neither open nor zero. -/
theorem freeHandle_some {events : History} {handle : UInt16} (h : freeHandle events=some handle) :
    handle≠0 ∧ handle∉live events := by
  refine ⟨?_,by simpa using List.find?_some h⟩
  have hmem := List.mem_of_find?_eq_some h
  rintro rfl
  revert hmem
  decide

/-- The answer with a handle. -/
theorem serveHandle_opens (more : List UInt8) (hmore : more.length≤8) (events : History) :
    (serveHandle more events).1.payload.length≤ clpFrameMaxPayloadBytes ∧
      ((serveHandle more events).1.status≠clpStatusOk ∧ (serveHandle more events).2=events ∨
        OpensOne Responder.store (4+more.length) ⟨[],[],events⟩ (serveHandle more events).1
          ⟨[],[],(serveHandle more events).2⟩) := by
  have hmax : clpFrameMaxPayloadBytes=32768 := rfl
  unfold serveHandle
  cases hfree : freeHandle events with
  | none => exact ⟨Nat.zero_le _,.inl ⟨(by decide : clpStatusBadPacket≠clpStatusOk),rfl⟩⟩
  | some handle =>
    obtain ⟨hne,hfresh⟩ := freeHandle_some hfree
    have hlength : (le32 handle.toUInt32++more).length=4+more.length := by
      rw [List.length_append,length_le32]
    refine ⟨?_,.inr ⟨rfl,hlength,handle,loadLe32_stored _ _,hne,hfresh,rfl⟩⟩
    change (le32 handle.toUInt32++more).length≤ clpFrameMaxPayloadBytes
    omega

/-- The server is at rest. -/
def AtRest (d : Responder History) : Prop := d.received=[] ∧ d.pending=[]

/-- It manages handles. -/
theorem serveNet_manages : Manages (respond serveNet) AtRest Responder.store := by
  have hmax : clpFrameMaxPayloadBytes=32768 := rfl
  refine ⟨?_,?_,?_,?_,?_⟩
  · rintro ⟨_,_,events⟩ ⟨rfl,rfl⟩ opcode hopcode payload hpayload
    refine respond_answers serveNet (by omega) fun seq => ?_
    have hserved : serveNet (commandHeader clpChNet opcode (UInt32.ofNat payload.length) seq)
        payload events=serveHandle [] events := if_pos hopcode
    rw [hserved]
    obtain ⟨hlength,hopens⟩ := serveHandle_opens [] (Nat.zero_le _) events
    exact ⟨hlength,⟨rfl,rfl⟩,hopens⟩
  · rintro ⟨_,_,events⟩ ⟨rfl,rfl⟩ payload hpayload
    refine respond_answers serveNet (by omega) fun seq => ?_
    have hserved : serveNet (commandHeader clpChNet clpNetAccept (UInt32.ofNat payload.length)
        seq) payload events=serveHandle (le32 0x7f000001++le32 80) events := rfl
    rw [hserved]
    obtain ⟨hlength,hopens⟩ :=
      serveHandle_opens (le32 0x7f000001++le32 80) (Nat.le_refl _) events
    refine ⟨hlength,⟨rfl,rfl⟩,?_⟩
    rcases hopens with ⟨hstatus,hsame⟩ | hone
    · exact .inl ⟨.inl hstatus,hsame⟩
    · exact .inr hone
  · rintro ⟨_,_,events⟩ ⟨rfl,rfl⟩ handle
    refine respond_answers serveNet (by rw [length_le32]; omega) fun seq => ?_
    have hword : (wordAt (le32 handle.toUInt32) 0).toUInt16=handle := by
      have hload : wordAt (le32 handle.toUInt32) 0=handle.toUInt32 := by
        have hstored := loadLe32_stored handle.toUInt32 []
        rw [List.append_nil] at hstored
        exact hstored
      rw [hload,UInt16.toUInt16_toUInt32]
    have hserved : serveNet (commandHeader clpChNet clpNetClose
        (UInt32.ofNat (le32 handle.toUInt32).length) seq) (le32 handle.toUInt32) events=
        (.ack clpStatusOk,.closed (wordAt (le32 handle.toUInt32) 0).toUInt16::events) := rfl
    rw [hserved,hword]
    exact ⟨Nat.zero_le _,⟨rfl,rfl⟩,rfl,rfl⟩
  · rintro ⟨_,_,events⟩ ⟨rfl,rfl⟩ payload hpayload
    exact respond_answers serveNet (by omega) fun seq => ⟨Nat.zero_le _,⟨rfl,rfl⟩,rfl,rfl⟩
  · rintro ⟨_,_,events⟩ ⟨rfl,rfl⟩ opcode hopcode payload hpayload
    refine respond_answers serveNet hpayload fun seq => ?_
    have hfour : 4≤ clpFrameMaxPayloadBytes := by omega
    rcases hopcode with rfl | rfl | rfl | rfl | rfl | rfl
    all_goals first
      | exact ⟨Nat.zero_le _,⟨rfl,rfl⟩,rfl⟩
      | exact ⟨hfour,⟨rfl,rfl⟩,rfl⟩

/-- A client of it. -/
def netLink : Link (Responder History) := ⟨⟨[],[],[]⟩,⟨.idle,0,clpStatusOk,0⟩,[]⟩

/-- The client of the network. -/
def netPeer : Peer (Responder History) := ⟨respond serveNet,64,fun _ => 0⟩

/-- A listening socket accepts a connection without room for the address and one with it,
a datagram opens a socket, a connection to a host times out, and the first connection is
closed. -/
def sampleCalls : List SocketCall :=
  [.socket 2 1 0,.bind 1 (some ⟨2,0x5000,0⟩) 16,.listen 1 1,
    .accept 1 (some ⟨⟨0,0,0⟩,4⟩),.accept 1 none,.socket 2 2 0,
    .sendto 3 [1] (some ⟨2,0x5000,0x0100007f⟩) 16,
    .openTcpHostWait ⟨[49,46,49,46,49,46,49],by decide⟩ 80 2,.close 2]

theorem handles_owned_sample :
    (performAll netPeer ⟨clSocketInit 3,[]⟩ sampleCalls netLink).2.device.store=
      [.closed 2,.closed 4,.opened 4,.opened 3,.opened 2,.closed 2,.opened 2,.opened 1] ∧
    ∃ results caller t,performAll netPeer ⟨clSocketInit 3,[]⟩ sampleCalls netLink=
        (some (results,caller),t) ∧
      caller.held=results.filterMap returned ∧ Lawful t.device.store ∧
      (∀ handle,handle∈live t.device.store ↔
        (∃ slot∈caller.ctx.fds,owned slot=some handle) ∨ handle∈caller.held) ∧
      (∀ (i j : ℕ) (slot slot' : SocketFd) (handle : UInt16),caller.ctx.fds[i]?=some slot →
        caller.ctx.fds[j]?=some slot' → owned slot=some handle → owned slot'=some handle → i=j) ∧
      (∀ slot∈caller.ctx.fds,∀ handle,owned slot=some handle → handle∉caller.held) ∧
      caller.held.Nodup :=
  ⟨by decide +kernel,handles_owned serveNet_manages ⟨rfl,rfl⟩ rfl 3 sampleCalls⟩

end Server

end ChisLink.SocketOwnership
