import ChisLink.NetClient

/-!
# The socket layer

Descriptors over the handles of the network client. Results are counts, descriptors or
negative codes. The context and its array are there; a null address is `none`, and the
place for an address is there only with its length. An address is in network order.
-/

namespace ChisLink.SocketLayer

open DriverPrograms WireProtocol StorageClient ClientExchange NetClient

/-- The address family of IPv4. -/
def clAfInet : UInt16 := 2

/-- Type of a stream socket. -/
def clSockStream : ℤ := 1

/-- Type of a datagram socket. -/
def clSockDgram : ℤ := 2

/-- Error: not a descriptor. -/
def clSocketEbadf : ℤ := 9
/-- Error: nothing there yet. -/
def clSocketEagain : ℤ := 11
/-- Error: no free descriptor. -/
def clSocketEnomem : ℤ := 12
/-- Error: an argument is not valid. -/
def clSocketEinval : ℤ := 22
/-- Error: the protocol is not supported. -/
def clSocketEprotonosupport : ℤ := 93
/-- Error: the family is not supported. -/
def clSocketEafnosupport : ℤ := 97
/-- Error: there is a connection. -/
def clSocketEisconn : ℤ := 106
/-- Error: there is no connection. -/
def clSocketEnotconn : ℤ := 107

/-- The struct `cl_sockaddr_in_t`, as far as it is read. -/
structure Sockaddr where
  /-- The family. -/
  family : UInt16
  /-- The port in network order. -/
  port : UInt16
  /-- The address in network order. -/
  addr : UInt32
deriving DecidableEq

/-- Size of `cl_sockaddr_in_t`. -/
def sockaddrInBytes : UInt32 := 16

/-- Where a caller wants an address stored, with its `addr_len`. -/
structure AddrPlace where
  /-- The address. -/
  addr : Sockaddr
  /-- Its length. -/
  addrLen : UInt32
deriving DecidableEq

/-- The struct `cl_socket_fd_t`. -/
structure SocketFd where
  /-- Address of the peer. -/
  remote : NetAddr
  /-- The handle, zero if there is none. -/
  handle : UInt16
  /-- The descriptor is in use. -/
  used : Bool
  /-- Its protocol. -/
  proto : NetProto
  /-- The flag is only stored. -/
  nonblocking : Bool
  /-- The address of the peer is valid. -/
  hasRemote : Bool
  /-- It listens. -/
  listening : Bool
  /-- Flags of the last poll. -/
  flags : UInt32
  /-- Its last error. -/
  lastError : ℤ
deriving DecidableEq

/-- The struct `cl_socket_context_t` without the results of `cl_getaddrinfo`. -/
structure SocketContext where
  /-- The descriptors; the first one has the number one. -/
  fds : List SocketFd
  /-- The last error. -/
  lastError : ℤ

/-- What a call returns and leaves behind. -/
structure SocketReply where
  /-- The result. -/
  ret : ℤ
  /-- The context. -/
  ctx : SocketContext
  /-- The bytes received. -/
  data : List UInt8 := []
  /-- The place of the address. -/
  place : Option AddrPlace := none

/-- A descriptor whose bytes are zero. -/
def clearedFd : SocketFd where
  remote := ⟨0,0⟩
  handle := 0
  used := false
  proto := .other
  nonblocking := false
  hasRemote := false
  listening := false
  flags := 0
  lastError := 0

/-- The function `cl_socket_init`. -/
def clSocketInit (fdCount : ℕ) : SocketContext := ⟨List.replicate fdCount clearedFd,0⟩

/-- The function `swap16`. -/
def swap16 (value : UInt16) : UInt16 := (value <<< 8) ||| (value >>> 8)

/-- The function `swap32`. -/
def swap32 (value : UInt32) : UInt32 :=
  ((value &&& 0x000000ff) <<< 24) ||| ((value &&& 0x0000ff00) <<< 8) |||
    ((value &&& 0x00ff0000) >>> 8) ||| ((value &&& 0xff000000) >>> 24)

/-- The function `socket_fail`. -/
def socketFail (ctx : SocketContext) (error : ℤ) : SocketReply :=
  { ret := -error, ctx := { ctx with lastError := error } }

/-- Store a descriptor. -/
def putSlot (ctx : SocketContext) (fd : ℤ) (slot : SocketFd) : SocketContext :=
  { ctx with fds := ctx.fds.set (fd.toNat-1) slot }

/-- The function `socket_fail_fd`. -/
def socketFailFd (ctx : SocketContext) (fd : ℤ) (slot : SocketFd) (error : ℤ) : SocketReply :=
  socketFail (putSlot ctx fd { slot with lastError := error }) error

/-- The end of a call whose command has failed. -/
def netFail (ctx : SocketContext) (fd : ℤ) (slot : SocketFd) (code : ℤ) : SocketReply :=
  { ret := code
    ctx := { putSlot ctx fd { slot with lastError := -code } with lastError := -code } }

/-- The end of a call that succeeds. -/
def socketDone (ctx : SocketContext) (fd : ℤ) (slot : SocketFd) (ret : ℤ) : SocketReply :=
  { ret := ret, ctx := { putSlot ctx fd { slot with lastError := 0 } with lastError := 0 } }

/-- The function `socket_slot`. -/
def socketSlot (ctx : SocketContext) (fd : ℤ) : Option SocketFd :=
  if fd≤0 ∨ ctx.fds.length<fd.toNat then none
  else ctx.fds[fd.toNat-1]?.filter fun slot => slot.used

/-- The function `socket_alloc_fd`: the index of the descriptor. -/
def socketAllocFd (ctx : SocketContext) : Option ℕ :=
  ctx.fds.findIdx? fun slot => !slot.used

/-- The function `sockaddr_to_net_addr_checked`. -/
def sockaddrToNetAddrChecked (addr : Option Sockaddr) (addrLen : UInt32)
    (allowZeroIp allowZeroPort : Bool) : Except ℤ NetAddr :=
  match addr with
  | none => .error (-clSocketEinval)
  | some addr =>
    if addrLen<sockaddrInBytes then .error (-clSocketEinval)
    else if addr.family≠clAfInet then .error (-clSocketEafnosupport)
    else if (allowZeroIp=false ∧ swap32 addr.addr=0) ∨
        (allowZeroPort=false ∧ swap16 addr.port=0) then .error (-clSocketEinval)
    else .ok ⟨swap32 addr.addr,swap16 addr.port⟩

/-- The function `net_addr_to_sockaddr`: the code and the place afterwards. -/
def netAddrToSockaddr (remote : Option NetAddr) (place : Option AddrPlace) :
    ℤ×Option AddrPlace :=
  match remote,place with
  | some remote,some place =>
    if place.addrLen<sockaddrInBytes then
      (-clSocketEinval,some { place with addrLen := sockaddrInBytes })
    else (0,some ⟨⟨clAfInet,swap16 remote.port,swap32 remote.ipv4⟩,sockaddrInBytes⟩)
  | _,_ => (0,place)

/-- The function `cl_socket_socket`. -/
def clSocketSocket (ctx : SocketContext) (domain type protocol : ℤ) : SocketReply :=
  if domain≠clAfInet.toNat then socketFail ctx clSocketEafnosupport
  else if protocol≠0 then socketFail ctx clSocketEprotonosupport
  else if type≠clSockStream ∧ type≠clSockDgram then socketFail ctx clSocketEprotonosupport
  else
    let proto : NetProto := if type=clSockStream then .tcp else .udp
    match socketAllocFd ctx with
    | none => socketFail ctx clSocketEnomem
    | some i =>
      { ret := i+1
        ctx :=
          { fds := ctx.fds.set i { clearedFd with used := true, proto := proto }
            lastError := 0 } }

variable {δ : Type}

/-- The function `cl_socket_connect`. -/
def clSocketConnect (net : Peer δ) (ctx : SocketContext) (fd : ℤ) (addr : Option Sockaddr)
    (addrLen : UInt32) : Prog (Link δ) SocketReply :=
  match socketSlot ctx fd with
  | none => pure (socketFail ctx clSocketEbadf)
  | some slot =>
    if addr=none ∨ addrLen<sockaddrInBytes then pure (socketFailFd ctx fd slot clSocketEinval)
    else if addr.any fun addr => addr.family≠clAfInet then
      pure (socketFailFd ctx fd slot clSocketEafnosupport)
    else if slot.handle≠0 then pure (socketFailFd ctx fd slot clSocketEisconn)
    else
      match sockaddrToNetAddrChecked addr addrLen false false with
      | .error code => pure (socketFailFd ctx fd slot (-code))
      | .ok remote => do
        let opened ← clNetOpen net slot.proto remote
        match opened with
        | .error code => pure (netFail ctx fd slot code)
        | .ok handle =>
          pure (socketDone ctx fd
            { slot with remote := remote, handle := handle, hasRemote := true, flags := 0 } 0)

/-- The function `cl_socket_bind`. -/
def clSocketBind (net : Peer δ) (ctx : SocketContext) (fd : ℤ) (addr : Option Sockaddr)
    (addrLen : UInt32) : Prog (Link δ) SocketReply :=
  match socketSlot ctx fd with
  | none => pure (socketFail ctx clSocketEbadf)
  | some slot =>
    if slot.handle≠0 then pure (socketFailFd ctx fd slot clSocketEinval)
    else
      match sockaddrToNetAddrChecked addr addrLen true true with
      | .error code => pure (socketFailFd ctx fd slot (-code))
      | .ok bound => do
        let opened ← clNetBind net slot.proto bound
        match opened with
        | .error code => pure (netFail ctx fd slot code)
        | .ok handle =>
          pure (socketDone ctx fd
            { slot with
              remote := bound
              handle := handle
              hasRemote := false
              listening := false
              flags := 0 } 0)

/-- The function `cl_socket_listen`. -/
def clSocketListen (net : Peer δ) (ctx : SocketContext) (fd backlog : ℤ) :
    Prog (Link δ) SocketReply :=
  match socketSlot ctx fd with
  | none => pure (socketFail ctx clSocketEbadf)
  | some slot =>
    if slot.proto≠.tcp ∨ slot.handle=0 ∨ backlog<0 then
      pure (socketFailFd ctx fd slot clSocketEinval)
    else do
      let listening ← clNetListen net slot.handle (UInt32.ofNat backlog.toNat)
      match listening with
      | .error code => pure (netFail ctx fd slot code)
      | .ok _ =>
        pure (socketDone ctx fd
          { slot with listening := true, flags := clpNetSocketFlagConnected } 0)

/-- A connection that was accepted, with the descriptor chosen for it. -/
def finishSocketAccept (net : Peer δ) (ctx : SocketContext) (fd : ℤ) (slot : SocketFd)
    (acceptedFd : ℕ) (handle : UInt16) (remote : NetAddr) (place : Option AddrPlace) :
    Prog (Link δ) SocketReply :=
  let converted := netAddrToSockaddr (some remote) place
  if converted.1<0 then do
    let _ ← clNetClose net handle
    pure { socketFailFd ctx fd slot (-converted.1) with place := converted.2 }
  else
    let accepted : SocketFd :=
      { clearedFd with
        used := true
        proto := .tcp
        remote := remote
        handle := handle
        hasRemote := true
        flags := clpNetSocketFlagConnected }
    let ctx := { ctx with fds := ctx.fds.set acceptedFd accepted }
    pure { socketDone ctx fd slot (acceptedFd+1) with place := converted.2 }

/-- The function `cl_socket_accept`. -/
def clSocketAccept (net : Peer δ) (ctx : SocketContext) (fd : ℤ) (place : Option AddrPlace) :
    Prog (Link δ) SocketReply :=
  match socketSlot ctx fd with
  | none => pure { socketFail ctx clSocketEbadf with place := place }
  | some slot =>
    if slot.proto≠.tcp ∨ slot.handle=0 ∨ slot.listening=false then
      pure { socketFailFd ctx fd slot clSocketEinval with place := place }
    else
      match socketAllocFd ctx with
      | none => pure { socketFailFd ctx fd slot clSocketEnomem with place := place }
      | some acceptedFd => do
        let accepted ← clNetAccept net slot.handle
        match accepted with
        | .error code => pure { netFail ctx fd slot code with place := place }
        | .ok none => pure { socketFailFd ctx fd slot clSocketEagain with place := place }
        | .ok (some (handle,remote)) =>
          finishSocketAccept net ctx fd slot acceptedFd handle remote place

/-- The end of a call that sends: a count, or nothing was sent. -/
def finishSend (ctx : SocketContext) (fd : ℤ) (slot : SocketFd) (data : List UInt8)
    (sent : Except ℤ ℕ) : SocketReply :=
  match sent with
  | .error code => netFail ctx fd slot code
  | .ok written =>
    if data≠[] ∧ written=0 then socketFailFd ctx fd slot clSocketEagain
    else socketDone ctx fd slot written

/-- The function `cl_socket_send`. -/
def clSocketSend (net : Peer δ) (ctx : SocketContext) (fd : ℤ) (data : List UInt8) :
    Prog (Link δ) SocketReply :=
  match socketSlot ctx fd with
  | none => pure (socketFail ctx clSocketEbadf)
  | some slot =>
    if slot.handle=0 then pure (socketFailFd ctx fd slot clSocketEnotconn)
    else do
      let sent ← clNetSend net slot.handle data
      pure (finishSend ctx fd slot data sent)

/-- What `cl_socket_sendto` and `cl_socket_recvfrom` do before a datagram: a descriptor
without a handle gets one. -/
def withUdpHandle (net : Peer δ) (ctx : SocketContext) (fd : ℤ) (slot : SocketFd)
    (place : Option AddrPlace) (next : SocketContext → SocketFd → Prog (Link δ) SocketReply) :
    Prog (Link δ) SocketReply :=
  if slot.handle=0 then do
    let opened ← clNetOpenUdp net
    match opened with
    | .error code => pure { netFail ctx fd slot code with place := place }
    | .ok handle =>
      next (putSlot ctx fd { slot with handle := handle }) { slot with handle := handle }
  else next ctx slot

/-- The function `cl_socket_sendto`. -/
def clSocketSendto (net : Peer δ) (ctx : SocketContext) (fd : ℤ) (data : List UInt8)
    (addr : Option Sockaddr) (addrLen : UInt32) : Prog (Link δ) SocketReply :=
  match socketSlot ctx fd with
  | none => pure (socketFail ctx clSocketEbadf)
  | some slot =>
    if addr=none then clSocketSend net ctx fd data
    else if slot.proto≠.udp then pure (socketFailFd ctx fd slot clSocketEisconn)
    else
      match sockaddrToNetAddrChecked addr addrLen false false with
      | .error code => pure (socketFailFd ctx fd slot (-code))
      | .ok remote =>
        withUdpHandle net ctx fd slot none fun ctx slot => do
          let sent ← clNetSendto net slot.handle remote data
          pure (finishSend ctx fd slot data sent)

/-- The function `cl_socket_recv`. -/
def clSocketRecv (net : Peer δ) (ctx : SocketContext) (fd : ℤ) (capacity : UInt32) :
    Prog (Link δ) SocketReply :=
  match socketSlot ctx fd with
  | none => pure (socketFail ctx clSocketEbadf)
  | some slot =>
    if slot.handle=0 then pure (socketFailFd ctx fd slot clSocketEnotconn)
    else do
      let received ← clNetRecv net slot.handle capacity
      match received with
      | .error code => pure (netFail ctx fd slot code)
      | .ok data =>
        if capacity≠0 ∧ data=[] then pure (socketFailFd ctx fd slot clSocketEagain)
        else pure { socketDone ctx fd slot data.length with data := data }

/-- A datagram with data leaves its sender in the descriptor. -/
def learnRemote (slot : SocketFd) : Option (NetAddr×List UInt8) → SocketFd
  | some (remote,_::_) => { slot with remote := remote, hasRemote := true }
  | _ => slot

/-- A datagram that was received, or none. -/
def finishDatagram (ctx : SocketContext) (fd : ℤ) (slot : SocketFd) (capacity : UInt32)
    (place : Option AddrPlace) (received : Except ℤ (Option (NetAddr×List UInt8))) :
    SocketReply :=
  match received with
  | .error code => { netFail ctx fd slot code with place := place }
  | .ok datagram =>
    let data := (datagram.map Prod.snd).getD []
    if capacity≠0 ∧ data=[] then
      { socketFailFd ctx fd slot clSocketEagain with place := place }
    else
      let slot := learnRemote slot datagram
      let converted := netAddrToSockaddr (if slot.hasRemote then some slot.remote else none) place
      if converted.1<0 then
        { socketFailFd ctx fd slot (-converted.1) with data := data, place := converted.2 }
      else { socketDone ctx fd slot data.length with data := data, place := converted.2 }

/-- The function `cl_socket_recvfrom`. -/
def clSocketRecvfrom (net : Peer δ) (ctx : SocketContext) (fd : ℤ) (capacity : UInt32)
    (place : Option AddrPlace) : Prog (Link δ) SocketReply :=
  match socketSlot ctx fd with
  | none => pure { socketFail ctx clSocketEbadf with place := place }
  | some slot =>
    if slot.proto=.udp then
      withUdpHandle net ctx fd slot place fun ctx slot => do
        let received ← clNetRecvfrom net slot.handle capacity
        pure (finishDatagram ctx fd slot capacity place received)
    else do
      let reply ← clSocketRecv net ctx fd capacity
      if reply.ret<0 then pure { reply with place := place }
      else
        -- The descriptor is as before up to its last error, which is stored again.
        let converted := netAddrToSockaddr (some slot.remote) place
        if converted.1<0 then
          pure
            { socketFailFd reply.ctx fd slot (-converted.1) with
              data := reply.data
              place := converted.2 }
        else pure { reply with place := converted.2 }

/-- The function `cl_socket_poll`: the flags are those of the descriptor. -/
def clSocketPoll (net : Peer δ) (ctx : SocketContext) (fd : ℤ) : Prog (Link δ) SocketReply :=
  match socketSlot ctx fd with
  | none => pure (socketFail ctx clSocketEbadf)
  | some slot =>
    if slot.handle=0 then pure (socketFailFd ctx fd slot clSocketEnotconn)
    else do
      let polled ← clNetPoll net slot.handle
      match polled with
      | .error code => pure (netFail ctx fd slot code)
      | .ok flags => pure (socketDone ctx fd { slot with flags := flags } 0)

/-- The function `cl_socket_close`. -/
def clSocketClose (net : Peer δ) (ctx : SocketContext) (fd : ℤ) : Prog (Link δ) SocketReply :=
  match socketSlot ctx fd with
  | none => pure (socketFail ctx clSocketEbadf)
  | some slot => do
    let closed ← if slot.handle≠0 then clNetClose net slot.handle else pure (.ok ())
    let ctx := putSlot ctx fd clearedFd
    match closed with
    | .error code => pure { ret := code, ctx := { ctx with lastError := -code } }
    | .ok _ => pure { ret := 0, ctx := { ctx with lastError := 0 } }

end ChisLink.SocketLayer
